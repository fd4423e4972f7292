import ContractAbi.Proofs.Assembly.Published
import ContractAbi.Proofs.Assembly.Recursion
import ContractAbi.Proofs.Interface.Merge

/-!
# Where entries come from

Each contract that is assembled contributes entries of its own: those that are published for it, as
they are, or those that its code tells. The interface that comes out is merged from these
contributions, however the contracts delegate to each other.

* `Contributes`: what a contract contributes;
* `Composed`: interfaces that are merged from contributions;
* `composed_assembleAt`: so is every interface that an assembly answers.
-/

namespace ContractAbi.Assembler

open Resolver

variable {services : Services} {options : Options} {address : String} {chain : Value}
  {own : List Entry}

/-! ## The contribution of one contract -/

/-- Entries that a contract brings into an interface: those that are published for it as they are,
or those that its code tells, with the outputs that are known of them. -/
inductive Contributes (services : Services) (options : Options) (chain : Value)
    (address : String) : List Entry → Prop
  | published {items} (h : Accepts services address chain items) :
      Contributes services options chain address items
  | code {code m told} (hnone : ∀ own, ¬Accepts services address chain own)
      (hcode : (getCode services.reader address chain).result = .ok code)
      (htold : (fromCode services options address code m).1.result = .ok told) :
      Contributes services options chain address (Entry.backfill told)

/-- Nothing but its entries is contributed for an interface that can be used. -/
theorem Contributes.iff_of_accepts {published : List Entry}
    (h : Accepts services address chain published) :
    Contributes services options chain address own ↔ own = published := by
  constructor
  · intro hown
    cases hown with
    | published h' => exact h'.unique h
    | code hnone _ _ => exact absurd h (hnone published)
  · rintro rfl
    exact .published h

theorem contributes_of_ownEntries {own : Own} {m m' : Memory}
    (h : (ownEntries services options address chain).Answers m own m') :
    Contributes services options chain address own.completed := by
  rcases ownEntries_answers h with
    ⟨items, haccepts, rfl, -⟩ | ⟨hnone, code, told, hcode, htold, rfl⟩
  · exact .published haccepts
  · exact .code hnone hcode htold.1

/-! ## Services whose questions are recorded -/

theorem accepts_observed :
    Accepts services.observed address chain own ↔ Accepts services address chain own := by
  unfold Accepts
  simp only [AbiLoader.result_loadVerified, Services.observed, List.map_map]
  exact Iff.rfl

theorem result_getCode_observed :
    (getCode services.observed.reader address chain).result =
      (getCode services.reader address chain).result := by
  unfold getCode
  simp only [Traced.result_bind, Traced.result_attempt]
  rfl

theorem verdict_observed (kind : LookupKind) (key : String) (sources : List SignatureSource) :
    verdict kind key (sources.map SignatureSource.observed) = verdict kind key sources := by
  induction sources with
  | nil => rfl
  | cons source rest ih =>
      have hoffered : offered? source.observed kind key = offered? source kind key := rfl
      rw [List.map_cons, verdict, verdict, hoffered, ih]

theorem tells_observed : tells services.observed.sources = tells services.sources := by
  funext m kind key
  unfold tells view
  rw [show services.observed.sources = services.sources.map SignatureSource.observed from rfl,
    verdict_observed]

theorem Contributes.of_observed (h : Contributes services.observed options chain address own) :
    Contributes services options chain address own := by
  cases h with
  | published h => exact .published (accepts_observed.1 h)
  | @code code m told hnone hcode htold =>
      rw [result_getCode_observed] at hcode
      rw [result_fromCode, tells_observed] at htold
      rw [← result_fromCode] at htold
      exact .code (fun own h => hnone own (accepts_observed.2 h)) hcode htold

/-! ## Interfaces that are put together -/

/-- Interfaces whose parts are contributions of contracts that are entered one after the other. To
merge the interfaces into others is to merge the parts. -/
structure Composed (services : Services) (options : Options) (chain : Value)
    (parts : List (String × List Entry)) (es : List Event) (interfaces : List (List Entry)) :
    Prop where
  contributes : ∀ p ∈ parts, Contributes services options chain p.1 p.2
  entered : (parts.map Prod.fst).Sublist ((entries es).map Prod.fst)
  merged : ∀ others, Entry.merge others interfaces = Entry.merge others (parts.map Prod.snd)

namespace Composed

variable {parts parts' : List (String × List Entry)} {es es' : List Event}
  {interfaces interfaces' : List (List Entry)}

theorem nil (es : List Event) : Composed services options chain [] es [] where
  contributes := by simp
  entered := List.nil_sublist _
  merged _ := rfl

theorem append (h : Composed services options chain parts es interfaces)
    (h' : Composed services options chain parts' es' interfaces') :
    Composed services options chain (parts ++ parts') (es ++ es') (interfaces ++ interfaces') where
  contributes p hp := (List.mem_append.1 hp).elim (h.contributes p) (h'.contributes p)
  entered := by
    rw [List.map_append, entries_append, List.map_append]
    exact h.entered.append h'.entered
  merged others := by
    rw [← Entry.merge_merge, h.merged, h'.merged, Entry.merge_merge, List.map_append]

/-- A contract is entered, and what its delegates have is merged into its own entries. -/
theorem cons {depth : Nat} (hes : entries es = [(address, depth)])
    (hown : Contributes services options chain address own)
    (h : Composed services options chain parts es' interfaces) :
    Composed services options chain ((address, own) :: parts) (es ++ es')
      [Entry.merge own interfaces] where
  contributes p hp := by
    rcases List.mem_cons.1 hp with rfl | hp
    · exact hown
    · exact h.contributes p hp
  entered := by
    rw [entries_append, hes]
    exact h.entered.cons_cons _
  merged others := by
    rw [Entry.merge_merge_right, ← Entry.merge_merge_left, h.merged, Entry.merge_merge_left]
    rfl

end Composed

/-! ## Assemblies -/

variable {assemble : String → Session Walk Reconstruction}

def Composes (services : Services) (options : Options) (chain : Value) (es : List Event)
    (interfaces : List (List Entry)) : Prop :=
  ∃ parts, Composed services options chain parts es interfaces

theorem Composes.append {es es' : List Event} {interfaces interfaces' : List (List Entry)}
    (h : Composes services options chain es interfaces)
    (h' : Composes services options chain es' interfaces') :
    Composes services options chain (es ++ es') (interfaces ++ interfaces') := by
  obtain ⟨parts, h⟩ := h
  obtain ⟨parts', h'⟩ := h'
  exact ⟨parts ++ parts', h.append h'⟩

theorem composes_nil (es : List Event) : Composes services options chain es [] :=
  ⟨[], .nil es⟩

theorem composes_delegate {a : String}
    (h : ∀ w, (assemble a).Yields (fun es r => Composes services options chain es [r.entries]) w)
    (w : Walk) :
    (delegate assemble a).Yields
      (fun es o => Composes services options chain es (o.toList.map Reconstruction.entries)) w := by
  have hattempt : (assemble a).attempt.Yields (fun es result => ∀ r, result = .ok r →
      Composes services options chain es [r.entries]) w := by
    intro result hresult r hr
    obtain rfl := Except.ok.inj hresult
    exact h w r hr
  unfold delegate
  apply Session.yields_bind_get
  split
  · intro o ho
    obtain rfl := Except.ok.inj ho
    exact composes_nil _
  · refine hattempt.bind fun es result hcomposed => ?_
    split
    · rename_i r
      refine Session.yields_pure ?_ _
      rw [List.append_nil]
      exact hcomposed r rfl
    · intro o ho
      obtain rfl := Except.ok.inj ho
      exact composes_nil _
    · exact fun o => nofun

theorem composes_delegates {as : List String}
    (h : ∀ a w, (assemble a).Yields (fun es r => Composes services options chain es [r.entries]) w)
    (w : Walk) :
    (delegates assemble as).Yields
      (fun es found =>
        Composes services options chain es (found.map Reconstruction.entries)) w := by
  induction as generalizing w with
  | nil =>
      unfold delegates
      refine Session.yields_pure ?_ w
      exact composes_nil []
  | cons a rest ih =>
      unfold delegates
      refine (composes_delegate (h a) w).bind fun es o hfirst => ?_
      refine (ih _).bind fun es' more hrest => Session.yields_pure ?_ _
      rw [List.append_nil, List.map_append]
      exact hfirst.append hrest

theorem composes_followDelegation [AddressLibrary] {followed : Services} {own : Own}
    (h : ∀ a w, (assemble a).Yields (fun es r => Composes services options chain es [r.entries]) w)
    (w : Walk) :
    (followDelegation followed options assemble address own).Yields
      (fun es p => Composes services options chain es (p.2.map Reconstruction.entries)) w := by
  have hquiet : ∀ {α : Type} (t : Traced α) (w : Walk),
      (Session.lift t).Yields (fun es _ => Composes services options chain es []) w :=
    fun _ _ _ _ => composes_nil _
  unfold followDelegation
  refine (hquiet _ w).bind fun es info hdetect => ?_
  refine (composes_delegates h _).bind fun es' implementation hfirst => ?_
  refine (hquiet _ _).bind fun es'' facets hfacets => ?_
  have hsofar : Composes services options chain (es ++ (es' ++ es''))
      (implementation.map Reconstruction.entries) := by
    simpa using hdetect.append (hfirst.append hfacets)
  split
  · refine Session.yields_pure ?_ _
    simpa using hsofar
  · refine (hquiet _ _).bind fun note _ hnote => ?_
    refine (composes_delegates h _).bind fun more others hrest => Session.yields_pure ?_ _
    simpa using (hsofar.append hnote).append hrest

theorem contributes_enter (depth : Nat) (w : Walk) :
    (enter services.observed options chain depth address).Yields
      (fun es own => entries es = [(address, depth)] ∧
        Contributes services options chain address own.completed) w := by
  intro own hown
  refine ⟨entries_enter services options chain depth address w, ?_⟩
  have hanswer : (ownEntries services.observed options address chain w.memory).1.result = .ok own :=
    hown
  exact (contributes_of_ownEntries ⟨hanswer, rfl⟩).of_observed

/-- The interface that an assembly answers is merged from the contributions of contracts that it has
entered, with that of the first contract in front. -/
theorem composed_assembleAt [AddressLibrary] (fuel depth : Nat) (w : Walk) :
    (assembleAt services.observed options chain fuel depth address).Yields
      (fun es r => ∃ own parts,
        Composed services options chain ((address, own) :: parts) es [r.entries] ∧
          r.entries = Entry.merge own (parts.map Prod.snd)) w := by
  induction fuel generalizing depth address w with
  | zero =>
      rw [assembleAt_eq_enter]
      refine (contributes_enter depth w).bind fun es own hown => Session.yields_pure ?_ _
      obtain ⟨hentered, hcontributes⟩ := hown
      exact ⟨_, [], .cons hentered hcontributes (.nil []), rfl⟩
  | succ fuel ih =>
      have hrest : ∀ a w, (assembleAt services.observed options chain fuel (depth + 1) a).Yields
          (fun es r => Composes services options chain es [r.entries]) w := by
        intro a w r hr
        obtain ⟨own, parts, hcomposed, -⟩ := ih (depth + 1) w r hr
        exact ⟨_, hcomposed⟩
      rw [assembleAt_eq_enter]
      refine (contributes_enter depth w).bind fun es own hown => ?_
      refine (composes_followDelegation hrest _).bind fun es' p hp => Session.yields_pure ?_ _
      obtain ⟨hentered, hcontributes⟩ := hown
      obtain ⟨parts, hparts⟩ := hp
      rw [List.append_nil]
      exact ⟨_, parts, .cons hentered hcontributes hparts, hparts.merged _⟩

end ContractAbi.Assembler
