import ContractAbi.Proofs.Assembly.Absence
import ContractAbi.Proofs.Assembly.Graph
import ContractAbi.Proofs.Assembly.MergeLaw
import ContractAbi.Proofs.Assembly.Recursion
import ContractAbi.Proofs.Session.Invariant

/-!
# What an assembly explores

An assembly walks through the graph of delegations depth first, down to the limit, and enters no
address twice. So it comes to all delegates of the addresses that it has entered above the limit.

* `related_ownEntries`: own entries do not hang on what is remembered;
* `visited_of_noContract`: an assembly that is skipped has entered one address only;
* `Explored`: the addresses that a walk has entered, and the keys that it has collected;
* `explored_assembleAt` and `covers_of_answers`: the walk of an assembly.
-/

namespace ContractAbi.Assembler

open Resolver

variable {services : Services} {options : Options} {chain : Value} {fuel depth limit : Nat}
  {address root : String} {w w' : Walk}

/-! ## What is remembered -/

/-- A memory from which the same is told as from the sources. -/
def IsFaithful (services : Services) (m : Memory) : Prop :=
  tells services.sources m = tells services.sources .empty

theorem keeps_ownEntries (address : String) :
    (ownEntries services options address chain).Keeps (tells services.sources) := by
  unfold ownEntries
  refine (Session.keeps_lift _ _).bind fun found => ?_
  cases found with
  | some entries => exact Session.keeps_pure _ _
  | none =>
      refine (Session.keeps_lift _ _).bind fun code => ?_
      exact tells_fromCode.bind fun _ => Session.keeps_pure _ _

def Walk.tells (services : Services) (w : Walk) :
    LookupKind → String → Except Fault (Option Signature) :=
  Resolver.tells services.sources w.memory

theorem keeps_delegate {assemble : String → Session Walk Reconstruction} {a : String}
    (h : (assemble a).Keeps (Walk.tells services)) :
    (delegate assemble a).Keeps (Walk.tells services) := by
  intro w
  unfold delegate
  rw [Session.run_bind_get]
  split
  · rfl
  · refine Session.Keeps.bind (x := (assemble a).attempt) h (fun result => ?_) w
    split
    · exact Session.keeps_pure _ _
    · exact (Session.keeps_lift _ _).bind fun _ => Session.keeps_pure _ _
    · exact Session.keeps_lift _ _

theorem keeps_delegates {assemble : String → Session Walk Reconstruction} (as : List String)
    (h : ∀ a, (assemble a).Keeps (Walk.tells services)) :
    (delegates assemble as).Keeps (Walk.tells services) := by
  induction as with
  | nil => exact Session.keeps_pure _ _
  | cons a rest ih =>
      exact (keeps_delegate (h a)).bind fun _ => ih.bind fun _ => Session.keeps_pure _ _

theorem keeps_followDelegation [AddressLibrary]
    {assemble : String → Session Walk Reconstruction} (own : Own)
    (h : ∀ a, (assemble a).Keeps (Walk.tells services)) :
    (followDelegation services options assemble address own).Keeps (Walk.tells services) := by
  unfold followDelegation
  refine (Session.keeps_lift _ _).bind fun info => (keeps_delegates _ h).bind fun _ => ?_
  refine (Session.keeps_lift _ _).bind fun facets => ?_
  split
  · exact Session.keeps_pure _ _
  · refine (Session.keeps_lift _ _).bind fun _ => (keeps_delegates _ h).bind fun _ => ?_
    exact Session.keeps_pure _ _

theorem keeps_enter : (enter services options chain depth address).Keeps (Walk.tells services) :=
  fun w => keeps_ownEntries address w.memory

theorem keeps_assembleAt [AddressLibrary] :
    (assembleAt services options chain fuel depth address).Keeps (Walk.tells services) := by
  induction fuel generalizing depth address with
  | zero =>
      rw [assembleAt_eq_enter]
      exact keeps_enter.bind fun own => (Session.keeps_pure _ _).bind fun _ =>
        Session.keeps_pure _ _
  | succ fuel ih =>
      rw [assembleAt_eq_enter]
      exact keeps_enter.bind fun own => (keeps_followDelegation own fun _ => ih).bind fun _ =>
        Session.keeps_pure _ _

theorem Services.softens_refl (services : Services) : services.Softens services where
  reader := ⟨fun _ => .same rfl, fun _ _ => .same rfl, fun _ _ => .same rfl⟩
  sources := List.forall₂_same.2 fun _ _ _ _ => .same rfl
  loaders := List.forall₂_same.2 fun _ _ _ _ => .same rfl
  now := rfl

theorem related_ownEntries [AddressLibrary] (options : Options) (chain : Value) {m : Memory}
    (hm : IsFaithful services m) (address : String) :
    Except.Related (· = ·) SameFault (ownEntries services options address chain m).1.result
      ((graphOf services options chain).own address) :=
  (simulates_ownEntries services.softens_refl address m .empty hm).2

theorem own_of_answers [AddressLibrary] {m m' : Memory} {own : Own} (hm : IsFaithful services m)
    (h : (ownEntries services options address chain).Answers m own m') :
    (graphOf services options chain).own address = .ok own := by
  have hrelated := related_ownEntries options chain hm address
  rw [h.1] at hrelated
  obtain ⟨own', hown, rfl⟩ := hrelated.exists_ok
  exact hown

/-! ## Contracts that are skipped -/

theorem meets_any {α : Type} (x : Session Walk α) :
    x.Meets (fun _ => True) (fun _ => True) fun _ => True := by
  intro w _
  refine ⟨trivial, ?_⟩
  cases (x w).1.result with
  | ok a => exact .ok trivial
  | error f => exact .error trivial

theorem grave_delegate (assemble : String → Session Walk Reconstruction) (a : String) :
    (delegate assemble a).Meets (fun _ => True) (fun _ => True) Fault.Grave := by
  unfold delegate
  refine Session.meets_get.bind fun w _ => ?_
  split
  · exact (Session.meets_note _ _ _).bind fun _ _ => Session.meets_pure trivial
  · refine (meets_any (assemble a)).attempt.bind fun result _ => ?_
    split
    · exact Session.meets_pure trivial
    · exact (Session.meets_note _ _ _).bind fun _ _ => Session.meets_pure trivial
    · rename_i f hother _
      exact Session.meets_fail hother

theorem grave_delegates (assemble : String → Session Walk Reconstruction) (as : List String) :
    (delegates assemble as).Meets (fun _ => True) (fun _ => True) Fault.Grave := by
  induction as with
  | nil => exact Session.meets_pure trivial
  | cons a rest ih =>
      unfold delegates
      exact (grave_delegate assemble a).bind fun _ _ => ih.bind fun _ _ =>
        Session.meets_pure trivial

theorem grave_delegationsOf [AddressLibrary] (own : Own) :
    (delegationsOf services options chain fuel depth address own).Meets (fun _ => True)
      (fun _ => True) Fault.Grave := by
  cases fuel with
  | zero => exact Session.meets_pure trivial
  | succ fuel =>
      unfold delegationsOf followDelegation
      refine (Session.meets_lift (Proxy.spelt_detect _ _ _ _)).bind fun info _ => ?_
      refine (grave_delegates _ _).bind fun _ _ => ?_
      refine (Session.meets_lift (Proxy.spelt_detectFacets _ _)).bind fun facets _ => ?_
      split
      · exact Session.meets_pure trivial
      · refine (Session.meets_note _ _ _).bind fun _ _ => (grave_delegates _ _).bind fun _ _ => ?_
        exact Session.meets_pure trivial

/-- An assembly that finds no contract has entered one address, which has no own entries. -/
theorem visited_of_noContract [AddressLibrary]
    {place : String} {c : Option Value} {reason : Option String}
    (hw : IsFaithful services w.memory)
    (h : (assembleAt services options chain fuel depth address w).1.result =
      .error (.noContract place c reason)) :
    (assembleAt services options chain fuel depth address w).2.visited =
        Address.fold address :: w.visited ∧
      ∀ own, (graphOf services options chain).own address ≠ .ok own := by
  rw [assembleAt_eq_enter] at h ⊢
  have hrelated := related_ownEntries options chain hw address
  have henter : (enter services options chain depth address w).1.result =
      (ownEntries services options address chain w.memory).1.result := rfl
  cases hown : (ownEntries services options address chain w.memory).1.result with
  | error f =>
      rw [hown] at henter hrelated
      rw [Session.state_bind_of_error _ henter]
      refine ⟨rfl, fun own hok => ?_⟩
      rw [hok] at hrelated
      nomatch hrelated
  | ok own =>
      rw [hown] at henter
      rw [Session.result_bind_of_ok _ henter, Session.result_bind] at h
      have hgrave : Except.Meets (fun _ => True) Fault.Grave (delegationsOf services options chain
          fuel depth address own (enter services options chain depth address w).2).1.result :=
        (grave_delegationsOf own _ trivial).2
      cases hfound : (delegationsOf services options chain fuel depth address own
          (enter services options chain depth address w).2).1.result with
      | ok found =>
          rw [hfound] at h
          exact absurd h (by simp)
      | error f =>
          rw [hfound] at h hgrave
          obtain rfl := Except.error.inj h
          exact absurd rfl (hgrave.of_error rfl _ _ _)

/-! ## What a walk has explored -/

theorem keys_completed (own : Own) : Entry.keys own.completed = Entry.keys own.entries := by
  unfold Own.completed
  split
  · unfold Entry.keys Entry.backfill
    rw [List.map_map]
    refine List.map_congr_left fun e _ => ?_
    cases e with
    | function f => simp [Entry.key, Entry.kind, Entry.keyName]
    | _ => rfl
  · rfl

/-- Addresses that a walk has entered on its way, and the keys of their own entries. Each lies at
the end of a trail within the limit, and either at the limit or before delegates that have all been
entered. -/
structure Explored (g : Graph) (root : String) (limit : Nat) (w : Walk) (xs : List String)
    (keys : List EntryKey) (w' : Walk) : Prop where
  visited : ∀ k, k ∈ w'.visited ↔ k ∈ w.visited ∨ ∃ x ∈ xs, Address.fold x = k
  spelt : ∀ x ∈ xs, Address.IsSpelt x
  trail : ∀ x ∈ xs, ∃ rest, g.Trail root (x :: rest) ∧ rest.length ≤ limit
  closed : ∀ x ∈ xs, g.AtLimit root limit x ∨
    ∀ y, g.Delegates x y → Address.fold y ∈ w'.visited
  keys : ∀ k, k ∈ keys ↔ ∃ x ∈ xs, ∃ own, g.own x = .ok own ∧ k ∈ Entry.keys own.entries

variable {g : Graph} {xs xs' rest : List String} {keys keys' : List EntryKey} {w₁ : Walk}

theorem Explored.none (w : Walk) : Explored g root limit w [] [] w where
  visited k := by simp
  spelt x hx := absurd hx List.not_mem_nil
  trail x hx := absurd hx List.not_mem_nil
  closed x hx := absurd hx List.not_mem_nil
  keys k := by simp

theorem Explored.mono (h : Explored g root limit w xs keys w') {k : String}
    (hk : k ∈ w.visited) : k ∈ w'.visited :=
  (h.visited k).2 (.inl hk)

theorem Explored.append (hfirst : Explored g root limit w xs keys w₁)
    (hrest : Explored g root limit w₁ xs' keys' w') :
    Explored g root limit w (xs ++ xs') (keys ++ keys') w' where
  visited k := by
    rw [hrest.visited, hfirst.visited, or_assoc]
    refine or_congr_right ?_
    simp only [List.mem_append, or_and_right, exists_or]
  spelt x hx := (List.mem_append.1 hx).elim (hfirst.spelt x) (hrest.spelt x)
  trail x hx := (List.mem_append.1 hx).elim (hfirst.trail x) (hrest.trail x)
  closed x hx := by
    rcases List.mem_append.1 hx with hx | hx
    · exact (hfirst.closed x hx).imp_right fun h y hy => hrest.mono (h y hy)
    · exact hrest.closed x hx
  keys k := by
    rw [List.mem_append, hfirst.keys, hrest.keys]
    simp only [List.mem_append, or_and_right, exists_or]

theorem Explored.skip (hspelt : Address.IsSpelt address)
    (htrail : g.Trail root (address :: rest)) (hlength : rest.length ≤ limit)
    (hvisited : w'.visited = Address.fold address :: w.visited)
    (hown : ∀ own, g.own address ≠ .ok own) (hdelegates : ∀ y, ¬g.Delegates address y) :
    Explored g root limit w [address] [] w' where
  visited k := by
    rw [hvisited, List.mem_cons, or_comm]
    simp [eq_comm]
  spelt x hx := by rw [List.mem_singleton.1 hx]; exact hspelt
  trail x hx := by rw [List.mem_singleton.1 hx]; exact ⟨rest, htrail, hlength⟩
  closed x hx := by
    rw [List.mem_singleton.1 hx]
    exact .inr fun y hy => absurd hy (hdelegates y)
  keys k := by
    constructor
    · exact fun hk => absurd hk List.not_mem_nil
    · rintro ⟨x, hx, own, hok, -⟩
      rw [List.mem_singleton.1 hx] at hok
      exact absurd hok (hown own)

/-- An address with own entries, and what has been explored from it. -/
theorem Explored.enter {m : Memory} {own : Own} (hspelt : Address.IsSpelt address)
    (htrail : g.Trail root (address :: rest)) (hlength : rest.length ≤ limit)
    (hown : g.own address = .ok own)
    (h : Explored g root limit { w.enter address with memory := m } xs keys w')
    (hclosed : g.AtLimit root limit address ∨
      ∀ y, g.Delegates address y → Address.fold y ∈ w'.visited)
    (hkeys : ∀ k, k ∈ keys' ↔ k ∈ Entry.keys own.entries ∨ k ∈ keys) :
    Explored g root limit w (address :: xs) keys' w' where
  visited k := by
    rw [h.visited]
    change k ∈ Address.fold address :: w.visited ∨ _ ↔ _
    simp only [List.mem_cons, exists_eq_or_imp]
    rw [eq_comm (a := k), or_assoc, or_left_comm]
  spelt x hx := by
    rcases List.mem_cons.1 hx with rfl | hx
    · exact hspelt
    · exact h.spelt x hx
  trail x hx := by
    rcases List.mem_cons.1 hx with rfl | hx
    · exact ⟨rest, htrail, hlength⟩
    · exact h.trail x hx
  closed x hx := by
    rcases List.mem_cons.1 hx with rfl | hx
    · exact hclosed
    · exact h.closed x hx
  keys k := by
    rw [hkeys, h.keys]
    simp only [List.mem_cons, exists_eq_or_imp, hown, Except.ok.injEq, exists_eq_left']

/-! ## The walk of an assembly -/

theorem isSpelt_of_delegates [AddressLibrary] {x y : String}
    (h : (graphOf services options chain).Delegates x y) : Address.IsSpelt y := by
  obtain ⟨own, -, hdelegates⟩ := h
  cases hdelegates with
  | implementation h hdelegate =>
      exact (Proxy.spelt_detect _ _ _ _).of_ok h _ rfl y hdelegate
  | facet h hdelegate => exact ((Proxy.spelt_detectFacets _ _).of_ok h y hdelegate).1

theorem explored_delegateRun [AddressLibrary]
    {x : String} {as : List String} {found : List Reconstruction}
    (htrail : (graphOf services options chain).Trail root (x :: rest))
    (hlength : rest.length < limit)
    (hassemble : ∀ a w r w', Address.IsSpelt a →
      (graphOf services options chain).Trail root (a :: x :: rest) →
      (∀ z ∈ x :: rest, Address.fold z ∈ w.visited) → IsFaithful services w.memory →
      (assembleAt services options chain fuel depth a).Answers w r w' →
      ∃ xs, a ∈ xs ∧ Explored (graphOf services options chain) root limit w xs
        (Entry.keys r.entries) w')
    (hdelegates : ∀ a ∈ as, (graphOf services options chain).Delegates x a)
    (hentered : ∀ z ∈ x :: rest, Address.fold z ∈ w.visited)
    (hfaithful : IsFaithful services w.memory)
    (h : DelegateRun (assembleAt services options chain fuel depth) as w found w') :
    ∃ xs, Explored (graphOf services options chain) root limit w xs
        (found.flatMap fun r => Entry.keys r.entries) w' ∧
      ∀ a ∈ as, Address.fold a ∈ w'.visited := by
  have hstep : ∀ {a : String} {w : Walk}, (graphOf services options chain).Delegates x a →
      (∀ z ∈ x :: rest, Address.fold z ∈ w.visited) → Address.fold a ∉ w.visited →
      (graphOf services options chain).Trail root (a :: x :: rest) :=
    fun ha hentered hnew => .step htrail ha fun z hz heq => hnew (heq ▸ hentered z hz)
  induction h with
  | done w => exact ⟨[], .none w, fun a ha => absurd ha List.not_mem_nil⟩
  | @seen a as w found w' hseen _ ih =>
      obtain ⟨xs, hxs, hall⟩ := ih (fun b hb => hdelegates b (List.mem_cons_of_mem _ hb))
        hentered hfaithful
      refine ⟨xs, hxs, fun b hb => ?_⟩
      rcases List.mem_cons.1 hb with rfl | hb
      · exact hxs.mono hseen
      · exact hall b hb
  | @skipped a as w found w' place c reason hnew hfail _ ih =>
      have ha := hdelegates a List.mem_cons_self
      obtain ⟨hvisited, hown⟩ := visited_of_noContract hfaithful hfail
      have hskip := Explored.skip (isSpelt_of_delegates ha) (hstep ha hentered hnew)
        hlength hvisited hown
        fun y ⟨own, hok, _⟩ => hown own hok
      obtain ⟨xs, hxs, hall⟩ := ih (fun b hb => hdelegates b (List.mem_cons_of_mem _ hb))
        (fun z hz => hskip.mono (hentered z hz)) ((keeps_assembleAt w).trans hfaithful)
      refine ⟨_, hskip.append hxs, fun b hb => ?_⟩
      rcases List.mem_cons.1 hb with rfl | hb
      · exact hxs.mono (by rw [hvisited]; exact List.mem_cons_self)
      · exact hall b hb
  | @entered a as w r w₁ found w' hnew hanswer _ ih =>
      have ha := hdelegates a List.mem_cons_self
      obtain ⟨xs, hmem, hfirst⟩ := hassemble a w r w₁ (isSpelt_of_delegates ha)
        (hstep ha hentered hnew) hentered hfaithful hanswer
      have hfaithful' : IsFaithful services w₁.memory := by
        rw [← hanswer.2]
        exact (keeps_assembleAt w).trans hfaithful
      obtain ⟨xs', hxs, hall⟩ := ih (fun b hb => hdelegates b (List.mem_cons_of_mem _ hb))
        (fun z hz => hfirst.mono (hentered z hz)) hfaithful'
      refine ⟨_, hfirst.append hxs, fun b hb => ?_⟩
      rcases List.mem_cons.1 hb with rfl | hb
      · exact hxs.mono ((hfirst.visited _).2 (.inr ⟨b, hmem, rfl⟩))
      · exact hall b hb

theorem explored_assembleAt [AddressLibrary]
    {r : Reconstruction} (hlimit : rest.length + fuel = limit)
    (hspelt : Address.IsSpelt address)
    (htrail : (graphOf services options chain).Trail root (address :: rest))
    (hentered : ∀ z ∈ rest, Address.fold z ∈ w.visited)
    (hfaithful : IsFaithful services w.memory)
    (h : (assembleAt services options chain fuel depth address).Answers w r w') :
    ∃ xs, address ∈ xs ∧ Explored (graphOf services options chain) root limit w xs
      (Entry.keys r.entries) w' := by
  have hcompleted : ∀ (own : Own) (found : List Reconstruction) (k : EntryKey),
      k ∈ Entry.keys (Entry.merge own.completed (found.map Reconstruction.entries)) ↔
        k ∈ Entry.keys own.entries ∨ k ∈ found.flatMap fun r => Entry.keys r.entries := by
    intro own found k
    rw [(Entry.mergeLaw_merge _ _).mem_keys, keys_completed, List.mem_flatMap]
    simp only [List.mem_map, exists_exists_and_eq_and]
  induction fuel generalizing depth address rest w w' r with
  | zero =>
      obtain ⟨own, proxy, found, hgathers, rfl⟩ := assembleAt_answers h
      cases hgathers with
      | alone hown =>
          exact ⟨[address], List.mem_cons_self, .enter hspelt htrail (by omega)
            (own_of_answers hfaithful hown) (.none _) (.inl ⟨rest, htrail, by omega⟩)
            (hcompleted own [])⟩
  | succ fuel ih =>
      obtain ⟨own, proxy, found, hgathers, rfl⟩ := assembleAt_answers h
      cases hgathers with
      | @following _ _ _ _ _ m info facets _ _ hown hinfo hfacets hrun =>
          have hok := own_of_answers hfaithful hown
          have hmem := mem_delegateAddresses hok hinfo hfacets
          have hfaithful' : IsFaithful services m := by
            rw [← hown.2]
            exact (keeps_ownEntries address w.memory).trans hfaithful
          have hentered' : ∀ z ∈ address :: rest,
              Address.fold z ∈ Address.fold address :: w.visited := fun z hz =>
            List.mem_cons.2 ((List.mem_cons.1 hz).imp (congrArg Address.fold) (hentered z))
          obtain ⟨xs, hxs, hall⟩ := explored_delegateRun htrail (by omega)
            (fun a w r w' ha htrail hentered hfaithful hanswer =>
              ih (by rw [List.length_cons]; omega) ha htrail hentered hfaithful hanswer)
            (fun a ha => (hmem a).1 ha) hentered' hfaithful' hrun
          exact ⟨address :: xs, List.mem_cons_self, .enter hspelt htrail (by omega) hok hxs
            (.inr fun y hy => hall y ((hmem y).2 hy)) (hcompleted own found)⟩

/-- Whatever an assembly answers covers the graph of delegations. -/
theorem covers_of_answers [AddressLibrary] {r : Reconstruction} (hspelt : Address.IsSpelt root)
    (hfaithful : IsFaithful services w.memory) (hstart : w.visited = [])
    (h : (assembleAt services options chain limit depth root).Answers w r w') :
    (graphOf services options chain).Covers root limit (Entry.keys r.entries) := by
  obtain ⟨xs, hroot, hxs⟩ := explored_assembleAt (Nat.zero_add limit) hspelt .root
    (fun z hz => absurd hz List.not_mem_nil) hfaithful h
  have hopen : ∀ x, (graphOf services options chain).Open root limit x → x ∈ xs := by
    intro x hx
    induction hx with
    | root => exact hroot
    | @step x y _ hopen hdelegates ih =>
        -- the delegate has been entered under some spelling, of which there is only one
        have hvisited := (hxs.closed x ih).resolve_left hopen y hdelegates
        rw [hxs.visited, hstart] at hvisited
        obtain ⟨z, hz, hfold⟩ := hvisited.resolve_left List.not_mem_nil
        rwa [← Address.fold_inj (hxs.spelt z hz) (isSpelt_of_delegates hdelegates) hfold]
  constructor
  · exact fun x hx own hown k hk => (hxs.keys k).2 ⟨x, hopen x hx, own, hown, hk⟩
  · intro k hk
    obtain ⟨x, hx, own, hown, hk⟩ := (hxs.keys k).1 hk
    obtain ⟨rest, htrail, hlength⟩ := hxs.trail x hx
    exact ⟨x, rest, own, htrail, hlength, hown, hk⟩

end ContractAbi.Assembler
