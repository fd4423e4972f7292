import ContractAbi.Proofs.Assembly.Escape
import ContractAbi.Proofs.Assembly.Exploration
import ContractAbi.Proofs.Assembly.Phases

/-!
# Coming to the zero address

No delegates can be looked for behind the zero address. That failure is not skipped, but ends the
whole assembly. A run comes to the zero address where code is a clone of it.

* `not_refuses_ownEntries`: own entries are found without such a failure;
* `Founders`: the zero address is entered where its delegates are looked for;
* `Sinks`: a run founders if and only if it refuses an address, and has met a clone before; with one
  rule for each way to build a computation;
* `exists_own_iff` and `clonesZero_of_target`: what code leads to the zero address.
-/

namespace ContractAbi

def Fault.Refuses (f : Fault) : Prop :=
  ∃ v, f = .invalidAddress v

theorem Fault.Unannounced.not_refuses {f : Fault} (h : f.Unannounced) : ¬f.Refuses := by
  rintro ⟨v, rfl⟩
  exact h (.invalidAddress v)

theorem Fault.not_refuses_noContract (address : String) (chain : Option Value)
    (reason : Option String) : ¬(noContract address chain reason).Refuses :=
  nofun

theorem Proxy.result_detect_zero [AddressLibrary]
    (settings : Settings) (r : ChainReader) (selectors : List Value)
    (code : Value) :
    (detect settings r (.text Address.zero) selectors code).result =
      .error (.invalidAddress (.text Address.zero)) := by
  unfold detect
  rw [Traced.result_bind, Traced.result_ofExcept, Address.checksum_zero]
  rfl

theorem Proxy.told_detect [AddressLibrary]
    {a : String} (ha : Address.IsSpelt a) (hne : a ≠ Address.zero)
    (settings : Settings) (r : ChainReader) (selectors : List Value) (code : Value) :
    Except.Meets (Told code) Fault.Unannounced
      (detect settings r (.text a) selectors code).result := by
  unfold detect
  rw [Traced.result_bind, Traced.result_ofExcept, Address.checksum_of_isSpelt ha hne,
    Except.ok_bind]
  exact told_detectAt settings a selectors code

namespace Assembler

open Resolver

variable {services : Services} {options : Options} {chain : Value} {address : String} {m : Memory}
  {limit : Nat}

/-! ## One contract -/

theorem not_refuses_ofValue (v : Value) :
    Except.Meets (fun _ => True) (fun f => ¬f.Refuses) (Code.ofValue v) := by
  cases h : Code.ofValue v with
  | ok code => exact .ok trivial
  | error f =>
      unfold Code.ofValue at h
      split at h
      · rw [← Except.error.inj h]
        exact .error nofun
      · exact absurd h (by simp)
      · rw [← Except.error.inj h]
        exact .error nofun
      · rename_i g hother hg
        rw [← Except.error.inj h]
        unfold Value.toBytes at hg
        split at hg
        · exact absurd hg (by simp)
        · exact absurd hg (by simp)
        · unfold Value.bytesOfText at hg
          split at hg
          · exact absurd hg (by simp)
          · rw [← Except.error.inj hg]
            exact .error nofun
        · rw [← Except.error.inj hg]
          exact .error nofun

theorem not_refuses_getCode (reader : ChainReader) (address : String) (chain : Value) :
    Except.Meets (fun _ => True) (fun f => ¬f.Refuses) (getCode reader address chain).result := by
  unfold getCode
  rw [Traced.result_bind, Traced.result_attempt, Except.ok_bind]
  cases (reader.code address).result with
  | error f => cases f <;> exact .error (Fault.not_refuses_noContract _ _ _)
  | ok v =>
      dsimp only
      split
      · exact .error (Fault.not_refuses_noContract _ _ _)
      · exact not_refuses_ofValue v

theorem not_refuses_ownEntries [AddressLibrary] (address : String) :
    (ownEntries services options address chain).Meets (fun _ => True) Own.Spelt
      (fun f => ¬f.Refuses) := by
  unfold ownEntries
  refine (Session.meets_lift (meets_published address)).bind fun found hfound => ?_
  cases found with
  | some entries => exact Session.meets_pure (hfound entries rfl)
  | none =>
      refine (Session.meets_lift (not_refuses_getCode _ address chain)).bind fun code _ => ?_
      have htold : (fromCode services options address code).Meets (fun _ => True)
          (fun entries => ∀ e ∈ entries, e.Spelt) (fun f => ¬f.Refuses) := by
        intro m _
        refine ⟨trivial, ?_⟩
        rw [result_fromCode]
        exact (meets_entriesOf (tellable_unannounced services.sources m)
          (fun _ => Fault.unannounced_malformed _) code).mono (fun _ h => h)
            fun _ h => h.not_refuses
      exact htold.bind fun entries hentries => Session.meets_pure hentries

/-! ## The zero address on the way -/

/-- The zero address has own entries, and has been entered above the limit. -/
def Founders (services : Services) (options : Options) (chain : Value) (m : Memory) (limit : Nat)
    (es : List Event) : Prop :=
  (∃ own, (ownEntries services options Address.zero chain m).1.result = .ok own) ∧
    ∃ depth < limit, (Address.zero, depth) ∈ entries es

def ClonesZero (services : Services) (chain : Value) (address : String) : Prop :=
  (getCode services.reader address chain).result =
    .ok (MinimalProxy.head ++ List.replicate 20 0 ++ MinimalProxy.tail)

/-- A run refuses an address if and only if it founders. Where it comes to the zero address, there
is the given reason for it, or a clone has been entered. -/
structure Sinks (services : Services) (options : Options) (chain : Value) (m : Memory)
    (limit : Nat) (reason : Prop) {α : Type} (es : List Event) (result : Except Fault α) :
    Prop where
  refuses : (∃ v, result = .error (.invalidAddress v)) ↔
    Founders services options chain m limit es
  comes : Address.zero ∈ (entries es).map Prod.fst →
    reason ∨ ∃ a ∈ (entries es).map Prod.fst, ClonesZero services chain a

variable {es es' : List Event} {reason : Prop} {α β : Type}

theorem founders_append :
    Founders services options chain m limit (es ++ es') ↔
      Founders services options chain m limit es ∨
        Founders services options chain m limit es' := by
  unfold Founders
  simp only [entries_append, List.mem_append, and_or_left, exists_or]

theorem not_founders_of_entries_nil (h : entries es = []) :
    ¬Founders services options chain m limit es := by
  rintro ⟨-, depth, -, hmem⟩
  rw [h] at hmem
  exact absurd hmem List.not_mem_nil

namespace Sinks

/-- While no contract is entered, nothing but a refusal could sink a run. -/
theorem of_entries_nil {result : Except Fault α} (h : entries es = [])
    (hresult : ∀ f, result = .error f → ¬f.Refuses) :
    Sinks services options chain m limit reason es result where
  refuses := by
    refine iff_of_false ?_ (not_founders_of_entries_nil h)
    rintro ⟨v, hv⟩
    exact hresult _ hv ⟨v, rfl⟩
  comes hzero := by
    rw [h] at hzero
    exact absurd hzero List.not_mem_nil

theorem append {a : α} {result : Except Fault β}
    (h : Sinks services options chain m limit reason es (.ok a))
    (h' : Sinks services options chain m limit reason es' result) :
    Sinks services options chain m limit reason (es ++ es') result where
  refuses := by
    -- The first part has answered, so only the second one can founder.
    have hfloats : ¬Founders services options chain m limit es := by
      rw [← h.refuses]
      simp
    rw [h'.refuses, founders_append, or_iff_right hfloats]
  comes hzero := by
    rw [entries_append, List.map_append] at hzero ⊢
    rcases List.mem_append.1 hzero with hzero | hzero
    · exact (h.comes hzero).imp_right fun ⟨a, ha, hclone⟩ =>
        ⟨a, List.mem_append_left _ ha, hclone⟩
    · exact (h'.comes hzero).imp_right fun ⟨a, ha, hclone⟩ =>
        ⟨a, List.mem_append_right _ ha, hclone⟩

theorem of_error {f : Fault}
    (h : Sinks services options chain m limit reason es (.error f : Except Fault α)) :
    Sinks services options chain m limit reason es (.error f : Except Fault β) where
  refuses := by
    rw [← h.refuses]
    simp
  comes := h.comes

theorem bind {x : Session Walk α} {f : α → Session Walk β} {w : Walk}
    (hx : x.Runs (Sinks services options chain m limit reason) w)
    (hf : ∀ a, (x w).1.result = .ok a →
      (f a).Runs (Sinks services options chain m limit reason) (x w).2) :
    (x >>= f).Runs (Sinks services options chain m limit reason) w := by
  refine Session.Runs.bind hx (fun es e h => h.of_error) fun es a h ha => ?_
  exact h.append (hf a ha)

theorem pure (a : α) (w : Walk) :
    (pure a : Session Walk α).Runs (Sinks services options chain m limit reason) w :=
  of_entries_nil rfl nofun

theorem note (level : Level) (origin text : String) (w : Walk) :
    (Session.note level origin text).Runs (Sinks services options chain m limit reason) w :=
  of_entries_nil rfl nofun

theorem lift {R : Request → Prop} {t : Traced α} (ht : t.Asks R)
    (hresult : Except.Meets (fun _ => True) (fun f => ¬f.Refuses) t.result) (w : Walk) :
    (Session.lift t).Runs (Sinks services options chain m limit reason) w :=
  of_entries_nil (entries_of_asks ht) fun _ hf => hresult.of_error hf

theorem recover {f : Fault} (a : β) (hf : ¬f.Refuses)
    (h : Sinks services options chain m limit reason es (.error f : Except Fault α)) :
    Sinks services options chain m limit reason es (.ok a) where
  refuses := by
    refine iff_of_false (by simp) fun hfounders => hf ?_
    obtain ⟨v, hv⟩ := h.refuses.2 hfounders
    exact ⟨v, Except.error.inj hv⟩
  comes := h.comes

variable {assemble : String → Session Walk Reconstruction}

theorem delegate {a : String} {w : Walk}
    (h : (assemble a).Runs (Sinks services options chain m limit reason) w) :
    (delegate assemble a).Runs (Sinks services options chain m limit reason) w := by
  unfold Assembler.delegate Session.Runs
  rw [Session.run_bind_get]
  split
  · exact bind (note _ _ _ w) fun _ _ => pure _ _
  · have hattempt : (assemble a).attempt.Runs (fun es r => ∃ outcome, r = .ok outcome ∧
        Sinks services options chain m limit reason es outcome) w := ⟨_, rfl, h⟩
    refine Session.Runs.bind hattempt (fun es e h => ?_) fun es outcome h _ => ?_
    · obtain ⟨_, hok, -⟩ := h
      exact absurd hok (by simp)
    · obtain ⟨_, hok, h⟩ := h
      obtain rfl := Except.ok.inj hok
      split
      · exact h.append (pure _ _)
      · have hpassed := h.recover () (Fault.not_refuses_noContract _ _ _)
        exact hpassed.append (bind (note _ _ _ _) fun _ _ => pure _ _)
      · rename_i f _ _
        change Sinks services options chain m limit reason (es ++ []) (.error f)
        rw [List.append_nil]
        exact h.of_error

theorem delegates {as : List String} (hkeeps : ∀ a, (assemble a).Keeps (Walk.tells services))
    (h : ∀ a ∈ as, ∀ w, Walk.tells services w = tells services.sources m →
      (assemble a).Runs (Sinks services options chain m limit reason) w)
    {w : Walk} (hw : Walk.tells services w = tells services.sources m) :
    (delegates assemble as).Runs (Sinks services options chain m limit reason) w := by
  induction as generalizing w with
  | nil => exact pure _ w
  | cons a rest ih =>
      unfold Assembler.delegates
      refine bind (delegate (h a List.mem_cons_self w hw)) fun found _ => ?_
      have hkept := keeps_delegate (hkeeps a) w
      refine bind (ih (fun b hb => h b (List.mem_cons_of_mem _ hb)) (hkept.trans hw))
        fun more _ => ?_
      exact pure _ _

/-- Behind another address than the zero address, only code that is a clone leads to that. -/
theorem followDelegation [AddressLibrary] {own : Own} (haddress : Address.IsSpelt address)
    (hne : address ≠ Address.zero) (hown : own.Spelt)
    (hclone : MinimalProxy.targetOfValue? own.codeValue = .ok (some Address.zero) → reason)
    (hkeeps : ∀ a, (assemble a).Keeps (Walk.tells services))
    (h : ∀ a, Address.IsSpelt a → (a = Address.zero → reason) →
      ∀ w, Walk.tells services w = tells services.sources m →
        (assemble a).Runs (Sinks services options chain m limit reason) w)
    {w : Walk} (hw : Walk.tells services w = tells services.sources m) :
    (followDelegation services.observed options assemble address own).Runs
      (Sinks services options chain m limit reason) w := by
  have htold := Proxy.told_detect haddress hne options.proxy services.observed.reader
    (own.selectors.map .text) own.codeValue
  have hdetect : (Proxy.detect options.proxy services.observed.reader (.text address)
      (own.selectors.map .text) own.codeValue).Asks LooksUpNone :=
    Proxy.asks_detect _ _ _ fun place _ => searches_none services place
  have hlisted : Except.Meets (fun _ => True) (fun f => ¬f.Refuses)
      (Proxy.detectFacets services.observed.reader address (own.selectors.map .text)).result :=
    Proxy.meets_detectFacets address hown.selectors
  unfold Assembler.followDelegation
  refine bind (lift hdetect (htold.mono (fun _ _ => trivial) fun _ h => h.not_refuses) w)
    fun info hinfo => ?_
  have himplementation : ∀ a ∈ (info.bind fun i => i.implementation.text?).toList,
      Address.IsSpelt a ∧ (a = Address.zero → reason) := by
    intro a ha
    obtain ⟨i, hi, ha⟩ := Option.bind_eq_some_iff.1 (Option.mem_toList.1 ha)
    have htold := htold.of_ok hinfo
    refine ⟨htold.isSpeltInfo i hi a ha, fun hzero => hclone ?_⟩
    rw [hzero] at ha
    exact htold.of_zero hi ha
  refine bind (delegates hkeeps (fun a ha => h a (himplementation a ha).1 (himplementation a ha).2)
    hw) fun implementation _ => ?_
  have hkept :=
    (keeps_delegates (info.bind fun i => i.implementation.text?).toList hkeeps w).trans hw
  refine bind (lift (Proxy.asks_detectFacets _ (searches_none services address)) hlisted _)
    fun facets hfacets => ?_
  split
  · exact pure _ _
  · refine bind (note _ _ _ _) fun _ _ => ?_
    have hspelt := (Proxy.spelt_detectFacets _ _).of_ok hfacets
    refine bind (delegates hkeeps (fun a ha => h a (hspelt a ha).1
      fun hzero => absurd hzero (hspelt a ha).2) hkept) fun others _ => ?_
    exact pure _ _

end Sinks

/-! ## Own entries of the zero address -/

theorem softens_observed (services : Services) : services.observed.Softens services where
  reader := ⟨fun _ => .same rfl, fun _ _ => .same rfl, fun _ _ => .same rfl⟩
  sources := List.forall₂_map_left_iff.2 (List.forall₂_same.2 fun _ _ _ _ => .same rfl)
  loaders := List.forall₂_map_left_iff.2 (List.forall₂_same.2 fun _ _ _ _ => .same rfl)
  now := rfl

theorem walkTells_observed : Walk.tells services.observed = Walk.tells services := by
  funext w
  unfold Walk.tells
  rw [tells_observed]

theorem exists_own_iff {m' : Memory} (hm : tells services.sources m' = tells services.sources m)
    (address : String) :
    (∃ own, (ownEntries services.observed options address chain m').1.result = .ok own) ↔
      ∃ own, (ownEntries services options address chain m).1.result = .ok own := by
  have halike : Alike services.observed services m' m := by
    unfold Alike
    rw [tells_observed, hm]
  have hsimulates : (ownEntries services.observed options address chain).Simulates
      (Alike services.observed services) (· = ·) SameFault
      (ownEntries services options address chain) :=
    simulates_ownEntries (softens_observed services) address
  have hrelated := (hsimulates m' m halike).2
  constructor
  · rintro ⟨own, hown⟩
    rw [hown] at hrelated
    obtain ⟨own', hown', -⟩ := hrelated.exists_ok
    exact ⟨own', hown'⟩
  · rintro ⟨own, hown⟩
    rw [hown] at hrelated
    cases hresult : (ownEntries services.observed options address chain m').1.result with
    | ok own' => exact ⟨own', rfl⟩
    | error f =>
        rw [hresult] at hrelated
        nomatch hrelated

theorem clonesZero_of_target [AddressLibrary] {own : Own} {m' : Memory}
    (hown : (ownEntries services.observed options address chain).Answers m own m')
    (h : MinimalProxy.targetOfValue? own.codeValue = .ok (some Address.zero)) :
    ClonesZero services chain address := by
  rcases ownEntries_answers hown with ⟨items, -, rfl, -⟩ | ⟨-, code, told, hcode, -, rfl⟩
  · have hnone : MinimalProxy.targetOfValue? .null = .ok none := rfl
    exact absurd (h.symm.trans hnone) (by simp)
  · obtain ⟨read, hread, htarget⟩ := MinimalProxy.target?_of_targetOfValue? h
    have hsame : read = code := by
      cases code with
      | nil => exact absurd hread (by simp [Code.ofValue, Own.codeValue, Value.toBytes])
      | cons b rest => exact (Except.ok.inj hread).symm
    obtain ⟨bs, hbs, hform, hzero⟩ := MinimalProxy.target?_eq_some_iff.1 htarget
    rw [(Address.ofBytes_eq_zero_iff hbs).1 hzero.symm, hsame] at hform
    rw [ClonesZero, ← result_getCode_observed, hcode, hform]

end Assembler

end ContractAbi
