import ContractAbi.Proofs.Assembly.Run
import ContractAbi.Proofs.Loader
import ContractAbi.Proofs.Session.Trace

/-!
# Interfaces that are published

The own entries of a contract are those that are published for it, if these can be used. Otherwise
its code is asked for.

* `Accepts`: the entries of a published interface that can be used;
* `result_published`: they are told as they are;
* `ownEntries_of_accepts` and `ownEntries_answers`: the own entries of a contract.
-/

namespace ContractAbi.Assembler

open Resolver

variable {services : Services} {options : Options} {address : String} {chain : Value}
  {own : List Entry}

def Accepts (services : Services) (address : String) (chain : Value) (own : List Entry) : Prop :=
  ∃ abi, (AbiLoader.loadVerified services.loaders (.text address) chain).result = .ok (some abi) ∧
    Entry.ofAbi abi = .ok own

theorem Accepts.unique {own' : List Entry} (h : Accepts services address chain own)
    (h' : Accepts services address chain own') : own = own' := by
  obtain ⟨abi, hchosen, hown⟩ := h
  obtain ⟨abi', hchosen', hown'⟩ := h'
  rw [hchosen] at hchosen'
  obtain rfl := Option.some.inj (Except.ok.inj hchosen')
  exact Except.ok.inj (hown.symm.trans hown')

/-- What is published and can be used is told as it is, else nothing is told. -/
theorem result_published (services : Services) (address : String) (chain : Value) :
    (∃ own, (published services address chain).result = .ok (some own) ∧
        Accepts services address chain own) ∨
      ((published services address chain).result = .ok none ∧
        ∀ own, ¬Accepts services address chain own) := by
  have hchosen := AbiLoader.result_loadVerified services.loaders (.text address) chain
  unfold published Accepts
  rw [Traced.result_bind, hchosen, Except.ok_bind]
  cases (services.loaders.map fun l => l.given (.text address) chain).find? Value.holds with
  | none => exact .inr ⟨rfl, fun own ⟨abi, habi, _⟩ => absurd habi (by simp)⟩
  | some abi =>
      dsimp only
      cases hown : Entry.ofAbi abi with
      | ok own => exact .inl ⟨own, rfl, abi, rfl, hown⟩
      | error f =>
          refine .inr ⟨rfl, fun own ⟨abi', habi, hown'⟩ => ?_⟩
          obtain rfl := Option.some.inj (Except.ok.inj habi)
          exact absurd (hown.symm.trans hown') (by simp)

theorem published_eq_some_iff :
    (published services address chain).result = .ok (some own) ↔
      Accepts services address chain own := by
  rcases result_published services address chain with ⟨own', hresult, h⟩ | ⟨hresult, hnone⟩
  · rw [hresult, Except.ok.injEq, Option.some.injEq]
    exact ⟨fun heq => heq ▸ h, fun h' => h.unique h'⟩
  · rw [hresult]
    exact ⟨fun h => absurd h (by simp), fun h => absurd h (hnone own)⟩

theorem published_eq_none_iff :
    (published services address chain).result = .ok none ↔
      ∀ own, ¬Accepts services address chain own := by
  rcases result_published services address chain with ⟨own, hresult, h⟩ | ⟨hresult, hnone⟩
  · rw [hresult]
    exact ⟨fun hnone => absurd hnone (by simp), fun hnone => absurd h (hnone own)⟩
  · exact ⟨fun _ => hnone, fun _ => hresult⟩

/-- Where something is published that can be used, it is all that is asked for. -/
theorem ownEntries_of_accepts {own : List Entry} (h : Accepts services address chain own)
    (m : Memory) :
    ownEntries services options address chain m =
      (⟨.ok ⟨own, none⟩, (published services address chain).events⟩, m) := by
  unfold ownEntries
  rw [Session.run_bind_lift_of_ok (published_eq_some_iff.2 h)]
  simp [Pure.pure, Traced.answer, Traced.after]

theorem ownEntries_answers {own : Own} {m m' : Memory}
    (h : (ownEntries services options address chain).Answers m own m') :
    (∃ items, Accepts services address chain items ∧ own = ⟨items, none⟩ ∧ m = m') ∨
      ((∀ items, ¬Accepts services address chain items) ∧ ∃ code told,
        (getCode services.reader address chain).result = .ok code ∧
        (fromCode services options address code).Answers m told m' ∧ own = ⟨told, some code⟩) := by
  unfold ownEntries at h
  rw [Session.answers_bind_iff] at h
  obtain ⟨found, _, hlift, h⟩ := h
  obtain ⟨hpublished, rfl⟩ := Session.answers_lift_iff.1 hlift
  cases found with
  | some items =>
      obtain ⟨rfl, rfl⟩ := Session.answers_pure_iff.1 h
      exact .inl ⟨items, published_eq_some_iff.1 hpublished, rfl, rfl⟩
  | none =>
      rw [Session.answers_bind_iff] at h
      obtain ⟨code, _, hlift, h⟩ := h
      obtain ⟨hcode, rfl⟩ := Session.answers_lift_iff.1 hlift
      rw [Session.answers_bind_iff] at h
      obtain ⟨told, _, htold, h⟩ := h
      obtain ⟨rfl, rfl⟩ := Session.answers_pure_iff.1 h
      exact .inr ⟨published_eq_none_iff.1 hpublished, code, told, hcode, htold, rfl⟩

end ContractAbi.Assembler
