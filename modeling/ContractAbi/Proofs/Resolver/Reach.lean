import ContractAbi.Proofs.Resolver.Memory

/-!
# What a resolver remembers

However a resolver has been used, and whatever its sources have answered, each signature that it
remembers has been parsed and hashes to its key.

* `Reachable`: the memories that uses of a resolver lead to;
* `Memory.All.of_tells`: what is remembered keeps a property that sources cannot break;
* `Reachable.vouched`: such a property is to have been parsed and to hash to the key.
-/

namespace ContractAbi.Resolver

/-- The memories that a resolver can come to have. Its sources may change between two uses, and a
use may fail. -/
inductive Reachable : Memory → Prop
  /-- A new resolver, or one that has forgotten everything. -/
  | empty : Reachable .empty
  | key {m} (h : Reachable m) (sources kind key) : Reachable (resolveKey sources kind key m).2
  | keys {m} (h : Reachable m) (sources limit kind keys) :
      Reachable (resolveKeys sources limit kind keys m).2
  | functions {m} (h : Reachable m) (sources limit functions) :
      Reachable (enrich sources limit functions m).2
  | events {m} (h : Reachable m) (sources limit topics) :
      Reachable (resolveEvents sources limit topics m).2

variable {sources : List SignatureSource} {kind : LookupKind} {key : String} {sig : Signature}
  {m m' : Memory}

/-- The signature has been read from a text and hashes to the key. -/
def Vouched (kind : LookupKind) (key : String) (sig : Signature) : Prop :=
  (∃ s, Signature.parse s = .ok sig) ∧ kind.hashed sig = .ok key

section

variable {P : LookupKind → String → Signature → Prop}

def Memory.All (P : LookupKind → String → Signature → Prop) (m : Memory) : Prop :=
  ∀ kind key sig, (m.memo kind).known? key = some (some sig) → P kind key sig

theorem Memory.all_empty : Memory.All P .empty := by
  intro kind key sig h
  cases kind <;> exact absurd h (by simp [Memory.memo, Memory.empty, Memo.known?])

/-- What is told has the property, if what is remembered and what sources give has it. -/
theorem Memory.All.of_tells_some (hm : m.All P)
    (hsources : ∀ kind key sig, verdict kind key sources = .ok (some sig) → P kind key sig)
    (h : tells sources m kind key = .ok (some sig)) : P kind key sig := by
  unfold tells view at h
  cases hknown : (m.memo kind).known? key with
  | none =>
      rw [hknown] at h
      exact hsources kind key sig h
  | some found =>
      rw [hknown] at h
      rw [Except.ok.inj h] at hknown
      exact hm kind key sig hknown

/-- A use that does not change what is told remembers nothing without the property. -/
theorem Memory.All.of_tells (hm : m.All P)
    (hsources : ∀ kind key sig, verdict kind key sources = .ok (some sig) → P kind key sig)
    (h : tells sources m' = tells sources m) : m'.All P := by
  intro kind key sig hknown
  have htold : tells sources m' kind key = .ok (some sig) := by
    rw [tells, view, hknown]
  rw [h] at htold
  exact hm.of_tells_some hsources htold

end

theorem Reachable.vouched (h : Reachable m) : m.All Vouched := by
  have hverdict : ∀ {sources : List SignatureSource} kind key sig,
      verdict kind key sources = .ok (some sig) → Vouched kind key sig :=
    fun _ _ _ => verdict_some
  induction h with
  | empty => exact Memory.all_empty
  | key _ sources kind key ih => exact ih.of_tells hverdict (tells_resolveKey kind key _)
  | keys _ sources limit kind keys ih =>
      exact ih.of_tells hverdict (tells_resolveKeys limit kind keys _)
  | functions _ sources limit functions ih =>
      exact ih.of_tells hverdict (tells_enrich limit functions _)
  | events _ sources limit topics ih =>
      exact ih.of_tells hverdict (tells_resolveEvents limit topics _)

/-! ## Signatures that are found for keys -/

theorem mem_signatures {say : LookupKind → String → Except Fault (Option Signature)}
    {limit : Int} {keys : List Value} {found : List (String × Option Signature)}
    {o : Option Signature} (h : signatures say limit kind keys = .ok found)
    (hmem : (key, o) ∈ found) :
    (∃ v ∈ keys, kind.normalize v = .ok key) ∧ say kind key = .ok o := by
  unfold signatures at h
  obtain ⟨spelt, hspelt, h⟩ := Except.bind_eq_ok_iff.1 h
  split at h
  · exact absurd h (by simp)
  · obtain ⟨answers, hanswers, h⟩ := Except.bind_eq_ok_iff.1 h
    obtain rfl := Except.ok.inj h
    have hspelling := Except.exists_of_mem_mapM hspelt (List.of_mem_zip hmem).1
    rw [Except.mapM_eq_ok_iff] at hanswers
    exact ⟨hspelling, (List.forall₂_iff_zip.1 hanswers).2 hmem⟩

/-- Keys that are in their one spelling are found in their order. -/
theorem map_fst_signatures {say : LookupKind → String → Except Fault (Option Signature)}
    {limit : Int} {keys : List String} {found : List (String × Option Signature)}
    (h : signatures say limit kind (keys.map .text) = .ok found)
    (hkeys : ∀ k ∈ keys, kind.normalize (.text k) = .ok k) :
    found.map Prod.fst = keys := by
  unfold signatures at h
  have hspelt : (keys.map Value.text).mapM kind.normalize = .ok keys := by
    rw [List.mapM_map]
    exact (Except.mapM_eq_ok_map hkeys).trans (congrArg Except.ok (List.map_id' keys))
  rw [hspelt, Except.ok_bind] at h
  split at h
  · exact absurd h (by simp)
  · obtain ⟨answers, hanswers, h⟩ := Except.bind_eq_ok_iff.1 h
    obtain rfl := Except.ok.inj h
    rw [Except.mapM_eq_ok_iff] at hanswers
    exact List.map_fst_zip (Nat.le_of_eq hanswers.length_eq)

end ContractAbi.Resolver
