import ContractAbi.Cache
import ContractAbi.Proofs.Session.Run

/-!
# Cached results

* `ResultCache.result_get?`: a result is found under its address in lower case, if it is fresh;
* `ResultCache.put_text`: storing a result on a chain that is a number does not fail;
* `ResultCache.find?_store` and `ResultCache.find?_store_of_ne`: what is found after storing;
* `ResultCache.distinct_store`: no two records have the same key.
-/

namespace ContractAbi

theorem Value.same_text_iff {s : String} {v : Value} :
    (Value.text s).same v = true ↔ v = .text s := by
  unfold Value.same
  rw [beq_iff_eq]
  cases v with
  | float x =>
      have hfloat : (Value.float x).unified ≠ .text s := by
        unfold Value.unified
        dsimp only
        split <;> simp
      exact ⟨fun h => absurd h.symm hfloat, fun h => absurd h (by simp)⟩
  | text t => simp [Value.unified, eq_comm]
  | _ => simp [Value.unified]

namespace ResultCache

variable {chain : Value} {n : Int}

theorem key_text (s : String) (h : chain.toWhole = .ok n) :
    key (.text s) chain = .ok (Text.lowered s, n) := by
  unfold key
  rw [h]
  rfl

theorem result_get?_of_key (c : ResultCache) (now : Binary64) {address : Value} {s : String}
    (h : key address chain = .ok (s, n)) :
    (c.get? now address chain).result =
      .ok ((c.find? s n).bind fun r => if r.isFresh now c.maxAge then some r.result else none) := by
  have hrecord : c.record? address chain = .ok (c.find? s n) := by
    unfold record?
    rw [h]
    rfl
  unfold get?
  rw [hrecord, Traced.result_bind, Traced.result_ofExcept, Except.ok_bind]
  cases c.find? s n with
  | none => rfl
  | some r =>
      dsimp only [Option.bind]
      split <;> rfl

theorem result_get?_of_error (c : ResultCache) (now : Binary64) {address : Value} {f : Fault}
    (h : key address chain = .error f) : (c.get? now address chain).result = .error f := by
  unfold get? record?
  rw [h, Traced.result_bind, Traced.result_ofExcept]
  rfl

theorem result_get? (c : ResultCache) (now : Binary64) (s : String) (h : chain.toWhole = .ok n) :
    (c.get? now (.text s) chain).result =
      .ok ((c.find? (Text.lowered s) n).bind fun r =>
        if r.isFresh now c.maxAge then some r.result else none) :=
  c.result_get?_of_key now (key_text s h)

/-! ## Storing -/

def store (c : ResultCache) (r : CacheRecord) : ResultCache :=
  { c with records := insert c.records r }

@[simp] theorem maxAge_store (c : ResultCache) (r : CacheRecord) :
    (c.store r).maxAge = c.maxAge := rfl

@[simp] theorem records_clear (c : ResultCache) : c.clear.records = [] := rfl

theorem put_text (c : ResultCache) (now : Binary64) (s : String) (r : Reconstruction)
    (verified : Bool) (h : chain.toWhole = .ok n) :
    c.put now (.text s) chain r verified =
      .ok (c.store ⟨.text (Text.lowered s), n, r, now, verified⟩) := by
  unfold put
  rw [key_text s h]
  rfl

def isFor (address : String) (n : Int) (r : CacheRecord) : Bool :=
  r.address == .text address && r.chainId == n

theorem find?_eq (c : ResultCache) (address : String) (n : Int) :
    c.find? address n = c.records.find? (isFor address n) := rfl

variable {r q : CacheRecord} {address address' : String} {n n' : Int}

theorem isFor_iff : isFor address n r = true ↔ r.address = .text address ∧ r.chainId = n := by
  simp [isFor]

theorem sameKey_eq_isFor (h : isFor address n r = true) : r.sameKey = isFor address n := by
  obtain ⟨haddress, hchain⟩ := isFor_iff.1 h
  funext q
  rw [Bool.eq_iff_iff, isFor_iff]
  unfold CacheRecord.sameKey
  rw [haddress, hchain, Bool.and_eq_true, Value.same_text_iff, beq_iff_eq, eq_comm (a := n)]

theorem isFor_of_find? {c : ResultCache} (h : c.find? address n = some r) :
    isFor address n r = true :=
  List.find?_some h

theorem mem_of_find? {c : ResultCache} (h : c.find? address n = some r) : r ∈ c.records :=
  List.mem_of_find?_eq_some h

theorem mem_store {c : ResultCache} (h : q ∈ (c.store r).records) :
    q = r ∨ (q ∈ c.records ∧ r.sameKey q = false) := by
  unfold store insert at h
  dsimp only at h
  split at h
  · obtain ⟨p, hp, rfl⟩ := List.mem_map.1 h
    by_cases hkey : r.sameKey p = true
    · exact .inl (if_pos hkey)
    · rw [if_neg hkey]
      exact .inr ⟨hp, by simpa using hkey⟩
  · rename_i hnone
    rcases List.mem_append.1 h with h | h
    · refine .inr ⟨h, ?_⟩
      cases hkey : r.sameKey q with
      | false => rfl
      | true => exact absurd (List.any_eq_true.2 ⟨q, h, hkey⟩) hnone
    · exact .inl (List.mem_singleton.1 h)

theorem mem_foldl_insert {records kept : List CacheRecord} {q : CacheRecord}
    (h : q ∈ records.foldl insert kept) : q ∈ records ∨ q ∈ kept := by
  induction records generalizing kept with
  | nil => exact .inr h
  | cons r rest ih =>
      rcases ih h with h | h
      · exact .inl (List.mem_cons_of_mem _ h)
      · have hstored : q ∈ (store ⟨.ofInt 0, kept⟩ r).records := h
        rcases mem_store hstored with rfl | ⟨h, -⟩
        · exact .inl List.mem_cons_self
        · exact .inr h

theorem sameKey_iff {p q : CacheRecord} :
    p.sameKey q = true ↔ p.address.unified = q.address.unified ∧ p.chainId = q.chainId := by
  simp [CacheRecord.sameKey, Value.same]

def Distinct (c : ResultCache) : Prop :=
  c.records.Pairwise fun p q => p.sameKey q = false

theorem distinct_store {c : ResultCache} (h : c.Distinct) (r : CacheRecord) :
    (c.store r).Distinct := by
  unfold Distinct store insert at *
  dsimp only
  split
  · have hkey : ∀ q : CacheRecord, (if r.sameKey q then r else q).address.unified =
        q.address.unified ∧ (if r.sameKey q then r else q).chainId = q.chainId := by
      intro q
      split
      · exact sameKey_iff.1 ‹_›
      · exact ⟨rfl, rfl⟩
    rw [List.pairwise_map]
    refine h.imp fun {p q} hpq => ?_
    rw [Bool.eq_false_iff, Ne, sameKey_iff] at hpq ⊢
    rwa [(hkey p).1, (hkey q).1, (hkey p).2, (hkey q).2]
  · rename_i hnone
    refine List.pairwise_append.2 ⟨h, List.pairwise_singleton _ _, fun q hq x hx => ?_⟩
    obtain rfl := List.mem_singleton.1 hx
    rw [Bool.eq_false_iff, Ne, sameKey_iff]
    rintro ⟨haddress, hchain⟩
    exact hnone (List.any_eq_true.2 ⟨q, hq, sameKey_iff.2 ⟨haddress.symm, hchain.symm⟩⟩)

theorem find?_store (c : ResultCache) (h : isFor address n r = true) :
    (c.store r).find? address n = some r := by
  rw [find?_eq]
  unfold store insert
  dsimp only
  rw [sameKey_eq_isFor h]
  split
  · rename_i hany
    have hkeep : (isFor address n ∘ fun q => if isFor address n q then r else q) =
        isFor address n := by
      funext q
      by_cases hq : isFor address n q = true <;> simp [hq, h]
    rw [List.find?_map, hkeep]
    cases hfind : c.records.find? (isFor address n) with
    | none =>
        obtain ⟨q, hq, hkey⟩ := List.any_eq_true.1 hany
        exact absurd hkey (List.find?_eq_none.1 hfind q hq)
    | some p => simp [List.find?_some hfind]
  · rename_i hnone
    have hfind : c.records.find? (isFor address n) = none := by
      rw [List.find?_eq_none]
      exact fun q hq hkey => hnone (List.any_eq_true.2 ⟨q, hq, hkey⟩)
    rw [List.find?_append, hfind]
    simp [h]

theorem find?_store_of_ne (c : ResultCache) (h : isFor address n r = true)
    (hne : ¬(address' = address ∧ n' = n)) :
    (c.store r).find? address' n' = c.find? address' n' := by
  have hother : ∀ q, isFor address n q = true → isFor address' n' q = false := by
    intro q hq
    obtain ⟨haddress, rfl⟩ := isFor_iff.1 hq
    rw [Bool.eq_false_iff, Ne, isFor_iff, haddress]
    rintro ⟨heq, rfl⟩
    exact hne ⟨(Value.text.inj heq).symm, rfl⟩
  rw [find?_eq, find?_eq]
  unfold store insert
  dsimp only
  rw [sameKey_eq_isFor h]
  split
  · have hkeep : (isFor address' n' ∘ fun q => if isFor address n q then r else q) =
        isFor address' n' := by
      funext q
      by_cases hq : isFor address n q = true
      · simp [hq, hother q hq, hother r h]
      · simp [hq]
    rw [List.find?_map, hkeep]
    cases hfind : c.records.find? (isFor address' n') with
    | none => rfl
    | some p =>
        have hp : isFor address n p = false := by
          cases hkey : isFor address n p with
          | false => rfl
          | true => exact absurd (List.find?_some hfind) (by simp [hother p hkey])
        simp [hp]
  · rw [List.find?_append]
    simp [hother r h]

end ResultCache

end ContractAbi
