import ContractAbi.Text.Hex

/-!
# Hex digits

* `Hex.toLower_mem_digits`: every hex digit is one of sixteen in lower case;
* `Hex.mem_digits_of_mem_ofBytes` and `Hex.length_ofBytes`: what bytes are written with.
-/

namespace ContractAbi.Hex

theorem digit_mem_digits {n : Nat} (h : n < 16) : digit n ∈ digits := by
  have hall : ∀ n ∈ List.range 16, digit n ∈ digits := by decide
  exact hall n (List.mem_range.2 h)

theorem forall_of_all {p : Char → Prop} [DecidablePred p] {cs : List Char}
    (h : cs.all (fun c => decide (p c)) = true) : ∀ c ∈ cs, p c :=
  fun c hc => of_decide_eq_true (List.all_eq_true.1 h c hc)

theorem isDigit_of_mem_digits : ∀ c ∈ digits, isDigit c = true :=
  forall_of_all (by decide)

theorem toLower_cases (c : Char) : c.toLower = c ∨ (65 ≤ c.toNat ∧ c.toNat ≤ 90) := by
  unfold Char.toLower
  split
  · rename_i hupper
    exact .inr hupper
  · exact .inl rfl

theorem toLower_of_mem_digits : ∀ c ∈ digits, c.toLower = c :=
  forall_of_all (by decide)

theorem mem_of_isDigit {c : Char} (h : isDigit c = true) :
    c ∈ digits ++ ['A', 'B', 'C', 'D', 'E', 'F'] := by
  have hrange : (48 ≤ c.toNat ∧ c.toNat ≤ 57) ∨ (97 ≤ c.toNat ∧ c.toNat ≤ 102) ∨
      (65 ≤ c.toNat ∧ c.toNat ≤ 70) := by
    unfold isDigit digitValue? at h
    dsimp only at h
    split at h
    · exact .inl ‹_›
    · split at h
      · exact .inr (.inl ‹_›)
      · split at h
        · exact .inr (.inr ‹_›)
        · exact absurd h (by decide)
  have hall : ∀ n < 103, ((48 ≤ n ∧ n ≤ 57) ∨ (97 ≤ n ∧ n ≤ 102) ∨ (65 ≤ n ∧ n ≤ 70)) →
      Char.ofNat n ∈ digits ++ ['A', 'B', 'C', 'D', 'E', 'F'] := by decide
  rw [← Char.ofNat_toNat c]
  exact hall c.toNat (by omega) hrange

theorem toLower_mem_digits {c : Char} (h : isDigit c = true) : c.toLower ∈ digits := by
  have hall : ∀ c ∈ digits ++ ['A', 'B', 'C', 'D', 'E', 'F'], c.toLower ∈ digits :=
    forall_of_all (by decide)
  exact hall c (mem_of_isDigit h)

theorem mem_digits_of_mem_ofBytes {bs : Bytes} {c : Char} (h : c ∈ ofBytes bs) : c ∈ digits := by
  obtain ⟨b, -, hc⟩ := List.mem_flatMap.1 h
  have hb : b.toNat < 256 := b.toNat_lt
  rw [ofByte, List.mem_cons, List.mem_singleton] at hc
  rcases hc with rfl | rfl
  · exact digit_mem_digits (by omega)
  · exact digit_mem_digits (by omega)

@[simp] theorem length_ofBytes (bs : Bytes) : (ofBytes bs).length = 2 * bs.length := by
  induction bs with
  | nil => rfl
  | cons b bs ih =>
      rw [ofBytes, List.flatMap_cons, List.length_append, ← ofBytes, ih, List.length_cons]
      have htwo : (ofByte b).length = 2 := rfl
      omega

@[simp] theorem toList_encode0x (bs : Bytes) : (encode0x bs).toList = '0' :: 'x' :: ofBytes bs := by
  simp [encode0x, encode]

def Spells (size : Nat) (s : String) : Prop :=
  ∃ bs : Bytes, bs.length = size ∧ s = encode0x bs

end ContractAbi.Hex
