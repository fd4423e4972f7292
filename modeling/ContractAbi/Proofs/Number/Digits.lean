import ContractAbi.Number.Binary64
import Mathlib.Tactic.Linarith
import Mathlib.Tactic.Positivity
import Mathlib.Tactic.Ring

/-!
# Decimal digits

* `exists_toDigits`: a positive number does not start with zero;
* `lt_ten_pow_length` and `ten_pow_length_le`: how many digits a number has;
* `digitsValue_append`: the number that digits stand for, part by part;
* `length_toDigits_digitsValue`: it has no more digits than there are.
-/

namespace ContractAbi.Binary64

/-! ## The digits of a number -/

theorem isDigit_of_mem_toDigits {n : Nat} {c : Char} (h : c ∈ Nat.toDigits 10 n) :
    c.isDigit = true :=
  Nat.isDigit_of_mem_toDigits (by decide) (by decide) h

theorem exists_toDigits {n : Nat} (h : 0 < n) :
    ∃ c cs, Nat.toDigits 10 n = c :: cs ∧ c ≠ '0' := by
  induction n using Nat.strongRecOn with
  | ind n ih =>
      rw [Nat.toDigits_eq_if (by decide)]
      split
      · rename_i hlt
        have hdigit : ∀ k < 10, 0 < k → Nat.digitChar k ≠ '0' := by decide
        exact ⟨_, _, rfl, hdigit n hlt h⟩
      · obtain ⟨c, cs, hdigits, hc⟩ := ih (n / 10) (by omega) (by omega)
        exact ⟨c, cs ++ [Nat.digitChar (n % 10)], by rw [hdigits]; rfl, hc⟩

theorem lt_ten_pow_length (n : Nat) : n < 10 ^ (Nat.toDigits 10 n).length :=
  (Nat.length_toDigits_le_iff (by decide) Nat.length_toDigits_pos).1 le_rfl

theorem ten_pow_length_le {n : Nat} (hn : 0 < n) : 10 ^ ((Nat.toDigits 10 n).length - 1) ≤ n := by
  rcases Nat.eq_zero_or_pos ((Nat.toDigits 10 n).length - 1) with hzero | hpos
  · rw [hzero]
    exact hn
  · by_contra hlt
    have hle := (Nat.length_toDigits_le_iff (by decide) hpos).2 (Nat.lt_of_not_le hlt)
    omega

theorem length_toDigits_mul {n : Nat} (hn : 0 < n) (k : Nat) :
    (Nat.toDigits 10 (n * 10 ^ k)).length = (Nat.toDigits 10 n).length + k := by
  induction k with
  | zero => simp
  | succ k ih =>
      have hpos : 0 < n * 10 ^ k := by positivity
      have hnext : Nat.toDigits 10 (n * 10 ^ (k + 1)) =
          Nat.toDigits 10 (n * 10 ^ k) ++ Nat.toDigits 10 0 := by
        rw [Nat.toDigits_append_toDigits (by decide) hpos (by decide)]
        congr 1
        ring
      rw [hnext, List.length_append, ih]
      rfl

/-! ## The number of digits -/

theorem digitsValue_toDigits (n : Nat) : digitsValue (Nat.toDigits 10 n) = n :=
  Nat.ofDigitChars_ten_toDigits

theorem digitsValue_append (ds zs : List Char) :
    digitsValue (ds ++ zs) = digitsValue ds * 10 ^ zs.length + digitsValue zs := by
  have happend : digitsValue (ds ++ zs) = Nat.ofDigitChars 10 zs (digitsValue ds) :=
    Nat.ofDigitChars_append 0
  rw [happend, Nat.ofDigitChars_eq_ofDigitChars_zero, Nat.mul_comm]
  rfl

theorem digitsValue_zeros (n : Nat) : digitsValue (List.replicate n '0') = 0 :=
  Nat.ofDigitChars_replicate_zero

theorem digitsValue_lt {ds : List Char} (h : ∀ d ∈ ds, d.isDigit = true) :
    digitsValue ds < 10 ^ ds.length := by
  induction ds using List.reverseRecOn with
  | nil => exact Nat.one_pos
  | append_singleton ds d ih =>
      have hrest := ih fun c hc => h c (List.mem_append_left _ hc)
      have hdigit : 48 ≤ d.toNat ∧ d.toNat ≤ 57 := Char.isDigit_iff_toNat.1 (h d (by simp))
      have hvalue : digitsValue [d] = d.toNat - 48 := by
        unfold digitsValue
        simp
      rw [digitsValue_append, hvalue, List.length_append, List.length_singleton, pow_succ]
      omega

/-- A number that is read from digits has no more of them, and one digit if there were none. -/
theorem length_toDigits_digitsValue {ds : List Char} (h : ∀ d ∈ ds, d.isDigit = true)
    (hne : ds ≠ []) : (Nat.toDigits 10 (digitsValue ds)).length ≤ ds.length :=
  (Nat.length_toDigits_le_iff (by decide) (List.length_pos_iff.2 hne)).2 (digitsValue_lt h)

end ContractAbi.Binary64
