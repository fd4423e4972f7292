import ContractAbi.Number.Binary64
import Mathlib.Algebra.Order.Field.Power
import Mathlib.Algebra.Order.Ring.Rat
import Mathlib.Data.Rat.Cast.Order
import Mathlib.Tactic.FieldSimp
import Mathlib.Tactic.Linarith
import Mathlib.Tactic.NormNum
import Mathlib.Tactic.Positivity
import Mathlib.Tactic.Ring

/-!
# Rounding keeps the order

A double is compared by the rational number that it is. Rounding to the nearest double never
changes the order of two numbers, so neither does taking the same double away from both.

* `magnitude_mono`: what two fractions are rounded to;
* `le_trans` and `sub_le_sub`: the order of doubles, and of differences.
-/

namespace ContractAbi.Binary64

/-! ## Exact values -/

def rat (negative : Bool) (m : Nat) (e : Int) : ℚ :=
  if negative then -(m * 2 ^ e) else m * 2 ^ e

theorem scaled_den_pos (num : Nat) {den : Nat} (e : Int) (h : 0 < den) :
    0 < (scaled num den e).2 := by
  unfold scaled
  split
  · exact h
  · exact Nat.mul_pos h (Nat.pow_pos (by decide))

theorem scaled_eq (num : Nat) {den : Nat} (e : Int) (h : 0 < den) :
    ((scaled num den e).1 : ℚ) / (scaled num den e).2 = num / den * 2 ^ e := by
  have hden : (den : ℚ) ≠ 0 := by positivity
  unfold scaled
  split
  · rename_i he
    obtain ⟨k, rfl⟩ := Int.eq_ofNat_of_zero_le he
    simp only [Int.toNat_natCast, Nat.pow_eq, Nat.cast_mul, Nat.cast_pow, Nat.cast_ofNat,
      zpow_natCast]
    field_simp
  · rename_i he
    obtain ⟨k, rfl⟩ : ∃ k : Nat, e = -(k : Int) := ⟨(-e).toNat, by omega⟩
    simp only [neg_neg, Int.toNat_natCast, Nat.pow_eq, Nat.cast_mul, Nat.cast_pow, Nat.cast_ofNat,
      zpow_neg, zpow_natCast]
    field_simp

theorem toFraction_den_pos (s : Bool) (m : Nat) (e : Int) : 0 < (toFraction s m e).2 :=
  scaled_den_pos m e Nat.one_pos

theorem toFraction_eq (s : Bool) (m : Nat) (e : Int) :
    ((toFraction s m e).1 : ℚ) / (toFraction s m e).2 = rat s m e := by
  have h := scaled_eq m e Nat.one_pos
  rw [Nat.cast_one, div_one] at h
  unfold toFraction rat
  cases s with
  | false => simpa using h
  | true =>
      rw [if_pos rfl, ← h]
      simp [neg_div]

theorem le_finite_iff {s t : Bool} {m k : Nat} {e f : Int} :
    (finite s m e).le (finite t k f) = true ↔ rat s m e ≤ rat t k f := by
  have hd : (0 : ℚ) < (toFraction s m e).2 := by exact_mod_cast toFraction_den_pos s m e
  have hq : (0 : ℚ) < (toFraction t k f).2 := by exact_mod_cast toFraction_den_pos t k f
  rw [← toFraction_eq, ← toFraction_eq, div_le_div_iff₀ hd hq]
  simp only [le, decide_eq_true_eq]
  exact_mod_cast Iff.rfl

theorem le_trans {a b c : Binary64} (hab : a.le b = true) (hbc : b.le c = true) :
    a.le c = true := by
  match a, b, c with
  | finite .., finite .., finite .. =>
      rw [le_finite_iff] at *
      exact hab.trans hbc
  | nan, _, _ => simp [le] at hab
  | infinite _, nan, _ | finite .., nan, _ => simp [le] at hab
  | _, infinite _, nan | _, finite .., nan => simp [le] at hbc
  | infinite true, _, infinite _ => cases ‹Bool› <;> rfl
  | infinite true, _, finite .. => rfl
  | finite .., _, infinite false => rfl
  | infinite false, _, infinite false => rfl
  | infinite false, infinite false, infinite true => simp [le] at hbc
  | infinite false, infinite false, finite .. => simp [le] at hbc
  | infinite false, infinite true, _ => simp [le] at hab
  | infinite false, finite .., _ => simp [le] at hab
  | finite .., infinite false, infinite true => simp [le] at hbc
  | finite .., infinite false, finite .. => simp [le] at hbc
  | finite .., infinite true, _ => simp [le] at hab
  | finite .., finite .., infinite true => simp [le] at hbc

/-! ## Quotients -/

/-- The rounded quotient is no farther than a half from the quotient, and even at a tie. -/
theorem divideRounding_spec {n d : Nat} (h : 0 < d) :
    2 * (divideRounding n d * d) ≤ 2 * n + d ∧ 2 * n ≤ 2 * (divideRounding n d * d) + d ∧
      ((2 * (divideRounding n d * d) = 2 * n + d ∨ 2 * n = 2 * (divideRounding n d * d) + d) →
        divideRounding n d % 2 = 0) := by
  have hdiv := Nat.div_add_mod n d
  have hmod := Nat.mod_lt n h
  rw [Nat.mul_comm] at hdiv
  unfold divideRounding
  dsimp only
  generalize n / d = q at *
  generalize n % d = r at *
  have hsucc : (q + 1) * d = q * d + d := Nat.succ_mul q d
  split
  · omega
  · split
    · omega
    · rcases Nat.mod_two_eq_zero_or_one q with hq | hq
      · rw [hq, Nat.add_zero]
        omega
      · rw [hq]
        omega

theorem divideRounding_mono {n d n' d' : Nat} (hd : 0 < d) (hd' : 0 < d')
    (h : (n : ℚ) / d ≤ n' / d') : divideRounding n d ≤ divideRounding n' d' := by
  obtain ⟨hup, -, heven⟩ := divideRounding_spec (n := n) hd
  obtain ⟨-, hdown, heven'⟩ := divideRounding_spec (n := n') hd'
  have hdpos : (0 : ℚ) < d := by exact_mod_cast hd
  have hdpos' : (0 : ℚ) < d' := by exact_mod_cast hd'
  generalize hm : divideRounding n d = m at *
  generalize hm' : divideRounding n' d' = m' at *
  by_contra hlt
  have hstep : (m' : ℚ) + 1 ≤ m := by exact_mod_cast Nat.lt_of_not_le hlt
  have hlow : (m : ℚ) - 1 / 2 ≤ n / d := by
    rw [le_div_iff₀ hdpos]
    have hcast : (2 : ℚ) * (m * d) ≤ 2 * n + d := by exact_mod_cast hup
    linarith
  have hhigh : (n' : ℚ) / d' ≤ m' + 1 / 2 := by
    rw [div_le_iff₀ hdpos']
    have hcast : (2 : ℚ) * n' ≤ 2 * (m' * d') + d' := by exact_mod_cast hdown
    linarith
  -- only a tie on both sides is left, and neighbours are not both even
  have htie : (n : ℚ) / d = m - 1 / 2 := by linarith
  have htie' : (n' : ℚ) / d' = m' + 1 / 2 := by linarith
  have hnext : (m : ℚ) = m' + 1 := by linarith
  rw [div_eq_iff hdpos.ne'] at htie
  rw [div_eq_iff hdpos'.ne'] at htie'
  have hm2 : m % 2 = 0 := by
    apply heven
    left
    have hcast : (2 : ℚ) * (m * d) = 2 * n + d := by linarith
    exact_mod_cast hcast
  have hm2' : m' % 2 = 0 := by
    apply heven'
    right
    have hcast : (2 : ℚ) * n' = 2 * (m' * d') + d' := by linarith
    exact_mod_cast hcast
  have hsucc : m = m' + 1 := by exact_mod_cast hnext
  omega

theorem divideRounding_one (n : Nat) : divideRounding n 1 = n := by
  simp [divideRounding, Nat.mod_one]

/-! ## Rounded magnitudes -/

theorem two_zpow_pos (e : Int) : (0 : ℚ) < 2 ^ e := zpow_pos (by norm_num) e

theorem two_zpow_le {e f : Int} (h : e ≤ f) : (2 : ℚ) ^ e ≤ 2 ^ f :=
  zpow_le_zpow_right₀ (by norm_num) h

theorem two_zpow_add (e f : Int) : (2 : ℚ) ^ (e + f) = 2 ^ e * 2 ^ f :=
  zpow_add₀ (by norm_num) e f

theorem two_zpow_log2_le {n : Nat} (h : 0 < n) : (2 : ℚ) ^ (n.log2 : Int) ≤ n := by
  rw [zpow_natCast]
  exact_mod_cast Nat.log2_self_le h.ne'

theorem lt_two_zpow_log2 (n : Nat) : (n : ℚ) < 2 ^ ((n.log2 : Int) + 1) := by
  have h := Nat.lt_log2_self (n := n)
  have hcast : ((n.log2 : Int) + 1) = ((n.log2 + 1 : Nat) : Int) := by push_cast; rfl
  rw [hcast, zpow_natCast]
  exact_mod_cast h

theorem div_lt_two_zpow_log2 (num : Nat) {den : Nat} (hden : 0 < den) :
    (num : ℚ) / den < 2 ^ ((num.log2 : Int) - den.log2 + 1) := by
  have hdpos : (0 : ℚ) < den := by exact_mod_cast hden
  rw [div_lt_iff₀ hdpos]
  calc (num : ℚ) < 2 ^ ((num.log2 : Int) + 1) := lt_two_zpow_log2 num
    _ = 2 ^ ((num.log2 : Int) - den.log2 + 1) * 2 ^ (den.log2 : Int) := by
        rw [← two_zpow_add]
        congr 1
        omega
    _ ≤ 2 ^ ((num.log2 : Int) - den.log2 + 1) * den :=
        mul_le_mul_of_nonneg_left (two_zpow_log2_le hden) (two_zpow_pos _).le

theorem two_zpow_log2_le_div {num den : Nat} (hnum : 0 < num) (hden : 0 < den) :
    (2 : ℚ) ^ ((num.log2 : Int) - den.log2 - 1) ≤ num / den := by
  have hdpos : (0 : ℚ) < den := by exact_mod_cast hden
  rw [le_div_iff₀ hdpos]
  calc (2 : ℚ) ^ ((num.log2 : Int) - den.log2 - 1) * den
      ≤ 2 ^ ((num.log2 : Int) - den.log2 - 1) * 2 ^ ((den.log2 : Int) + 1) :=
        mul_le_mul_of_nonneg_left (lt_two_zpow_log2 den).le (two_zpow_pos _).le
    _ = 2 ^ (num.log2 : Int) := by
        rw [← two_zpow_add]
        congr 1
        omega
    _ ≤ num := two_zpow_log2_le hnum

/-- The exponent leaves a whole part of at most 53 bits, and of exactly 53 if it is not the least
exponent there is. -/
theorem exponentFor_spec {num den : Nat} (hnum : 0 < num) (hden : 0 < den) :
    -1074 ≤ exponentFor num den ∧ (num : ℚ) / den < 2 ^ (exponentFor num den + 53) ∧
      (exponentFor num den = -1074 ∨ (2 : ℚ) ^ (exponentFor num den + 52) ≤ num / den) := by
  have hupper := div_lt_two_zpow_log2 num hden
  have hlower := two_zpow_log2_le_div hnum hden
  unfold exponentFor
  dsimp only
  generalize hguess : (num.log2 : Int) - den.log2 - 52 = guess
  have htest : (scaled num den (-guess)).1 / (scaled num den (-guess)).2 < 2 ^ 52 ↔
      (num : ℚ) / den < 2 ^ (guess + 52) := by
    have hpos : (0 : ℚ) < (scaled num den (-guess)).2 := by
      exact_mod_cast scaled_den_pos num (-guess) hden
    rw [Nat.div_lt_iff_lt_mul (scaled_den_pos num (-guess) hden), ← @Nat.cast_lt ℚ, Nat.cast_mul,
      ← div_lt_iff₀ hpos, scaled_eq num _ hden, zpow_neg, ← div_eq_mul_inv,
      div_lt_iff₀ (two_zpow_pos guess), two_zpow_add, mul_comm]
    norm_num
  have hexact : ∀ exact : Int, (num : ℚ) / den < 2 ^ (exact + 53) →
      (2 : ℚ) ^ (exact + 52) ≤ num / den →
      -1074 ≤ max exact (-1074) ∧ (num : ℚ) / den < 2 ^ (max exact (-1074) + 53) ∧
        (max exact (-1074) = -1074 ∨ (2 : ℚ) ^ (max exact (-1074) + 52) ≤ num / den) := by
    intro exact hless hatleast
    refine ⟨le_max_right _ _, hless.trans_le (two_zpow_le (by omega)), ?_⟩
    rcases le_total exact (-1074) with hle | hle
    · exact .inl (max_eq_right hle)
    · exact .inr (by rwa [max_eq_left hle])
  have hpow : Nat.pow 2 52 = 2 ^ 52 := rfl
  rw [hpow]
  split
  · rename_i hsmall
    apply hexact
    · exact (htest.1 hsmall).trans_le (two_zpow_le (by omega))
    · exact (two_zpow_le (by omega)).trans hlower
  · rename_i hlarge
    apply hexact
    · exact hupper.trans_le (two_zpow_le (by omega))
    · exact le_of_not_gt fun h => hlarge (htest.2 h)

/-- The significand that a fraction is rounded to, before it is brought below `2 ^ 53`. -/
def significand (num den : Nat) : Nat :=
  divideRounding (scaled num den (-exponentFor num den)).1
    (scaled num den (-exponentFor num den)).2

def magnitude (num den : Nat) : ℚ :=
  significand num den * 2 ^ exponentFor num den

section

variable {num den num' den' : Nat} (hden : 0 < den) (hden' : 0 < den')

include hden

theorem magnitude_zero : magnitude 0 den = 0 := by
  have hpos := scaled_den_pos 0 (-exponentFor 0 den) hden
  have hzero : (scaled 0 den (-exponentFor 0 den)).1 = 0 := by
    unfold scaled
    split <;> simp
  unfold magnitude significand
  rw [hzero]
  simp [divideRounding, hpos]

theorem scaled_exponentFor :
    ((scaled num den (-exponentFor num den)).1 : ℚ) / (scaled num den (-exponentFor num den)).2 =
      num / den / 2 ^ exponentFor num den := by
  rw [scaled_eq num _ hden, zpow_neg, div_eq_mul_inv (num / den : ℚ)]

theorem significand_le (hnum : 0 < num) : significand num den ≤ 2 ^ 53 := by
  obtain ⟨-, hless, -⟩ := exponentFor_spec hnum hden
  rw [two_zpow_add, ← div_lt_iff₀' (two_zpow_pos _)] at hless
  rw [← divideRounding_one (2 ^ 53)]
  refine divideRounding_mono (scaled_den_pos num _ hden) Nat.one_pos ?_
  rw [scaled_exponentFor hden]
  exact hless.le.trans (by norm_num)

theorem le_significand (hnum : 0 < num) (hleast : exponentFor num den ≠ -1074) :
    2 ^ 52 ≤ significand num den := by
  obtain ⟨-, -, hatleast⟩ := exponentFor_spec hnum hden
  have hatleast := hatleast.resolve_left hleast
  rw [two_zpow_add, ← le_div_iff₀' (two_zpow_pos _)] at hatleast
  rw [← divideRounding_one (2 ^ 52)]
  refine divideRounding_mono Nat.one_pos (scaled_den_pos num _ hden) ?_
  rw [scaled_exponentFor hden]
  exact (by norm_num : ((2 ^ 52 : ℕ) : ℚ) / (1 : ℕ) ≤ 2 ^ (52 : Int)).trans hatleast

include hden'

theorem magnitude_mono (h : (num : ℚ) / den ≤ num' / den') :
    magnitude num den ≤ magnitude num' den' := by
  rcases Nat.eq_zero_or_pos num with rfl | hnum
  · rw [magnitude_zero hden]
    exact mul_nonneg (Nat.cast_nonneg _) (two_zpow_pos _).le
  have hdpos : (0 : ℚ) < den := by exact_mod_cast hden
  have hdpos' : (0 : ℚ) < den' := by exact_mod_cast hden'
  have hnum' : 0 < num' := by
    have hpos : (0 : ℚ) < num / den := div_pos (by exact_mod_cast hnum) hdpos
    have hpos' : (0 : ℚ) < num' / den' := hpos.trans_le h
    exact_mod_cast (div_pos_iff_of_pos_right hdpos').1 hpos'
  obtain ⟨hmin, hless, hatleast⟩ := exponentFor_spec hnum hden
  obtain ⟨hmin', hless', hatleast'⟩ := exponentFor_spec hnum' hden'
  have hle := significand_le hden hnum
  have hge := le_significand hden' hnum'
  unfold magnitude
  rcases lt_trichotomy (exponentFor num den) (exponentFor num' den') with hlt | heq | hgt
  · calc (significand num den : ℚ) * 2 ^ exponentFor num den
        ≤ 2 ^ (53 : Int) * 2 ^ exponentFor num den :=
          mul_le_mul_of_nonneg_right (by exact_mod_cast hle) (two_zpow_pos _).le
      _ ≤ 2 ^ (52 : Int) * 2 ^ exponentFor num' den' := by
          rw [← two_zpow_add, ← two_zpow_add]
          exact two_zpow_le (by omega)
      _ ≤ significand num' den' * 2 ^ exponentFor num' den' :=
          mul_le_mul_of_nonneg_right (by exact_mod_cast hge (by omega)) (two_zpow_pos _).le
  · have hmono : significand num den ≤ significand num' den' := by
      refine divideRounding_mono (scaled_den_pos num _ hden) (scaled_den_pos num' _ hden') ?_
      rw [scaled_exponentFor hden, scaled_exponentFor hden', heq]
      exact div_le_div_of_nonneg_right h (two_zpow_pos _).le
    rw [heq]
    exact mul_le_mul_of_nonneg_right (by exact_mod_cast hmono) (two_zpow_pos _).le
  · have hbelow : (2 : ℚ) ^ (exponentFor num' den' + 53) ≤ 2 ^ (exponentFor num den + 52) :=
      two_zpow_le (by omega)
    have habove := hatleast.resolve_left (by omega)
    linarith

end

/-! ## Rounded fractions -/

def overflow : ℚ := 2 ^ (1024 : Int)

theorem overflow_pos : 0 < overflow := two_zpow_pos 1024

/-- The significand and exponent that a fraction is rounded to, with a carry brought into the
exponent. -/
def carried (num den : Nat) : Nat × Int :=
  if significand num den = 2 ^ 53 then (2 ^ 52, exponentFor num den + 1)
  else (significand num den, exponentFor num den)

theorem ofFraction_eq (s : Bool) {num : Nat} (den : Nat) (hnum : 0 < num) :
    ofFraction s num den =
      if 971 < (carried num den).2 then infinite s
      else finite s (carried num den).1 (carried num den).2 := by
  have hpow53 : Nat.pow 2 53 = 2 ^ 53 := rfl
  have hpow52 : Nat.pow 2 52 = 2 ^ 52 := rfl
  rw [ofFraction, if_neg hnum.ne', hpow53, hpow52]
  rfl

/-- With a carry brought into the exponent, the significand is below `2 ^ 53` and the value the
same. The significand has all of its bits, unless the exponent is the least there is. -/
theorem carried_spec {num den : Nat} (hnum : 0 < num) (hden : 0 < den) :
    ((carried num den).1 * 2 ^ (carried num den).2 : ℚ) = magnitude num den ∧
      (carried num den).1 < 2 ^ 53 ∧ -1074 ≤ (carried num den).2 ∧
      ((carried num den).2 = -1074 ∨ 2 ^ 52 ≤ (carried num den).1) := by
  have hle := significand_le hden hnum
  have hge := le_significand hden hnum
  obtain ⟨hleast, -, -⟩ := exponentFor_spec hnum hden
  unfold carried
  by_cases hcarry : significand num den = 2 ^ 53
  · rw [if_pos hcarry]
    refine ⟨?_, by norm_num, by omega, .inr le_rfl⟩
    unfold magnitude
    rw [hcarry, two_zpow_add]
    push_cast
    ring
  · rw [if_neg hcarry]
    refine ⟨rfl, by omega, hleast, ?_⟩
    by_cases he : exponentFor num den = -1074
    · exact .inl he
    · exact .inr (hge he)

/-- A fraction is rounded to the double of its magnitude, or beyond all of them. -/
theorem ofFraction_cases (s : Bool) (num : Nat) {den : Nat} (hden : 0 < den) :
    (ofFraction s num den = infinite s ∧ overflow ≤ magnitude num den) ∨
      ∃ m e, ofFraction s num den = finite s m e ∧ (m * 2 ^ e : ℚ) = magnitude num den ∧
        magnitude num den < overflow := by
  rcases Nat.eq_zero_or_pos num with rfl | hnum
  · refine .inr ⟨0, -1074, by simp [ofFraction], ?_, ?_⟩
    · rw [magnitude_zero hden]
      simp
    · rw [magnitude_zero hden]
      exact overflow_pos
  obtain ⟨hvalue, hsmall, -, hlarge⟩ := carried_spec hnum hden
  rw [ofFraction_eq s den hnum]
  generalize (carried num den).1 = m at *
  generalize (carried num den).2 = e at *
  by_cases he : 971 < e
  · have hfull : 2 ^ 52 ≤ m := hlarge.resolve_left (by omega)
    refine .inl ⟨if_pos he, ?_⟩
    rw [← hvalue]
    calc overflow = 2 ^ (52 : Int) * 2 ^ (972 : Int) := by
          rw [← two_zpow_add]
          rfl
      _ ≤ m * 2 ^ e := by
          refine mul_le_mul (by exact_mod_cast hfull) (two_zpow_le (by omega))
            (two_zpow_pos _).le (Nat.cast_nonneg _)
  · refine .inr ⟨m, e, if_neg he, hvalue, ?_⟩
    rw [← hvalue]
    calc (m * 2 ^ e : ℚ) < 2 ^ (53 : Int) * 2 ^ e :=
          mul_lt_mul_of_pos_right (by exact_mod_cast hsmall) (two_zpow_pos _)
      _ ≤ 2 ^ (53 : Int) * 2 ^ (971 : Int) :=
          mul_le_mul_of_nonneg_left (two_zpow_le (by omega)) (two_zpow_pos _).le
      _ = overflow := by
          rw [← two_zpow_add]
          rfl

def signed (s : Bool) (num den : Nat) : ℚ :=
  if s then -(num / den) else num / den

theorem magnitude_nonneg (num den : Nat) : 0 ≤ magnitude num den :=
  mul_nonneg (Nat.cast_nonneg _) (two_zpow_pos _).le

theorem signed_magnitude_le {s t : Bool} {num den num' den' : Nat} (hden : 0 < den)
    (hden' : 0 < den') (h : signed s num den ≤ signed t num' den') :
    (if s then -magnitude num den else magnitude num den) ≤
      if t then -magnitude num' den' else magnitude num' den' := by
  have hnonneg : (0 : ℚ) ≤ num / den := by positivity
  have hnonneg' : (0 : ℚ) ≤ num' / den' := by positivity
  have hmagnitude := magnitude_nonneg num den
  have hmagnitude' := magnitude_nonneg num' den'
  unfold signed at h
  cases s <;> cases t <;> simp only [if_true, if_false, Bool.false_eq_true] at h ⊢
  · exact magnitude_mono hden hden' h
  · -- no more than zero and no less: both are zero
    have hsmall : (num : ℚ) / den ≤ (0 : ℕ) / (1 : ℕ) := by
      simpa using h.trans (neg_nonpos.2 hnonneg')
    have hsmall' : (num' : ℚ) / den' ≤ (0 : ℕ) / (1 : ℕ) := by
      simpa using le_neg.1 (hnonneg.trans h)
    have hzero := magnitude_mono hden Nat.one_pos hsmall
    have hzero' := magnitude_mono hden' Nat.one_pos hsmall'
    rw [magnitude_zero Nat.one_pos] at hzero hzero'
    linarith
  · linarith
  · exact neg_le_neg (magnitude_mono hden' hden (neg_le_neg_iff.1 h))

theorem ofFraction_le {s t : Bool} {num den num' den' : Nat} (hden : 0 < den) (hden' : 0 < den')
    (h : signed s num den ≤ signed t num' den') :
    (ofFraction s num den).le (ofFraction t num' den') = true := by
  have hcompare := signed_magnitude_le hden hden' h
  have hmagnitude := magnitude_nonneg num den
  have hmagnitude' := magnitude_nonneg num' den'
  have hoverflow := overflow_pos
  rcases ofFraction_cases s num hden with ⟨hx, hlarge⟩ | ⟨m, e, hx, hvalue, hsmall⟩
  · rw [hx]
    rcases ofFraction_cases t num' hden' with ⟨hy, -⟩ | ⟨k, f, hy, -, hsmall'⟩
    · rw [hy]
      cases s <;> cases t <;> simp only [if_true, if_false, Bool.false_eq_true] at hcompare
      · rfl
      · exact absurd hcompare (by linarith)
      · rfl
      · rfl
    · rw [hy]
      cases s <;> cases t <;> simp only [if_true, if_false, Bool.false_eq_true] at hcompare
      · exact absurd hcompare (by linarith)
      · exact absurd hcompare (by linarith)
      · rfl
      · rfl
  · rw [hx]
    rcases ofFraction_cases t num' hden' with
      ⟨hy, hlarge'⟩ | ⟨k, f, hy, hvalue', -⟩
    · rw [hy]
      cases s <;> cases t <;> simp only [if_true, if_false, Bool.false_eq_true] at hcompare
      · rfl
      · exact absurd hcompare (by linarith)
      · rfl
      · exact absurd hcompare (by linarith)
    · rw [hy, le_finite_iff]
      unfold rat
      rw [hvalue, hvalue']
      exact hcompare

theorem ofFraction_le_infinite (s : Bool) (num : Nat) {den : Nat} (hden : 0 < den) :
    (ofFraction s num den).le (infinite false) = true := by
  rcases ofFraction_cases s num hden with ⟨hx, -⟩ | ⟨m, e, hx, -⟩
  · rw [hx]
    cases s <;> rfl
  · rw [hx]
    rfl

/-! ## Differences -/

theorem add_finite (s t : Bool) (m k : Nat) (e f : Int) :
    ∃ u num den, 0 < den ∧ signed u num den = rat s m e + rat t k f ∧
      (finite s m e).add (finite t k f) = ofFraction u num den := by
  have hd : 0 < (toFraction s m e).2 := toFraction_den_pos s m e
  have hq : 0 < (toFraction t k f).2 := toFraction_den_pos t k f
  have hdpos : (0 : ℚ) < (toFraction s m e).2 := by exact_mod_cast hd
  have hqpos : (0 : ℚ) < (toFraction t k f).2 := by exact_mod_cast hq
  rw [← toFraction_eq, ← toFraction_eq, div_add_div _ _ hdpos.ne' hqpos.ne']
  simp only [add]
  generalize (toFraction s m e).1 = n at *
  generalize (toFraction t k f).1 = p at *
  generalize (toFraction s m e).2 = d at *
  generalize (toFraction t k f).2 = q at *
  have hsum : ((n : ℚ) * q + d * p) = ((n * q + p * d : Int) : ℚ) := by
    push_cast
    ring
  rw [hsum]
  generalize n * q + p * d = sum at *
  by_cases hzero : sum = 0
  · refine ⟨s && t, 0, 1, Nat.one_pos, ?_, ?_⟩
    · simp [signed, hzero]
    · rw [if_pos hzero]
      simp [ofFraction]
  · refine ⟨decide (sum < 0), sum.natAbs, d * q, Nat.mul_pos hd hq, ?_, if_neg hzero⟩
    unfold signed
    by_cases hneg : sum < 0
    · have habs : ((sum.natAbs : Nat) : ℚ) = -(sum : ℚ) := by
        rw [Nat.cast_natAbs, abs_of_neg hneg, Int.cast_neg]
      rw [decide_eq_true hneg, if_pos rfl, habs]
      push_cast
      ring
    · have habs : ((sum.natAbs : Nat) : ℚ) = (sum : ℚ) := by
        rw [Nat.cast_natAbs, abs_of_nonneg (not_lt.1 hneg)]
      rw [decide_eq_false hneg, if_neg (by simp), habs]
      push_cast
      ring

/-- Only doubles below the greatest one differ from it by a number, and all do by the same. -/
theorem sub_infinite_of_le {x b : Binary64} (hx : x.le b = true)
    (hb : b.sub (infinite false) ≠ nan) : x.sub (infinite false) = infinite true := by
  match x, b with
  | infinite true, _ => rfl
  | finite .., finite .. => rfl
  | nan, _ | infinite false, nan | finite .., nan => simp [le] at hx
  | _, infinite false => exact absurd rfl hb
  | infinite false, infinite true | infinite false, finite .. => simp [le] at hx
  | finite .., infinite true => simp [le] at hx

/-- Taking the same double away keeps the order, wherever the difference is a number. -/
theorem sub_le_sub {a b c : Binary64} (hc : c ≠ infinite true) (hab : a.le b = true)
    (hb : b.sub c ≠ nan) : (a.sub c).le (b.sub c) = true := by
  cases c with
  | nan => cases b <;> exact absurd rfl hb
  | infinite negative =>
      cases negative with
      | true => exact absurd rfl hc
      | false =>
          rw [sub_infinite_of_le hab hb]
          cases hsub : b.sub (infinite false) with
          | nan => exact absurd hsub hb
          | _ => rfl
  | finite t k f =>
      match a, b with
      | nan, _ | infinite _, nan | finite .., nan => simp [le] at hab
      | infinite true, infinite _ => rfl
      | infinite true, finite s m e =>
          obtain ⟨u, num, den, hden, -, hsum⟩ := add_finite s (!t) m k e f
          cases hsub : (finite s m e).sub (finite t k f) with
          | nan => exact absurd hsub hb
          | _ => rfl
      | infinite false, infinite false => rfl
      | infinite false, infinite true | infinite false, finite .. => simp [le] at hab
      | finite .., infinite true => simp [le] at hab
      | finite s m e, infinite false =>
          obtain ⟨u, num, den, hden, -, hsum⟩ := add_finite s (!t) m k e f
          unfold sub neg
          rw [hsum]
          exact ofFraction_le_infinite u num hden
      | finite s m e, finite s' m' e' =>
          obtain ⟨u, num, den, hden, hvalue, hsum⟩ := add_finite s (!t) m k e f
          obtain ⟨u', num', den', hden', hvalue', hsum'⟩ := add_finite s' (!t) m' k e' f
          unfold sub neg
          rw [hsum, hsum']
          apply ofFraction_le hden hden'
          rw [hvalue, hvalue']
          have hle := le_finite_iff.1 hab
          linarith

end ContractAbi.Binary64
