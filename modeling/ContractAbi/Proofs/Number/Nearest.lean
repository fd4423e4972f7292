import ContractAbi.Proofs.Number.Digits
import ContractAbi.Proofs.Number.Rounding
import Mathlib.Algebra.Order.Ring.Abs

/-!
# What is rounded to a double

All numbers near a double are rounded to it, however they are written as a fraction or a decimal.

* `IsDouble` and `Proper`: the doubles there are, which are all that rounding gives;
* `ofFraction_congr`: equal fractions are rounded alike;
* `ofFraction_near`: what is near a double is rounded to it;
* `ofDecimal_eq` and `ofDecimal_near`: the same of decimals.
-/

namespace ContractAbi.Binary64

/-! ## The doubles there are -/

/-- The significand has at most 53 bits, and no fewer unless the exponent is the least there is. -/
structure IsDouble (m : Nat) (e : Int) : Prop where
  below : m < 2 ^ 53
  least : -1074 ≤ e
  greatest : e ≤ 971
  full : e = -1074 ∨ 2 ^ 52 ≤ m

def Proper : Binary64 → Prop
  | nan | infinite _ => True
  | finite _ m e => IsDouble m e

theorem isDouble_zero : IsDouble 0 (-1074) where
  below := by norm_num
  least := le_rfl
  greatest := by norm_num
  full := .inl rfl

theorem proper_ofFraction (s : Bool) (num : Nat) {den : Nat} (hden : 0 < den) :
    (ofFraction s num den).Proper := by
  rcases Nat.eq_zero_or_pos num with rfl | hnum
  · exact isDouble_zero
  · obtain ⟨-, hbelow, hleast, hfull⟩ := carried_spec hnum hden
    rw [ofFraction_eq s den hnum]
    split
    · trivial
    · rename_i hgreatest
      exact ⟨hbelow, hleast, by omega, hfull⟩

theorem proper_ofInt (n : Int) : (ofInt n).Proper :=
  proper_ofFraction _ _ Nat.one_pos

/-! ## Equal fractions -/

theorem exponentFor_eq {num den : Nat} {e : Int} (hnum : 0 < num) (hden : 0 < den)
    (hleast : -1074 ≤ e) (hless : (num : ℚ) / den < 2 ^ (e + 53))
    (hfull : e = -1074 ∨ (2 : ℚ) ^ (e + 52) ≤ num / den) : exponentFor num den = e := by
  obtain ⟨hleast', hless', hfull'⟩ := exponentFor_spec hnum hden
  rcases lt_trichotomy (exponentFor num den) e with hlt | heq | hgt
  · have hge := hfull.resolve_left (by omega)
    have hle : (2 : ℚ) ^ (exponentFor num den + 53) ≤ 2 ^ (e + 52) := two_zpow_le (by omega)
    linarith
  · exact heq
  · have hge := hfull'.resolve_left (by omega)
    have hle : (2 : ℚ) ^ (e + 53) ≤ 2 ^ (exponentFor num den + 52) := two_zpow_le (by omega)
    linarith

theorem pos_of_div_eq {num den num' den' : Nat} (hnum : 0 < num) (hden : 0 < den)
    (hden' : 0 < den') (h : (num : ℚ) / den = num' / den') : 0 < num' := by
  have hpos : (0 : ℚ) < num / den := by positivity
  rw [h] at hpos
  have hdpos : (0 : ℚ) < den' := by exact_mod_cast hden'
  exact_mod_cast (div_pos_iff_of_pos_right hdpos).1 hpos

theorem ofFraction_congr (s : Bool) {num den num' den' : Nat} (hden : 0 < den) (hden' : 0 < den')
    (h : (num : ℚ) / den = num' / den') : ofFraction s num den = ofFraction s num' den' := by
  rcases Nat.eq_zero_or_pos num with rfl | hnum
  · rcases Nat.eq_zero_or_pos num' with rfl | hnum'
    · rfl
    · exact absurd (pos_of_div_eq hnum' hden' hden h.symm) (lt_irrefl 0)
  · have hnum' := pos_of_div_eq hnum hden hden' h
    obtain ⟨hleast, hless, hfull⟩ := exponentFor_spec hnum' hden'
    rw [← h] at hless hfull
    have hexponent : exponentFor num den = exponentFor num' den' :=
      exponentFor_eq hnum hden hleast hless hfull
    have hscaled : ((scaled num den (-exponentFor num den)).1 : ℚ) /
        (scaled num den (-exponentFor num den)).2 = num / den / 2 ^ exponentFor num den :=
      scaled_exponentFor hden
    rw [hexponent, h, ← scaled_exponentFor hden', ← hexponent] at hscaled
    have hpos := scaled_den_pos num (-exponentFor num den) hden
    have hpos' := scaled_den_pos num' (-exponentFor num' den') hden'
    have hsignificand : significand num den = significand num' den' := by
      apply le_antisymm
      · exact divideRounding_mono hpos hpos' (by rw [hscaled, hexponent])
      · exact divideRounding_mono hpos' hpos (by rw [hscaled, hexponent])
    have hcarried : carried num den = carried num' den' := by
      unfold carried
      rw [hsignificand, hexponent]
    rw [ofFraction_eq s den hnum, ofFraction_eq s den' hnum', hcarried]

/-! ## Numbers near a double -/

theorem divideRounding_eq {n d k : Nat} (hd : 0 < d) (h : |(n : ℚ) / d - k| < 1 / 2) :
    divideRounding n d = k := by
  obtain ⟨hup, hdown, -⟩ := divideRounding_spec (n := n) hd
  have hdpos : (0 : ℚ) < d := by exact_mod_cast hd
  obtain ⟨hlow, hhigh⟩ := abs_lt.1 h
  have hless : (divideRounding n d : ℚ) - 1 / 2 ≤ n / d := by
    rw [le_div_iff₀ hdpos]
    have hcast : (2 : ℚ) * (divideRounding n d * d) ≤ 2 * n + d := by exact_mod_cast hup
    linarith
  have hmore : (n : ℚ) / d ≤ divideRounding n d + 1 / 2 := by
    rw [div_le_iff₀ hdpos]
    have hcast : (2 : ℚ) * n ≤ 2 * (divideRounding n d * d) + d := by exact_mod_cast hdown
    linarith
  have hbelow : divideRounding n d < k + 1 := by
    have hcast : (divideRounding n d : ℚ) < k + 1 := by linarith
    exact_mod_cast hcast
  have habove : k < divideRounding n d + 1 := by
    have hcast : (k : ℚ) < divideRounding n d + 1 := by linarith
    exact_mod_cast hcast
  omega

/-- Where the exponent is known, so is the significand that a number is rounded to. -/
theorem significand_eq {num den k : Nat} {e : Int} (hden : 0 < den)
    (hexponent : exponentFor num den = e) (h : |(num : ℚ) / den - k * 2 ^ e| < 2 ^ e / 2) :
    significand num den = k := by
  have hpos := two_zpow_pos e
  apply divideRounding_eq (scaled_den_pos num _ hden)
  rw [scaled_exponentFor hden, hexponent]
  have hscaled : (num : ℚ) / den / 2 ^ e - k = (num / den - k * 2 ^ e) / 2 ^ e := by
    field_simp
  rw [hscaled, abs_div, abs_of_pos hpos, div_lt_iff₀ hpos]
  linarith

variable {m num den : Nat} {e : Int}

theorem pos_of_near (hm : 0 < m) (h : |(num : ℚ) / den - m * 2 ^ e| < 2 ^ e / 2) : 0 < num := by
  apply Nat.pos_of_ne_zero
  rintro rfl
  have hpos := two_zpow_pos e
  have hone : (1 : ℚ) ≤ m := by exact_mod_cast hm
  have hle : (2 : ℚ) ^ e ≤ m * 2 ^ e := by
    calc (2 : ℚ) ^ e = 1 * 2 ^ e := (one_mul _).symm
      _ ≤ m * 2 ^ e := mul_le_mul_of_nonneg_right hone hpos.le
  obtain ⟨hlow, -⟩ := abs_lt.1 h
  rw [Nat.cast_zero, zero_div, zero_sub] at hlow
  linarith

/-- A number in the range of the double's exponent, and less than half a unit away. -/
theorem ofFraction_within (s : Bool) (h : IsDouble m e) (hm : 0 < m) (hden : 0 < den)
    (hfull : e = -1074 ∨ (2 : ℚ) ^ (e + 52) ≤ num / den)
    (hnear : |(num : ℚ) / den - m * 2 ^ e| < 2 ^ e / 2) : ofFraction s num den = finite s m e := by
  have hpos := two_zpow_pos e
  have hnum := pos_of_near hm hnear
  have hless : (num : ℚ) / den < 2 ^ (e + 53) := by
    have hbelow : (m : ℚ) + 1 ≤ 2 ^ 53 := by exact_mod_cast h.below
    calc (num : ℚ) / den < m * 2 ^ e + 2 ^ e / 2 := by
          have hhigh := (abs_lt.1 hnear).2
          linarith
      _ ≤ (m + 1) * 2 ^ e := by linarith
      _ ≤ 2 ^ 53 * 2 ^ e := mul_le_mul_of_nonneg_right hbelow hpos.le
      _ = 2 ^ (e + 53) := by
          rw [two_zpow_add, mul_comm]
          norm_num
  have hexponent := exponentFor_eq hnum hden h.least hless hfull
  have hsignificand := significand_eq hden hexponent hnear
  have hcarried : carried num den = (m, e) := by
    unfold carried
    rw [hsignificand, hexponent, if_neg h.below.ne]
  rw [ofFraction_eq s den hnum, hcarried, if_neg h.greatest.not_gt]

theorem ofFraction_below (s : Bool) (h : IsDouble (2 ^ 52) e) (hden : 0 < den) (hleast : e ≠ -1074)
    (hless : (num : ℚ) / den < 2 ^ (e + 52))
    (hnear : |(num : ℚ) / den - 2 ^ (e + 52)| < 2 ^ e / 4) :
    ofFraction s num den = finite s (2 ^ 52) e := by
  have hleast' : -1074 ≤ e - 1 := by
    have hle := h.least
    omega
  have hhalf : (2 : ℚ) ^ e = 2 * 2 ^ (e - 1) := by
    rw [mul_comm, ← zpow_add_one₀ (by norm_num), sub_add_cancel]
  have hvalue : ((2 ^ 53 : ℕ) : ℚ) * 2 ^ (e - 1) = 2 ^ (e + 52) := by
    rw [two_zpow_add, hhalf]
    norm_num
    ring
  have hpos := two_zpow_pos (e - 1)
  have hnear' : |(num : ℚ) / den - (2 ^ 53 : ℕ) * 2 ^ (e - 1)| < 2 ^ (e - 1) / 2 := by
    rw [hvalue]
    calc |(num : ℚ) / den - 2 ^ (e + 52)| < 2 ^ e / 4 := hnear
      _ = 2 ^ (e - 1) / 2 := by
          rw [hhalf]
          ring
  have hnum := pos_of_near (by norm_num) hnear'
  have hless' : (num : ℚ) / den < 2 ^ (e - 1 + 53) := by
    calc (num : ℚ) / den < 2 ^ (e + 52) := hless
      _ = 2 ^ (e - 1 + 53) := by congr 1; omega
  have hatleast : (2 : ℚ) ^ (e - 1 + 52) ≤ num / den := by
    have hsplit : (2 : ℚ) ^ (e + 52) = 2 * 2 ^ (e - 1 + 52) := by
      rw [two_zpow_add, two_zpow_add, hhalf]
      ring
    have hle : (2 : ℚ) ^ (e - 1) ≤ 2 ^ (e - 1 + 52) := two_zpow_le (by omega)
    have hlow := (abs_lt.1 hnear).1
    linarith
  have hexponent : exponentFor num den = e - 1 :=
    exponentFor_eq hnum hden hleast' hless' (.inr hatleast)
  have hsignificand := significand_eq hden hexponent hnear'
  have hcarried : carried num den = (2 ^ 52, e) := by
    unfold carried
    rw [hsignificand, hexponent, if_pos rfl, sub_add_cancel]
  rw [ofFraction_eq s den hnum, hcarried, if_neg h.greatest.not_gt]

/-- A number less than half a unit away from a double is rounded to it. Below a power of two it has
to be less than a quarter of a unit away. -/
theorem ofFraction_near (s : Bool) (h : IsDouble m e) (hm : 0 < m) (hden : 0 < den)
    (hnear : |(num : ℚ) / den - m * 2 ^ e| < 2 ^ e / 2)
    (hclose : m = 2 ^ 52 → |(num : ℚ) / den - m * 2 ^ e| < 2 ^ e / 4) :
    ofFraction s num den = finite s m e := by
  have hpower : ((2 ^ 52 : ℕ) : ℚ) * 2 ^ e = 2 ^ (e + 52) := by
    rw [two_zpow_add, mul_comm]
    norm_num
  by_cases hleast : e = -1074
  · exact ofFraction_within s h hm hden (.inl hleast) hnear
  · rcases (h.full.resolve_left hleast).eq_or_lt with rfl | hlt
    · have hquarter := hclose rfl
      rw [hpower] at hquarter
      rcases lt_or_ge ((num : ℚ) / den) (2 ^ (e + 52)) with hless | hge
      · exact ofFraction_below s h hden hleast hless hquarter
      · exact ofFraction_within s h hm hden (.inr hge) hnear
    · apply ofFraction_within s h hm hden _ hnear
      right
      have hone : ((2 ^ 52 : ℕ) : ℚ) + 1 ≤ m := by exact_mod_cast hlt
      have hpos := two_zpow_pos e
      have hlow := (abs_lt.1 hnear).1
      calc (2 : ℚ) ^ (e + 52) = (2 ^ 52 : ℕ) * 2 ^ e := hpower.symm
        _ = ((2 ^ 52 : ℕ) + 1) * 2 ^ e - 2 ^ e := by ring
        _ ≤ m * 2 ^ e - 2 ^ e := by
            have hle := mul_le_mul_of_nonneg_right hone hpos.le
            linarith
        _ ≤ num / den := by linarith

/-! ## Decimals -/

def decimalFraction (digits : Nat) (e : Int) : Nat × Nat :=
  if 0 ≤ e then (digits * 10 ^ e.toNat, 1) else (digits, 10 ^ (-e).toNat)

def decimalLength (digits : Nat) (e : Int) : Int :=
  (Nat.toDigits 10 digits).length + e

theorem decimalFraction_den_pos (digits : Nat) (e : Int) : 0 < (decimalFraction digits e).2 := by
  unfold decimalFraction
  split
  · exact Nat.one_pos
  · positivity

theorem decimalFraction_eq (digits : Nat) (e : Int) :
    ((decimalFraction digits e).1 : ℚ) / (decimalFraction digits e).2 = digits * 10 ^ e := by
  unfold decimalFraction
  split
  · rename_i he
    obtain ⟨k, rfl⟩ := Int.eq_ofNat_of_zero_le he
    simp
  · rename_i he
    obtain ⟨k, rfl⟩ : ∃ k : Nat, e = -(k : Int) := ⟨(-e).toNat, by omega⟩
    simp [div_eq_mul_inv]

theorem ofDecimal_eq (s : Bool) {digits : Nat} (e : Int) (h : 0 < digits) :
    ofDecimal s digits e =
      if 310 < decimalLength digits e then infinite s
      else if decimalLength digits e < -330 then finite s 0 (-1074)
      else ofFraction s (decimalFraction digits e).1 (decimalFraction digits e).2 := by
  unfold ofDecimal decimalFraction
  rw [if_neg h.ne']
  dsimp only
  by_cases he : 0 ≤ e
  · rw [if_pos he, if_pos he]
    rfl
  · rw [if_neg he, if_neg he]
    rfl

theorem proper_ofDecimal (s : Bool) (digits : Nat) (e : Int) : (ofDecimal s digits e).Proper := by
  rcases Nat.eq_zero_or_pos digits with rfl | hdigits
  · exact isDouble_zero
  · rw [ofDecimal_eq s e hdigits]
    split_ifs
    · trivial
    · exact isDouble_zero
    · exact proper_ofFraction s _ (decimalFraction_den_pos digits e)

theorem ofDecimal_zeros (s : Bool) (digits k : Nat) (e : Int) :
    ofDecimal s (digits * 10 ^ k) (e - k) = ofDecimal s digits e := by
  rcases Nat.eq_zero_or_pos digits with rfl | hdigits
  · rw [Nat.zero_mul]
    rfl
  · have hpos : 0 < digits * 10 ^ k := by positivity
    have hlength : decimalLength (digits * 10 ^ k) (e - k) = decimalLength digits e := by
      unfold decimalLength
      rw [length_toDigits_mul hdigits]
      push_cast
      ring
    have hvalue : ((digits * 10 ^ k : ℕ) : ℚ) * 10 ^ (e - k) = digits * 10 ^ e := by
      rw [zpow_sub₀ (by norm_num), zpow_natCast]
      push_cast
      field_simp
    rw [ofDecimal_eq s _ hpos, ofDecimal_eq s _ hdigits, hlength]
    have hfraction := ofFraction_congr s (decimalFraction_den_pos (digits * 10 ^ k) (e - k))
      (decimalFraction_den_pos digits e)
      (by rw [decimalFraction_eq, decimalFraction_eq, hvalue])
    rw [hfraction]

theorem ten_zpow_le {a b : Int} (h : a ≤ b) : (10 : ℚ) ^ a ≤ 10 ^ b :=
  zpow_le_zpow_right₀ (by norm_num) h

theorem lt_ten_zpow_length (digits : Nat) (e : Int) :
    (digits : ℚ) * 10 ^ e < 10 ^ decimalLength digits e := by
  have hpos : (0 : ℚ) < 10 ^ e := by positivity
  have hcast : (digits : ℚ) < 10 ^ (Nat.toDigits 10 digits).length := by
    exact_mod_cast lt_ten_pow_length digits
  unfold decimalLength
  rw [zpow_add₀ (by norm_num), zpow_natCast]
  exact mul_lt_mul_of_pos_right hcast hpos

theorem ten_zpow_length_le {digits : Nat} (hdigits : 0 < digits) (e : Int) :
    (10 : ℚ) ^ (decimalLength digits e - 1) ≤ digits * 10 ^ e := by
  have hpos : (0 : ℚ) < 10 ^ e := by positivity
  have hlength : 0 < (Nat.toDigits 10 digits).length := Nat.length_toDigits_pos
  have hcast : (10 : ℚ) ^ ((Nat.toDigits 10 digits).length - 1) ≤ digits := by
    exact_mod_cast ten_pow_length_le hdigits
  have hsplit : decimalLength digits e - 1 = ((Nat.toDigits 10 digits).length - 1 : ℕ) + e := by
    unfold decimalLength
    omega
  rw [hsplit, zpow_add₀ (by norm_num), zpow_natCast]
  exact mul_le_mul_of_nonneg_right hcast hpos.le

theorem two_zpow_le_ten_zpow : (2 : ℚ) ^ (1024 : Int) ≤ 10 ^ (310 : Int) := by
  have hpowers : 2 ^ 1024 ≤ 10 ^ 310 := by decide +kernel
  rw [zpow_ofNat, zpow_ofNat]
  exact_mod_cast hpowers

theorem ten_zpow_le_two_zpow : (10 : ℚ) ^ (-331 : Int) ≤ 2 ^ (-1075 : Int) := by
  have hpowers : 2 ^ 1075 ≤ 10 ^ 331 := by decide +kernel
  rw [zpow_neg, zpow_neg, inv_le_inv₀ (by positivity) (by positivity), zpow_ofNat, zpow_ofNat]
  exact_mod_cast hpowers

/-- Near a double, a decimal has neither too many nor too few digits in front of its point. -/
theorem decimalLength_near {digits : Nat} {e10 : Int} (h : IsDouble m e) (hm : 0 < m)
    (hdigits : 0 < digits) (hnear : |(digits : ℚ) * 10 ^ e10 - m * 2 ^ e| < 2 ^ e / 2) :
    -330 ≤ decimalLength digits e10 ∧ decimalLength digits e10 ≤ 310 := by
  have hpos := two_zpow_pos e
  have hhalf : (2 : ℚ) ^ e / 2 = 2 ^ (e - 1) := by
    rw [zpow_sub_one₀ (by norm_num)]
    rfl
  obtain ⟨hlow, hhigh⟩ := abs_lt.1 hnear
  constructor
  · by_contra hshort
    have hone : (1 : ℚ) ≤ m := by exact_mod_cast hm
    have hle := mul_le_mul_of_nonneg_right hone hpos.le
    have hleast := h.least
    apply lt_irrefl ((digits : ℚ) * 10 ^ e10)
    calc (digits : ℚ) * 10 ^ e10 < 10 ^ decimalLength digits e10 := lt_ten_zpow_length digits e10
      _ ≤ 10 ^ (-331 : Int) := ten_zpow_le (by omega)
      _ ≤ 2 ^ (-1075 : Int) := ten_zpow_le_two_zpow
      _ ≤ 2 ^ (e - 1) := two_zpow_le (by omega)
      _ = 2 ^ e / 2 := hhalf.symm
      _ ≤ digits * 10 ^ e10 := by linarith
  · by_contra hlong
    have hbelow : (m : ℚ) + 1 ≤ 2 ^ (53 : Int) := by exact_mod_cast h.below
    have hle := mul_le_mul_of_nonneg_right hbelow hpos.le
    have hgreatest := h.greatest
    apply lt_irrefl ((digits : ℚ) * 10 ^ e10)
    calc (digits : ℚ) * 10 ^ e10 < 2 ^ (53 : Int) * 2 ^ e := by linarith
      _ = 2 ^ (53 + e) := (two_zpow_add 53 e).symm
      _ ≤ 2 ^ (1024 : Int) := two_zpow_le (by omega)
      _ ≤ 10 ^ (310 : Int) := two_zpow_le_ten_zpow
      _ ≤ 10 ^ (decimalLength digits e10 - 1) := ten_zpow_le (by omega)
      _ ≤ digits * 10 ^ e10 := ten_zpow_length_le hdigits e10

/-- A decimal less than half a unit away from a double is read as it. Below a power of two it has to
be less than a quarter of a unit away. -/
theorem ofDecimal_near (s : Bool) {digits : Nat} {e10 : Int} (h : IsDouble m e) (hm : 0 < m)
    (hnear : |(digits : ℚ) * 10 ^ e10 - m * 2 ^ e| < 2 ^ e / 2)
    (hclose : m = 2 ^ 52 → |(digits : ℚ) * 10 ^ e10 - m * 2 ^ e| < 2 ^ e / 4) :
    ofDecimal s digits e10 = finite s m e := by
  have hden := decimalFraction_den_pos digits e10
  have hvalue := decimalFraction_eq digits e10
  have hdigits : 0 < digits := by
    apply Nat.pos_of_ne_zero
    rintro rfl
    rw [Nat.cast_zero, zero_mul] at hvalue hnear
    have hzero : |((0 : ℕ) : ℚ) / (1 : ℕ) - m * 2 ^ e| < 2 ^ e / 2 := by simpa using hnear
    exact absurd (pos_of_near hm hzero) (lt_irrefl 0)
  obtain ⟨hlow, hhigh⟩ := decimalLength_near h hm hdigits hnear
  rw [ofDecimal_eq s e10 hdigits, if_neg hhigh.not_gt, if_neg hlow.not_gt]
  rw [← hvalue] at hnear hclose
  exact ofFraction_near s h hm hden hnear hclose

end ContractAbi.Binary64
