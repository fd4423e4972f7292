import ContractAbi.Proofs.Number.Nearest
import Mathlib.Data.List.DropRight
import Mathlib.Data.Nat.Cast.Order.Field

/-!
# The digits of a double

The digits that are found for a double read back as it: fewer than seventeen are only taken if they
do, and seventeen always do.

* `ten_zpow_decimalSize_le`: the place of the first digit;
* `readsBack_seventeen`: seventeen digits read back;
* `readsBack_searchShortest`: so do the digits that are found;
* `exists_shortest`: so do they without the zeros at their end.
-/

namespace ContractAbi.Binary64

variable {m num den : Nat} {e : Int}

/-! ## The grid of decimals -/

theorem onGrid_den_pos (num : Nat) (hden : 0 < den) (exp10 : Int) :
    0 < (onGrid num den exp10).2 := by
  unfold onGrid
  split
  · exact Nat.mul_pos hden (Nat.pow_pos (by decide))
  · exact hden

theorem onGrid_eq (num : Nat) (hden : 0 < den) (exp10 : Int) :
    ((onGrid num den exp10).1 : ℚ) / (onGrid num den exp10).2 = num / den / 10 ^ exp10 := by
  have hdpos : (den : ℚ) ≠ 0 := by positivity
  unfold onGrid
  split
  · rename_i he
    obtain ⟨k, rfl⟩ := Int.eq_ofNat_of_zero_le he
    simp only [Int.toNat_natCast, Nat.pow_eq, Nat.cast_mul, Nat.cast_pow, Nat.cast_ofNat,
      zpow_natCast]
    field_simp
  · rename_i he
    obtain ⟨k, rfl⟩ : ∃ k : Nat, exp10 = -(k : Int) := ⟨(-exp10).toNat, by omega⟩
    simp only [neg_neg, Int.toNat_natCast, Nat.pow_eq, Nat.cast_mul, Nat.cast_pow, Nat.cast_ofNat,
      zpow_neg, zpow_natCast]
    field_simp

/-- The first digit in front of the point, or behind it, is no zero. -/
theorem ten_zpow_decimalSize_le (hnum : 0 < num) (hden : 0 < den) :
    (10 : ℚ) ^ (decimalSize num den - 1) ≤ num / den := by
  have hdpos : (0 : ℚ) < den := by exact_mod_cast hden
  unfold decimalSize
  split
  · rename_i hle
    have hquotient : 0 < num / den := Nat.div_pos hle hden
    have hlength : 0 < (Nat.toDigits 10 (num / den)).length := Nat.length_toDigits_pos
    have hpow : ((Nat.toDigits 10 (num / den)).length : Int) - 1 =
        ((Nat.toDigits 10 (num / den)).length - 1 : ℕ) := by omega
    have hcast : (10 : ℚ) ^ ((Nat.toDigits 10 (num / den)).length - 1) ≤ (num / den : ℕ) := by
      exact_mod_cast ten_pow_length_le hquotient
    rw [hpow, zpow_natCast]
    exact hcast.trans Nat.cast_div_le
  · rename_i hlt
    have hbound := lt_ten_pow_length ((den - 1) / num)
    generalize (Nat.toDigits 10 ((den - 1) / num)).length = inverse at *
    rw [Nat.div_lt_iff_lt_mul hnum] at hbound
    have hreach : den ≤ num * 10 ^ inverse := by
      rw [Nat.mul_comm]
      omega
    have hpow : Nat.pow 10 inverse = 10 ^ inverse := rfl
    have hcast : (den : ℚ) ≤ num * 10 ^ inverse := by exact_mod_cast hreach
    dsimp only
    rw [hpow, if_pos hreach, le_div_iff₀ hdpos]
    calc (10 : ℚ) ^ (-(inverse : Int) + 1 - 1) * den
        = (10 ^ inverse)⁻¹ * den := by
          rw [add_sub_cancel_right, zpow_neg, zpow_natCast]
      _ ≤ (10 ^ inverse)⁻¹ * (num * 10 ^ inverse) :=
          mul_le_mul_of_nonneg_left hcast (by positivity)
      _ = num := by field_simp

/-! ## Digits that read back -/

theorem readsBack_iff {digits : Nat} {exp10 : Int} :
    readsBack m e digits exp10 = true ↔ ofDecimal false digits exp10 = finite false m e := by
  unfold readsBack
  exact beq_iff_eq

theorem divideRounding_cases (n d : Nat) :
    divideRounding n d = n / d ∨ divideRounding n d = n / d + 1 := by
  unfold divideRounding
  dsimp only
  split
  · exact .inl rfl
  · split
    · exact .inr rfl
    · omega

theorem readsBack_neighbour {exp10 : Int} {digits : Nat}
    (h : neighbour? m e num den exp10 = some digits) : readsBack m e digits exp10 = true := by
  unfold neighbour? at h
  dsimp only at h
  split at h
  · rename_i hlow hhigh
    rw [← Option.some.inj h]
    rcases divideRounding_cases (onGrid num den exp10).1 (onGrid num den exp10).2 with heq | heq
    · rw [heq]
      exact hlow
    · rw [heq]
      exact hhigh
  · rename_i hlow _
    rw [← Option.some.inj h]
    exact hlow
  · rename_i _ hhigh
    rw [← Option.some.inj h]
    exact hhigh
  · exact absurd h (by simp)

theorem abs_sub_divideRounding {n d : Nat} (hd : 0 < d) :
    |(divideRounding n d : ℚ) - n / d| ≤ 1 / 2 := by
  obtain ⟨hup, hdown, -⟩ := divideRounding_spec (n := n) hd
  have hdpos : (0 : ℚ) < d := by exact_mod_cast hd
  have hup' : (2 : ℚ) * (divideRounding n d * d) ≤ 2 * n + d := by exact_mod_cast hup
  have hdown' : (2 : ℚ) * n ≤ 2 * (divideRounding n d * d) + d := by exact_mod_cast hdown
  rw [abs_le]
  constructor
  · rw [neg_le_sub_iff_le_add, div_le_iff₀ hdpos]
    linarith
  · rw [sub_le_iff_le_add, ← sub_le_iff_le_add', le_div_iff₀ hdpos]
    linarith

theorem readsBack_seventeen (h : IsDouble m e) (hm : 0 < m) (hden : 0 < den)
    (hvalue : (num : ℚ) / den = m * 2 ^ e) :
    readsBack m e (divideRounding (onGrid num den (decimalSize num den - 17)).1
      (onGrid num den (decimalSize num den - 17)).2) (decimalSize num den - 17) = true := by
  have hpos := two_zpow_pos e
  have hone : (0 : ℚ) < m := by exact_mod_cast hm
  have hnum : 0 < num := by
    have hquotient : (0 : ℚ) < num / den := by
      rw [hvalue]
      positivity
    have hdpos : (0 : ℚ) < den := by exact_mod_cast hden
    exact_mod_cast (div_pos_iff_of_pos_right hdpos).1 hquotient
  have hfirst := ten_zpow_decimalSize_le hnum hden
  have hgrid := onGrid_eq num hden (decimalSize num den - 17)
  have hround := abs_sub_divideRounding (n := (onGrid num den (decimalSize num den - 17)).1)
    (onGrid_den_pos num hden (decimalSize num den - 17))
  rw [hgrid] at hround
  generalize divideRounding (onGrid num den (decimalSize num den - 17)).1
    (onGrid num den (decimalSize num den - 17)).2 = digits at *
  have hunit :
      (10 : ℚ) ^ (decimalSize num den - 17) = 10 ^ (decimalSize num den - 1) / 10 ^ 16 := by
    rw [← zpow_natCast, ← zpow_sub₀ (by norm_num)]
    congr 1
    omega
  rw [hvalue] at hfirst hround
  generalize hg : (10 : ℚ) ^ (decimalSize num den - 17) = unit at *
  have hunitPos : 0 < unit := by
    rw [← hg]
    positivity
  -- the distance, in units of the grid and by the size of the double
  have hdistance : |(digits : ℚ) * unit - m * 2 ^ e| ≤ m * 2 ^ e / 10 ^ 16 / 2 := by
    have hscaled : (digits : ℚ) * unit - m * 2 ^ e = (digits - m * 2 ^ e / unit) * unit := by
      field_simp
    rw [hscaled, abs_mul, abs_of_pos hunitPos]
    calc |(digits : ℚ) - m * 2 ^ e / unit| * unit ≤ 1 / 2 * unit :=
          mul_le_mul_of_nonneg_right hround hunitPos.le
      _ = 10 ^ (decimalSize num den - 1) / 10 ^ 16 / 2 := by
          rw [hunit]
          ring
      _ ≤ m * 2 ^ e / 10 ^ 16 / 2 := by
          apply div_le_div_of_nonneg_right _ (by norm_num)
          exact div_le_div_of_nonneg_right hfirst (by norm_num)
  rw [readsBack_iff]
  apply ofDecimal_near false h hm
  · rw [hg]
    have hbelow : (m : ℚ) < 2 ^ 53 := by exact_mod_cast h.below
    have hlarge := mul_lt_mul_of_pos_right hbelow hpos
    calc |(digits : ℚ) * unit - m * 2 ^ e| ≤ m * 2 ^ e / 10 ^ 16 / 2 := hdistance
      _ < 2 ^ e / 2 := by
          norm_num at hlarge ⊢
          linarith
  · rintro rfl
    rw [hg]
    calc |(digits : ℚ) * unit - (2 ^ 52 : ℕ) * 2 ^ e| ≤ (2 ^ 52 : ℕ) * 2 ^ e / 10 ^ 16 / 2 :=
          hdistance
      _ < 2 ^ e / 4 := by
          norm_num
          linarith

/-- Whatever number of digits is tried first, digits that read back are found. -/
theorem readsBack_searchShortest (h : IsDouble m e) (hm : 0 < m) (hden : 0 < den)
    (hvalue : (num : ℚ) / den = m * 2 ^ e) {tries count : Nat} (hcount : tries + count = 17) :
    readsBack m e (searchShortest m e num den (decimalSize num den) tries count).1
      (searchShortest m e num den (decimalSize num den) tries count).2 = true := by
  induction tries generalizing count with
  | zero =>
      rw [Nat.zero_add] at hcount
      rw [searchShortest, hcount]
      exact readsBack_seventeen h hm hden hvalue
  | succ tries ih =>
      rw [searchShortest]
      cases hfound : neighbour? m e num den (decimalSize num den - count) with
      | some digits => exact readsBack_neighbour hfound
      | none => exact ih (by omega)

/-! ## Digits without zeros at their end -/

theorem ofFraction_sign (s : Bool) (h : ofFraction false num den = finite false m e) :
    ofFraction s num den = finite s m e := by
  rcases Nat.eq_zero_or_pos num with rfl | hnum
  · rw [ofFraction, if_pos rfl] at h ⊢
    simp_all
  · rw [ofFraction_eq _ den hnum] at h ⊢
    split_ifs at h ⊢
    simp_all

theorem ofDecimal_sign (s : Bool) {digits : Nat} {exp10 : Int}
    (h : ofDecimal false digits exp10 = finite false m e) :
    ofDecimal s digits exp10 = finite s m e := by
  rcases Nat.eq_zero_or_pos digits with rfl | hdigits
  · rw [ofDecimal, if_pos rfl] at h ⊢
    simp_all
  · rw [ofDecimal_eq _ _ hdigits] at h ⊢
    split_ifs at h ⊢
    · simp_all
    · exact ofFraction_sign s h

theorem pos_of_readsBack (hm : 0 < m) {digits : Nat} {exp10 : Int}
    (h : readsBack m e digits exp10 = true) : 0 < digits := by
  apply Nat.pos_of_ne_zero
  rintro rfl
  rw [readsBack_iff, ofDecimal, if_pos rfl] at h
  simp only [finite.injEq] at h
  omega

theorem exists_dropZeros {c : Char} (hc : c ≠ '0') (cs : List Char) :
    ∃ ds n, ((c :: cs).reverse.dropWhile (· == '0')).reverse = c :: ds ∧
      c :: cs = (c :: ds) ++ List.replicate n '0' := by
  have hsplit : (c :: cs).rdropWhile (· == '0') ++ (c :: cs).rtakeWhile (· == '0') = c :: cs :=
    List.rdropWhile_append_rtakeWhile
  have hzeros : ∀ d ∈ (c :: cs).rtakeWhile (· == '0'), d = '0' := by
    intro d hd
    have hzero : (d == '0') = true := List.mem_rtakeWhile_imp (p := (· == '0')) hd
    exact eq_of_beq hzero
  rw [List.eq_replicate_of_mem hzeros] at hsplit
  generalize ((c :: cs).rtakeWhile (· == '0')).length = n at hsplit
  change ∃ ds n, (c :: cs).rdropWhile (· == '0') = c :: ds ∧ _
  cases hkept : (c :: cs).rdropWhile (· == '0') with
  | nil =>
      rw [hkept, List.nil_append] at hsplit
      have hmem : c ∈ List.replicate n '0' := by
        rw [hsplit]
        exact List.mem_cons_self
      exact absurd (List.mem_replicate.1 hmem).2 hc
  | cons d ds =>
      rw [hkept, List.cons_append] at hsplit
      obtain ⟨rfl, hrest⟩ := List.cons.inj hsplit
      exact ⟨ds, n, rfl, by rw [List.cons_append, hrest]⟩

/-- The digits of a double start with no zero, and read back with the point in its place. -/
theorem exists_shortest (h : IsDouble m e) (hm : 0 < m) :
    ∃ c cs point, shortest m e = (c :: cs, point) ∧ c ≠ '0' ∧
      (∀ d ∈ c :: cs, d.isDigit = true) ∧
      ∀ s, ofDecimal s (digitsValue (c :: cs)) (point - (c :: cs).length) = finite s m e := by
  have hden := scaled_den_pos m e Nat.one_pos
  have hvalue := scaled_eq m e Nat.one_pos
  rw [Nat.cast_one, div_one] at hvalue
  have hfound := readsBack_searchShortest h hm hden hvalue (rfl : 16 + 1 = 17)
  unfold shortest
  dsimp only
  generalize searchShortest m e (scaled m 1 e).1 (scaled m 1 e).2
    (decimalSize (scaled m 1 e).1 (scaled m 1 e).2) 16 1 = found at hfound
  obtain ⟨digits, exp10⟩ := found
  obtain ⟨c, rest, hdigits, hc⟩ := exists_toDigits (pos_of_readsBack hm hfound)
  obtain ⟨cs, n, hkept, hsplit⟩ := exists_dropZeros hc rest
  have hall : ∀ d ∈ c :: rest, d.isDigit = true := by
    intro d hd
    rw [← hdigits] at hd
    exact isDigit_of_mem_toDigits hd
  have hdigitsValue : digits = digitsValue (c :: cs) * 10 ^ n := by
    calc digits = digitsValue (c :: rest) := by rw [← hdigits, digitsValue_toDigits]
      _ = digitsValue (c :: cs) * 10 ^ n := by
          rw [hsplit, digitsValue_append, digitsValue_zeros, List.length_replicate, Nat.add_zero]
  dsimp only
  rw [hdigits, hkept]
  refine ⟨c, cs, exp10 + (c :: rest).length, rfl, hc, ?_, ?_⟩
  · intro d hd
    apply hall d
    rw [hsplit]
    exact List.mem_append_left _ hd
  · intro s
    have hlength : (c :: rest).length = (c :: cs).length + n := by
      rw [hsplit, List.length_append, List.length_replicate]
    have hpoint : exp10 = exp10 + ((c :: rest).length : Int) - (c :: cs).length - n := by omega
    rw [← ofDecimal_zeros s _ n, ← hpoint, ← hdigitsValue]
    exact ofDecimal_sign s (readsBack_iff.1 hfound)

end ContractAbi.Binary64
