import ContractAbi.Proofs.Text.Half
import ContractAbi.Value.Printer
import ContractAbi.Value.Reader
import Mathlib.Data.Char
import Mathlib.Data.List.Chain

/-!
# Texts in JSON

A text that is written between quotes is read as that text, whatever its characters. Two halves that
stand alone are read as a pair where the one may stand in front of the other.

* `fourDigits?_unit`: the digits of a sixteen-bit unit are read as the unit;
* `readText_jsonChar` and `readText_half`: what stands at a place is read from what is written;
* `Carried`: no half of a pair stands in front of the other one;
* `readText_flatMap`: so a whole text is read with the quote that closes it.
-/

namespace ContractAbi.JsonReader

open Text Value

/-! ## Units -/

def readHex (acc : Option Nat) (c : Char) : Option Nat :=
  acc.bind fun n => (Hex.digitValue? c).map (16 * n + ·)

theorem digitValue?_digitChar {n : Nat} (h : n < 16) :
    Hex.digitValue? (Nat.digitChar n) = some n := by
  have hall : ∀ n < 16, Hex.digitValue? (Nat.digitChar n) = some n := by decide
  exact hall n h

theorem foldl_readHex_toDigits (n : Nat) :
    (Nat.toDigits 16 n).foldl readHex (some 0) = some n := by
  induction n using Nat.strongRecOn with
  | ind n ih =>
      rw [Nat.toDigits_eq_if (by decide)]
      split
      · rename_i hlt
        simp [readHex, digitValue?_digitChar hlt]
      · rename_i hge
        have hdigit := digitValue?_digitChar (Nat.mod_lt n (by decide : 0 < 16))
        rw [List.foldl_append, ih (n / 16) (by omega)]
        simp only [List.foldl_cons, List.foldl_nil, readHex, hdigit, Option.bind_some,
          Option.map_some, Option.some.injEq]
        omega

theorem foldl_readHex_replicate (k : Nat) :
    (List.replicate k '0').foldl readHex (some 0) = some 0 := by
  induction k with
  | zero => rfl
  | succ k ih => exact ih

theorem length_unitDigits {n : Nat} (h : n < 0x10000) :
    (Hex.ofNatPadded 4 n).toList.length = 4 := by
  have hlength : (Nat.toDigits 16 n).length ≤ 4 :=
    (Nat.length_toDigits_le_iff (by decide) (by decide)).2 h
  simp only [Hex.ofNatPadded, String.toList_ofList, List.length_append, List.length_replicate]
  omega

theorem fourDigits?_unit {n : Nat} (h : n < 0x10000) {tail : List Char} (htail : tail ≠ []) :
    fourDigits? ((Hex.ofNatPadded 4 n).toList ++ tail) = some n := by
  have hlength := length_unitDigits h
  have hmore : 0 < tail.length := List.length_pos_iff.2 htail
  have htake : ((Hex.ofNatPadded 4 n).toList ++ tail).take 4 = (Hex.ofNatPadded 4 n).toList :=
    List.take_left' hlength
  unfold fourDigits?
  rw [if_neg (by rw [List.length_append]; omega), htake]
  simp only [Hex.ofNatPadded, String.toList_ofList]
  change List.foldl readHex (some 0) _ = _
  rw [List.foldl_append, foldl_readHex_replicate, foldl_readHex_toDigits]

/-! ## Characters -/

variable {start fuel offset : Nat} {acc tail : List Char}

theorem readText_plain {c : Char} (hquote : c ≠ '"') (hcontrol : 32 ≤ c.toNat) (hslash : c ≠ '\\') :
    readText start (fuel + 1) offset acc (c :: tail) =
      readText start fuel (offset + 1) (c :: acc) tail := by
  rw [readText.eq_def]
  dsimp only
  rw [if_neg hquote, if_neg (by omega), if_pos hslash]

theorem readText_simple {c d : Char} (hd : simpleEscape? d = some c) (hu : d ≠ 'u') :
    readText start (fuel + 1) offset acc ('\\' :: d :: tail) =
      readText start fuel (offset + 2) (c :: acc) tail := by
  rw [readText.eq_def]
  dsimp only
  rw [if_neg (by decide), if_neg (by decide), if_neg (by decide)]
  split
  · rename_i hnil
    exact absurd hnil (by simp)
  · rename_i hcons
    exact absurd (List.cons.inj hcons).1 hu
  · rename_i hcons
    obtain ⟨rfl, rfl⟩ := List.cons.inj hcons
    rw [hd]

theorem readText_digits {first more : Nat} {p : Point} {rest : List Char}
    (hfirst : fourDigits? rest = some first)
    (hjoin : joinUnits first (rest.drop 4) = some (p, more)) :
    readText start (fuel + 1) offset acc ('\\' :: 'u' :: rest) =
      readText start fuel (offset + 6 + more) (p.chars.reverse ++ acc)
        ((rest.drop 4).drop more) := by
  rw [readText.eq_def]
  dsimp only
  rw [if_neg (by decide), if_neg (by decide), if_neg (by decide)]
  split
  · rename_i hnil
    exact absurd hnil (by simp)
  · rename_i hcons
    obtain ⟨-, rfl⟩ := List.cons.inj hcons
    rw [hfirst]
    dsimp only
    rw [hjoin]
  · rename_i hother hcons
    exact absurd (List.cons.inj hcons).1.symm hother

theorem readText_escape {n more : Nat} {p : Point} {behind : List Char} (hn : n < 0x10000)
    (hbehind : behind ≠ []) (hjoin : joinUnits n behind = some (p, more)) :
    readText start (fuel + 1) offset acc (unitEscape n ++ behind) =
      readText start fuel (offset + 6 + more) (p.chars.reverse ++ acc) (behind.drop more) := by
  have hdrop : ((Hex.ofNatPadded 4 n).toList ++ behind).drop 4 = behind :=
    List.drop_left' (length_unitDigits hn)
  unfold unitEscape
  rw [List.cons_append, List.cons_append, readText_digits (fourDigits?_unit hn hbehind)
    (by rw [hdrop]; exact hjoin), hdrop]

theorem length_unitEscape {n : Nat} (h : n < 0x10000) : (unitEscape n).length = 6 := by
  rw [unitEscape, List.length_cons, List.length_cons, length_unitDigits h]

theorem readText_unit {c : Char} (hn : c.toNat < 0x10000) (htail : tail ≠ []) :
    readText start (fuel + 1) offset acc (unitEscape c.toNat ++ tail) =
      readText start fuel (offset + 6) ((ofChar c).reverse ++ acc) tail := by
  have hhalf := not_half c
  have hjoin : joinUnits c.toNat tail = some (.char c, 0) := by
    have hhigh : isHighHalf c.toNat = false := by
      simp only [isHighHalf, Bool.and_eq_false_iff, decide_eq_false_iff_not]
      omega
    rw [joinUnits, hhigh, if_neg (by decide), Point.ofNat_toNat]
  exact readText_escape hn htail hjoin

theorem toNat_lt (c : Char) : c.toNat < 0x110000 := by
  have hnat : c.toNat = c.val.toNat := rfl
  rw [hnat]
  rcases c.valid with h | ⟨-, h⟩
  · exact Nat.lt_trans h (by decide)
  · exact h

def highHalf (c : Char) : Nat := 0xd800 + (c.toNat - 0x10000) / 0x400

def lowHalf (c : Char) : Nat := 0xdc00 + (c.toNat - 0x10000) % 0x400

theorem highHalf_range (c : Char) : 0xd800 ≤ highHalf c ∧ highHalf c < 0xdc00 := by
  have hlimit := toNat_lt c
  unfold highHalf
  omega

theorem lowHalf_range (c : Char) : 0xdc00 ≤ lowHalf c ∧ lowHalf c < 0xe000 := by
  unfold lowHalf
  omega

theorem highHalf_lt (c : Char) : highHalf c < 0x10000 :=
  Nat.lt_trans (highHalf_range c).2 (by decide)

theorem lowHalf_lt (c : Char) : lowHalf c < 0x10000 :=
  Nat.lt_trans (lowHalf_range c).2 (by decide)

theorem pairChar_halves {c : Char} (h : 0x10000 ≤ c.toNat) :
    pairChar (highHalf c) (lowHalf c) = c := by
  have hsum : 0x10000 + (highHalf c - 0xd800) * 0x400 + (lowHalf c - 0xdc00) = c.toNat := by
    unfold highHalf lowHalf
    omega
  rw [pairChar, hsum, Char.ofNat_toNat]

theorem unitBehind?_unit {n : Nat} (h : n < 0x10000) (htail : tail ≠ []) :
    unitBehind? (unitEscape n ++ tail) = some (some n) := by
  have hmore : 0 < tail.length := List.length_pos_iff.2 htail
  have hlength : 4 < ((Hex.ofNatPadded 4 n).toList ++ tail).length := by
    rw [List.length_append, length_unitDigits h]
    omega
  unfold unitEscape
  rw [List.cons_append, List.cons_append, unitBehind?, if_pos hlength, fourDigits?_unit h htail]

theorem joinUnits_halves {c : Char} (h : 0x10000 ≤ c.toNat) (htail : tail ≠ []) :
    joinUnits (highHalf c) (unitEscape (lowHalf c) ++ tail) = some (.char c, 6) := by
  have hisHigh : isHighHalf (highHalf c) = true := by
    simp only [isHighHalf, Bool.and_eq_true, decide_eq_true_eq]
    exact highHalf_range c
  have hisLow : isLowHalf (lowHalf c) = true := by
    simp only [isLowHalf, Bool.and_eq_true, decide_eq_true_eq]
    exact lowHalf_range c
  rw [joinUnits, hisHigh, if_pos rfl, unitBehind?_unit (lowHalf_lt c) htail]
  dsimp only
  rw [hisLow, if_pos rfl, pairChar_halves h]

theorem readText_pair {c : Char} (hn : 0x10000 ≤ c.toNat) (htail : tail ≠ []) :
    readText start (fuel + 1) offset acc
        (unitEscape (highHalf c) ++ (unitEscape (lowHalf c) ++ tail)) =
      readText start fuel (offset + 12) ((ofChar c).reverse ++ acc) tail := by
  have hdrop : (unitEscape (lowHalf c) ++ tail).drop 6 = tail :=
    List.drop_left' (length_unitEscape (lowHalf_lt c))
  have hbehind : unitEscape (lowHalf c) ++ tail ≠ [] :=
    List.append_ne_nil_of_right_ne_nil _ htail
  rw [readText_escape (highHalf_lt c) hbehind (joinUnits_halves hn htail), hdrop, Nat.add_assoc,
    Point.chars]

theorem jsonChar_eq (c : Char) : jsonChar c =
    if c = '"' then ['\\', '"']
    else if c = '\\' then ['\\', '\\']
    else if c.toNat = 10 then ['\\', 'n']
    else if c.toNat = 13 then ['\\', 'r']
    else if c.toNat = 9 then ['\\', 't']
    else if c.toNat = 12 then ['\\', 'f']
    else if c.toNat = 8 then ['\\', 'b']
    else if 32 ≤ c.toNat ∧ c.toNat < 127 then [c]
    else if c.toNat < 0x10000 then unitEscape c.toNat
    else unitEscape (highHalf c) ++ unitEscape (lowHalf c) :=
  rfl

theorem readText_jsonChar (c : Char) (htail : tail ≠ []) :
    readText start (fuel + 1) offset acc (jsonChar c ++ tail) =
      readText start fuel (offset + (jsonChar c).length) ((ofChar c).reverse ++ acc) tail := by
  have hof : ∀ {d : Char}, c.toNat = d.toNat → c = d := Char.toNat_inj.1
  have hself : c.toNat < 0x10e000 → (ofChar c).reverse ++ acc = c :: acc := fun h => by
    rw [ofChar_of_lt h, List.reverse_singleton, List.singleton_append]
  rw [jsonChar_eq]
  split_ifs with hquote hslash hline hreturn htab hpage hback hplain hunit
  · subst hquote
    exact readText_simple rfl (by decide)
  · subst hslash
    exact readText_simple rfl (by decide)
  · obtain rfl : c = '\n' := hof hline
    exact readText_simple rfl (by decide)
  · obtain rfl : c = '\r' := hof hreturn
    exact readText_simple rfl (by decide)
  · obtain rfl : c = '\t' := hof htab
    exact readText_simple rfl (by decide)
  · obtain rfl : c = '\x0c' := hof hpage
    exact readText_simple rfl (by decide)
  · obtain rfl : c = '\x08' := hof hback
    exact readText_simple rfl (by decide)
  · rw [hself (Nat.lt_trans hplain.2 (by decide))]
    exact readText_plain hquote hplain.1 hslash
  · rw [readText_unit hunit htail, length_unitEscape hunit]
  · rw [List.append_assoc, readText_pair (by omega) htail, List.length_append,
      length_unitEscape (highHalf_lt c), length_unitEscape (lowHalf_lt c)]

/-! ## Halves that stand alone -/

def LacksLow (cs : List Char) : Prop :=
  ∀ unit, unitBehind? cs = some unit → ∃ n, unit = some n ∧ isLowHalf n = false

theorem lacksLow_of_none {cs : List Char} (h : unitBehind? cs = none) : LacksLow cs := by
  intro unit hunit
  rw [h] at hunit
  exact absurd hunit (by simp)

theorem lacksLow_unitEscape {n : Nat} (hn : n < 0x10000) (hlow : isLowHalf n = false)
    (htail : tail ≠ []) : LacksLow (unitEscape n ++ tail) := by
  intro unit hunit
  rw [unitBehind?_unit hn htail] at hunit
  exact ⟨n, (Option.some.inj hunit).symm, hlow⟩

theorem readText_half {n : Nat} (hn : 0xd800 ≤ n ∧ n < 0xe000) (htail : tail ≠ [])
    (hlacks : isHighHalf n = true → LacksLow tail) :
    readText start (fuel + 1) offset acc (unitEscape n ++ tail) =
      readText start fuel (offset + 6) ((Point.half n).chars.reverse ++ acc) tail := by
  have hnumber : Point.ofNat n = .half n := if_pos hn
  have hjoin : joinUnits n tail = some (.half n, 0) := by
    unfold joinUnits
    cases hhigh : isHighHalf n with
    | false => rw [if_neg (by decide), hnumber]
    | true =>
        rw [if_pos rfl]
        cases hunit : unitBehind? tail with
        | none => rw [hnumber]
        | some unit =>
            obtain ⟨low, rfl, hlow⟩ := hlacks hhigh unit hunit
            dsimp only
            rw [hlow, if_neg (by decide), hnumber]
  exact readText_escape (by omega) htail hjoin

/-! ## Texts -/

/-- The one point is not the first half of a pair, or the other one is not the second half. -/
def Apart (p q : Point) : Prop :=
  ∀ n m, p = .half n → q = .half m → isHighHalf n = true → isLowHalf m = false

/-- The text is written for places of which no two are read as a pair. -/
def Carried (s : String) : Prop :=
  ∃ ps : List Point, (∀ p ∈ ps, p.Proper) ∧ ps.IsChain Apart ∧ s = ofPoints ps

theorem apart_char (c : Char) (q : Point) : Apart (.char c) q :=
  nofun

theorem apart_of_char (p : Point) (c : Char) : Apart p (.char c) :=
  nofun

theorem carried_of_plain {s : String} (h : Text.Plain s.toList) : Carried s := by
  refine ⟨s.toList.map .char, List.forall_mem_map.2 fun _ _ => trivial, ?_, ?_⟩
  · rw [List.isChain_map]
    exact (List.pairwise_of_forall fun c d => apart_char c (.char d)).isChain
  · have hchars : (s.toList.map Point.char).flatMap Point.chars = s.toList := by
      rw [List.flatMap_map]
      exact flatMap_ofChar_of_plain h
    rw [ofPoints, hchars, String.ofList_toList]

theorem carried_of_mem_points {cs : List Char} {p : Point} (h : p ∈ points cs) :
    Carried (ofPoints [p]) :=
  ⟨[p], List.forall_mem_singleton.2 (proper_of_mem_points h), List.isChain_singleton p, rfl⟩

theorem jsonPoint_ne_nil (p : Point) : jsonPoint p ≠ [] := by
  cases p with
  | half n => exact List.cons_ne_nil _ _
  | char c =>
      rw [jsonPoint, jsonChar_eq]
      split_ifs
      all_goals exact List.cons_ne_nil _ _

/-- What is written for a character does not start with the unit of a second half. -/
theorem lacksLow_jsonChar (c : Char) (htail : tail ≠ []) : LacksLow (jsonChar c ++ tail) := by
  have hhalf := not_half c
  rw [jsonChar_eq]
  split_ifs with hquote hslash hline hreturn htab hpage hback hplain hunit
  iterate 7 exact lacksLow_of_none rfl
  · refine lacksLow_of_none ?_
    unfold unitBehind?
    split
    · rename_i heq
      exact absurd (List.cons.inj heq).1 hslash
    · rfl
  · refine lacksLow_unitEscape hunit ?_ htail
    simp only [isLowHalf, Bool.and_eq_false_iff, decide_eq_false_iff_not]
    omega
  · have hrange := highHalf_range c
    rw [List.append_assoc]
    refine lacksLow_unitEscape (by omega) ?_ (List.append_ne_nil_of_right_ne_nil _ htail)
    simp only [isLowHalf, Bool.and_eq_false_iff, decide_eq_false_iff_not]
    omega

/-- No unit of a second half stands behind a half where what follows may stand behind it. -/
theorem lacksLow_flatMap {n : Nat} {ps : List Point} (hproper : ∀ p ∈ ps, p.Proper)
    (hhigh : isHighHalf n = true) (hapart : ∀ p ∈ ps.head?, Apart (.half n) p)
    (rest : List Char) : LacksLow (ps.flatMap jsonPoint ++ '"' :: rest) := by
  cases ps with
  | nil => exact lacksLow_of_none rfl
  | cons p ps =>
      have htail : ps.flatMap jsonPoint ++ '"' :: rest ≠ [] :=
        List.append_ne_nil_of_right_ne_nil _ (List.cons_ne_nil _ _)
      rw [List.flatMap_cons, List.append_assoc]
      cases p with
      | char c => exact lacksLow_jsonChar c htail
      | half m =>
          have hm : 0xd800 ≤ m ∧ m < 0xe000 := hproper _ List.mem_cons_self
          exact lacksLow_unitEscape (by omega)
            (hapart _ rfl n m rfl rfl hhigh) htail

theorem readText_flatMap {ps : List Point} (hproper : ∀ p ∈ ps, p.Proper)
    (hapart : ps.IsChain Apart) (rest : List Char) (hfuel : ps.length < fuel) :
    readText start fuel offset acc (ps.flatMap jsonPoint ++ '"' :: rest) =
      .ok (String.ofList (acc.reverse ++ ps.flatMap Point.chars),
        ⟨offset + (ps.flatMap jsonPoint).length + 1, rest⟩) := by
  induction ps generalizing fuel offset acc with
  | nil =>
      obtain ⟨fuel, rfl⟩ := Nat.exists_eq_add_one_of_ne_zero (Nat.ne_of_gt hfuel)
      rw [List.flatMap_nil, List.nil_append, readText.eq_def, List.flatMap_nil, List.append_nil]
      rfl
  | cons p ps ih =>
      obtain ⟨fuel, rfl⟩ :=
        Nat.exists_eq_add_one_of_ne_zero (Nat.ne_of_gt (Nat.zero_lt_of_lt hfuel))
      obtain ⟨hp, hps⟩ := List.forall_mem_cons.1 hproper
      obtain ⟨hfirst, hothers⟩ := List.isChain_cons.1 hapart
      have htail : ps.flatMap jsonPoint ++ '"' :: rest ≠ [] :=
        List.append_ne_nil_of_right_ne_nil _ (List.cons_ne_nil _ _)
      have hread : readText start (fuel + 1) offset acc
          (jsonPoint p ++ (ps.flatMap jsonPoint ++ '"' :: rest)) =
            readText start fuel (offset + (jsonPoint p).length) (p.chars.reverse ++ acc)
              (ps.flatMap jsonPoint ++ '"' :: rest) := by
        cases p with
        | char c => exact readText_jsonChar c htail
        | half n =>
            have hrange : 0xd800 ≤ n ∧ n < 0xe000 := hp
            rw [jsonPoint, length_unitEscape (by omega)]
            exact readText_half hp htail fun hhigh => lacksLow_flatMap hps hhigh hfirst rest
      rw [List.flatMap_cons, List.append_assoc, hread,
        ih hps hothers (Nat.lt_of_succ_lt_succ hfuel),
        List.length_append, List.flatMap_cons]
      simp only [List.reverse_append, List.reverse_reverse, List.append_assoc, Nat.add_assoc]

end ContractAbi.JsonReader
