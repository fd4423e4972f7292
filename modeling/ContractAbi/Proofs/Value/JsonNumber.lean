import ContractAbi.Proofs.Number.Digits
import ContractAbi.Value.Printer
import ContractAbi.Value.Reader
import Mathlib.Tactic.SplitIfs

/-!
# Words and numbers in JSON

What is written for an absent value, a truth value or a number is read as that value, wherever it
stands in a document.

* `Ends`: what may follow a value;
* `Reads`: the texts that are read as a value in front of it;
* `reads_null`, `reads_bool` and `reads_int`: words and whole numbers are.
-/

namespace ContractAbi.JsonReader

open Value Binary64

variable {cs rest : List Char} {v : Value} {fuel depth offset : Nat}

/-! ## What follows a value -/

def Ends (rest : List Char) : Prop :=
  ∀ c, rest.head? = some c → c = ',' ∨ c = '\n'

theorem ends_nil : Ends [] := by
  simp [Ends]

theorem ends_cons {c : Char} (h : c = ',' ∨ c = '\n') : Ends (c :: rest) := by
  simp [Ends, h]

/-- The text is read as the value in front of whatever may follow. -/
def Reads (fuel depth : Nat) (cs : List Char) (v : Value) : Prop :=
  ∀ offset rest, Ends rest →
    ∃ offset', readValue fuel depth ⟨offset, cs ++ rest⟩ = .ok (v, ⟨offset', rest⟩)

theorem Ends.takeWhile_isDigit (h : Ends rest) (hcs : ∀ c ∈ cs, c.isDigit = true) :
    (cs ++ rest).takeWhile Char.isDigit = cs := by
  have hrest : rest.takeWhile Char.isDigit = [] := by
    cases rest with
    | nil => rfl
    | cons c rest => rcases h c rfl with rfl | rfl <;> rfl
  rw [List.takeWhile_append_of_pos hcs, hrest, List.append_nil]

theorem Ends.fractionPart (h : Ends rest) : fractionPart rest = [] := by
  cases rest with
  | nil => rfl
  | cons c rest => rcases h c rfl with rfl | rfl <;> rfl

theorem Ends.exponentPart (h : Ends rest) : exponentPart rest = [] := by
  cases rest with
  | nil => rfl
  | cons c rest => rcases h c rfl with rfl | rfl <;> rfl

/-! ## Words -/

/-- A value that does not start with a quote or a bracket is a word or a number. -/
theorem readValue_plain {c : Char} (hquote : c ≠ '"') (hbrace : c ≠ '\x7b') (hbracket : c ≠ '[') :
    readValue (fuel + 1) depth ⟨offset, c :: cs⟩ =
      match readWord? ⟨offset, c :: cs⟩ with
      | some found => .ok found
      | none => readNumber ⟨offset, c :: cs⟩ := by
  rw [readValue.eq_def]
  dsimp only
  split
  · rename_i heq
    exact absurd (List.cons.inj heq).1 hquote
  · rename_i heq
    exact absurd (List.cons.inj heq).1 hbrace
  · rename_i heq
    exact absurd (List.cons.inj heq).1 hbracket
  · rfl

theorem reads_null : Reads (fuel + 1) depth "null".toList .null := by
  intro offset rest _
  exact ⟨offset + 4, by rw [readValue.eq_def]; rfl⟩

theorem reads_bool (level : Nat) (b : Bool) :
    Reads (fuel + 1) depth (jsonAt level (.bool b)).toList (.bool b) := by
  intro offset rest _
  cases b with
  | true => exact ⟨offset + 4, by rw [jsonAt, readValue.eq_def]; rfl⟩
  | false => exact ⟨offset + 5, by rw [jsonAt, readValue.eq_def]; rfl⟩

/-! ## Numbers -/

theorem Ends.wholePart (h : Ends rest) (n : Nat) :
    wholePart (Nat.toDigits 10 n ++ rest) = Nat.toDigits 10 n := by
  rcases Nat.eq_zero_or_pos n with rfl | hpos
  · rfl
  · have hall :=
      h.takeWhile_isDigit fun c (hc : c ∈ Nat.toDigits 10 n) => isDigit_of_mem_toDigits hc
    obtain ⟨c, cs, hdigits, hc⟩ := exists_toDigits hpos
    rw [hdigits] at hall ⊢
    unfold JsonReader.wholePart
    split
    · rename_i heq
      exact absurd (List.cons.inj heq).1 hc
    · exact hall

theorem prefix_of_startsWith {word : String} (h : Cursor.startsWith word ⟨offset, cs⟩ = true) :
    word.toList <+: cs :=
  List.isPrefixOf_iff_prefix.1 h

theorem readWord?_eq_none (h : ∀ w ∈ words, ¬w.1.toList <+: cs) :
    readWord? ⟨offset, cs⟩ = none := by
  rw [readWord?, Option.map_eq_none_iff, List.find?_eq_none]
  exact fun w hw hstart => h w hw (prefix_of_startsWith hstart)

theorem readWord?_numeral {c : Char} (negative : Bool) (h : c.isDigit = true) (cs : List Char)
    (offset : Nat) :
    readWord? ⟨offset, (if negative then ['-'] else []) ++ c :: cs⟩ = none := by
  have hstarts : ∀ w ∈ words, (['n', 't', 'f', 'N', 'I'].any fun d => [false, true].any fun minus =>
      (if minus then ['-', d] else [d]).isPrefixOf w.1.toList) = true := by decide
  have hletter : ∀ d ∈ ['n', 't', 'f', 'N', 'I'], d.isDigit = false ∧ '-' ≠ d :=
    by simp [Char.isDigit]
  refine readWord?_eq_none fun w hw hprefix => ?_
  obtain ⟨d, hd, hany⟩ := List.any_eq_true.1 (hstarts w hw)
  obtain ⟨minus, -, hstart⟩ := List.any_eq_true.1 hany
  obtain ⟨hdigit, hminus⟩ := hletter d hd
  have hsame := (List.isPrefixOf_iff_prefix.1 hstart).trans hprefix
  have hne : d ≠ c := fun hdc => by
    rw [hdc, h] at hdigit
    exact absurd hdigit (by decide)
  have hnotMinus : '-' ≠ c := fun hc => by
    rw [← hc] at h
    exact absurd h (by decide)
  cases minus <;> cases negative <;>
    simp_all [List.cons_prefix_cons, hminus.symm]

/-- What starts with a digit, with or without a sign, is a number. -/
theorem readValue_numeral {c : Char} (negative : Bool) (h : c.isDigit = true) (cs : List Char) :
    readValue (fuel + 1) depth ⟨offset, (if negative then ['-'] else []) ++ c :: cs⟩ =
      readNumber ⟨offset, (if negative then ['-'] else []) ++ c :: cs⟩ := by
  have hword := readWord?_numeral negative h cs offset
  have hne : ∀ d : Char, d.isDigit = false → c ≠ d := fun d hd hcd => by
    rw [← hcd, h] at hd
    exact absurd hd (by decide)
  cases negative with
  | false =>
      have hplain : readValue (fuel + 1) depth ⟨offset, c :: cs⟩ = _ :=
        readValue_plain (hne '"' rfl) (hne '\x7b' rfl) (hne '[' rfl)
      rw [show readWord? ⟨offset, c :: cs⟩ = none from hword] at hplain
      exact hplain
  | true =>
      have hplain : readValue (fuel + 1) depth ⟨offset, '-' :: c :: cs⟩ = _ :=
        readValue_plain (by decide) (by decide) (by decide)
      rw [show readWord? ⟨offset, '-' :: c :: cs⟩ = none from hword] at hplain
      exact hplain

/-- Digits with or without a minus sign are read as a whole number. -/
theorem readNumber_digits {n : Nat} (negative : Bool) (h : Ends rest)
    (hsize : (Nat.toDigits 10 n).length ≤ Integer.maxDigits) (offset : Nat) : ∃ offset',
    readNumber ⟨offset, (if negative then ['-'] else []) ++ (Nat.toDigits 10 n ++ rest)⟩ =
      .ok (.int (if negative then -(n : Int) else n), ⟨offset', rest⟩) := by
  have hne : Nat.toDigits 10 n ≠ [] := Nat.toDigits_ne_nil
  have hempty : (Nat.toDigits 10 n).isEmpty = false := by simp
  cases negative with
  | false =>
      have hhead : ((Nat.toDigits 10 n ++ rest).head? == some '-') = false := by
        obtain ⟨c, cs, hdigits⟩ := List.exists_cons_of_ne_nil hne
        have hc : c.isDigit = true := isDigit_of_mem_toDigits (n := n) (by simp [hdigits])
        have hminus : c ≠ '-' := fun hc' => by
          rw [hc'] at hc
          exact absurd hc (by decide)
        simpa [hdigits] using hminus
      refine ⟨offset + (Nat.toDigits 10 n).length, ?_⟩
      unfold readNumber
      simp only [Bool.false_eq_true, if_false, List.nil_append, hhead, h.wholePart,
        List.drop_left, h.fractionPart, List.length_nil, Nat.add_zero, h.exponentPart, hempty,
        List.isEmpty_nil, Bool.and_true, if_true, if_neg (Nat.not_lt.2 hsize),
        digitsValue_toDigits, Cursor.advance]
  | true =>
      refine ⟨offset + ((Nat.toDigits 10 n).length + 1), ?_⟩
      unfold readNumber
      simp only [if_true, List.singleton_append, List.head?_cons, BEq.rfl, List.drop_succ_cons,
        List.drop_zero, h.wholePart, List.drop_left, h.fractionPart, List.length_nil,
        Nat.add_zero, h.exponentPart, hempty, Bool.false_eq_true, if_false, List.isEmpty_nil,
        Bool.and_true, if_neg (Nat.not_lt.2 hsize), digitsValue_toDigits, Cursor.advance]

theorem toList_render (n : Int) : (Integer.render n).toList =
    (if decide (n < 0) then ['-'] else []) ++ Nat.toDigits 10 n.natAbs := by
  by_cases hneg : n < 0 <;> simp [Integer.render, hneg]

/-- A whole number is read from its digits, if there are not too many of them. -/
theorem reads_int {n : Int} (hsize : (Nat.toDigits 10 n.natAbs).length ≤ Integer.maxDigits) :
    Reads (fuel + 1) depth (Integer.render n).toList (.int n) := by
  intro offset rest h
  obtain ⟨offset', hread⟩ := readNumber_digits (decide (n < 0)) h hsize offset
  have hvalue : (if decide (n < 0) = true then -(n.natAbs : Int) else n.natAbs) = n := by
    by_cases hneg : n < 0
    · rw [decide_eq_true hneg, if_pos rfl]
      omega
    · rw [decide_eq_false hneg, if_neg (by decide)]
      omega
  obtain ⟨c, cs, hdigits⟩ :=
    List.exists_cons_of_ne_nil (Nat.toDigits_ne_nil (n := n.natAbs) (b := 10))
  have hc : c.isDigit = true := isDigit_of_mem_toDigits (n := n.natAbs) (by simp [hdigits])
  rw [hvalue, hdigits] at hread
  refine ⟨offset', ?_⟩
  rw [toList_render, hdigits, List.append_assoc]
  exact (readValue_numeral _ hc _).trans hread

/-! ## Characters of numbers -/

def isNumeral (c : Char) : Bool := c.isDigit || c ∈ ['.', 'e', '+', '-']

theorem all_isNumeral_of_isDigit (h : ∀ c ∈ cs, c.isDigit = true) : cs.all isNumeral = true :=
  List.all_eq_true.2 fun c hc => by rw [isNumeral, h c hc, Bool.true_or]

theorem isDigit_of_mem_shortest {m : Nat} {e : Int} {c : Char}
    (h : c ∈ (Binary64.shortest m e).1) : c.isDigit = true := by
  unfold Binary64.shortest at h
  dsimp only at h
  split at h
  · rw [List.mem_singleton.1 h]
    rfl
  · have hmem := (List.dropWhile_suffix _).mem (List.mem_reverse.1 h)
    exact isDigit_of_mem_toDigits (List.mem_reverse.1 hmem)

theorem all_isNumeral_layOut (point : Int) (hcs : ∀ c ∈ cs, c.isDigit = true) :
    (Binary64.layOut cs point).all isNumeral = true := by
  have hall := all_isNumeral_of_isDigit hcs
  have htake (n : Nat) : (cs.take n).all isNumeral = true :=
    all_isNumeral_of_isDigit fun c hc => hcs c (List.mem_of_mem_take hc)
  have hdrop (n : Nat) : (cs.drop n).all isNumeral = true :=
    all_isNumeral_of_isDigit fun c hc => hcs c (List.mem_of_mem_drop hc)
  have hzeros (n : Nat) : (List.replicate n '0').all isNumeral = true :=
    all_isNumeral_of_isDigit fun c hc => (List.mem_replicate.1 hc).2 ▸ rfl
  have hsize : (Nat.toDigits 10 (point - 1).natAbs).all isNumeral = true :=
    all_isNumeral_of_isDigit fun c hc => isDigit_of_mem_toDigits hc
  have hmarks : isNumeral '0' = true ∧ isNumeral '.' = true ∧ isNumeral 'e' = true ∧
      isNumeral '-' = true ∧ isNumeral '+' = true := by decide
  unfold Binary64.layOut
  dsimp only
  split_ifs <;>
    simp only [List.all_append, List.all_cons, List.all_nil, hall, htake, hdrop, hzeros, hsize,
      hmarks, Bool.and_self]

theorem layOut_ne_nil (cs : List Char) (point : Int) : Binary64.layOut cs point ≠ [] := by
  unfold Binary64.layOut
  dsimp only
  split_ifs <;> simp

theorem all_isNumeral_renderFinite (negative : Bool) (m : Nat) (e : Int) :
    (Binary64.renderFinite negative m e).toList.all isNumeral = true ∧
      (Binary64.renderFinite negative m e).toList ≠ [] := by
  have hbody : (if m = 0 then ['0', '.', '0'] else
      Binary64.layOut (Binary64.shortest m e).1 (Binary64.shortest m e).2).all isNumeral = true ∧
      (if m = 0 then ['0', '.', '0'] else
      Binary64.layOut (Binary64.shortest m e).1 (Binary64.shortest m e).2) ≠ [] := by
    split
    · exact ⟨rfl, List.cons_ne_nil _ _⟩
    · exact ⟨all_isNumeral_layOut _ fun c hc => isDigit_of_mem_shortest hc, layOut_ne_nil _ _⟩
  have hminus : isNumeral '-' = true := rfl
  unfold Binary64.renderFinite
  rw [String.toList_ofList]
  cases negative with
  | false => exact hbody
  | true => exact ⟨by rw [if_pos rfl, List.all_cons, hminus, hbody.1]; rfl, List.cons_ne_nil _ _⟩

theorem all_isNumeral_render (n : Int) : (Integer.render n).toList.all isNumeral = true ∧
    (Integer.render n).toList ≠ [] := by
  have hdigits : (Nat.toDigits 10 n.natAbs).all isNumeral = true :=
    all_isNumeral_of_isDigit fun c hc => isDigit_of_mem_toDigits hc
  rw [toList_render]
  refine ⟨?_, List.append_ne_nil_of_right_ne_nil _ Nat.toDigits_ne_nil⟩
  rw [List.all_append, hdigits, Bool.and_true]
  split <;> rfl

end ContractAbi.JsonReader
