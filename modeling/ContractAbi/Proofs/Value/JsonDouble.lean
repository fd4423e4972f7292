import ContractAbi.Proofs.Number.Decimal
import ContractAbi.Proofs.Value.JsonNumber

/-!
# Doubles in JSON

Every double is read from the text that is written for it, wherever it stands in a document.

* `exists_readNumber`: decimals are read as far as they go;
* `reads_double`: so are doubles.
-/

namespace ContractAbi.JsonReader

open Value Binary64

variable {rest : List Char} {fuel depth : Nat} (t : DecimalText)

/-! ## Decimals -/

theorem not_isDigit_of_ends (h : Ends rest) (c : Char) (hc : rest.head? = some c) :
    c.isDigit = false := by
  rcases h c hc with rfl | rfl <;> rfl

theorem head?_append_of_ends (h : Ends rest) {cs : List Char}
    (hcs : ∀ c, cs.head? = some c → c.isDigit = false) (c : Char)
    (hc : (cs ++ rest).head? = some c) : c.isDigit = false := by
  cases cs with
  | nil => exact not_isDigit_of_ends h c hc
  | cons d cs => exact hcs c hc

theorem wholePart_chars (h : Ends rest) : wholePart (t.chars ++ rest) = t.whole := by
  have hbehind := head?_append_of_ends h t.not_isDigit_behind
  have hwhole := takeWhile_digits t.whole_digits hbehind
  rw [DecimalText.chars, List.append_assoc]
  rcases t.leading with hzero | ⟨c, cs, heq, hc⟩
  · rw [hzero]
    rfl
  · rw [heq, List.cons_append] at hwhole ⊢
    unfold wholePart
    split
    · rename_i hhead
      exact absurd (List.cons.inj hhead).1 hc
    · exact hwhole

theorem exponentPart_chars (h : Ends rest) :
    exponentPart (t.exponentChars ++ rest) = t.exponentChars := by
  have hdigits := t.exponent_digits
  unfold DecimalText.exponentChars
  cases hexponent : t.exponent with
  | none => exact h.exponentPart
  | some x =>
      obtain ⟨negative, ds⟩ := x
      obtain ⟨hne, hds⟩ := hdigits (negative, ds) hexponent
      have htake := takeWhile_digits hds (not_isDigit_of_ends h)
      have hempty : ds.isEmpty = false := by simpa using hne
      cases negative <;> simp [exponentPart, htake, hempty]

theorem fractionPart_eq_nil {cs : List Char} (h : ∀ c, cs.head? = some c → c ≠ '.') :
    fractionPart cs = [] := by
  unfold fractionPart
  split
  · exact absurd rfl (h '.' rfl)
  · rfl

theorem fractionPart_chars (h : Ends rest) :
    fractionPart (t.fractionChars ++ (t.exponentChars ++ rest)) = t.fractionChars := by
  have hbehind := head?_append_of_ends h t.not_isDigit_exponentChars
  have hexponent := t.head?_exponentChars
  unfold DecimalText.fractionChars
  split
  · apply fractionPart_eq_nil
    intro c hc
    rw [List.nil_append] at hc
    generalize t.exponentChars = cs at *
    cases cs with
    | nil => rcases h c hc with rfl | rfl <;> decide
    | cons d cs =>
        rw [hexponent c hc]
        decide
  · rename_i hempty
    have htake := takeWhile_digits t.fraction_digits hbehind
    simp [fractionPart, htake, hempty]

theorem isEmpty_marks : (t.fractionChars.isEmpty && t.exponentChars.isEmpty) = false := by
  unfold DecimalText.fractionChars DecimalText.exponentChars
  rcases t.marked with hfraction | hexponent
  · rw [if_neg (by simpa using hfraction)]
    rfl
  · cases hx : t.exponent with
    | none => exact absurd hx hexponent
    | some x =>
        rw [Bool.and_eq_false_iff]
        exact .inr rfl

/-- A decimal is read as far as it goes, as the double that it spells. -/
theorem exists_readNumber (negative : Bool) (h : Ends rest) (offset : Nat) : ∃ offset',
    readNumber ⟨offset, t.signed negative ++ rest⟩ =
      .ok (.float (t.value negative), ⟨offset', rest⟩) := by
  have hread := t.read?_signed negative
  have hwhole := wholePart_chars t h
  have hfraction := fractionPart_chars t h
  have hexponent := exponentPart_chars t h
  have hmarks := isEmpty_marks t
  obtain ⟨c, cs, hfirst, hdigit⟩ := t.exists_whole
  have hnonempty : t.whole.isEmpty = false := by
    rw [hfirst]
    rfl
  have hhead : ((t.signed negative ++ rest).head? == some '-') = negative := by
    cases negative with
    | true => rfl
    | false =>
        have hc : c ≠ '-' := by
          rintro rfl
          exact absurd hdigit (by decide)
        simpa [DecimalText.signed, DecimalText.chars, hfirst] using hc
  have hbody :
      (if negative then (t.signed negative ++ rest).drop 1 else t.signed negative ++ rest) =
      t.chars ++ rest := by
    cases negative <;> rfl
  have hbehind : (t.chars ++ rest).drop t.whole.length =
      t.fractionChars ++ (t.exponentChars ++ rest) := by
    rw [DecimalText.chars, List.append_assoc, List.drop_left, List.append_assoc]
  have hlast : (t.chars ++ rest).drop (t.whole.length + t.fractionChars.length) =
      t.exponentChars ++ rest := by
    rw [← List.drop_drop, hbehind, List.drop_left]
  have hsize : t.whole.length + t.fractionChars.length + t.exponentChars.length +
      (if negative then 1 else 0) = (t.signed negative).length := by
    cases negative <;> simp [DecimalText.signed, DecimalText.chars] <;> omega
  refine ⟨offset + (t.signed negative).length, ?_⟩
  unfold readNumber
  simp only [hhead, hbody, hwhole, hbehind, hfraction, hlast, hexponent, hnonempty, hmarks, hsize,
    List.take_left, hread, Cursor.advance, List.drop_left, Bool.false_eq_true, if_false]

/-! ## Doubles -/

variable {x : Binary64}

theorem reads_double (h : x.Proper) : Reads (fuel + 1) depth (jsonNumber x).toList (.float x) := by
  intro offset rest hends
  cases x with
  | nan => exact ⟨offset + 3, by rw [readValue.eq_def]; rfl⟩
  | infinite negative =>
      cases negative with
      | false => exact ⟨offset + 8, by rw [readValue.eq_def]; rfl⟩
      | true => exact ⟨offset + 9, by rw [readValue.eq_def]; rfl⟩
  | finite negative m e =>
      obtain ⟨t, htext, hvalue⟩ := exists_renderFinite negative h
      obtain ⟨offset', hread⟩ := exists_readNumber t negative hends offset
      obtain ⟨c, cs, hfirst, hdigit⟩ := t.exists_whole
      refine ⟨offset', ?_⟩
      rw [hvalue] at hread
      have hsigned : t.signed negative ++ rest = (if negative then ['-'] else []) ++
          c :: (cs ++ (t.fractionChars ++ t.exponentChars) ++ rest) := by
        cases negative <;> simp [DecimalText.signed, DecimalText.chars, hfirst]
      rw [jsonNumber, htext, String.toList_ofList]
      rw [hsigned] at hread ⊢
      exact (readValue_numeral negative hdigit _).trans hread

end ContractAbi.JsonReader
