import ContractAbi.Proofs.Interface.TypeText
import Mathlib.Data.List.TakeWhile

/-!
# Brackets in types

Where types end is decided by brackets and commas alone, and the canonical spelling keeps all of
them.

* `filter_canonicalChars`: the canonical spelling keeps brackets and commas;
* `awaited?`: the closers that a text leaves to be awaited;
* `closing?_enclosed` and `exists_of_closing?`: a bracket closes what is balanced.
-/

namespace ContractAbi.TypeText

open Text

/-! ## Brackets and commas -/

def isMark (c : Char) : Bool :=
  (closerOf? c).isSome || isCloser c || c == ','

theorem mem_marks_of_isMark {c : Char} (h : isMark c = true) : c ∈ "([)],".toList := by
  have hcloser : c = ')' ∨ c = ']' ∨ c = ',' ∨ (closerOf? c).isSome = true := by
    simpa [isMark, isCloser, or_comm, or_assoc, or_left_comm] using h
  rcases hcloser with rfl | rfl | rfl | hopen
  · decide
  · decide
  · decide
  · unfold closerOf? at hopen
    split at hopen
    · decide
    · decide
    · exact absurd hopen (by simp)

theorem isWordChar_of_isMark {c : Char} (h : isMark c = true) : isWordChar c = false := by
  have hall : ∀ c ∈ "([)],".toList, isWordChar c = false := List.all_iff_forall_prop.1 (by decide)
  exact hall c (mem_marks_of_isMark h)

theorem isBlank_of_isMark {c : Char} (h : isMark c = true) : isBlank c = false := by
  have hall : ∀ c ∈ "([)],".toList, isBlank c = false := List.all_iff_forall_prop.1 (by decide)
  exact hall c (mem_marks_of_isMark h)

section

variable {keep : Char → Bool}

theorem filter_of_word (hkeep : ∀ c, keep c = true → isWordChar c = false) {word : List Char}
    (hword : ∀ c ∈ word, isWordChar c = true) : word.filter keep = [] := by
  rw [List.filter_eq_nil_iff]
  intro c hc hk
  exact absurd (hword c hc) (by simp [hkeep c hk])

theorem filter_spellFrom (hkeep : ∀ c, keep c = true → isWordChar c = false) (cs : List Char) :
    ∀ word : List Char, (∀ c ∈ word, isWordChar c = true) →
      (spellFrom word cs).filter keep = cs.filter keep := by
  induction cs with
  | nil =>
      intro word hword
      rw [spellFrom, filter_of_word hkeep (forall_spellWord none hword isWordChar_of_mem_long)]
      rfl
  | cons c cs ih =>
      intro word hword
      cases hc : isWordChar c with
      | true =>
          have hdropped : keep c = false := by
            cases hk : keep c with
            | false => rfl
            | true => exact absurd hc (by simp [hkeep c hk])
          have hword' : ∀ d ∈ word ++ [c], isWordChar d = true := by
            intro d hd
            rcases List.mem_append.1 hd with hd | hd
            · exact hword d hd
            · rw [List.mem_singleton.1 hd, hc]
          rw [spellFrom, if_pos hc, ih _ hword', List.filter_cons, hdropped, if_neg (by simp)]
      | false =>
          rw [spellFrom, if_neg (by simp [hc]), List.filter_append,
            filter_of_word hkeep (forall_spellWord (some c) hword isWordChar_of_mem_long),
            List.nil_append, List.filter_cons, List.filter_cons, ih [] (by simp)]

theorem filter_squeeze (hkeep : ∀ c, keep c = true → isBlank c = false) (cs : List Char) :
    (squeeze cs).filter keep = cs.filter keep := by
  rw [squeeze, List.filter_filter]
  apply List.filter_congr
  intro c _
  cases hk : keep c with
  | false => rfl
  | true => simp [hkeep c hk]

theorem filter_canonicalChars (hword : ∀ c, keep c = true → isWordChar c = false)
    (hblank : ∀ c, keep c = true → isBlank c = false) (cs : List Char) :
    (canonicalChars cs).filter keep = cs.filter keep := by
  rw [canonicalChars_eq_spellFrom, filter_spellFrom hword _ [] (by simp), filter_squeeze hblank]

theorem filter_dropWhile (hkeep : ∀ c, keep c = true → isBlank c = false) (cs : List Char) :
    (cs.dropWhile isBlank).filter keep = cs.filter keep := by
  induction cs with
  | nil => rfl
  | cons c cs ih =>
      rw [List.dropWhile_cons]
      cases hc : isBlank c with
      | false => rfl
      | true =>
          have hdropped : keep c = false := by
            cases hk : keep c with
            | false => rfl
            | true => exact absurd hc (by simp [hkeep c hk])
          rw [if_pos rfl, ih, List.filter_cons, hdropped, if_neg (by simp)]

theorem filter_trim (hkeep : ∀ c, keep c = true → isBlank c = false) (cs : List Char) :
    (trim cs).filter keep = cs.filter keep := by
  rw [trim, trimBy, List.filter_reverse, filter_dropWhile hkeep, List.filter_reverse,
    filter_dropWhile hkeep, List.reverse_reverse]

end

theorem filter_isMark_canonicalChars (cs : List Char) :
    (canonicalChars cs).filter isMark = cs.filter isMark :=
  filter_canonicalChars (fun _ => isWordChar_of_isMark) (fun _ => isBlank_of_isMark) cs

theorem filter_isMark_trim (cs : List Char) : (trim cs).filter isMark = cs.filter isMark :=
  filter_trim (fun _ => isBlank_of_isMark) cs

/-! ## Brackets that belong together -/

/-- The closers that are still awaited behind a text, where those of `stack` were awaited in front
of it. -/
def awaited? : (stack : List Char) → List Char → Option (List Char)
  | stack, [] => some stack
  | stack, c :: cs =>
    match closerOf? c with
    | some d => awaited? (d :: stack) cs
    | none =>
      if isCloser c then
        match stack with
        | [] => none
        | d :: stack => if c = d then awaited? stack cs else none
      else awaited? stack cs

theorem awaited?_cons (stack : List Char) (c : Char) (cs : List Char) :
    awaited? stack (c :: cs) =
      match closerOf? c with
      | some d => awaited? (d :: stack) cs
      | none =>
        if isCloser c then
          match stack with
          | [] => none
          | d :: stack => if c = d then awaited? stack cs else none
        else awaited? stack cs := by
  rw [awaited?.eq_def]

def Balanced (cs : List Char) : Prop :=
  awaited? [] cs = some []

theorem awaited?_filter (stack cs : List Char) :
    awaited? stack (cs.filter isMark) = awaited? stack cs := by
  induction cs generalizing stack with
  | nil => rfl
  | cons c cs ih =>
      cases hc : isMark c with
      | true =>
          rw [List.filter_cons, hc, if_pos rfl, awaited?_cons, awaited?_cons]
          simp only [ih]
      | false =>
          obtain ⟨hopen, hclose, -⟩ : closerOf? c = none ∧ isCloser c = false ∧ c ≠ ',' := by
            simpa [isMark, and_assoc] using hc
          rw [List.filter_cons, hc, if_neg (by simp), ih, awaited?_cons, hopen, hclose]
          rfl

theorem awaited?_congr {a b : List Char} (h : a.filter isMark = b.filter isMark)
    (stack : List Char) : awaited? stack a = awaited? stack b := by
  rw [← awaited?_filter, h, awaited?_filter]

/-- Behind a balanced text the closer that was awaited first closes. -/
theorem closingFrom?_of_awaited? {stack inner : List Char} {d : Char} (hopen : closerOf? d = none)
    (hclose : isCloser d = true) (h : awaited? stack inner = some []) (i : Nat)
    (rest : List Char) :
    closingFrom? i (stack ++ [d]) (inner ++ d :: rest) = some (i + inner.length) := by
  induction inner generalizing i stack with
  | nil =>
      obtain rfl := Option.some.inj h
      rw [List.nil_append, List.nil_append, closingFrom?.eq_def]
      dsimp only
      rw [hopen]
      simp [hclose]
  | cons c inner ih =>
      rw [awaited?_cons] at h
      rw [List.cons_append, closingFrom?.eq_def, List.length_cons]
      dsimp only
      have hplace : i + (inner.length + 1) = i + 1 + inner.length := by omega
      rw [hplace]
      cases hc : closerOf? c with
      | some e =>
          rw [hc] at h
          exact ih h (i + 1)
      | none =>
          rw [hc] at h
          dsimp only at h ⊢
          cases hcloser : isCloser c with
          | false =>
              rw [hcloser, if_neg (by simp)] at h
              rw [if_neg (by simp)]
              exact ih h (i + 1)
          | true =>
              rw [hcloser, if_pos rfl] at h
              rw [if_pos rfl]
              cases stack with
              | nil => exact absurd h (by simp)
              | cons e stack =>
                  dsimp only at h
                  rw [List.cons_append]
                  dsimp only
                  split at h
                  · rename_i hce
                    rw [if_neg (by simpa using hce), if_neg (by simp)]
                    exact ih h (i + 1)
                  · exact absurd h (by simp)

/-- What stands in front of the closer that is found is balanced. -/
theorem awaited?_of_closingFrom? {stack cs : List Char} {d : Char} {i stop : Nat}
    (h : closingFrom? i (stack ++ [d]) cs = some stop) :
    ∃ inner rest, cs = inner ++ d :: rest ∧ stop = i + inner.length ∧
      awaited? stack inner = some [] := by
  induction cs generalizing i stack with
  | nil => exact absurd h (by simp [closingFrom?])
  | cons c cs ih =>
      rw [closingFrom?.eq_def] at h
      dsimp only at h
      -- a character that is read leaves the rest to the hypothesis for the brackets behind it
      have hnext : ∀ {stack' : List Char}, closingFrom? (i + 1) (stack' ++ [d]) cs = some stop →
          (∀ inner, awaited? stack (c :: inner) = awaited? stack' inner) →
          ∃ inner rest, c :: cs = inner ++ d :: rest ∧ stop = i + inner.length ∧
            awaited? stack inner = some [] := by
        intro stack' hrest hstep
        obtain ⟨inner, rest, rfl, hstop, hinner⟩ := ih hrest
        exact ⟨c :: inner, rest, rfl, by rw [hstop, List.length_cons]; omega,
          (hstep inner).trans hinner⟩
      cases hc : closerOf? c with
      | some e =>
          have hpushed : closingFrom? (i + 1) (e :: stack ++ [d]) cs = some stop := by
            rwa [hc] at h
          refine hnext hpushed fun inner => ?_
          rw [awaited?_cons, hc]
      | none =>
          rw [hc] at h
          dsimp only at h
          cases hcloser : isCloser c with
          | false =>
              rw [hcloser, if_neg (by simp)] at h
              refine hnext h fun inner => ?_
              rw [awaited?_cons, hc, hcloser]
              rfl
          | true =>
              rw [hcloser, if_pos rfl] at h
              cases stack with
              | nil =>
                  rw [List.nil_append] at h
                  dsimp only at h
                  split at h
                  · exact absurd h (by simp)
                  · rename_i hcd
                    obtain rfl : c = d := by simpa using hcd
                    exact ⟨[], cs, rfl, by simpa [eq_comm] using h, rfl⟩
              | cons e stack =>
                  rw [List.cons_append] at h
                  dsimp only at h
                  split at h
                  · exact absurd h (by simp)
                  · rename_i hce
                    have hce : c = e := by simpa using hce
                    rw [if_neg (by simp)] at h
                    refine hnext h fun inner => ?_
                    rw [awaited?_cons, hc, hcloser]
                    simp [hce]

theorem closing?_enclosed {inner : List Char} (h : Balanced inner) (before rest : List Char) :
    closing? (before ++ '(' :: inner ++ ')' :: rest) before.length =
      some (before.length + 1 + inner.length) := by
  have hdrop : (before ++ '(' :: inner ++ ')' :: rest).drop before.length =
      '(' :: (inner ++ ')' :: rest) := by simp
  have hclosing : closingFrom? (before.length + 1) ([] ++ [')']) (inner ++ ')' :: rest) = _ :=
    closingFrom?_of_awaited? rfl rfl h (before.length + 1) rest
  rw [closing?, hdrop, closingFrom?]
  exact hclosing

theorem exists_of_closing? {cs : List Char} {start stop : Nat}
    (hstart : (cs.drop start).head? = some '(') (h : closing? cs start = some stop) :
    ∃ inner rest, cs.drop start = '(' :: inner ++ ')' :: rest ∧
      stop = start + 1 + inner.length ∧ Balanced inner := by
  cases hdrop : cs.drop start with
  | nil => exact absurd hstart (by simp [hdrop])
  | cons c tail =>
      rw [hdrop] at hstart
      obtain rfl : c = '(' := by simpa using hstart
      rw [closing?, hdrop, closingFrom?] at h
      have hclosing : closingFrom? (start + 1) ([] ++ [')']) tail = some stop := h
      obtain ⟨inner, rest, rfl, hstop, hinner⟩ := awaited?_of_closingFrom? hclosing
      exact ⟨inner, rest, rfl, hstop, hinner⟩

end ContractAbi.TypeText
