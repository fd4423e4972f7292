import ContractAbi.Interface.TypeText
import ContractAbi.Proofs.Text.Trim
import Mathlib.Data.Bool.AllAny
import Mathlib.Data.List.Basic

/-!
# The canonical spelling of types

Spelling out looks at whole words, so a text may be cut at any character outside of words and its
parts be spelt out on their own.

* `canonicalChars_eq_spellFrom`: the canonical spelling, one character at a time;
* `canonical_canonicalChars` and `canonicalChars_of_canonical`: a canonical spelling stays as it is;
* `closing?_head` and `splitChars_canonical`: the bracket that a tuple ends with, and the types
  between its commas, which are canonical if the tuple is.
-/

namespace ContractAbi.TypeText

open Text

/-! ## Spelling out one character at a time -/

def spellWord (word : List Char) (next : Option Char) : List Char :=
  if word = "tuple".toList ∧ next = some '(' then [] else fullName word

/-- A text spelt out, where some characters of a word have been read already. -/
def spellFrom : (word : List Char) → List Char → List Char
  | word, [] => spellWord word none
  | word, c :: cs =>
    if isWordChar c then spellFrom (word ++ [c]) cs
    else spellWord word (some c) ++ c :: spellFrom [] cs

def SpeltFrom : (word : List Char) → List Char → Prop
  | word, [] => spellWord word none = word
  | word, c :: cs =>
    if isWordChar c then SpeltFrom (word ++ [c]) cs
    else spellWord word (some c) = word ∧ SpeltFrom [] cs

theorem spellWord_none (word : List Char) : spellWord word none = fullName word := by
  simp [spellWord]

theorem fullName_nil : fullName [] = [] := by decide

theorem cons_ne_of_not_word {c : Char} (hc : isWordChar c = false) (cs : List Char)
    {word : List Char} (hword : word.all isWordChar = true) : c :: cs ≠ word := by
  rintro rfl
  exact absurd (List.all_eq_true.1 hword c List.mem_cons_self) (by simp [hc])

theorem fullName_cons_of_not_word {c : Char} (hc : isWordChar c = false) (cs : List Char) :
    fullName (c :: cs) = c :: cs := by
  have hu : c :: cs ≠ "uint".toList := cons_ne_of_not_word hc cs (by decide)
  have hi : c :: cs ≠ "int".toList := cons_ne_of_not_word hc cs (by decide)
  have hb : c :: cs ≠ "byte".toList := cons_ne_of_not_word hc cs (by decide)
  unfold fullName
  rw [if_neg hu, if_neg hi, if_neg hb]

theorem fullName_fullName (word : List Char) : fullName (fullName word) = fullName word := by
  unfold fullName
  by_cases hu : word = "uint".toList
  · rw [if_pos hu]
    decide
  · rw [if_neg hu]
    by_cases hi : word = "int".toList
    · rw [if_pos hi]
      decide
    · rw [if_neg hi]
      by_cases hb : word = "byte".toList
      · rw [if_pos hb]
        decide
      · rw [if_neg hb, if_neg hu, if_neg hi, if_neg hb]

theorem fullName_eq_tuple {word : List Char} (h : fullName word = "tuple".toList) :
    word = "tuple".toList := by
  unfold fullName at h
  by_cases hu : word = "uint".toList
  · rw [if_pos hu] at h
    exact absurd h (by decide)
  · rw [if_neg hu] at h
    by_cases hi : word = "int".toList
    · rw [if_pos hi] at h
      exact absurd h (by decide)
    · rw [if_neg hi] at h
      by_cases hb : word = "byte".toList
      · rw [if_pos hb] at h
        exact absurd h (by decide)
      · rwa [if_neg hb] at h

theorem isWordChar_of_mem_long : ∀ c ∈ "uint256bytes1".toList, isWordChar c = true :=
  List.all_iff_forall_prop.1 (by decide)

theorem isBlank_of_mem_long : ∀ c ∈ "uint256bytes1".toList, isBlank c = false :=
  List.all_iff_forall_prop.1 (by decide)

theorem forall_fullName {p : Char → Prop} {word : List Char} (hword : ∀ c ∈ word, p c)
    (hlong : ∀ c ∈ "uint256bytes1".toList, p c) : ∀ c ∈ fullName word, p c := by
  unfold fullName
  split
  · exact fun c hc => hlong c (List.Sublist.subset (by decide) hc)
  · split
    · exact fun c hc => hlong c (List.Sublist.subset (by decide) hc)
    · split
      · exact fun c hc => hlong c (List.Sublist.subset (by decide) hc)
      · exact hword

theorem forall_spellWord {p : Char → Prop} {word : List Char} (next : Option Char)
    (hword : ∀ c ∈ word, p c) (hlong : ∀ c ∈ "uint256bytes1".toList, p c) :
    ∀ c ∈ spellWord word next, p c := by
  unfold spellWord
  split
  · exact fun c hc => absurd hc (by simp)
  · exact forall_fullName hword hlong

theorem spellWord_spellWord (word : List Char) (next : Option Char) :
    spellWord (spellWord word next) next = spellWord word next := by
  by_cases h : word = "tuple".toList ∧ next = some '('
  · have hnil : spellWord word next = [] := if_pos h
    rw [hnil, spellWord, if_neg (by simp), fullName_nil]
  · have hname : spellWord word next = fullName word := if_neg h
    have htuple : ¬(fullName word = "tuple".toList ∧ next = some '(') :=
      fun h' => h ⟨fullName_eq_tuple h'.1, h'.2⟩
    rw [hname, spellWord, if_neg htuple, fullName_fullName]

/-! ## Runs of characters -/

theorem runs_cons (c : Char) (cs : List Char) :
    ∃ run rest, runs (c :: cs) = (c :: run) :: rest := by
  unfold runs
  split
  · split
    · exact ⟨_, _, rfl⟩
    · exact ⟨_, _, rfl⟩
  · exact ⟨_, _, rfl⟩

/-- A word is a run of its own, up to a character outside of words. -/
theorem runs_word_append {word : List Char} (hne : word ≠ [])
    (hword : ∀ c ∈ word, isWordChar c = true) {c : Char} (hc : isWordChar c = false)
    (cs : List Char) : runs (word ++ c :: cs) = word :: runs (c :: cs) := by
  induction word with
  | nil => exact absurd rfl hne
  | cons a word ih =>
      have ha : isWordChar a = true := hword a (by simp)
      cases word with
      | nil =>
          obtain ⟨run, rest, hruns⟩ := runs_cons c cs
          rw [List.singleton_append, runs, hruns]
          simp [ha, hc]
      | cons b word =>
          have hb : isWordChar b = true := hword b (by simp)
          have ih' := ih (by simp) (fun d hd => hword d (by simp [hd]))
          rw [List.cons_append, runs, ih']
          simp [ha, hb]

theorem runs_word {word : List Char} (hne : word ≠ [])
    (hword : ∀ c ∈ word, isWordChar c = true) : runs word = [word] := by
  induction word with
  | nil => exact absurd rfl hne
  | cons a word ih =>
      have ha : isWordChar a = true := hword a (by simp)
      cases word with
      | nil => simp [runs]
      | cons b word =>
          have hb : isWordChar b = true := hword b (by simp)
          rw [runs, ih (by simp) (fun d hd => hword d (by simp [hd]))]
          simp [ha, hb]

theorem spellOut_cons_of_not_word {c : Char} (hc : isWordChar c = false) (run : List Char)
    (rest : List (List Char)) : spellOut ((c :: run) :: rest) = (c :: run) :: spellOut rest := by
  have ht : c :: run ≠ "tuple".toList := cons_ne_of_not_word hc run (by decide)
  rw [spellOut, if_neg (fun h => ht h.1), fullName_cons_of_not_word hc]

theorem flatten_spellOut_cons {c : Char} (hc : isWordChar c = false) (cs : List Char) :
    (spellOut (runs (c :: cs))).flatten = c :: (spellOut (runs cs)).flatten := by
  cases cs with
  | nil =>
      have hruns : runs [c] = [[c]] := rfl
      rw [hruns, spellOut_cons_of_not_word hc]
      rfl
  | cons d cs =>
      obtain ⟨run, rest, hruns⟩ := runs_cons d cs
      rw [runs, hruns]
      cases hd : isWordChar d with
      | false =>
          simp only [hc, hd, beq_self_eq_true, if_true]
          rw [spellOut_cons_of_not_word hc, spellOut_cons_of_not_word hd]
          simp
      | true =>
          simp only [hc, hd]
          rw [if_neg (by decide), spellOut_cons_of_not_word hc]
          simp

theorem flatten_spellOut_word {word : List Char} (hword : ∀ c ∈ word, isWordChar c = true) :
    (spellOut (runs word)).flatten = fullName word := by
  by_cases hne : word = []
  · subst hne
    decide
  · rw [runs_word hne hword]
    simp [spellOut]

theorem flatten_spellOut_word_append {word : List Char}
    (hword : ∀ c ∈ word, isWordChar c = true) {c : Char} (hc : isWordChar c = false)
    (cs : List Char) :
    (spellOut (runs (word ++ c :: cs))).flatten =
      spellWord word (some c) ++ (spellOut (runs (c :: cs))).flatten := by
  by_cases hne : word = []
  · subst hne
    have hnil : spellWord [] (some c) = [] := by
      rw [spellWord, if_neg (by simp), fullName_nil]
    rw [hnil]
    rfl
  · obtain ⟨run, rest, hruns⟩ := runs_cons c cs
    have hhead : (runs (c :: cs)).head?.bind List.head? = some c := by
      simp [hruns]
    rw [runs_word_append hne hword hc, spellOut, hhead, spellWord]
    by_cases htuple : word = "tuple".toList ∧ some c = some '('
    · rw [if_pos htuple, if_pos htuple, List.nil_append]
    · rw [if_neg htuple, if_neg htuple, List.flatten_cons]

theorem flatten_spellOut_eq_spellFrom (cs : List Char) :
    ∀ word : List Char, (∀ c ∈ word, isWordChar c = true) →
      (spellOut (runs (word ++ cs))).flatten = spellFrom word cs := by
  induction cs with
  | nil =>
      intro word hword
      rw [List.append_nil, flatten_spellOut_word hword, spellFrom, spellWord_none]
  | cons c cs ih =>
      intro word hword
      cases hc : isWordChar c with
      | true =>
          have hword' : ∀ d ∈ word ++ [c], isWordChar d = true := by
            intro d hd
            rcases List.mem_append.1 hd with hd | hd
            · exact hword d hd
            · rw [List.mem_singleton.1 hd, hc]
          have happend : word ++ c :: cs = word ++ [c] ++ cs := by simp
          rw [happend, ih _ hword', spellFrom, if_pos hc]
      | false =>
          have hrest := ih [] (by simp)
          rw [List.nil_append] at hrest
          rw [flatten_spellOut_word_append hword hc, flatten_spellOut_cons hc, hrest, spellFrom,
            if_neg (by simp [hc])]

theorem canonicalChars_eq_spellFrom (cs : List Char) :
    canonicalChars cs = spellFrom [] (squeeze cs) :=
  flatten_spellOut_eq_spellFrom (squeeze cs) [] (by simp)

/-! ## Canonical texts -/

structure Canonical (cs : List Char) : Prop where
  solid : ∀ c ∈ cs, isBlank c = false
  spelt : SpeltFrom [] cs

theorem speltFrom_append_word {v : List Char} (hv : ∀ c ∈ v, isWordChar c = true)
    (word cs : List Char) : SpeltFrom word (v ++ cs) ↔ SpeltFrom (word ++ v) cs := by
  induction v generalizing word with
  | nil => simp
  | cons c v ih =>
      have hc : isWordChar c = true := hv c (by simp)
      rw [List.cons_append, SpeltFrom, if_pos hc, ih (fun d hd => hv d (by simp [hd]))]
      simp

theorem speltFrom_spellFrom (cs : List Char) :
    ∀ word : List Char, (∀ c ∈ word, isWordChar c = true) → SpeltFrom [] (spellFrom word cs) := by
  induction cs with
  | nil =>
      intro word hword
      have hspelt := forall_spellWord none hword isWordChar_of_mem_long
      rw [spellFrom, ← List.append_nil (spellWord word none), speltFrom_append_word hspelt,
        List.nil_append, SpeltFrom, spellWord_spellWord]
  | cons c cs ih =>
      intro word hword
      cases hc : isWordChar c with
      | true =>
          rw [spellFrom, if_pos hc]
          apply ih
          intro d hd
          rcases List.mem_append.1 hd with hd | hd
          · exact hword d hd
          · rw [List.mem_singleton.1 hd, hc]
      | false =>
          have hspelt := forall_spellWord (some c) hword isWordChar_of_mem_long
          rw [spellFrom, if_neg (by simp [hc]), speltFrom_append_word hspelt, List.nil_append,
            SpeltFrom, if_neg (by simp [hc]), spellWord_spellWord]
          exact ⟨rfl, ih [] (by simp)⟩

theorem solid_spellFrom (cs : List Char) :
    ∀ word : List Char, (∀ c ∈ word, isBlank c = false) → (∀ c ∈ cs, isBlank c = false) →
      ∀ c ∈ spellFrom word cs, isBlank c = false := by
  induction cs with
  | nil =>
      intro word hword _
      rw [spellFrom]
      exact forall_spellWord none hword isBlank_of_mem_long
  | cons c cs ih =>
      intro word hword hcs
      have hc : isBlank c = false := hcs c (by simp)
      have hrest : ∀ d ∈ cs, isBlank d = false := fun d hd => hcs d (by simp [hd])
      rw [spellFrom]
      split
      · apply ih _ _ hrest
        intro d hd
        rcases List.mem_append.1 hd with hd | hd
        · exact hword d hd
        · rw [List.mem_singleton.1 hd, hc]
      · intro d hd
        rcases List.mem_append.1 hd with hd | hd
        · exact forall_spellWord (some c) hword isBlank_of_mem_long d hd
        · rcases List.mem_cons.1 hd with rfl | hd
          · exact hc
          · exact ih [] (by simp) hrest d hd

theorem spellFrom_of_speltFrom {word cs : List Char} (h : SpeltFrom word cs) :
    spellFrom word cs = word ++ cs := by
  induction cs generalizing word with
  | nil => simpa [spellFrom, SpeltFrom] using h
  | cons c cs ih =>
      rw [SpeltFrom] at h
      rw [spellFrom]
      split at h
      · rw [if_pos ‹_›, ih h]
        simp
      · rw [if_neg ‹_›, h.1, ih h.2]
        simp

theorem squeeze_of_solid {cs : List Char} (h : ∀ c ∈ cs, isBlank c = false) :
    squeeze cs = cs := by
  unfold squeeze
  rw [List.filter_eq_self]
  intro c hc
  simp [h c hc]

theorem canonical_canonicalChars (cs : List Char) : Canonical (canonicalChars cs) := by
  rw [canonicalChars_eq_spellFrom]
  constructor
  · apply solid_spellFrom _ _ (by simp)
    intro c hc
    simpa using (List.mem_filter.1 hc).2
  · exact speltFrom_spellFrom _ [] (by simp)

theorem canonicalChars_of_canonical {cs : List Char} (h : Canonical cs) :
    canonicalChars cs = cs := by
  rw [canonicalChars_eq_spellFrom, squeeze_of_solid h.solid, spellFrom_of_speltFrom h.spelt,
    List.nil_append]

theorem canonical_ofList {cs : List Char} (h : Canonical cs) :
    canonical (String.ofList cs) = String.ofList cs := by
  rw [canonical, String.toList_ofList, canonicalChars_of_canonical h]

theorem canonical_canonical (s : String) : canonical (canonical s) = canonical s :=
  canonical_ofList (canonical_canonicalChars s.toList)

/-! ## Parts of canonical texts -/

/-- Cutting at a character outside of words leaves two texts that are spelt out. -/
theorem speltFrom_cut {word a b : List Char} {c : Char} (hc : isWordChar c = false)
    (h : SpeltFrom word (a ++ c :: b)) : SpeltFrom word a ∧ SpeltFrom [] b := by
  induction a generalizing word with
  | nil =>
      rw [List.nil_append, SpeltFrom, if_neg (by simp [hc])] at h
      obtain ⟨hword, hb⟩ := h
      refine ⟨?_, hb⟩
      rw [SpeltFrom, spellWord_none]
      -- a word that is left out in front of `c` would have to be empty
      by_cases htuple : word = "tuple".toList ∧ some c = some '('
      · rw [spellWord, if_pos htuple, htuple.1] at hword
        exact absurd hword (by decide)
      · rwa [spellWord, if_neg htuple] at hword
  | cons d a ih =>
      rw [List.cons_append, SpeltFrom] at h
      rw [SpeltFrom]
      split at h
      · rw [if_pos ‹_›]
        exact ih h
      · rw [if_neg ‹_›]
        exact ⟨⟨h.1, (ih h.2).1⟩, (ih h.2).2⟩

theorem Canonical.cut {a b : List Char} {c : Char} (hc : isWordChar c = false)
    (h : Canonical (a ++ c :: b)) : Canonical a ∧ Canonical b := by
  obtain ⟨ha, hb⟩ := speltFrom_cut hc h.spelt
  exact ⟨⟨fun d hd => h.solid d (by simp [hd]), ha⟩,
    ⟨fun d hd => h.solid d (by simp [hd]), hb⟩⟩

theorem Canonical.of_intercalate {parts : List (List Char)}
    (h : Canonical ([','].intercalate parts)) : ∀ p ∈ parts, Canonical p := by
  induction parts with
  | nil => simp
  | cons p parts ih =>
      cases parts with
      | nil =>
          rw [List.intercalate_singleton] at h
          simpa using h
      | cons q parts =>
          rw [List.intercalate_cons_cons, List.append_assoc, List.singleton_append] at h
          obtain ⟨hp, hrest⟩ := h.cut (by decide)
          intro r hr
          rcases List.mem_cons.1 hr with rfl | hr
          · exact hp
          · exact ih hrest r hr

/-! ## Brackets -/

/-- The bracket that is found closes the first one that was opened. -/
theorem closingFrom?_split {cs stack : List Char} {i j : Nat} (hstack : stack ≠ [])
    (h : closingFrom? i stack cs = some j) :
    ∃ a b, cs = a ++ stack.getLast hstack :: b ∧ j = i + a.length := by
  induction cs generalizing i stack with
  | nil => simp [closingFrom?] at h
  | cons c cs ih =>
      rw [closingFrom?.eq_def] at h
      simp only at h
      cases hopen : closerOf? c with
      | some d =>
          simp only [hopen] at h
          obtain ⟨a, b, hcs, hj⟩ := ih (List.cons_ne_nil d stack) h
          rw [List.getLast_cons hstack] at hcs
          exact ⟨c :: a, b, by rw [hcs, List.cons_append], by rw [hj, List.length_cons]; omega⟩
      | none =>
          simp only [hopen] at h
          cases hclose : isCloser c with
          | false =>
              rw [hclose, if_neg (by simp)] at h
              obtain ⟨a, b, hcs, hj⟩ := ih hstack h
              exact ⟨c :: a, b, by rw [hcs, List.cons_append],
                by rw [hj, List.length_cons]; omega⟩
          | true =>
              rw [hclose, if_pos rfl] at h
              cases stack with
              | nil => exact absurd rfl hstack
              | cons d stack =>
                  simp only at h
                  split at h
                  · exact absurd h (by simp)
                  · rename_i hcd
                    have hcd : c = d := by simpa using hcd
                    cases stack with
                    | nil =>
                        simp only [List.isEmpty_nil, if_true, Option.some.injEq] at h
                        exact ⟨[], cs, by simp [hcd], by simp [h]⟩
                    | cons e stack =>
                        rw [if_neg (by simp)] at h
                        obtain ⟨a, b, hcs, hj⟩ := ih (List.cons_ne_nil e stack) h
                        refine ⟨c :: a, b, ?_, by rw [hj, List.length_cons]; omega⟩
                        rw [hcs, List.cons_append, List.getLast_cons (List.cons_ne_nil e stack)]

/-- A text that starts with a tuple is its bracket, what stands inside, the closing bracket that
was found, and the rest. -/
theorem closing?_head {cs : List Char} {stop : Nat} (hhead : cs.head? = some '(')
    (h : closing? cs 0 = some stop) :
    cs = '(' :: (cs.take stop).drop 1 ++ ')' :: cs.drop (stop + 1) := by
  cases cs with
  | nil => simp at hhead
  | cons c cs =>
      obtain rfl : c = '(' := by simpa using hhead
      have hopen : closerOf? '(' = some ')' := rfl
      rw [closing?, List.drop_zero, closingFrom?] at h
      simp only [hopen] at h
      obtain ⟨a, b, hcs, hstop⟩ := closingFrom?_split (by simp) h
      rw [List.getLast_singleton] at hcs
      have htake : ('(' :: cs).take stop = '(' :: a := by
        rw [hcs, hstop, Nat.zero_add, Nat.add_comm, List.take_succ_cons, List.take_left]
      have hdrop : ('(' :: cs).drop (stop + 1) = b := by
        rw [hcs, hstop]
        have hlength : 0 + 1 + a.length + 1 = a.length + 1 + 1 := by omega
        rw [hlength, List.drop_succ_cons, ← List.singleton_append, ← List.append_assoc]
        exact List.drop_left' (by simp)
      rw [htake, hdrop, hcs]
      rfl

/-! ## Lists of types -/

theorem intercalate_extendFirst {parts : List (List Char)} (hparts : parts ≠ []) (c : Char) :
    [','].intercalate (extendFirst c parts) = c :: [','].intercalate parts := by
  cases parts with
  | nil => exact absurd rfl hparts
  | cons p parts =>
      cases parts with
      | nil => simp [extendFirst]
      | cons q parts => simp [extendFirst, List.intercalate_cons_cons]

theorem extendFirst_ne_nil (c : Char) (parts : List (List Char)) : extendFirst c parts ≠ [] := by
  cases parts <;> simp [extendFirst]

theorem intercalate_splitTop? {cs : List Char} {depth : Nat} {parts : List (List Char)}
    (h : splitTop? depth cs = some parts) : parts ≠ [] ∧ [','].intercalate parts = cs := by
  induction cs generalizing depth parts with
  | nil =>
      rw [splitTop?] at h
      split at h
      · obtain rfl := Option.some.inj h
        exact ⟨by simp, rfl⟩
      · exact absurd h (by simp)
  | cons c cs ih =>
      have hextend : ∀ {d : Nat}, (splitTop? d cs).map (extendFirst c) = some parts →
          parts ≠ [] ∧ [','].intercalate parts = c :: cs := by
        intro d hd
        obtain ⟨rest, hrest, rfl⟩ := Option.map_eq_some_iff.1 hd
        obtain ⟨hne, hjoin⟩ := ih hrest
        exact ⟨extendFirst_ne_nil c rest, by rw [intercalate_extendFirst hne, hjoin]⟩
      rw [splitTop?.eq_def] at h
      simp only at h
      split at h
      · exact hextend h
      · split at h
        · cases depth with
          | zero => exact absurd h (by simp)
          | succ depth => exact hextend h
        · split at h
          · rename_i hcomma
            obtain ⟨rest, hrest, rfl⟩ := Option.map_eq_some_iff.1 h
            obtain ⟨hne, hjoin⟩ := ih hrest
            obtain ⟨q, rest, rfl⟩ := List.exists_cons_of_ne_nil hne
            refine ⟨by simp, ?_⟩
            rw [List.intercalate_cons_cons, hjoin, hcomma.1]
            rfl
          · exact hextend h

/-- The types of a canonical list are canonical, and nothing but commas stands between them. -/
theorem splitChars_canonical {cs : List Char} {types : List (List Char)} (hcs : Canonical cs)
    (h : splitChars cs = .ok types) :
    [','].intercalate types = cs ∧ ∀ t ∈ types, Canonical t := by
  rw [splitChars, trim_of_solid hcs.solid] at h
  cases cs with
  | nil =>
      obtain rfl : [] = types := by simpa using h
      exact ⟨rfl, by simp⟩
  | cons c cs =>
      simp only [List.isEmpty_cons, Bool.false_eq_true, if_false] at h
      cases hsplit : splitTop? 0 (c :: cs) with
      | none =>
          rw [hsplit] at h
          exact absurd h (by simp)
      | some parts =>
          obtain ⟨-, hjoin⟩ := intercalate_splitTop? hsplit
          have hparts : ∀ p ∈ parts, Canonical p := Canonical.of_intercalate (hjoin ▸ hcs)
          have htrim : parts.map trim = parts := by
            nth_rewrite 2 [← List.map_id parts]
            apply List.map_congr_left
            exact fun p hp => trim_of_solid (hparts p hp).solid
          rw [hsplit] at h
          simp only [htrim] at h
          split at h
          · exact absurd h (by simp)
          · obtain rfl := Except.ok.inj h
            exact ⟨hjoin, hparts⟩

end ContractAbi.TypeText
