import ContractAbi.Text.Blank
import Mathlib.Data.List.DropRight

/-!
# Trimming

A text is its trimmed text with blanks around it, and it is trimmed if no blank stands at its ends.

* `exists_trim`: the blanks that trimming takes away;
* `trim_blank_append` and `trim_append_blank`: blanks at the ends do not matter to `trim`;
* `trim_eq_self_iff` and `trim_enclosed`: texts that are trimmed already;
* `exists_trim_append`: behind a trimmed text only the end is trimmed.
-/

namespace ContractAbi.Text

def Blank (cs : List Char) : Prop :=
  ∀ c ∈ cs, isBlank c = true

instance (cs : List Char) : Decidable (Blank cs) :=
  decidable_of_iff (cs.all isBlank = true) List.all_eq_true

@[simp] theorem Blank.nil : Blank [] := by simp [Blank]

theorem Blank.append {a b : List Char} (ha : Blank a) (hb : Blank b) : Blank (a ++ b) := by
  intro c hc
  rcases List.mem_append.1 hc with hc | hc
  · exact ha c hc
  · exact hb c hc

theorem trim_eq (cs : List Char) : trim cs = (cs.dropWhile isBlank).rdropWhile isBlank := rfl

theorem trim_of_blank {cs : List Char} (h : Blank cs) : trim cs = [] := by
  have hnone : cs.dropWhile isBlank = [] := List.dropWhile_eq_nil_iff.2 h
  rw [trim_eq, hnone]
  rfl

theorem exists_trim (cs : List Char) : ∃ a b, Blank a ∧ Blank b ∧ cs = a ++ trim cs ++ b := by
  refine ⟨cs.takeWhile isBlank, (cs.dropWhile isBlank).rtakeWhile isBlank, ?_, ?_, ?_⟩
  · exact fun c hc => List.mem_takeWhile_imp hc
  · exact fun c hc => List.mem_rtakeWhile_imp hc
  · rw [trim_eq, List.append_assoc, List.rdropWhile_append_rtakeWhile,
      List.takeWhile_append_dropWhile]

/-! ## Blanks at the ends -/

theorem trim_blank_append {a : List Char} (ha : Blank a) (cs : List Char) :
    trim (a ++ cs) = trim cs := by
  rw [trim_eq, List.dropWhile_append_of_pos ha, ← trim_eq]

theorem trim_append_blank (cs : List Char) {b : List Char} (hb : Blank b) :
    trim (cs ++ b) = trim cs := by
  have hreverse : ∀ c ∈ b.reverse, isBlank c = true := fun c hc => hb c (List.mem_reverse.1 hc)
  rw [trim_eq, trim_eq, List.dropWhile_append]
  split
  · rename_i hempty
    rw [List.isEmpty_iff.1 hempty, List.dropWhile_eq_nil_iff.2 hb]
  · rw [List.rdropWhile, List.reverse_append, List.dropWhile_append_of_pos hreverse]
    rfl

theorem trim_around {a b : List Char} (ha : Blank a) (hb : Blank b) (cs : List Char) :
    trim (a ++ cs ++ b) = trim cs := by
  rw [trim_append_blank _ hb, trim_blank_append ha]

theorem trim_trim (cs : List Char) : trim (trim cs) = trim cs := by
  obtain ⟨a, b, ha, hb, hcs⟩ := exists_trim cs
  calc trim (trim cs) = trim (a ++ trim cs ++ b) := (trim_around ha hb _).symm
    _ = trim cs := by rw [← hcs]

/-! ## Trimmed texts -/

theorem trim_eq_self_iff {cs : List Char} :
    trim cs = cs ↔ (∀ c, cs.head? = some c → isBlank c = false) ∧
      ∀ c, cs.getLast? = some c → isBlank c = false := by
  have hfront : cs.dropWhile isBlank = cs ↔ ∀ c, cs.head? = some c → isBlank c = false := by
    cases cs with
    | nil => simp
    | cons c cs => simp [List.dropWhile_eq_self_iff]
  have hback : cs.rdropWhile isBlank = cs ↔ ∀ c, cs.getLast? = some c → isBlank c = false := by
    rw [List.rdropWhile_eq_self_iff]
    constructor
    · intro h c hc
      obtain ⟨front, rfl⟩ := List.getLast?_eq_some_iff.1 hc
      simpa using h (by simp)
    · intro h hne
      simpa using h _ (List.getLast?_eq_some_getLast hne)
  rw [← hfront, ← hback, trim_eq]
  constructor
  · intro h
    have hdrop : cs.dropWhile isBlank = cs := by
      apply (List.dropWhile_suffix isBlank).eq_of_length
      apply le_antisymm (List.dropWhile_suffix isBlank).length_le
      calc cs.length = ((cs.dropWhile isBlank).rdropWhile isBlank).length := by rw [h]
        _ ≤ (cs.dropWhile isBlank).length := (List.rdropWhile_prefix _ _).length_le
    exact ⟨hdrop, by rwa [hdrop] at h⟩
  · rintro ⟨hdrop, hrdrop⟩
    rw [hdrop, hrdrop]

theorem trim_of_solid {cs : List Char} (h : ∀ c ∈ cs, isBlank c = false) : trim cs = cs :=
  trim_eq_self_iff.2 ⟨fun c hc => h c (List.mem_of_head? hc),
    fun c hc => h c (List.mem_of_getLast? hc)⟩

theorem trim_enclosed {x y : List Char} (hx : trim x = x) (hy : trim y = y) (hxne : x ≠ [])
    (hyne : y ≠ []) (m : List Char) : trim (x ++ m ++ y) = x ++ m ++ y := by
  obtain ⟨c, x, rfl⟩ := List.exists_cons_of_ne_nil hxne
  obtain ⟨y, d, rfl⟩ := List.eq_nil_or_concat' y |>.resolve_left hyne
  apply trim_eq_self_iff.2
  constructor
  · intro e he
    exact (trim_eq_self_iff.1 hx).1 e (by simpa using he)
  · intro e he
    obtain rfl : d = e := by
      rw [← List.append_assoc, List.getLast?_concat] at he
      exact Option.some.inj he
    exact (trim_eq_self_iff.1 hy).2 d List.getLast?_concat

theorem exists_trim_append {core : List Char} (hcore : trim core = core) (hne : core ≠ [])
    (tail : List Char) : ∃ tail', trim (core ++ tail) = core ++ tail' ∧ trim tail' = trim tail := by
  obtain ⟨a, b, ha, hb, htail⟩ := exists_trim tail
  by_cases hempty : trim tail = []
  · have hblank : Blank tail := by
      rw [htail, hempty, List.append_nil]
      exact ha.append hb
    refine ⟨[], ?_, ?_⟩
    · rw [trim_append_blank _ hblank, hcore, List.append_nil]
    · rw [hempty]
      rfl
  · refine ⟨a ++ trim tail, ?_, ?_⟩
    · have hsplit : core ++ tail = core ++ a ++ trim tail ++ b := by
        nth_rewrite 1 [htail]
        simp only [List.append_assoc]
      calc trim (core ++ tail) = trim (core ++ a ++ trim tail ++ b) := by rw [hsplit]
        _ = trim (core ++ a ++ trim tail) := trim_append_blank _ hb
        _ = core ++ a ++ trim tail := trim_enclosed hcore (trim_trim tail) hne hempty a
        _ = core ++ (a ++ trim tail) := List.append_assoc _ _ _
    · rw [trim_blank_append ha, trim_trim]

end ContractAbi.Text
