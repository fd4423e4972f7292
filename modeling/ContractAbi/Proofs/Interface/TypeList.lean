import ContractAbi.Proofs.Interface.TypeBrackets

/-!
# Lists of types

A list of types is split alike before and after its types are spelt out.

* `IsSingle`: a text that splitting leaves whole;
* `splitTop?_intercalate`: single types with commas between them are split into these types;
* `splitChars_canonicalList`: a list of canonical spellings is split into those spellings.
-/

namespace ContractAbi.TypeText

open Text

/-! ## One type at a time -/

/-- A single type: its brackets are balanced in number, and every comma lies inside of them. There
are `depth` more brackets open in front of it. -/
def IsSingle : (depth : Nat) → List Char → Prop
  | depth, [] => depth = 0
  | depth, c :: cs =>
    if c = '(' ∨ c = '[' then IsSingle (depth + 1) cs
    else if isCloser c then
      match depth with
      | 0 => False
      | depth + 1 => IsSingle depth cs
    else ¬(c = ',' ∧ depth = 0) ∧ IsSingle depth cs

theorem isSingle_cons (depth : Nat) (c : Char) (cs : List Char) :
    IsSingle depth (c :: cs) ↔
      if c = '(' ∨ c = '[' then IsSingle (depth + 1) cs
      else if isCloser c then
        match depth with
        | 0 => False
        | depth + 1 => IsSingle depth cs
      else ¬(c = ',' ∧ depth = 0) ∧ IsSingle depth cs := by
  rw [IsSingle.eq_def]

theorem isSingle_filter (depth : Nat) (cs : List Char) :
    IsSingle depth (cs.filter isMark) ↔ IsSingle depth cs := by
  induction cs generalizing depth with
  | nil => exact Iff.rfl
  | cons c cs ih =>
      cases hc : isMark c with
      | true =>
          rw [List.filter_cons, hc, if_pos rfl, isSingle_cons, isSingle_cons]
          simp only [ih]
      | false =>
          have hopen : ¬(c = '(' ∨ c = '[') := by
            rintro (rfl | rfl) <;> exact absurd hc (by decide)
          obtain ⟨-, hclose, hcomma⟩ : closerOf? c = none ∧ isCloser c = false ∧ c ≠ ',' := by
            simpa [isMark, and_assoc] using hc
          rw [List.filter_cons, hc, if_neg (by simp), ih, isSingle_cons, if_neg hopen, hclose,
            if_neg (by simp)]
          simp [hcomma]

theorem isSingle_congr {a b : List Char} (h : a.filter isMark = b.filter isMark) (depth : Nat) :
    IsSingle depth a ↔ IsSingle depth b := by
  rw [← isSingle_filter, h, isSingle_filter]

theorem isSingle_of_splitTop? {depth : Nat} {cs first : List Char} {parts : List (List Char)}
    (h : splitTop? depth cs = some (first :: parts)) :
    IsSingle depth first ∧ ∀ p ∈ parts, IsSingle 0 p := by
  induction cs generalizing depth first parts with
  | nil =>
      rw [splitTop?] at h
      split at h
      · obtain ⟨rfl, rfl⟩ := List.cons.inj (Option.some.inj h)
        exact ⟨‹_›, by simp⟩
      · exact absurd h (by simp)
  | cons c cs ih =>
      have hextend : ∀ {d : Nat}, (splitTop? d cs).map (extendFirst c) = some (first :: parts) →
          ∃ tail, first = c :: tail ∧ IsSingle d tail ∧ ∀ p ∈ parts, IsSingle 0 p := by
        intro d hd
        obtain ⟨found, hfound, heq⟩ := Option.map_eq_some_iff.1 hd
        obtain ⟨hne, -⟩ := intercalate_splitTop? hfound
        obtain ⟨tail, rest, rfl⟩ := List.exists_cons_of_ne_nil hne
        obtain ⟨rfl, rfl⟩ := List.cons.inj heq
        exact ⟨tail, rfl, ih hfound⟩
      rw [splitTop?.eq_def] at h
      dsimp only at h
      split at h
      · rename_i hopen
        obtain ⟨tail, rfl, htail, hparts⟩ := hextend h
        refine ⟨?_, hparts⟩
        rw [isSingle_cons, if_pos hopen]
        exact htail
      · rename_i hopen
        split at h
        · rename_i hclose
          cases depth with
          | zero => exact absurd h (by simp)
          | succ depth =>
              obtain ⟨tail, rfl, htail, hparts⟩ := hextend h
              refine ⟨?_, hparts⟩
              rw [isSingle_cons, if_neg hopen, if_pos hclose]
              exact htail
        · rename_i hclose
          split at h
          · rename_i hcomma
            obtain ⟨found, hfound, heq⟩ := Option.map_eq_some_iff.1 h
            obtain ⟨rfl, rfl⟩ := List.cons.inj heq
            obtain ⟨hne, -⟩ := intercalate_splitTop? hfound
            obtain ⟨q, rest, rfl⟩ := List.exists_cons_of_ne_nil hne
            obtain ⟨hq, hrest⟩ := ih hfound
            exact ⟨hcomma.2, List.forall_mem_cons.2 ⟨hq, hrest⟩⟩
          · rename_i hcomma
            obtain ⟨tail, rfl, htail, hparts⟩ := hextend h
            refine ⟨?_, hparts⟩
            rw [isSingle_cons, if_neg hopen, if_neg hclose]
            exact ⟨hcomma, htail⟩

theorem splitTop?_append_of_isSingle {depth : Nat} {cs : List Char} (h : IsSingle depth cs)
    (rest : List Char) :
    splitTop? depth (cs ++ ',' :: rest) = (splitTop? 0 rest).map (cs :: ·) := by
  induction cs generalizing depth with
  | nil =>
      obtain rfl : depth = 0 := h
      rw [List.nil_append, splitTop?.eq_def]
      simp [isCloser]
  | cons c cs ih =>
      have hextend : ∀ {d : Nat}, IsSingle d cs →
          (splitTop? d (cs ++ ',' :: rest)).map (extendFirst c) =
            (splitTop? 0 rest).map ((c :: cs) :: ·) := by
        intro d hd
        rw [ih hd, Option.map_map]
        rfl
      rw [isSingle_cons] at h
      rw [List.cons_append, splitTop?.eq_def]
      dsimp only
      split at h
      · rw [if_pos ‹_›]
        exact hextend h
      · rw [if_neg ‹_›]
        split at h
        · rw [if_pos ‹_›]
          cases depth with
          | zero => exact absurd h (by simp)
          | succ depth => exact hextend h
        · rw [if_neg ‹_›, if_neg h.1]
          exact hextend h.2

theorem splitTop?_of_isSingle {depth : Nat} {cs : List Char} (h : IsSingle depth cs) :
    splitTop? depth cs = some [cs] := by
  induction cs generalizing depth with
  | nil =>
      obtain rfl : depth = 0 := h
      rfl
  | cons c cs ih =>
      rw [isSingle_cons] at h
      rw [splitTop?.eq_def]
      dsimp only
      split at h
      · rw [if_pos ‹_›, ih h]
        rfl
      · rw [if_neg ‹_›]
        split at h
        · rw [if_pos ‹_›]
          cases depth with
          | zero => exact absurd h (by simp)
          | succ depth =>
              dsimp only at h ⊢
              rw [ih h]
              rfl
        · rw [if_neg ‹_›, if_neg h.1, ih h.2]
          rfl

/-- Single types with commas between them are split into these types. -/
theorem splitTop?_intercalate {parts : List (List Char)} (hne : parts ≠ [])
    (h : ∀ p ∈ parts, IsSingle 0 p) : splitTop? 0 ([','].intercalate parts) = some parts := by
  induction parts with
  | nil => exact absurd rfl hne
  | cons p parts ih =>
      cases parts with
      | nil =>
          rw [List.intercalate_singleton]
          exact splitTop?_of_isSingle (h p List.mem_cons_self)
      | cons q parts =>
          rw [List.intercalate_cons_cons, List.append_assoc, List.singleton_append,
            splitTop?_append_of_isSingle (h p List.mem_cons_self),
            ih (by simp) fun r hr => h r (List.mem_cons_of_mem _ hr)]
          rfl

/-! ## Canonical spellings of the types of a list -/

theorem fullName_ne_nil {word : List Char} (h : word ≠ []) : fullName word ≠ [] := by
  unfold fullName
  split
  · decide
  · split
    · decide
    · split
      · decide
      · exact h

theorem spellFrom_ne_nil {word cs : List Char} (h : word ++ cs ≠ []) : spellFrom word cs ≠ [] := by
  induction cs generalizing word with
  | nil =>
      rw [List.append_nil] at h
      rw [spellFrom, spellWord_none]
      exact fullName_ne_nil h
  | cons c cs ih =>
      rw [spellFrom]
      split
      · exact ih (by simp)
      · simp

theorem canonicalChars_trim (cs : List Char) : canonicalChars (trim cs) = canonicalChars cs := by
  have hsqueeze : squeeze (trim cs) = squeeze cs := by
    unfold squeeze
    exact filter_trim (by simp) cs
  rw [canonicalChars, hsqueeze]
  rfl

theorem canonicalChars_ne_nil {cs : List Char} (h : trim cs ≠ []) : canonicalChars cs ≠ [] := by
  rw [canonicalChars_eq_spellFrom]
  refine spellFrom_ne_nil fun hblank => h (trim_of_blank fun c hc => ?_)
  simpa using List.filter_eq_nil_iff.1 hblank c hc

theorem filter_intercalate (keep : Char → Bool) (sep : List Char) (parts : List (List Char)) :
    (sep.intercalate parts).filter keep =
      (sep.filter keep).intercalate (parts.map (List.filter keep)) := by
  induction parts with
  | nil => rfl
  | cons p parts ih =>
      cases parts with
      | nil => simp
      | cons q parts =>
          rw [List.intercalate_cons_cons, List.filter_append, List.filter_append, ih]
          simp only [List.map_cons, List.intercalate_cons_cons]

/-! ## Splitting lists -/

/-- A list that is split is blank, or has single types between its commas. -/
theorem splitChars_eq_ok {cs : List Char} {types : List (List Char)}
    (h : splitChars cs = .ok types) :
    (trim cs = [] ∧ types = []) ∨
      ∃ parts, parts ≠ [] ∧ trim cs = [','].intercalate parts ∧ types = parts.map trim ∧
        ∀ p ∈ parts, IsSingle 0 p ∧ trim p ≠ [] := by
  unfold splitChars at h
  dsimp only at h
  split at h
  · rename_i hempty
    exact .inl ⟨List.isEmpty_iff.1 hempty, (Except.ok.inj h).symm⟩
  · split at h
    · exact absurd h (by simp)
    · rename_i parts hparts
      split at h
      · exact absurd h (by simp)
      · rename_i hfull
        obtain ⟨hne, hjoin⟩ := intercalate_splitTop? hparts
        refine .inr ⟨parts, hne, hjoin.symm, (Except.ok.inj h).symm, fun p hp => ⟨?_, ?_⟩⟩
        · obtain ⟨first, rest, rfl⟩ := List.exists_cons_of_ne_nil hne
          obtain ⟨hfirst, hrest⟩ := isSingle_of_splitTop? hparts
          exact List.forall_mem_cons.2 ⟨hfirst, hrest⟩ p hp
        · simp only [List.any_map, List.any_eq_true, Function.comp, not_exists, not_and] at hfull
          simpa using hfull p hp

theorem mem_of_mem_intercalate {parts : List (List Char)} {c : Char}
    (h : c ∈ [','].intercalate parts) : c = ',' ∨ ∃ p ∈ parts, c ∈ p := by
  induction parts with
  | nil => exact absurd h List.not_mem_nil
  | cons p parts ih =>
      cases parts with
      | nil => exact .inr ⟨p, List.mem_cons_self, by simpa using h⟩
      | cons q parts =>
          rw [List.intercalate_cons_cons, List.append_assoc, List.singleton_append] at h
          rcases List.mem_append.1 h with h | h
          · exact .inr ⟨p, List.mem_cons_self, h⟩
          · rcases List.mem_cons.1 h with rfl | h
            · exact .inl rfl
            · exact (ih h).imp_right fun ⟨r, hr, hc⟩ => ⟨r, List.mem_cons_of_mem _ hr, hc⟩

/-- Single types without blanks are the types of the list that they make. -/
theorem splitChars_intercalate {parts : List (List Char)} (hne : parts ≠ [])
    (h : ∀ p ∈ parts, IsSingle 0 p ∧ (∀ c ∈ p, isBlank c = false) ∧ p ≠ []) :
    splitChars ([','].intercalate parts) = .ok parts := by
  have hsolid : ∀ c ∈ [','].intercalate parts, isBlank c = false := by
    intro c hc
    rcases mem_of_mem_intercalate hc with rfl | ⟨p, hp, hc⟩
    · decide
    · exact (h p hp).2.1 c hc
  have htrim : parts.map trim = parts := by
    nth_rewrite 2 [← List.map_id parts]
    exact List.map_congr_left fun p hp => trim_of_solid (h p hp).2.1
  have hfilled : [','].intercalate parts ≠ [] := by
    obtain ⟨p, rest, rfl⟩ := List.exists_cons_of_ne_nil hne
    have hp := (h p List.mem_cons_self).2.2
    cases rest with
    | nil => simpa using hp
    | cons q rest => simp [List.intercalate_cons_cons]
  have hfull : ¬(parts.any List.isEmpty = true) := by
    rw [List.any_eq_true]
    rintro ⟨p, hp, hempty⟩
    exact (h p hp).2.2 (List.isEmpty_iff.1 hempty)
  unfold splitChars
  rw [trim_of_solid hsolid]
  dsimp only
  rw [if_neg (by simpa using hfilled), splitTop?_intercalate hne fun p hp => (h p hp).1]
  dsimp only
  rw [htrim, if_neg hfull]

def canonicalList (types : List (List Char)) : List Char :=
  [','].intercalate (types.map canonicalChars)

/-- Spelling the types of a list out leaves them the types of a list. -/
theorem splitChars_canonicalList {cs : List Char} {types : List (List Char)}
    (h : splitChars cs = .ok types) :
    splitChars (canonicalList types) = .ok (types.map canonicalChars) := by
  rcases splitChars_eq_ok h with ⟨-, rfl⟩ | ⟨parts, hne, -, rfl, hparts⟩
  · rfl
  · refine splitChars_intercalate (by simpa using hne) fun p hp => ?_
    rw [List.map_map] at hp
    obtain ⟨q, hq, rfl⟩ := List.mem_map.1 hp
    obtain ⟨hsingle, hfilled⟩ := hparts q hq
    dsimp only [Function.comp]
    rw [canonicalChars_trim]
    exact ⟨(isSingle_congr (filter_isMark_canonicalChars q) 0).2 hsingle,
      (canonical_canonicalChars q).solid, canonicalChars_ne_nil hfilled⟩

/-- Spelling the types of a list out leaves its brackets and commas. -/
theorem filter_isMark_canonicalList {cs : List Char} {types : List (List Char)}
    (h : splitChars cs = .ok types) :
    (canonicalList types).filter isMark = cs.filter isMark := by
  rw [← filter_isMark_trim cs]
  rcases splitChars_eq_ok h with ⟨hblank, rfl⟩ | ⟨parts, -, hjoin, rfl, -⟩
  · rw [hblank]
    rfl
  · rw [hjoin, canonicalList, filter_intercalate, filter_intercalate, List.map_map, List.map_map]
    refine congrArg _ (List.map_congr_left fun p _ => ?_)
    dsimp only [Function.comp]
    rw [canonicalChars_trim, filter_isMark_canonicalChars]

end ContractAbi.TypeText
