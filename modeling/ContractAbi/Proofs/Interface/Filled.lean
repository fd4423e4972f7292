import ContractAbi.Proofs.Interface.Nesting
import ContractAbi.Proofs.Interface.Param
import ContractAbi.Proofs.Session.Invariant

/-!
# Types that parameters are built from

Lists of types are split without a look into their tuples. Building a parameter opens the tuples one
after the other, and fails at the first one that lacks a component.

* `Filled`: no tuple of a type lacks a component;
* `settles_ofTypeNested`: a nested type is built if it is filled, and otherwise fails for that;
* `settles_ofTypes`: the same for all types of a list.
-/

namespace ContractAbi

namespace TypeText

open Text

/-- A type, spelt out, of which no tuple lacks a component, at any depth. Only a type that starts
with a bracket is a tuple, and what stands behind its bracket is not looked into. -/
inductive Filled : List Char → Prop
  | plain {cs} (hhead : cs.head? ≠ some '(') : Filled cs
  | tuple {types suffix} (htypes : ∀ t ∈ types, Nested false t ∧ t ≠ [])
      (hparts : ∀ t ∈ types, Filled t) :
      Filled ('(' :: [','].intercalate types ++ ')' :: suffix)

def Lacking (e : Fault) : Prop :=
  ∃ text, e = .malformed (.emptyParameter text)

variable {inner rest cs : List Char} {types : List (List Char)}

/-! ## Splitting what a bracket encloses -/

theorem exists_splitTop? {commas : Bool} (h : Nested commas cs) {depth : Nat}
    (hrest : ∃ parts, splitTop? depth rest = some parts) :
    ∃ parts, splitTop? depth (cs ++ rest) = some parts := by
  have hextend : ∀ {c : Char} {d : Nat} {tail : List Char},
      (∃ parts, splitTop? d tail = some parts) →
      ∃ parts, (splitTop? d tail).map (extendFirst c) = some parts := by
    rintro c d tail ⟨parts, hparts⟩
    exact ⟨extendFirst c parts, by rw [hparts]; rfl⟩
  induction h generalizing depth rest with
  | nil => exact hrest
  | @char _ c cs hopener hcloser _ _ ih =>
      rw [List.cons_append, splitTop?.eq_def]
      dsimp only
      rw [if_neg (not_opens hopener), hcloser, if_neg (by simp)]
      split
      · obtain ⟨parts, hparts⟩ : ∃ parts, splitTop? depth (cs ++ rest) = some parts := ih hrest
        rename_i hcomma
        rw [hcomma.2] at hparts
        exact ⟨[] :: parts, by rw [hparts]; rfl⟩
      · exact hextend (ih hrest)
  | @enclosed _ opener closer inner tail hopener _ _ ihinner ihrest =>
      obtain ⟨hnone, hclose⟩ := isCloser_of_closerOf? hopener
      have htext : opener :: inner ++ closer :: tail ++ rest =
          opener :: (inner ++ (closer :: (tail ++ rest))) := by simp
      rw [htext, splitTop?.eq_def]
      dsimp only
      rw [if_pos (opens_iff.2 ⟨closer, hopener⟩)]
      refine hextend (ihinner ?_)
      rw [splitTop?.eq_def]
      dsimp only
      rw [if_neg (not_opens hnone), hclose, if_pos rfl]
      exact hextend (ihrest hrest)

theorem meets_splitChars (h : Balanced cs) :
    Except.Meets (fun _ => True) Lacking (splitChars cs) := by
  have hbalanced : Balanced (trim cs) := (awaited?_congr (filter_isMark_trim cs) []).trans h
  have hnested : Nested true (trim cs) := nested_iff.2 ⟨hbalanced, by simp⟩
  have hend : ∃ parts, splitTop? 0 [] = some parts := ⟨[[]], rfl⟩
  obtain ⟨parts, hparts⟩ := exists_splitTop? hnested hend
  rw [List.append_nil] at hparts
  unfold splitChars
  dsimp only
  split
  · exact .ok trivial
  · rw [hparts]
    dsimp only
    split
    · exact .error ⟨_, rfl⟩
    · exact .ok trivial

theorem enclosed_inj {a b s r : List Char} (ha : Balanced a) (hb : Balanced b)
    (h : '(' :: a ++ ')' :: s = '(' :: b ++ ')' :: r) : a = b ∧ s = r := by
  have hplace := (closing?_enclosed ha [] s).symm.trans
    ((congrArg (closing? · 0) h).trans (closing?_enclosed hb [] r))
  have hlength : a.length = b.length := by
    have hsame := Option.some.inj hplace
    omega
  obtain ⟨hab, hsr⟩ := List.append_inj (List.cons.inj h).2 hlength
  exact ⟨hab, (List.cons.inj hsr).2⟩

/-- The components of a filled tuple are found between its commas. -/
theorem Filled.exists_types (hinner : Balanced inner) (hcanonical : Canonical inner)
    (h : Filled ('(' :: inner ++ ')' :: rest)) :
    ∃ types, splitChars inner = .ok types ∧ ∀ t ∈ types, Filled t := by
  generalize htext : '(' :: inner ++ ')' :: rest = cs at h
  cases h with
  | plain hhead => exact absurd rfl (htext ▸ hhead)
  | @tuple types suffix htypes hparts =>
      refine ⟨types, ?_, hparts⟩
      have hjoined : Balanced ([','].intercalate types) :=
        (nested_intercalate fun t ht => (htypes t ht).1.of_false).balanced
      obtain ⟨rfl, -⟩ := enclosed_inj hinner hjoined htext
      by_cases hne : types = []
      · subst hne
        rfl
      · refine splitChars_intercalate hne fun t ht => ?_
        obtain ⟨hnested, hfilled⟩ := htypes t ht
        exact ⟨(nested_iff.1 hnested).2 rfl, (hcanonical.of_intercalate t ht).solid, hfilled⟩

theorem Nested.canonicalChars {cs : List Char} (h : Nested false cs) :
    Nested false (canonicalChars cs) := by
  obtain ⟨hbalanced, hsingle⟩ := nested_iff.1 h
  have hmarks := filter_isMark_canonicalChars cs
  exact nested_iff.2 ⟨(awaited?_congr hmarks []).trans hbalanced,
    fun _ => (isSingle_congr hmarks 0).2 (hsingle rfl)⟩

theorem sublist_intercalate {parts : List (List Char)} {p : List Char} (hp : p ∈ parts) :
    p.Sublist ([','].intercalate parts) := by
  induction parts with
  | nil => exact absurd hp List.not_mem_nil
  | cons q parts ih =>
      cases parts with
      | nil =>
          rw [List.intercalate_singleton, List.mem_singleton.1 hp]
      | cons r parts =>
          rw [List.intercalate_cons_cons, List.append_assoc]
          rcases List.mem_cons.1 hp with rfl | hp
          · exact List.sublist_append_left _ _
          · exact (ih hp).trans ((List.sublist_append_right _ _).trans
              (List.sublist_append_right _ _))

end TypeText

namespace Param

open TypeText

variable {E : Fault → Prop}

theorem ofTypeNested_enclosed {s : String} {inner rest : List Char} (hinner : Balanced inner)
    (hs : canonicalChars s.toList = '(' :: inner ++ ')' :: rest) (fuel : Nat)
    (name indexed : Value) :
    ofTypeNested (fuel + 1) name s indexed = do
      let types ← splitChars inner
      let components ← types.mapM fun t =>
        ofTypeNested fuel (.text "") (String.ofList t) .null
      return mk name (.text (String.ofList (tupleWord ++ rest))) (some components) indexed
        .null := by
  have hhead : (canonicalChars s.toList).head? = some '(' := by
    rw [hs]
    rfl
  have hstop : closing? (canonicalChars s.toList) 0 = some (0 + 1 + inner.length) := by
    rw [hs]
    exact closing?_enclosed hinner [] rest
  have hplace : 0 + 1 + inner.length = ('(' :: inner).length := by
    rw [List.length_cons]
    omega
  have hinside : ((canonicalChars s.toList).take (0 + 1 + inner.length)).drop 1 = inner := by
    rw [hs, hplace, List.take_left]
    rfl
  have hbehind : (canonicalChars s.toList).drop (0 + 1 + inner.length + 1) = rest := by
    rw [hs, hplace, ← List.drop_drop, List.drop_left]
    rfl
  rw [ofTypeNested.eq_def]
  dsimp only
  rw [if_pos hhead, hstop]
  dsimp only
  rw [hinside, hbehind]

/-- A nested type is built if it is filled, and otherwise fails for an empty type. The fuel has to
exceed the number of brackets. -/
theorem settles_ofTypeNested {fuel : Nat} {name indexed : Value} {s : String}
    (hnested : Nested false (canonicalChars s.toList))
    (hfuel : (canonicalChars s.toList).count '(' < fuel) :
    Except.Settles (Filled (canonicalChars s.toList)) Lacking
      (ofTypeNested fuel name s indexed) := by
  induction fuel generalizing name s indexed with
  | zero => exact absurd hfuel (Nat.not_lt_zero _)
  | succ fuel ih =>
      by_cases hhead : (canonicalChars s.toList).head? = some '('
      · obtain ⟨inner, rest, hs, hinner⟩ := hnested.exists_enclosed hhead
        have hcanonical : Canonical inner := by
          have hwhole := canonical_canonicalChars s.toList
          rw [hs] at hwhole
          have hcut : Canonical ([] ++ '(' :: (inner ++ ')' :: rest)) := hwhole
          exact ((hcut.cut (by decide)).2.cut (by decide)).1
        rw [ofTypeNested_enclosed hinner.balanced hs]
        cases hsplit : splitChars inner with
        | error e =>
            refine .error ⟨fun hfilled => ?_, (meets_splitChars hinner.balanced).of_error hsplit⟩
            rw [hs] at hfilled
            obtain ⟨types, htypes, -⟩ := hfilled.exists_types hinner.balanced hcanonical
            exact absurd (hsplit.symm.trans htypes) (by simp)
        | ok types =>
            obtain ⟨hjoin, hcanonicals⟩ := splitChars_canonical hcanonical hsplit
            obtain ⟨-, hproper⟩ := lists_of_splitChars hinner.balanced hsplit
            have hcount : ∀ t ∈ types, t.count '(' < fuel := by
              intro t ht
              have hle := (sublist_intercalate ht).count_le '('
              rw [hjoin] at hle
              rw [hs, List.cons_append, List.count_cons_self, List.count_append] at hfuel
              omega
            have heach : ∀ t ∈ types, Except.Settles (Filled t) Lacking
                (ofTypeNested fuel (.text "") (String.ofList t) .null) := by
              intro t ht
              have hspelt : canonicalChars (String.ofList t).toList = t := by
                rw [String.toList_ofList, canonicalChars_of_canonical (hcanonicals t ht)]
              have hsettles := @ih (.text "") .null (String.ofList t)
              rw [hspelt] at hsettles
              exact hsettles (hproper t ht).nested (hcount t ht)
            -- the tuple is filled if its components are
            have hfilled : (∀ t ∈ types, Filled t) ↔ Filled (canonicalChars s.toList) := by
              rw [hs]
              constructor
              · intro hparts
                rw [← hjoin]
                exact .tuple (fun t ht => ⟨(hproper t ht).nested, (hproper t ht).filled⟩) hparts
              · intro htuple
                obtain ⟨found, hfound, hparts⟩ :=
                  htuple.exists_types hinner.balanced hcanonical
                obtain rfl := Except.ok.inj (hsplit.symm.trans hfound)
                exact hparts
            rw [Except.ok_bind]
            refine ((Except.Settles.mapM heach).bind fun components _ =>
              Except.Settles.of_ok rfl trivial).congr ?_
            rw [and_true, hfilled]
      · rw [ofTypeNested_plain hhead]
        exact .ok (.plain hhead)

theorem count_canonicalChars_le (s : String) :
    (canonicalChars s.toList).count '(' < s.length + 1 := by
  have hmark : isMark '(' = true := by decide
  have hcount : (canonicalChars s.toList).count '(' = s.toList.count '(' := by
    rw [← List.count_filter (l := canonicalChars s.toList) hmark, filter_isMark_canonicalChars,
      List.count_filter hmark]
  have hle : s.toList.count '(' ≤ s.toList.length := List.count_le_length
  rw [hcount, ← String.length_toList]
  omega

theorem settles_ofType {name indexed : Value} {s : String} (hs : Nested false s.toList) :
    Except.Settles (Filled (canonicalChars s.toList)) Lacking (ofType name s indexed) :=
  settles_ofTypeNested hs.canonicalChars (count_canonicalChars_le s)

theorem settles_ofTypes {word : String} {types : List String}
    (htypes : ∀ t ∈ types, Nested false t.toList) :
    Except.Settles (∀ t ∈ types, Filled (canonicalChars t.toList)) Lacking
      (ofTypes word types) := by
  unfold ofTypes
  have heach : ∀ x ∈ types.zipIdx, Except.Settles (Filled (canonicalChars x.1.toList)) Lacking
      (ofType (.text (word ++ Integer.render x.2)) x.1 .null) :=
    fun x hx => settles_ofType (htypes x.1 (List.fst_mem_of_mem_zipIdx hx))
  refine (Except.Settles.mapM heach).congr ?_
  have hfirst : types = types.zipIdx.map Prod.fst := by simp
  nth_rewrite 2 [hfirst]
  rw [List.forall_mem_map]

end Param

end ContractAbi
