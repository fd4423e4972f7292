import ContractAbi.Interface.Param
import ContractAbi.Proofs.Interface.TypeText
import ContractAbi.Proofs.Session.Except

/-!
# Types of parameters

A parameter that is built from the text of a type spells its type canonically again.

* `canonicalType_ofType`: the type of one parameter, by induction on the nesting of its tuples;
* `signature_ofTypes`: the signature of parameters is that of the texts that they are built from;
* `Typed` and `Typed.exists_signature`: types that are texts can be spelt.
-/

namespace ContractAbi.Param

open TypeText

theorem canonicalTypes_eq_mapM (ps : List Param) : canonicalTypes ps = ps.mapM canonicalType := by
  induction ps with
  | nil => rfl
  | cons p ps ih =>
      rw [canonicalTypes, ih, List.mapM_cons]

/-- The type of a tuple with components: the types of these in brackets, and what follows. -/
theorem canonicalType_tuple {name indexed internalType : Value} {suffix : List Char}
    {components : List Param} {types : List String} (h : canonicalTypes components = .ok types) :
    canonicalType (mk name (.text (String.ofList (tupleWord ++ suffix))) (some components) indexed
        internalType) =
      .ok ("(" ++ ",".intercalate types ++ ")" ++ String.ofList suffix) := by
  have hword : tupleWord.isPrefixOf (tupleWord ++ suffix) = true := by simp
  have hdrop : (tupleWord ++ suffix).drop 5 = suffix := List.drop_left' rfl
  rw [canonicalType]
  simp only [Option.isSome_some, String.toList_ofList, hword, Bool.and_self, if_true, hdrop,
    canonicalComponents, h]
  rfl

theorem ofList_tuple (types : List (List Char)) (suffix : List Char) :
    "(" ++ ",".intercalate (types.map String.ofList) ++ ")" ++ String.ofList suffix =
      String.ofList ('(' :: [','].intercalate types ++ ')' :: suffix) := by
  apply String.toList_injective
  have htypes : (types.map String.ofList).map String.toList = types := by
    simp [List.map_map, Function.comp_def]
  simp [htypes]

/-- A type that starts with a bracket gives a tuple of what the types in the bracket give. -/
theorem ofTypeNested_tuple {fuel : Nat} {name indexed : Value} {s : String} {p : Param}
    (hhead : (canonicalChars s.toList).head? = some '(')
    (h : ofTypeNested fuel name s indexed = .ok p) :
    ∃ fuel' stop types components,
      fuel = fuel' + 1 ∧
      closing? (canonicalChars s.toList) 0 = some stop ∧
      splitChars (((canonicalChars s.toList).take stop).drop 1) = .ok types ∧
      types.mapM (fun t => ofTypeNested fuel' (.text "") (String.ofList t) .null) =
        .ok components ∧
      p = mk name (.text (String.ofList (tupleWord ++ (canonicalChars s.toList).drop (stop + 1))))
        (some components) indexed .null := by
  cases fuel with
  | zero =>
      unfold ofTypeNested at h
      simp only [hhead, if_true] at h
      exact absurd h (by simp)
  | succ fuel =>
      cases hstop : closing? (canonicalChars s.toList) 0 with
      | none =>
          unfold ofTypeNested at h
          simp only [hhead, hstop, if_true] at h
          exact absurd h (by simp)
      | some stop =>
          unfold ofTypeNested at h
          simp only [hhead, hstop, if_true] at h
          obtain ⟨types, htypes, h⟩ := Except.bind_eq_ok_iff.1 h
          obtain ⟨components, hcomponents, h⟩ := Except.bind_eq_ok_iff.1 h
          exact ⟨fuel, stop, types, components, rfl, rfl, htypes, hcomponents,
            (Except.ok.inj h).symm⟩

theorem ofTypeNested_plain {fuel : Nat} {name indexed : Value} {s : String}
    (hhead : (canonicalChars s.toList).head? ≠ some '(') :
    ofTypeNested fuel name s indexed = .ok (mk name (.text (canonical s)) none indexed .null) := by
  unfold ofTypeNested
  simp only [hhead, if_false]
  rfl

theorem canonicalType_ofTypeNested {fuel : Nat} {name indexed : Value} {s : String} {p : Param}
    (h : ofTypeNested fuel name s indexed = .ok p) : p.canonicalType = .ok (canonical s) := by
  induction fuel using Nat.strongRecOn generalizing name s indexed p with
  | ind fuel ih =>
      by_cases hhead : (canonicalChars s.toList).head? = some '('
      · obtain ⟨fuel', stop, types, components, rfl, hstop, htypes, hcomponents, rfl⟩ :=
          ofTypeNested_tuple hhead h
        have hsplit := closing?_head hhead hstop
        have hcanonical : Canonical (((canonicalChars s.toList).take stop).drop 1) := by
          have hwhole := canonical_canonicalChars s.toList
          rw [hsplit] at hwhole
          have hinner : Canonical ([] ++ '(' ::
              (((canonicalChars s.toList).take stop).drop 1 ++
                ')' :: (canonicalChars s.toList).drop (stop + 1))) := by
            simpa using hwhole
          exact ((hinner.cut (by decide)).2.cut (by decide)).1
        obtain ⟨hjoin, hparts⟩ := splitChars_canonical hcanonical htypes
        -- the components spell the parts, which are canonical already
        have hspelt : canonicalTypes components = .ok (types.map String.ofList) := by
          rw [canonicalTypes_eq_mapM, Except.mapM_eq_ok_iff, List.forall₂_map_right_iff]
          rw [Except.mapM_eq_ok_iff] at hcomponents
          refine List.Forall₂.flip (List.forall₂_iff_get.2 ⟨hcomponents.length_eq, ?_⟩)
          intro i hi hj
          have hbuilt := ih fuel' (Nat.lt_succ_self _) (hcomponents.get hi hj)
          exact hbuilt.trans (congrArg Except.ok (canonical_ofList (hparts _ (List.get_mem _ _))))
        rw [canonicalType_tuple hspelt, ofList_tuple, hjoin, ← hsplit]
        rfl
      · rw [ofTypeNested_plain hhead] at h
        obtain rfl := Except.ok.inj h
        exact congrArg Except.ok (canonical_canonical s)

/-- A parameter that is built from a type spells it canonically. -/
theorem canonicalType_ofType {name indexed : Value} {s : String} {p : Param}
    (h : ofType name s indexed = .ok p) : p.canonicalType = .ok (canonical s) :=
  canonicalType_ofTypeNested h

theorem canonicalTypes_ofTypes {word : String} {types : List String} {ps : List Param}
    (h : ofTypes word types = .ok ps) : canonicalTypes ps = .ok (types.map canonical) := by
  rw [ofTypes, Except.mapM_eq_ok_iff] at h
  rw [canonicalTypes_eq_mapM, Except.mapM_eq_ok_iff, List.forall₂_map_right_iff]
  have hbuilt : List.Forall₂ (fun (t : String × Nat) p => p.canonicalType = .ok (canonical t.1))
      types.zipIdx ps := h.imp fun _ _ hp => canonicalType_ofType hp
  have hfirst : types = types.zipIdx.map Prod.fst := by simp
  rw [hfirst, List.forall₂_map_right_iff]
  exact hbuilt.flip

/-- Parameters built from types have the signature of the types. -/
theorem signature_ofTypes {name word : String} {types : List String} {ps : List Param}
    (h : ofTypes word types = .ok ps) :
    signature (.text name) ps = .ok (TypeText.signature name types) := by
  have hcanonical : (types.map canonical).map canonical = types.map canonical := by
    rw [List.map_map]
    exact List.map_congr_left fun t _ => canonical_canonical t
  rw [signature, canonicalTypes_ofTypes h]
  change Except.ok (TypeText.signature name (types.map canonical)) = _
  rw [TypeText.signature, hcanonical]
  rfl

/-! ## Types that are texts -/

inductive Typed : Param → Prop
  | mk (name : Value) (type : String) (components : Option (List Param))
      (indexed internalType : Value)
      (inner : ∀ ps, components = some ps → ∀ p ∈ ps, Typed p) :
      Typed (mk name (.text type) components indexed internalType)

theorem exists_canonicalTypes {ps : List Param} (h : ∀ p ∈ ps, ∃ t, canonicalType p = .ok t) :
    ∃ ts, canonicalTypes ps = .ok ts := by
  induction ps with
  | nil => exact ⟨[], rfl⟩
  | cons p ps ih =>
      obtain ⟨t, ht⟩ := h p List.mem_cons_self
      obtain ⟨ts, hts⟩ := ih fun q hq => h q (List.mem_cons_of_mem _ hq)
      exact ⟨t :: ts, by rw [canonicalTypes, ht, hts]; rfl⟩

theorem Typed.exists_canonicalType {p : Param} (h : p.Typed) : ∃ t, canonicalType p = .ok t := by
  induction h with
  | mk name type components indexed internalType _ ih =>
      unfold canonicalType
      dsimp only
      split
      · cases components with
        | none => exact ⟨_, rfl⟩
        | some ps =>
            obtain ⟨ts, hts⟩ := exists_canonicalTypes (ih ps rfl)
            exact ⟨_, by rw [canonicalComponents, hts]; rfl⟩
      · exact ⟨_, rfl⟩

theorem Typed.exists_signature (name : Value) {ps : List Param} (h : ∀ p ∈ ps, p.Typed) :
    ∃ text, signature name ps = .ok text := by
  obtain ⟨ts, hts⟩ := exists_canonicalTypes fun p hp => (h p hp).exists_canonicalType
  exact ⟨_, by rw [signature, hts]; rfl⟩

end ContractAbi.Param
