import ContractAbi.Proofs.Interface.Param

/-!
# Parameters as published items

A parameter that is written as an item of a published interface is read again with the same item
and the same type. This takes names that were read or given before: a name that does not hold is
the empty text.

* `Named`: the names of a parameter and of its components;
* `named_ofItem` and `named_ofType`: parameters that are read or built are named;
* `ofItem_toItem`: a named parameter is read from its item.
-/

namespace ContractAbi.Param

open TypeText

/-! ## Names -/

def IsName (name : Value) : Prop :=
  name.holds = true ∨ name = .text ""

mutual

def Named : Param → Prop
  | mk name _ components _ _ => IsName name ∧ ComponentsNamed components
termination_by structural p => p

def ComponentsNamed : Option (List Param) → Prop
  | none => True
  | some ps => AllNamed ps
termination_by structural ps => ps

def AllNamed : List Param → Prop
  | [] => True
  | p :: ps => Named p ∧ AllNamed ps
termination_by structural ps => ps

end

theorem allNamed_iff {ps : List Param} : AllNamed ps ↔ ∀ p ∈ ps, p.Named := by
  induction ps with
  | nil => simp [AllNamed]
  | cons p ps ih => simp [AllNamed, ih]

theorem isName_text (s : String) : IsName (.text s) := by
  by_cases h : s = ""
  · exact .inr (h ▸ rfl)
  · exact .inl (decide_eq_true h)

theorem named_ofTypeNested {fuel : Nat} {name indexed : Value} {s : String} {p : Param}
    (hname : IsName name) (h : ofTypeNested fuel name s indexed = .ok p) : p.Named := by
  induction fuel using Nat.strongRecOn generalizing name s indexed p with
  | ind fuel ih =>
      by_cases hhead : (canonicalChars s.toList).head? = some '('
      · obtain ⟨fuel', stop, types, components, rfl, -, -, hcomponents, rfl⟩ :=
          ofTypeNested_tuple hhead h
        refine ⟨hname, allNamed_iff.2 fun c hc => ?_⟩
        obtain ⟨t, -, ht⟩ := Except.exists_of_mem_mapM hcomponents hc
        exact ih fuel' (Nat.lt_succ_self _) (isName_text "") ht
      · rw [ofTypeNested_plain hhead] at h
        obtain rfl := Except.ok.inj h
        exact ⟨hname, trivial⟩

theorem named_ofType {name indexed : Value} {s : String} {p : Param} (hname : IsName name)
    (h : ofType name s indexed = .ok p) : p.Named :=
  named_ofTypeNested hname h

theorem named_ofTypes {word : String} {types : List String} {ps : List Param}
    (h : ofTypes word types = .ok ps) : ∀ p ∈ ps, p.Named := by
  intro p hp
  obtain ⟨t, -, ht⟩ := Except.exists_of_mem_mapM h hp
  exact named_ofType (isName_text _) ht

mutual

theorem named_ofItem : ∀ (v : Value) {p : Param}, ofItem v = .ok p → p.Named
  | .object fields, p, h => by
      unfold ofItem at h
      obtain ⟨components, hcomponents, h⟩ := Except.bind_eq_ok_iff.1 h
      obtain rfl := Except.ok.inj h
      refine ⟨?_, named_componentsOf fields hcomponents⟩
      split
      · exact .inl ‹_›
      · exact .inr rfl
  | .null, _, h | .bool _, _, h | .int _, _, h | .float _, _, h | .text _, _, h | .bytes _, _, h
  | .list _, _, h => absurd h (by simp [ofItem])
termination_by structural v => v

theorem named_componentsOf : ∀ (fields : List (String × Value)) {ps : Option (List Param)},
    componentsOf fields = .ok ps → ComponentsNamed ps
  | [], ps, h => by
      obtain rfl := Except.ok.inj h
      trivial
  | f :: fs, ps, h => by
      unfold componentsOf at h
      obtain ⟨found, hfound, h⟩ := Except.bind_eq_ok_iff.1 h
      cases found with
      | some found =>
          obtain rfl := Except.ok.inj h
          exact named_componentsOfField f hfound
      | none => exact named_componentsOf fs h
termination_by structural fields => fields

theorem named_componentsOfField : ∀ (f : String × Value) {ps : Option (List Param)},
    componentsOfField f = .ok (some ps) → ComponentsNamed ps
  | (k, v), ps, h => by
      unfold componentsOfField at h
      split at h
      · obtain ⟨found, hfound, hsome⟩ := Except.map_eq_ok_iff.1 h
        obtain rfl := Option.some.inj hsome
        exact named_componentsOfValue v hfound
      · exact absurd h (by simp)
termination_by structural f => f

theorem named_componentsOfValue : ∀ (v : Value) {ps : Option (List Param)},
    componentsOfValue v = .ok ps → ComponentsNamed ps
  | .null, ps, h => by
      obtain rfl := Except.ok.inj h
      trivial
  | .list items, ps, h => by
      obtain ⟨found, hfound, rfl⟩ := Except.map_eq_ok_iff.1 h
      exact named_ofItemList items hfound
  | .text s, ps, h => by
      unfold componentsOfValue at h
      split at h
      · obtain rfl := Except.ok.inj h
        trivial
      · exact absurd h (by simp)
  | .object fields, ps, h => by
      unfold componentsOfValue at h
      split at h
      · obtain rfl := Except.ok.inj h
        trivial
      · exact absurd h (by simp)
  | .bytes bs, ps, h => by
      unfold componentsOfValue at h
      split at h
      · obtain rfl := Except.ok.inj h
        trivial
      · exact absurd h (by simp)
  | .bool _, _, h | .int _, _, h | .float _, _, h => absurd h (by simp [componentsOfValue])
termination_by structural v => v

theorem named_ofItemList : ∀ (vs : List Value) {ps : List Param},
    ofItemList vs = .ok ps → AllNamed ps
  | [], ps, h => by
      obtain rfl := Except.ok.inj h
      trivial
  | v :: vs, ps, h => by
      unfold ofItemList at h
      obtain ⟨p, hp, h⟩ := Except.bind_eq_ok_iff.1 h
      obtain ⟨rest, hrest, h⟩ := Except.bind_eq_ok_iff.1 h
      obtain rfl := Except.ok.inj h
      exact ⟨named_ofItem v hp, named_ofItemList vs hrest⟩
termination_by structural vs => vs

end

theorem named_ofItems {v : Value} {ps : List Param} (h : ofItems v = .ok ps) :
    ∀ p ∈ ps, p.Named := by
  unfold ofItems at h
  obtain ⟨items, -, h⟩ := Except.bind_eq_ok_iff.1 h
  exact allNamed_iff.1 (named_ofItemList items h)

/-! ## Items -/

def itemFields (name type : Value) (components : Option (List Value))
    (indexed internalType : Value) : List (String × Value) :=
  [("name", name), ("type", type)] ++
    (if internalType.holds then [("internalType", internalType)] else []) ++
    (match components with
      | some items => [("components", .list items)]
      | none => []) ++
    (if indexed.isNull then [] else [("indexed", indexed)])

theorem toItem_mk (name type indexed internalType : Value) (components : Option (List Param)) :
    toItem (mk name type components indexed internalType) =
      .object (itemFields name type (itemsOfComponents components) indexed internalType) := by
  rw [toItem]
  rfl

/-- The components of an item are those under their name, whatever stands beside them. -/
theorem componentsOf_itemFields (name type indexed internalType : Value)
    (components : Option (List Value)) :
    componentsOf (itemFields name type components indexed internalType) =
      match components with
      | none => .ok none
      | some items => (ofItemList items).map some := by
  unfold itemFields
  cases components with
  | none =>
      cases internalType.holds <;> cases indexed.isNull <;>
        simp [componentsOf, componentsOfField]
  | some items =>
      cases internalType.holds <;> cases indexed.isNull <;>
        simp [componentsOf, componentsOfField, componentsOfValue] <;>
        cases ofItemList items <;> rfl

theorem lookup_itemFields (name type indexed internalType : Value)
    (components : Option (List Value)) :
    let fields := itemFields name type components indexed internalType
    Value.lookup "name" fields = some name ∧ Value.lookup "type" fields = some type ∧
      (Value.lookup "indexed" fields).getD .null = indexed ∧
      (Value.lookup "internalType" fields).getD .null =
        if internalType.holds then internalType else .null := by
  have hindexed : indexed.isNull = true → indexed = .null := by
    cases indexed <;> simp [Value.isNull]
  unfold itemFields
  cases components <;> cases internalType.holds <;> cases hnull : indexed.isNull <;>
    simp [Value.lookup]
  all_goals exact (hindexed hnull).symm

structure Restores (p q : Param) : Prop where
  toItem : q.toItem = p.toItem
  canonicalType : q.canonicalType = p.canonicalType

theorem restores_ofItem {name type indexed internalType : Value} {components : Option (List Param)}
    {found : Option (List Param)} (hname : IsName name)
    (hfound : componentsOf (itemFields name type (itemsOfComponents components) indexed
      internalType) = .ok found)
    (hitems : itemsOfComponents found = itemsOfComponents components)
    (htypes : canonicalComponents found = canonicalComponents components) :
    ∃ q, ofItem (toItem (mk name type components indexed internalType)) = .ok q ∧
      Restores (mk name type components indexed internalType) q := by
  obtain ⟨hlookup, htype, hindexed, hinternal⟩ :=
    lookup_itemFields name type indexed internalType (itemsOfComponents components)
  have hkept : (if name.holds then name else .text "") = name := by
    rcases hname with h | rfl
    · exact if_pos h
    · rfl
  have hsome : found.isSome = components.isSome := by
    cases found <;> cases components <;> simp [itemsOfComponents] at hitems ⊢
  refine ⟨mk name type found indexed (if internalType.holds then internalType else .null), ?_, ?_,
    ?_⟩
  · rw [toItem_mk, ofItem, hfound, Except.ok_bind]
    simp only [hlookup, htype, hindexed, hinternal, Option.getD_some, hkept]
    rfl
  · have hnull : Value.null.holds = false := rfl
    rw [toItem_mk, toItem_mk, hitems]
    unfold itemFields
    cases h : internalType.holds <;> simp only [h, hnull, if_true, if_false, Bool.false_eq_true]
  · unfold canonicalType
    simp only [hsome, htypes]

mutual

theorem ofItem_toItem : ∀ p : Param, p.Named → ∃ q, ofItem p.toItem = .ok q ∧ Restores p q
  | mk name type none indexed internalType, h =>
      restores_ofItem h.1 (componentsOf_itemFields _ _ _ _ _) rfl rfl
  | mk name type (some ps) indexed internalType, h => by
      obtain ⟨qs, hqs, hitems, htypes⟩ := ofItemList_toItemList ps h.2
      have hfound : componentsOf (itemFields name type (itemsOfComponents (some ps)) indexed
          internalType) = .ok (some qs) := by
        rw [componentsOf_itemFields]
        exact congrArg (Except.map some) hqs
      exact restores_ofItem h.1 hfound (congrArg some hitems) htypes
termination_by structural p => p

theorem ofItemList_toItemList : ∀ ps : List Param, AllNamed ps →
    ∃ qs, ofItemList (toItemList ps) = .ok qs ∧ toItemList qs = toItemList ps ∧
      canonicalTypes qs = canonicalTypes ps
  | [], _ => ⟨[], rfl, rfl, rfl⟩
  | p :: ps, h => by
      obtain ⟨q, hq, hitem, htype⟩ := ofItem_toItem p h.1
      obtain ⟨qs, hqs, hitems, htypes⟩ := ofItemList_toItemList ps h.2
      refine ⟨q :: qs, ?_, ?_, ?_⟩
      · rw [toItemList, ofItemList, hq, Except.ok_bind, hqs]
        rfl
      · rw [toItemList, toItemList, hitem, hitems]
      · rw [canonicalTypes, canonicalTypes, htype, htypes]
termination_by structural ps => ps

end

theorem ofItems_toItems {ps : List Param} (h : ∀ p ∈ ps, p.Named) :
    ∃ qs, ofItems (toItems ps) = .ok qs ∧ toItems qs = toItems ps ∧
      canonicalTypes qs = canonicalTypes ps ∧ ∀ q ∈ qs, q.Named := by
  obtain ⟨qs, hqs, hitems, htypes⟩ := ofItemList_toItemList ps (allNamed_iff.2 h)
  have hread : ofItems (toItems ps) = .ok qs := by
    unfold ofItems toItems Value.toItemsIfHeld
    cases ps with
    | nil => exact hqs
    | cons p ps => exact hqs
  exact ⟨qs, hread, congrArg Value.list hitems, htypes, named_ofItems hread⟩

end ContractAbi.Param
