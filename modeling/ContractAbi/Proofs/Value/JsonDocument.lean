import ContractAbi.Proofs.Session.Except
import ContractAbi.Proofs.Value.JsonNumber
import ContractAbi.Proofs.Value.JsonText

/-!
# Documents in JSON

A value that is not too deep is read from the document that is written for it.

* `Plain`: the values that JSON can carry;
* `exists_readParts`: what stands between brackets is read part by part;
* `readsPart_item` and `readsPart_field`: so are items and fields;
* `reads_jsonAt`: values are read from their text, by induction on the depth;
* `readDocument_toJson`: so are values from their documents.
-/

namespace ContractAbi.JsonReader

open Value

variable {cs rest blank : List Char} {v : Value} {fuel depth level outer offset : Nat}

/-! ## Values that are carried -/

/-- The values that JSON can carry, with lists and objects up to a depth: no bytes, no text that is
not read as it was written, no whole number of too many digits, no double that is not read from its
text, and no name twice in one object. -/
def Plain : (depth : Nat) → Value → Prop
  | _, .null | _, .bool _ => True
  | _, .text s => Carried s
  | _, .int n => (Nat.toDigits 10 n.natAbs).length ≤ Integer.maxDigits
  | _, .float x => ∀ fuel depth, Reads (fuel + 1) depth (jsonNumber x).toList (.float x)
  | _, .bytes _ => False
  | depth + 1, .list items => ∀ v ∈ items, Plain depth v
  | depth + 1, .object fields =>
    (fields.map Prod.fst).Nodup ∧ (∀ key ∈ fields.map Prod.fst, Carried key) ∧
      ∀ f ∈ fields, Plain depth f.2
  | 0, .list _ | 0, .object _ => False

theorem insert_of_not_mem {key : String} {fields : List (String × Value)}
    (h : key ∉ fields.map Prod.fst) : Value.insert key v fields = fields ++ [(key, v)] := by
  have hnone : (fields.any fun f => f.1 == key) = false := by
    rw [List.any_eq_false]
    intro f hf hkey
    exact h (List.mem_map.2 ⟨f, hf, by simpa using hkey⟩)
  rw [Value.insert, hnone, if_neg (by decide)]

theorem ofFields_eq_self {fields : List (String × Value)} (h : (fields.map Prod.fst).Nodup) :
    Value.ofFields fields = fields := by
  have hall : ∀ fields kept : List (String × Value), ((kept ++ fields).map Prod.fst).Nodup →
      fields.foldl (fun acc f => Value.insert f.1 f.2 acc) kept = kept ++ fields := by
    intro fields
    induction fields with
    | nil => simp
    | cons f fields ih =>
        intro kept hnodup
        have hnew : f.1 ∉ kept.map Prod.fst := by
          rw [List.map_append, List.map_cons] at hnodup
          exact fun hmem => (List.nodup_append.1 hnodup).2.2 _ hmem _ List.mem_cons_self rfl
        rw [List.foldl_cons, insert_of_not_mem hnew, ih _ (by simpa using hnodup),
          List.append_assoc]
        rfl
  exact hall fields [] h

/-! ## Space -/

theorem isSpace_of_mem_indentation {c : Char} (h : c ∈ (indentation level).toList) :
    isSpace c = true := by
  simp only [indentation, String.toList_append, String.toList_ofList, List.mem_append,
    List.mem_replicate] at h
  rcases h with h | ⟨-, rfl⟩
  · obtain rfl : c = '\n' := by simpa using h
    rfl
  · rfl

theorem ends_indentation : Ends ((indentation level).toList ++ rest) := by
  have hline : (indentation level).toList = '\n' :: List.replicate (2 * level) ' ' := by
    simp [indentation]
  rw [hline]
  exact ends_cons (.inr rfl)

theorem exists_skipSpace {c : Char} (hblank : ∀ c ∈ blank, isSpace c = true)
    (hc : isSpace c = false) (rest : List Char) (offset : Nat) :
    ∃ offset', Cursor.skipSpace ⟨offset, blank ++ c :: rest⟩ = ⟨offset', c :: rest⟩ := by
  refine ⟨offset + ((blank ++ c :: rest).takeWhile isSpace).length, ?_⟩
  unfold Cursor.skipSpace Cursor.skip
  dsimp only
  rw [List.dropWhile_append_of_pos hblank, List.dropWhile_cons, hc, if_neg (by decide)]

/-- A new line is skipped, with the space in front of what stands on it. -/
theorem exists_skipIndentation {c : Char} (hc : isSpace c = false) (level : Nat) (rest : List Char)
    (offset : Nat) : ∃ offset',
    Cursor.skipSpace ⟨offset, (indentation level).toList ++ c :: rest⟩ = ⟨offset', c :: rest⟩ :=
  exists_skipSpace (fun _ hd => isSpace_of_mem_indentation hd) hc rest offset

/-! ## Texts -/

theorem toList_jsonText (s : String) :
    (jsonText s).toList = '"' :: ((Text.points s.toList).flatMap jsonPoint ++ ['"']) := by
  simp [jsonText]

theorem length_le_flatMap_jsonPoint (ps : List Text.Point) :
    ps.length ≤ (ps.flatMap jsonPoint).length := by
  induction ps with
  | nil => exact Nat.le_refl _
  | cons p ps ih =>
      have hpos : 0 < (jsonPoint p).length := List.length_pos_iff.2 (jsonPoint_ne_nil p)
      rw [List.flatMap_cons, List.length_append, List.length_cons]
      omega

theorem exists_readText {s : String} (h : Carried s) (rest : List Char) (start offset : Nat) :
    ∃ offset', readText start
      (((Text.points s.toList).flatMap jsonPoint ++ '"' :: rest).length + 1) offset []
      ((Text.points s.toList).flatMap jsonPoint ++ '"' :: rest) = .ok (s, ⟨offset', rest⟩) := by
  obtain ⟨ps, hproper, hapart, rfl⟩ := h
  have hpoints : Text.points (Text.ofPoints ps).toList = ps := by
    rw [Text.ofPoints, String.toList_ofList, Text.points_ofPoints hproper]
  have hfuel : ps.length < (ps.flatMap jsonPoint ++ '"' :: rest).length + 1 := by
    have hle := length_le_flatMap_jsonPoint ps
    rw [List.length_append]
    omega
  refine ⟨offset + (ps.flatMap jsonPoint).length + 1, ?_⟩
  rw [hpoints, readText_flatMap hproper hapart rest hfuel, List.reverse_nil, List.nil_append,
    Text.ofPoints]

theorem reads_jsonText {s : String} (h : Carried s) :
    Reads (fuel + 1) depth (jsonText s).toList (.text s) := by
  intro offset rest _
  obtain ⟨offset', hread⟩ := exists_readText h rest offset (offset + 1)
  refine ⟨offset', ?_⟩
  rw [toList_jsonText, List.cons_append, List.append_assoc, List.singleton_append,
    readValue.eq_def]
  simp only [hread]
  rfl

/-! ## Lists and objects -/

def Starts (cs : List Char) : Prop :=
  ∃ c, cs.head? = some c ∧ isSpace c = false ∧ c ∉ [']', '\x7d']

theorem Starts.exists_cons (h : Starts cs) :
    ∃ c tail, cs = c :: tail ∧ isSpace c = false ∧ c ∉ [']', '\x7d'] := by
  obtain ⟨c, hhead, hspace, hclose⟩ := h
  obtain ⟨tail, rfl⟩ := List.head?_eq_some_iff.1 hhead
  exact ⟨c, tail, rfl, hspace, hclose⟩

def separator (level : Nat) : List Char := ',' :: (indentation level).toList

theorem Starts.append (h : Starts cs) (rest : List Char) : Starts (cs ++ rest) := by
  obtain ⟨c, tail, rfl, hspace, hclose⟩ := h.exists_cons
  exact ⟨c, rfl, hspace, hclose⟩

theorem Starts.intercalate (h : Starts cs) (sep : List Char) (parts : List (List Char)) :
    Starts (sep.intercalate (cs :: parts)) := by
  cases parts with
  | nil => rwa [List.intercalate_singleton]
  | cons p parts =>
      rw [List.intercalate_cons_cons, List.append_assoc]
      exact h.append _

/-- A comma is found where it stands, and the next part behind the space that follows it. -/
theorem exists_skipSeparator (h : Starts cs) (level offset : Nat) :
    Cursor.skipSpace ⟨offset, separator level ++ cs⟩ = ⟨offset, separator level ++ cs⟩ ∧
      ∃ offset', (Cursor.advance 1 ⟨offset, separator level ++ cs⟩).skipSpace = ⟨offset', cs⟩ := by
  obtain ⟨c, tail, rfl, hspace, -⟩ := h.exists_cons
  exact ⟨rfl, exists_skipIndentation hspace level tail _⟩

/-- A part is read with the closing bracket behind it, or with a comma and what is read of the other
parts. -/
structure ReadsPart {α : Type} (read : Nat → Cursor → Except Stop (List α × Cursor))
    (text : α → List Char) (closing : Char) (level : Nat) (x : α) : Prop where
  last : ∀ {fuel}, (text x).length ≤ fuel → ∀ outer rest offset, ∃ offset',
    read (fuel + 1) ⟨offset, text x ++ ((indentation outer).toList ++ closing :: rest)⟩ =
      .ok ([x], ⟨offset', rest⟩)
  next : ∀ {fuel tail}, (text x).length ≤ fuel → Starts tail → ∀ offset, ∃ behind, ∀ xs c,
    read fuel ⟨behind, tail⟩ = .ok (xs, c) →
      read (fuel + 1) ⟨offset, text x ++ (separator level ++ tail)⟩ = .ok (x :: xs, c)

theorem exists_readParts {α : Type} {read : Nat → Cursor → Except Stop (List α × Cursor)}
    {text : α → List Char} {closing : Char} {parts : List α} (hne : parts ≠ [])
    (hstarts : ∀ x ∈ parts, Starts (text x))
    (hreads : ∀ x ∈ parts, ReadsPart read text closing level x)
    (hfuel : ((separator level).intercalate (parts.map text)).length < fuel)
    (outer : Nat) (rest : List Char) (offset : Nat) :
    ∃ offset', read fuel ⟨offset, (separator level).intercalate (parts.map text) ++
      ((indentation outer).toList ++ closing :: rest)⟩ = .ok (parts, ⟨offset', rest⟩) := by
  induction parts generalizing fuel offset with
  | nil => exact absurd rfl hne
  | cons x xs ih =>
      obtain ⟨fuel, rfl⟩ :=
        Nat.exists_eq_add_one_of_ne_zero (Nat.ne_of_gt (Nat.zero_lt_of_lt hfuel))
      have hx := hreads x List.mem_cons_self
      cases xs with
      | nil =>
          rw [List.map_singleton, List.intercalate_singleton] at hfuel ⊢
          exact hx.last (Nat.le_of_lt_succ hfuel) outer rest offset
      | cons y ys =>
          have hlength : 0 < (separator level).length := by simp [separator]
          have hnext := (hstarts y (by simp)).intercalate (separator level) (ys.map text)
          rw [List.map_cons, List.map_cons, List.intercalate_cons_cons] at hfuel ⊢
          rw [List.map_cons] at ih
          simp only [List.length_append] at hfuel
          obtain ⟨o₁, hmore⟩ := hx.next (by omega : (text x).length ≤ fuel)
            (hnext.append ((indentation outer).toList ++ closing :: rest)) offset
          obtain ⟨o₂, htail⟩ := ih (by simp) (fun z hz => hstarts z (List.mem_cons_of_mem _ hz))
            (fun z hz => hreads z (List.mem_cons_of_mem _ hz)) (by omega : _ < fuel) o₁
          refine ⟨o₂, ?_⟩
          rw [List.append_assoc, List.append_assoc]
          exact hmore _ _ htail

theorem readsPart_item {v : Value}
    (hreads : ∀ fuel, (jsonAt level v).toList.length ≤ fuel →
      Reads fuel depth (jsonAt level v).toList v) :
    ReadsPart (fun fuel => readItems fuel depth) (fun v => (jsonAt level v).toList) ']' level
      v := by
  constructor
  · intro fuel hfuel outer rest offset
    obtain ⟨o₁, hread⟩ := hreads fuel hfuel offset ((indentation outer).toList ++ ']' :: rest)
      ends_indentation
    obtain ⟨o₂, hskip⟩ := exists_skipIndentation (show isSpace ']' = false by decide) outer rest o₁
    refine ⟨o₂ + 1, ?_⟩
    rw [readItems.eq_def]
    simp only [hread, Except.ok_bind, hskip]
    rfl
  · intro fuel tail hfuel htail offset
    obtain ⟨o₁, hread⟩ := hreads fuel hfuel offset (separator level ++ tail) (ends_cons (.inl rfl))
    obtain ⟨hcomma, o₂, hskip⟩ := exists_skipSeparator htail level o₁
    refine ⟨o₂, fun xs c hmore => ?_⟩
    rw [readItems.eq_def]
    simp only [hread, Except.ok_bind, hcomma]
    simp only [separator, List.cons_append] at hskip ⊢
    simp only [hskip, hmore, Except.ok_bind]
    rfl

theorem toList_jsonField (level : Nat) (f : String × Value) : (jsonField level f).toList =
    '"' :: ((Text.points f.1.toList).flatMap jsonPoint ++
      '"' :: ':' :: ' ' :: (jsonAt level f.2).toList) := by
  obtain ⟨k, v⟩ := f
  simp [jsonField, jsonText]

theorem starts_jsonField (level : Nat) (f : String × Value) :
    Starts (jsonField level f).toList := by
  rw [toList_jsonField]
  exact ⟨'"', rfl, by decide, by decide⟩

/-- The name of a field is read, and then the value as far as its text goes. -/
theorem exists_readField {f : String × Value} (hkey : Carried f.1)
    (hstarts : Starts (jsonAt level f.2).toList)
    (hreads : Reads fuel depth (jsonAt level f.2).toList f.2) (rest : List Char) (hends : Ends rest)
    (offset : Nat) :
    ∃ offset', readFields (fuel + 1) depth ⟨offset, (jsonField level f).toList ++ rest⟩ =
      (let c := Cursor.skipSpace ⟨offset', rest⟩
      match c.rest with
      | '\x7d' :: _ => .ok ([f], c.advance 1)
      | ',' :: _ => do
        let (fs, c) ← readFields fuel depth (c.advance 1).skipSpace
        return (f :: fs, c)
      | _ => .error (.wrong "Expecting ',' delimiter" c.offset)) := by
  obtain ⟨o₁, hname⟩ := exists_readText hkey (':' :: ' ' :: ((jsonAt level f.2).toList ++ rest))
    offset (offset + 1)
  obtain ⟨c, tail, hvalue, hspace, -⟩ := hstarts.exists_cons
  have hblank : ∀ c ∈ [' '], isSpace c = true := List.forall_mem_singleton.2 rfl
  obtain ⟨o₂, hskip⟩ := exists_skipSpace hblank hspace (tail ++ rest) (o₁ + 1)
  rw [← List.cons_append, ← hvalue] at hskip
  obtain ⟨o₃, hread⟩ := hreads o₂ rest hends
  have hcolon : Cursor.skipSpace ⟨o₁, ':' :: ' ' :: ((jsonAt level f.2).toList ++ rest)⟩ =
      ⟨o₁, ':' :: ' ' :: ((jsonAt level f.2).toList ++ rest)⟩ := rfl
  refine ⟨o₃, ?_⟩
  rw [toList_jsonField, List.cons_append, List.append_assoc, readFields.eq_def]
  simp only [List.cons_append, hname, Except.ok_bind, hcolon]
  have hvalueRead : readValue fuel depth
      (Cursor.advance 1 ⟨o₁, ':' :: ' ' :: ((jsonAt level f.2).toList ++ rest)⟩).skipSpace =
        .ok (f.2, ⟨o₃, rest⟩) := (congrArg (readValue fuel depth) hskip).trans hread
  rw [hvalueRead]
  rfl

theorem readsPart_field {f : String × Value} (hkey : Carried f.1)
    (hstarts : Starts (jsonAt level f.2).toList)
    (hreads : ∀ fuel, (jsonAt level f.2).toList.length ≤ fuel →
      Reads fuel depth (jsonAt level f.2).toList f.2) :
    ReadsPart (fun fuel => readFields fuel depth) (fun f => (jsonField level f).toList) '\x7d' level
      f := by
  have hlength : (jsonAt level f.2).toList.length ≤ (jsonField level f).toList.length := by
    rw [toList_jsonField]
    simp only [List.length_cons, List.length_append]
    omega
  constructor
  · intro fuel hfuel outer rest offset
    obtain ⟨o₁, hread⟩ := exists_readField hkey hstarts (hreads fuel (Nat.le_trans hlength hfuel))
      ((indentation outer).toList ++ '\x7d' :: rest) ends_indentation offset
    obtain ⟨o₂, hskip⟩ :=
      exists_skipIndentation (show isSpace '\x7d' = false by decide) outer rest o₁
    refine ⟨o₂ + 1, ?_⟩
    rw [hread]
    simp only [hskip]
    rfl
  · intro fuel tail hfuel htail offset
    obtain ⟨o₁, hread⟩ := exists_readField hkey hstarts (hreads fuel (Nat.le_trans hlength hfuel))
      (separator level ++ tail) (ends_cons (.inl rfl)) offset
    obtain ⟨hcomma, o₂, hskip⟩ := exists_skipSeparator htail level o₁
    refine ⟨o₂, fun xs c hmore => ?_⟩
    rw [hread]
    simp only [hcomma]
    simp only [separator, List.cons_append] at hskip ⊢
    simp only [hskip, hmore, Except.ok_bind]
    rfl

/-! ## Values -/

theorem starts_of_all_isNumeral (h : cs.all isNumeral = true ∧ cs ≠ []) : Starts cs := by
  obtain ⟨c, rest, rfl⟩ := List.exists_cons_of_ne_nil h.2
  have hc : isNumeral c = true := List.all_eq_true.1 h.1 c List.mem_cons_self
  have hne : ∀ d : Char, isNumeral d = false → c ≠ d := fun d hd hcd => by
    rw [← hcd, hc] at hd
    exact absurd hd (by decide)
  refine ⟨c, rfl, ?_, by simp [hne ']' (by decide), hne '\x7d' (by decide)]⟩
  simp [isSpace, hne ' ' (by decide), hne '\t' (by decide), hne '\n' (by decide),
    hne '\r' (by decide)]

theorem starts_bracketed {opening closing : String} (h : Starts opening.toList)
    (parts : List String) : Starts (bracketed opening closing level parts).toList := by
  unfold bracketed
  split <;> simp only [String.toList_append, List.append_assoc] <;> exact h.append _

theorem toList_bracketed_nil (opening closing : String) (level : Nat) :
    (bracketed opening closing level []).toList = opening.toList ++ closing.toList :=
  String.toList_append

/-- What is written for a value starts with neither space nor a closing bracket. -/
theorem starts_jsonAt (level : Nat) (v : Value) : Starts (jsonAt level v).toList := by
  cases v with
  | null =>
      rw [jsonAt]
      exact ⟨'n', rfl, by decide, by decide⟩
  | bool b =>
      cases b <;> rw [jsonAt]
      · exact ⟨'f', rfl, by decide, by decide⟩
      · exact ⟨'t', rfl, by decide, by decide⟩
  | int n => exact starts_of_all_isNumeral (all_isNumeral_render n)
  | float x =>
      rw [jsonAt]
      cases x with
      | nan => exact ⟨'N', rfl, by decide, by decide⟩
      | infinite s =>
          cases s with
          | false => exact ⟨'I', rfl, by decide, by decide⟩
          | true => exact ⟨'-', rfl, by decide, by decide⟩
      | finite s m e => exact starts_of_all_isNumeral (all_isNumeral_renderFinite s m e)
  | text s =>
      rw [jsonAt, toList_jsonText]
      exact ⟨'"', rfl, by decide, by decide⟩
  | bytes bs =>
      rw [jsonAt, toList_jsonText]
      exact ⟨'"', rfl, by decide, by decide⟩
  | list items => exact starts_bracketed ⟨'[', rfl, by decide, by decide⟩ _
  | object fields => exact starts_bracketed ⟨'\x7b', rfl, by decide, by decide⟩ _

theorem jsonItems_eq (level : Nat) (items : List Value) :
    jsonItems level items = items.map (jsonAt level) := by
  induction items with
  | nil => rfl
  | cons v vs ih => rw [jsonItems, ih, List.map_cons]

theorem jsonFields_eq (level : Nat) (fields : List (String × Value)) :
    jsonFields level fields = fields.map (jsonField level) := by
  induction fields with
  | nil => rfl
  | cons f fs ih => rw [jsonFields, ih, List.map_cons]

theorem toList_bracketed {opening closing : String} {parts : List String} (h : parts ≠ []) :
    (bracketed opening closing level parts).toList =
      opening.toList ++ ((indentation (level + 1)).toList ++
        ((separator (level + 1)).intercalate (parts.map String.toList) ++
          ((indentation level).toList ++ closing.toList))) := by
  have hempty : parts.isEmpty = false := by simpa using h
  have hcomma : ("," ++ indentation (level + 1)).toList = separator (level + 1) := by
    simp [separator]
  rw [bracketed, hempty, if_neg (by decide)]
  simp only [String.toList_append, String.toList_intercalate, List.append_assoc] at hcomma ⊢
  rw [hcomma]

theorem readValue_list (tail : List Char) :
    readValue (fuel + 1) (depth + 1) ⟨offset, '[' :: tail⟩ =
      (let inside := Cursor.skipSpace ⟨offset + 1, tail⟩
      if inside.rest.head? == some ']' then .ok (.list [], inside.advance 1)
      else do
        let (items, c) ← readItems fuel depth inside
        return (.list items, c)) := by
  rw [readValue.eq_def]
  rfl

theorem readValue_object (tail : List Char) :
    readValue (fuel + 1) (depth + 1) ⟨offset, '\x7b' :: tail⟩ =
      (let inside := Cursor.skipSpace ⟨offset + 1, tail⟩
      if inside.rest.head? == some '\x7d' then .ok (.object [], inside.advance 1)
      else do
        let (fields, c) ← readFields fuel depth inside
        return (.object (Value.ofFields fields), c)) := by
  rw [readValue.eq_def]
  rfl

theorem exists_add_one (hfuel : (jsonAt level v).toList.length ≤ fuel) : ∃ n, fuel = n + 1 := by
  obtain ⟨c, tail, htext, -⟩ := (starts_jsonAt level v).exists_cons
  rw [htext, List.length_cons] at hfuel
  exact Nat.exists_eq_add_one_of_ne_zero (by omega)

/-- Behind an opening bracket the first part is found, which is no closing bracket. -/
theorem exists_inside (h : Starts cs) (closing : Char) (hclosing : closing ∈ [']', '\x7d'])
    (level offset : Nat) : ∃ offset',
    Cursor.skipSpace ⟨offset, (indentation level).toList ++ cs⟩ = ⟨offset', cs⟩ ∧
      (cs.head? == some closing) = false := by
  obtain ⟨c, tail, rfl, hspace, hne⟩ := h.exists_cons
  obtain ⟨o, hskip⟩ := exists_skipIndentation hspace level tail offset
  have hother : c ≠ closing := fun hc => hne (hc ▸ hclosing)
  exact ⟨o, hskip, by simpa using hother⟩

/-- Behind the opening bracket, the parts are read with the closing one. -/
theorem exists_readBracketed {α : Type} {read : Nat → Cursor → Except Stop (List α × Cursor)}
    {text : α → String} {opening closing : String} {o c : Char} {x : α} {xs : List α}
    (hopening : opening.toList = [o]) (hclosing : closing.toList = [c]) (hc : c ∈ [']', '\x7d'])
    (hstarts : ∀ y ∈ x :: xs, Starts (text y).toList)
    (hreads : ∀ y ∈ x :: xs, ReadsPart read (fun y => (text y).toList) c (level + 1) y)
    (hfuel : (bracketed opening closing level ((x :: xs).map text)).toList.length ≤ fuel + 1)
    (rest : List Char) (offset : Nat) : ∃ tail inside behind,
      (bracketed opening closing level ((x :: xs).map text)).toList ++ rest = o :: tail ∧
      Cursor.skipSpace ⟨offset, tail⟩ = inside ∧ (inside.rest.head? == some c) = false ∧
      read fuel inside = .ok (x :: xs, ⟨behind, rest⟩) := by
  have hfirst : Starts ((separator (level + 1)).intercalate
      ((x :: xs).map fun y => (text y).toList)) :=
    (hstarts x List.mem_cons_self).intercalate _ _
  have hparts : ((x :: xs).map text).map String.toList = (x :: xs).map fun y => (text y).toList :=
    List.map_map
  rw [toList_bracketed (by simp), hparts, hopening, hclosing] at hfuel ⊢
  simp only [List.singleton_append, List.length_cons, List.length_append] at hfuel
  obtain ⟨inside, hskip, hopen⟩ := exists_inside
    (hfirst.append ((indentation level).toList ++ c :: rest)) c hc (level + 1) offset
  obtain ⟨behind, hread⟩ := exists_readParts (List.cons_ne_nil x xs) hstarts hreads
    (by omega : _ < fuel) level rest inside
  refine ⟨_, _, behind, ?_, hskip, hopen, hread⟩
  simp only [List.cons_append, List.append_assoc, List.nil_append]

theorem reads_list {items : List Value}
    (hreads : ∀ v ∈ items, ∀ fuel, (jsonAt (level + 1) v).toList.length ≤ fuel →
      Reads fuel depth (jsonAt (level + 1) v).toList v)
    (hfuel : (jsonAt level (.list items)).toList.length ≤ fuel) :
    Reads fuel (depth + 1) (jsonAt level (.list items)).toList (.list items) := by
  intro offset rest _
  obtain ⟨fuel, rfl⟩ := exists_add_one hfuel
  rw [jsonAt, jsonItems_eq] at hfuel ⊢
  cases items with
  | nil =>
      refine ⟨offset + 2, ?_⟩
      rw [List.map_nil, toList_bracketed_nil]
      exact readValue_list _
  | cons v vs =>
      have hopening : ("[" : String).toList = ['['] := rfl
      obtain ⟨tail, inside, behind, htext, hskip, hopen, hread⟩ :=
        exists_readBracketed hopening rfl (by decide) (fun v _ => starts_jsonAt (level + 1) v)
          (fun v hv => readsPart_item (hreads v hv)) hfuel rest (offset + 1)
      refine ⟨behind, ?_⟩
      rw [htext, readValue_list]
      simp only [hskip, hopen, hread]
      rfl

/-- An object is read from its text, if its fields are and have different names. -/
theorem reads_object {fields : List (String × Value)} (hnodup : (fields.map Prod.fst).Nodup)
    (hkeys : ∀ key ∈ fields.map Prod.fst, Carried key)
    (hreads : ∀ f ∈ fields, ∀ fuel, (jsonAt (level + 1) f.2).toList.length ≤ fuel →
      Reads fuel depth (jsonAt (level + 1) f.2).toList f.2)
    (hfuel : (jsonAt level (.object fields)).toList.length ≤ fuel) :
    Reads fuel (depth + 1) (jsonAt level (.object fields)).toList (.object fields) := by
  intro offset rest _
  obtain ⟨fuel, rfl⟩ := exists_add_one hfuel
  rw [jsonAt, jsonFields_eq] at hfuel ⊢
  cases fields with
  | nil =>
      refine ⟨offset + 2, ?_⟩
      rw [List.map_nil, toList_bracketed_nil]
      exact readValue_object _
  | cons f fs =>
      have hopening : ("\x7b" : String).toList = ['\x7b'] := rfl
      obtain ⟨tail, inside, behind, htext, hskip, hopen, hread⟩ :=
        exists_readBracketed hopening rfl (by decide) (fun f _ => starts_jsonField (level + 1) f)
          (fun f hf => readsPart_field (hkeys f.1 (List.mem_map_of_mem hf))
            (starts_jsonAt (level + 1) f.2) (hreads f hf)) hfuel rest (offset + 1)
      refine ⟨behind, ?_⟩
      rw [htext, readValue_object]
      simp only [hskip, hopen, hread, Except.ok_bind, ofFields_eq_self hnodup]
      rfl

theorem reads_scalar (h : Plain depth v) (hlist : ∀ items, v ≠ .list items)
    (hobject : ∀ fields, v ≠ .object fields) :
    Reads (fuel + 1) depth (jsonAt level v).toList v := by
  cases v with
  | null =>
      rw [jsonAt]
      exact reads_null
  | bool b => exact reads_bool level b
  | int n =>
      rw [jsonAt]
      rw [Plain] at h
      exact reads_int h
  | float x =>
      rw [jsonAt]
      rw [Plain] at h
      exact h fuel depth
  | text s =>
      rw [jsonAt]
      rw [Plain] at h
      exact reads_jsonText h
  | bytes bs =>
      rw [Plain] at h
      exact h.elim
  | list items => exact absurd rfl (hlist items)
  | object fields => exact absurd rfl (hobject fields)

theorem reads_jsonAt (h : Plain depth v) (level : Nat)
    (hfuel : (jsonAt level v).toList.length ≤ fuel) :
    Reads fuel depth (jsonAt level v).toList v := by
  induction depth generalizing v level fuel with
  | zero =>
      obtain ⟨fuel, rfl⟩ := exists_add_one hfuel
      refine reads_scalar h ?_ ?_
      · rintro items rfl
        rwa [Plain] at h
      · rintro fields rfl
        rwa [Plain] at h
  | succ depth ih =>
      by_cases hlist : ∃ items, v = .list items
      · obtain ⟨items, rfl⟩ := hlist
        rw [Plain] at h
        exact reads_list (fun v hv fuel hfuel => ih (h v hv) (level + 1) hfuel) hfuel
      · by_cases hobject : ∃ fields, v = .object fields
        · obtain ⟨fields, rfl⟩ := hobject
          rw [Plain] at h
          exact reads_object h.1 h.2.1
            (fun f hf fuel hfuel => ih (h.2.2 f hf) (level + 1) hfuel) hfuel
        · obtain ⟨fuel, rfl⟩ := exists_add_one hfuel
          exact reads_scalar h (not_exists.1 hlist) (not_exists.1 hobject)

theorem exists_maxDepth_eq [Stack] : ∃ depth, maxDepth = depth + 4 :=
  ⟨maxDepth - 4, (Nat.sub_add_cancel Stack.four_le_maxDepth).symm⟩

theorem readDocument_toJson [Stack] (h : Plain maxDepth v) :
    readDocument v.toJson.toList = .ok v := by
  obtain ⟨c, tail, htext, hspace, -⟩ := (starts_jsonAt 0 v).exists_cons
  obtain ⟨o, hread⟩ := reads_jsonAt h 0
    (by omega : (jsonAt 0 v).toList.length ≤ 2 * (jsonAt 0 v).toList.length + 2) 0 [] ends_nil
  have hskip : Cursor.skipSpace ⟨0, (jsonAt 0 v).toList⟩ = ⟨0, (jsonAt 0 v).toList⟩ := by
    rw [htext]
    simp [Cursor.skipSpace, Cursor.skip, hspace]
  have hend : Cursor.skipSpace ⟨o, []⟩ = ⟨o, []⟩ := rfl
  rw [List.append_nil] at hread
  rw [readDocument, toJson, hskip, hread, Except.ok_bind]
  dsimp only
  rw [hend]
  rfl

end ContractAbi.JsonReader
