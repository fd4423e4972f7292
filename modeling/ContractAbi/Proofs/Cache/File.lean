import ContractAbi.Proofs.Cache.Mirror
import ContractAbi.Proofs.Interface.PlainItem
import ContractAbi.Proofs.Text.Utf8

/-!
# The file of a cache

What is written to a file is ASCII without returns, so that neither the encoding nor the reading of
line ends changes it. A value that JSON can carry is read from the file that holds its document.

* `all_isWritten_jsonAt`: the characters of documents;
* `valueOfFile_encode`: the value is read from the file;
* `readsBack_of_plain`: so is a cache whose records JSON can carry;
* `readsBack_of_mirrors`: or whose records mirror such records;
* `plain_recordsOfValue`: JSON can carry the records that are read from a file.
-/

namespace ContractAbi

namespace Value

/-! ## The characters of documents -/

def isWritten (c : Char) : Bool := c == '\n' || decide (32 ≤ c.toNat ∧ c.toNat < 127)

theorem all_isWritten_toDigits (n : Nat) : (Nat.toDigits 16 n).all isWritten = true := by
  have hdigit : ∀ k < 16, isWritten (Nat.digitChar k) = true := by decide
  induction n using Nat.strongRecOn with
  | ind n ih =>
      rw [Nat.toDigits_eq_if (by decide)]
      split
      · rename_i hlt
        rw [List.all_cons, hdigit n hlt]
        rfl
      · rw [List.all_append, ih (n / 16) (by omega), List.all_cons,
          hdigit (n % 16) (Nat.mod_lt n (by decide))]
        rfl

theorem all_isWritten_unitEscape (n : Nat) : (unitEscape n).all isWritten = true := by
  have hslash : isWritten '\\' = true ∧ isWritten 'u' = true ∧ isWritten '0' = true := by decide
  unfold unitEscape Hex.ofNatPadded
  rw [String.toList_ofList, List.all_cons, List.all_cons, List.all_append, List.all_replicate,
    all_isWritten_toDigits, hslash.1, hslash.2.1, hslash.2.2]
  split <;> rfl

theorem all_isWritten_jsonChar (c : Char) : (jsonChar c).all isWritten = true := by
  rw [JsonReader.jsonChar_eq]
  split_ifs with _ _ _ _ _ _ _ hplain
  · decide
  · decide
  · decide
  · decide
  · decide
  · decide
  · decide
  · rw [List.all_cons, isWritten, decide_eq_true hplain, Bool.or_true]
    rfl
  · exact all_isWritten_unitEscape _
  · rw [List.all_append, all_isWritten_unitEscape, all_isWritten_unitEscape]
    rfl

theorem all_isWritten_jsonPoint (p : Text.Point) : (jsonPoint p).all isWritten = true := by
  cases p with
  | char c => exact all_isWritten_jsonChar c
  | half n => exact all_isWritten_unitEscape n

theorem all_isWritten_jsonText (s : String) : (jsonText s).toList.all isWritten = true := by
  have hquote : isWritten '"' = true := by decide
  rw [JsonReader.toList_jsonText, List.all_cons, List.all_append, List.all_flatMap, List.all_cons,
    hquote]
  simp only [all_isWritten_jsonPoint, List.all_nil, Bool.and_true, Bool.true_and]
  exact List.all_eq_true.2 fun _ _ => rfl

theorem all_isWritten_of_isNumeral {cs : List Char} (h : cs.all JsonReader.isNumeral = true) :
    cs.all isWritten = true := by
  rw [List.all_eq_true] at h ⊢
  intro c hc
  rcases Bool.or_eq_true_iff.1 (h c hc) with hdigit | hmark
  · have hrange : 48 ≤ c.toNat ∧ c.toNat ≤ 57 := Char.isDigit_iff_toNat.1 hdigit
    rw [isWritten, decide_eq_true (by omega), Bool.or_true]
  · have hmarks : ∀ d ∈ ['.', 'e', '+', '-'], isWritten d = true := List.all_eq_true.1 (by decide)
    exact hmarks c (of_decide_eq_true hmark)

theorem all_isWritten_intercalate {sep : List Char} {parts : List (List Char)}
    (hsep : sep.all isWritten = true) (hparts : ∀ p ∈ parts, p.all isWritten = true) :
    (sep.intercalate parts).all isWritten = true := by
  induction parts with
  | nil => rfl
  | cons p parts ih =>
      have hp := hparts p List.mem_cons_self
      have hrest := ih fun q hq => hparts q (List.mem_cons_of_mem _ hq)
      cases parts with
      | nil => rwa [List.intercalate_singleton]
      | cons q parts =>
          rw [List.intercalate_cons_cons, List.all_append, List.all_append, hp, hsep, hrest]
          rfl

theorem all_isWritten_bracketed {opening closing : String} {level : Nat} {parts : List String}
    (hopening : opening.toList.all isWritten = true)
    (hclosing : closing.toList.all isWritten = true)
    (hparts : ∀ p ∈ parts, p.toList.all isWritten = true) :
    (bracketed opening closing level parts).toList.all isWritten = true := by
  have hline (n : Nat) : (indentation n).toList.all isWritten = true := by
    have hchars : isWritten '\n' = true ∧ isWritten ' ' = true := by decide
    simp [indentation, hchars]
  have hseparator : (JsonReader.separator (level + 1)).all isWritten = true := by
    have hcomma : isWritten ',' = true := by decide
    rw [JsonReader.separator, List.all_cons, hline, hcomma]
    rfl
  cases parts with
  | nil => rw [JsonReader.toList_bracketed_nil, List.all_append, hopening, hclosing]; rfl
  | cons p parts =>
      have hjoined : ((JsonReader.separator (level + 1)).intercalate
          ((p :: parts).map String.toList)).all isWritten = true :=
        all_isWritten_intercalate hseparator (by simpa using hparts)
      rw [JsonReader.toList_bracketed (List.cons_ne_nil _ _)]
      simp only [List.all_append, hopening, hclosing, hline, hjoined, Bool.and_self]

mutual

theorem all_isWritten_jsonAt (level : Nat) :
    (v : Value) → (jsonAt level v).toList.all isWritten = true
  | null => by
    rw [jsonAt]
    decide
  | bool true => by
    rw [jsonAt]
    decide
  | bool false => by
    rw [jsonAt]
    decide
  | int n => all_isWritten_of_isNumeral (JsonReader.all_isNumeral_render n).1
  | float .nan => by
    rw [jsonAt]
    decide
  | float (.infinite false) => by
    rw [jsonAt]
    decide
  | float (.infinite true) => by
    rw [jsonAt]
    decide
  | float (.finite s m e) =>
    all_isWritten_of_isNumeral (JsonReader.all_isNumeral_renderFinite s m e).1
  | text s => all_isWritten_jsonText s
  | bytes bs => all_isWritten_jsonText _
  | list items =>
    all_isWritten_bracketed rfl rfl (all_isWritten_jsonItems (level + 1) items)
  | object fields =>
    all_isWritten_bracketed rfl rfl (all_isWritten_jsonFields (level + 1) fields)
termination_by structural v => v

theorem all_isWritten_jsonItems (level : Nat) : (items : List Value) →
    ∀ p ∈ jsonItems level items, p.toList.all isWritten = true
  | [] => fun p hp => absurd hp List.not_mem_nil
  | v :: vs => fun p hp => by
    rcases List.mem_cons.1 hp with rfl | hp
    · exact all_isWritten_jsonAt level v
    · exact all_isWritten_jsonItems level vs p hp
termination_by structural items => items

theorem all_isWritten_jsonFields (level : Nat) : (fields : List (String × Value)) →
    ∀ p ∈ jsonFields level fields, p.toList.all isWritten = true
  | [] => fun p hp => absurd hp List.not_mem_nil
  | f :: fs => fun p hp => by
    rcases List.mem_cons.1 hp with rfl | hp
    · exact all_isWritten_jsonField level f
    · exact all_isWritten_jsonFields level fs p hp
termination_by structural fields => fields

theorem all_isWritten_jsonField (level : Nat) : (f : String × Value) →
    (jsonField level f).toList.all isWritten = true
  | (k, v) => by
    have hcolon : (": " : String).toList.all isWritten = true := by decide
    rw [jsonField, String.toList_append, String.toList_append, List.all_append, List.all_append,
      all_isWritten_jsonText, hcolon, all_isWritten_jsonAt level v]
    rfl
termination_by structural f => f

end

end Value

/-! ## Files -/

namespace ResultCache

open Value

variable {cs : List Char} {v : Value} {c : ResultCache}

theorem unifyLines_eq_self (h : '\r' ∉ cs) : unifyLines cs = cs := by
  induction cs with
  | nil => rfl
  | cons c cs ih =>
      have hc : c ≠ '\r' := fun hc => h (hc ▸ List.mem_cons_self)
      rw [unifyLines.eq_def]
      split
      · rename_i heq
        exact absurd (List.cons.inj heq).1 hc
      · rename_i heq
        exact absurd (List.cons.inj heq).1 hc
      · rename_i heq
        obtain ⟨rfl, rfl⟩ := List.cons.inj heq
        rw [ih fun hmem => h (List.mem_cons_of_mem _ hmem)]
      · rename_i heq
        exact absurd heq (List.cons_ne_nil _ _)

/-- A value that JSON can carry is read from the file that holds its document. -/
theorem valueOfFile_encode [JsonReader.Stack] (h : JsonReader.Plain JsonReader.maxDepth v) :
    valueOfFile (Utf8.encode v.toJson) = .ok v := by
  have hwritten : ∀ c ∈ v.toJson.toList, isWritten c = true :=
    List.all_eq_true.1 (all_isWritten_jsonAt 0 v)
  have hascii : ∀ c ∈ v.toJson.toList, c.toNat < 128 := fun c hc => by
    rcases Bool.or_eq_true_iff.1 (hwritten c hc) with hline | hrange
    · rw [eq_of_beq hline]
      decide
    · exact Nat.lt_succ_of_lt (of_decide_eq_true hrange).2
  have hreturn : '\r' ∉ v.toJson.toList := fun hc => absurd (hwritten _ hc) (by decide)
  have hmark : (v.toJson.toList.head? == some '\ufeff') = false := by
    rw [beq_eq_false_iff_ne]
    exact fun hhead => absurd (hwritten _ (List.mem_of_head? hhead)) (by decide)
  rw [valueOfFile, Utf8.decode_encode hascii]
  dsimp only
  rw [unifyLines_eq_self hreturn, String.ofList_toList, ofJson, hmark, if_neg (by decide),
    ofJsonText, JsonReader.readDocument_toJson h]
  rfl

end ResultCache

/-! ## Caches that are read back -/

/-- JSON can carry the result inside a cache, with its chain as it stands and as a whole number. -/
structure Reconstruction.Plain [JsonReader.Stack] (r : Reconstruction) : Prop where
  item : JsonReader.Plain (JsonReader.maxDepth - 3) r.toItem
  chain : ∀ n, r.chainId.toWhole = .ok n → JsonReader.Plain 0 (.int n)

structure CacheRecord.Plain [JsonReader.Stack] (q : CacheRecord) : Prop where
  address : JsonReader.Plain 0 q.address
  chainId : JsonReader.Plain 0 (.int q.chainId)
  timestamp : JsonReader.Plain 0 (.float q.timestamp)
  result : q.result.Plain

theorem Reconstruction.Plain.onChain [JsonReader.Stack] {r : Reconstruction} {n : Int} (h : r.Plain)
    (hn : r.chainId.toWhole = .ok n) :
    JsonReader.Plain (JsonReader.maxDepth - 3) (Reconstruction.onChain r n).toItem := by
  have hitem := h.item
  have hchain := h.chain n hn
  obtain ⟨depth, hdepth⟩ := JsonReader.exists_maxDepth_eq
  have hbelow : JsonReader.maxDepth - 3 = depth + 1 := by rw [hdepth]; rfl
  rw [hbelow] at hitem ⊢
  rw [toItem, JsonReader.plain_object_iff] at hitem
  rw [JsonReader.Plain] at hchain
  rw [toItem, JsonReader.plain_object_iff]
  obtain ⟨hnodup, hkeys, hfields⟩ := hitem
  refine ⟨hnodup, hkeys, ?_⟩
  simp only [List.forall_mem_cons] at hfields ⊢
  obtain ⟨haddress, -, hrest⟩ := hfields
  refine ⟨haddress, ?_, hrest⟩
  rwa [Reconstruction.onChain, JsonReader.Plain]

namespace CacheRecord

variable {q q' : CacheRecord}

theorem plain_toItem {depth : Nat} (haddress : JsonReader.Plain depth q.address)
    (hchain : JsonReader.Plain depth (.int q.chainId))
    (htime : JsonReader.Plain depth (.float q.timestamp))
    (hresult : JsonReader.Plain depth q.result.toItem) : JsonReader.Plain (depth + 1) q.toItem := by
  refine JsonReader.plain_object (by simp) (by simp [Text.isAscii]) ?_
  simp only [List.forall_mem_cons]
  exact ⟨haddress, hchain, htime, JsonReader.plain_bool _, hresult, by simp⟩

theorem plain_of_mirrors [JsonReader.Stack] (hplain : q.Plain) (h : q.Mirrors q') :
    JsonReader.Plain (JsonReader.maxDepth - 2) q'.toItem := by
  obtain ⟨n, hn, hresult⟩ := h.result
  have hitem : JsonReader.Plain (JsonReader.maxDepth - 3) q'.result.toItem := by
    rcases hresult with hsame | ⟨hrestores, -⟩
    · rw [hsame]
      exact hplain.result.item
    · rw [hrestores.toItem]
      exact hplain.result.onChain hn
  have hbelow : JsonReader.maxDepth - 2 = JsonReader.maxDepth - 3 + 1 := by
    obtain ⟨depth, hdepth⟩ := JsonReader.exists_maxDepth_eq
    rw [hdepth]
    rfl
  rw [hbelow]
  apply plain_toItem
  · rw [h.address]
    exact hplain.address.mono (Nat.zero_le _)
  · rw [h.chainId]
    exact hplain.chainId.mono (Nat.zero_le _)
  · rw [h.timestamp]
    exact hplain.timestamp.mono (Nat.zero_le _)
  · exact hitem

end CacheRecord

namespace ResultCache

open CacheRecord

variable {records : List CacheRecord} {c : ResultCache}

theorem exists_mirrored {mirrored : List CacheRecord} (h : List.Forall₂ Mirrors records mirrored)
    {q' : CacheRecord} (hq' : q' ∈ mirrored) : ∃ q ∈ records, q.Mirrors q' := by
  induction h with
  | nil => exact absurd hq' List.not_mem_nil
  | cons hp _ ih =>
      rcases List.mem_cons.1 hq' with rfl | hq'
      · exact ⟨_, List.mem_cons_self, hp⟩
      · obtain ⟨q, hq, hmirrors⟩ := ih hq'
        exact ⟨q, List.mem_cons_of_mem _ hq, hmirrors⟩

/-- A cache is read back from its document if JSON can carry its records. -/
theorem readsBack_of_plain [JsonReader.Stack]
    (h : ∀ q ∈ c.records, JsonReader.Plain (JsonReader.maxDepth - 2) q.toItem) : c.ReadsBack := by
  apply valueOfFile_encode
  obtain ⟨depth, hdepth⟩ := JsonReader.exists_maxDepth_eq
  rw [hdepth] at h ⊢
  refine JsonReader.plain_object (by simp) (by simp [Text.isAscii]) ?_
  rw [List.forall_mem_singleton, JsonReader.plain_list_iff, List.forall_mem_map]
  exact h

/-- A cache whose records mirror such records is read back from its document. -/
theorem readsBack_of_mirrors [JsonReader.Stack] (hplain : ∀ q ∈ records, q.Plain)
    (h : List.Forall₂ Mirrors records c.records) :
    c.ReadsBack := by
  apply readsBack_of_plain
  intro q' hq'
  obtain ⟨q, hq, hmirrors⟩ := exists_mirrored h hq'
  exact plain_of_mirrors (hplain q hq) hmirrors

end ResultCache

/-! ## Records that are read -/

theorem CacheRecord.plain_ofItem {depth : Nat} {v : Value} {q : CacheRecord}
    (hplain : JsonReader.Plain depth v) (h : ofItem v = .ok q) :
    JsonReader.Plain (depth + 1) q.toItem := by
  obtain ⟨address, haddress, h⟩ := Except.bind_eq_ok_iff.1 h
  obtain ⟨id, hid, h⟩ := Except.bind_eq_ok_iff.1 h
  obtain ⟨chain, hchain, h⟩ := Except.bind_eq_ok_iff.1 h
  obtain ⟨item, hitem, h⟩ := Except.bind_eq_ok_iff.1 h
  obtain ⟨result, hresult, h⟩ := Except.bind_eq_ok_iff.1 h
  obtain ⟨stamp, hstamp, h⟩ := Except.bind_eq_ok_iff.1 h
  obtain ⟨timestamp, htime, h⟩ := Except.bind_eq_ok_iff.1 h
  obtain ⟨verified, -, h⟩ := Except.bind_eq_ok_iff.1 h
  obtain rfl := Except.ok.inj h
  cases v with
  | object fields =>
      obtain ⟨depth, rfl⟩ := hplain.exists_depth (Nat.succ_ne_zero _)
      apply plain_toItem
      · exact (JsonReader.plain_require hplain haddress).mono (Nat.le_succ _)
      · exact JsonReader.plain_toWhole (JsonReader.plain_require hplain hid) hchain
      · apply JsonReader.plain_float
        exact JsonReader.proper_toDouble (JsonReader.plain_require hplain hstamp) htime
      · exact Reconstruction.plain_ofItem (JsonReader.plain_require hplain hitem) hresult
  | _ => exact absurd haddress (by simp [Value.require])

namespace ResultCache

variable {content : Bytes} {v : Value} {records : List CacheRecord}

theorem plain_recordsOfValue {depth : Nat} (hplain : JsonReader.Plain (depth + 2) v)
    (h : recordsOfValue v = .ok records) :
    ∀ q ∈ records, JsonReader.Plain (depth + 1) q.toItem := by
  obtain ⟨listed, hlisted, h⟩ := Except.bind_eq_ok_iff.1 h
  obtain ⟨items, hitems, h⟩ := Except.bind_eq_ok_iff.1 h
  intro q hq
  obtain ⟨item, hitem, hread⟩ := Except.exists_of_mem_mapM h hq
  rcases Value.toItems_cases hitems with rfl | hothers
  · cases v with
    | object fields =>
        have habsent : JsonReader.Plain (depth + 1) (.list []) :=
          JsonReader.plain_list_iff.2 (List.forall_mem_nil _)
        have hitems := JsonReader.plain_fieldOr habsent hplain hlisted
        exact CacheRecord.plain_ofItem (JsonReader.plain_list_iff.1 hitems item hitem) hread
    | _ => exact absurd hlisted (by simp [Value.fieldOr])
  · cases item with
    | object fields => exact absurd rfl (hothers _ hitem fields)
    | _ => exact absurd hread (by simp [CacheRecord.ofItem, Value.require])

theorem whole_unifyLines {cs : List Char} (h : Text.Whole cs) : Text.Whole (unifyLines cs) := by
  have hline : '\n' ≠ Text.mark := by decide
  have hcons : ∀ {rest}, Text.Whole rest → Text.Whole ('\n' :: rest) :=
    fun hrest => ⟨by decide, fun heq => absurd heq hline, hrest⟩
  induction cs using unifyLines.induct with
  | case1 rest ih =>
      rw [unifyLines]
      exact hcons (ih h.2.2.2.2)
  | case2 rest hother ih =>
      rw [unifyLines]
      · exact hcons (ih h.2.2)
      · exact hother
  | case3 c rest hpair hreturn ih =>
      rw [unifyLines]
      · refine ⟨h.1, fun hmark => ?_, ih h.2.2⟩
        obtain ⟨d, behind, hd, rfl⟩ := h.2.1 hmark
        have hcover : Text.cover d ≠ '\r' := by
          intro heq
          have hlarge := (Text.isCover_iff.1 (Text.isCover_cover hd)).1
          rw [heq] at hlarge
          exact absurd hlarge (by decide)
        refine ⟨d, unifyLines behind, hd, ?_⟩
        rw [unifyLines]
        · exact fun _ heq => absurd heq hcover
        · exact fun heq => absurd heq hcover
      · exact hpair
      · exact hreturn
  | case4 => trivial

theorem plain_valueOfFile [JsonReader.Stack] (h : valueOfFile content = .ok v) :
    JsonReader.Plain JsonReader.maxDepth v := by
  unfold valueOfFile at h
  split at h
  · exact absurd h (by simp)
  · rename_i s hdecoded
    refine JsonReader.plain_ofJson ?_ h
    obtain ⟨cs, rfl⟩ := Utf8.exists_ofChars_of_decode hdecoded
    rw [String.toList_ofList, Text.ofChars, String.toList_ofList]
    exact whole_unifyLines (Text.whole_flatMap_ofChar cs)

end ResultCache

end ContractAbi
