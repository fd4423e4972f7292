import ContractAbi.Address.Libraries
import ContractAbi.Proofs.Cache.Faults
import ContractAbi.Proofs.Cache.Refine

/-!
# Opening cache files

A file is opened with the last records of their keys if all of its records are read, and without
records if its content is at fault. It is not opened where reading fails in one of the ways that
nobody looks out for, or where a record goes by a list or an object. What was opened can be written
and opened anew.

* `ResultCache.mem_foldl_insert_iff`: the records that are kept;
* `ResultCache.sound_of_ofFile`: what holds of every cache that was opened;
* `ResultCache.plain_of_ofFile`: JSON can carry its records;
* `ResultCache.exists_stored`: a record that is stored is found again;
* `FileCache.opening_of_content`: what any content is opened as.
-/

namespace ContractAbi

open CacheRecord

theorem Value.asKey_cases (v : Value) :
    v.asKey = .ok v ∨ v.asKey = .error (.misfit (.unhashable v)) := by
  unfold asKey
  split
  · exact .inr rfl
  · exact .inr rfl
  · exact .inl rfl

namespace ResultCache

variable {records kept : List CacheRecord} {q r : CacheRecord} {c : ResultCache} {path : String}
  {maxAge : Binary64} {content : Bytes}

/-! ## The last record of each key -/

/-- The record stands in the list, and behind it none of its key. -/
def IsLast (records : List CacheRecord) (q : CacheRecord) : Prop :=
  ∃ before after, records = before ++ q :: after ∧ ∀ p ∈ after, p.sameKey q = false

theorem mem_insert_iff : q ∈ insert kept r ↔ q = r ∨ (q ∈ kept ∧ r.sameKey q = false) := by
  constructor
  · exact fun h => mem_store (c := ⟨.nan, kept⟩) h
  · intro h
    unfold insert
    split
    · rename_i hany
      rw [List.mem_map]
      rcases h with rfl | ⟨hq, hother⟩
      · obtain ⟨p, hp, hsame⟩ := List.any_eq_true.1 hany
        exact ⟨p, hp, if_pos hsame⟩
      · exact ⟨q, hq, by simp [hother]⟩
    · rw [List.mem_append, List.mem_singleton]
      rcases h with rfl | ⟨hq, -⟩
      · exact .inr rfl
      · exact .inl hq

theorem isLast_concat_iff :
    IsLast (records ++ [r]) q ↔ q = r ∨ (IsLast records q ∧ r.sameKey q = false) := by
  constructor
  · rintro ⟨before, after, hrecords, hafter⟩
    rcases List.eq_nil_or_concat after with rfl | ⟨after, last, rfl⟩
    · obtain ⟨-, hsame⟩ := List.append_inj' hrecords rfl
      exact .inl (List.cons.inj hsame).1.symm
    · have hsplit : records ++ [r] = (before ++ q :: after) ++ [last] := by
        simpa using hrecords
      obtain ⟨hrest, hlast⟩ := List.append_inj' hsplit rfl
      obtain rfl := (List.cons.inj hlast).1
      exact .inr ⟨⟨before, after, hrest, fun p hp => hafter p (by simp [hp])⟩, hafter r (by simp)⟩
  · rintro (rfl | ⟨⟨before, after, rfl, hafter⟩, hother⟩)
    · exact ⟨records, [], rfl, by simp⟩
    · refine ⟨before, after ++ [r], by simp, ?_⟩
      intro p hp
      rcases List.mem_append.1 hp with hp | hp
      · exact hafter p hp
      · rw [List.mem_singleton.1 hp]
        exact hother

theorem mem_foldl_insert_iff : q ∈ records.foldl insert [] ↔ IsLast records q := by
  induction records using List.reverseRecOn with
  | nil => simp [IsLast]
  | append_singleton rest r ih =>
      rw [List.foldl_append, List.foldl_cons, List.foldl_nil, mem_insert_iff, ih,
        isLast_concat_iff]

theorem distinct_foldl_insert (maxAge : Binary64) (records : List CacheRecord) :
    Distinct ⟨maxAge, records.foldl insert []⟩ := by
  induction records using List.reverseRecOn with
  | nil => exact List.Pairwise.nil
  | append_singleton rest r ih =>
      rw [List.foldl_append]
      exact distinct_store ih r

/-! ## Files -/

theorem ofFile_ok [JsonReader.Stack] (h : (valueOfFile content).bind recordsOfValue = .ok records)
    (hkeys : ∀ q ∈ records, ∃ v, q.address.asKey = .ok v) :
    (ofFile path maxAge content).result = .ok ⟨maxAge, records.foldl insert []⟩ := by
  unfold ofFile
  rw [h]
  dsimp only
  rw [Traced.result_bind, Traced.result_ofExcept, forM_asKey hkeys]
  rfl

theorem forM_asKey_of_not (h : ¬∀ q ∈ records, ∃ v, q.address.asKey = .ok v) :
    ∃ v, (records.forM fun q => q.address.asKey.map fun _ => ()) =
      Except.error (.misfit (.unhashable v)) := by
  induction records with
  | nil => exact absurd (by simp) h
  | cons q rest ih =>
      rw [List.forM]
      rcases q.address.asKey_cases with hkey | hkey
      · have hrest : ¬∀ p ∈ rest, ∃ v, p.address.asKey = .ok v := by
          intro hall
          apply h
          exact List.forall_mem_cons.2 ⟨⟨_, hkey⟩, hall⟩
        obtain ⟨v, hv⟩ := ih hrest
        refine ⟨v, ?_⟩
        rw [hkey]
        exact hv
      · refine ⟨q.address, ?_⟩
        rw [hkey]
        rfl

theorem ofFile_unhashable [JsonReader.Stack] (path : String) (maxAge : Binary64)
    (h : (valueOfFile content).bind recordsOfValue = .ok records)
    (hkeys : ¬∀ q ∈ records, ∃ v, q.address.asKey = .ok v) :
    ∃ v, (ofFile path maxAge content).result = .error (.misfit (.unhashable v)) := by
  obtain ⟨v, hv⟩ := forM_asKey_of_not hkeys
  refine ⟨v, ?_⟩
  unfold ofFile
  rw [h]
  dsimp only
  rw [Traced.result_bind, Traced.result_ofExcept, hv]
  rfl

theorem ofFile_spoilt [JsonReader.Stack] {e : Fault}
    (h : (valueOfFile content).bind recordsOfValue = .error e)
    (hspoilt : spoilsFile e = true) :
    (ofFile path maxAge content).result = .ok (empty maxAge) := by
  unfold ofFile
  rw [h]
  dsimp only
  rw [if_pos hspoilt, Traced.result_bind, Traced.result_note]
  rfl

theorem ofFile_escaping [JsonReader.Stack] {e : Fault}
    (h : (valueOfFile content).bind recordsOfValue = .error e)
    (hescapes : spoilsFile e = false) : (ofFile path maxAge content).result = .error e := by
  unfold ofFile
  rw [h]
  dsimp only
  rw [if_neg (by simp [hescapes])]
  rfl

/-! ## Opened caches -/

structure Sound (c : ResultCache) : Prop where
  distinct : c.Distinct
  fileable : ∀ q ∈ c.records, q.Fileable

theorem sound_empty (maxAge : Binary64) : Sound (.empty maxAge) where
  distinct := List.Pairwise.nil
  fileable _ hq := absurd hq List.not_mem_nil

theorem sound_store (h : c.Sound) (hr : r.Fileable) : (c.store r).Sound where
  distinct := distinct_store h.distinct r
  fileable q hq := by
    rcases mem_store hq with rfl | ⟨hq, -⟩
    · exact hr
    · exact h.fileable q hq

theorem regular_of_ofItem {item : Value} (h : CacheRecord.ofItem item = .ok q) :
    q.result.Regular := by
  obtain ⟨address, -, h⟩ := Except.bind_eq_ok_iff.1 h
  obtain ⟨id, -, h⟩ := Except.bind_eq_ok_iff.1 h
  obtain ⟨chain, -, h⟩ := Except.bind_eq_ok_iff.1 h
  obtain ⟨field, -, h⟩ := Except.bind_eq_ok_iff.1 h
  obtain ⟨result, hresult, h⟩ := Except.bind_eq_ok_iff.1 h
  obtain ⟨stamp, -, h⟩ := Except.bind_eq_ok_iff.1 h
  obtain ⟨timestamp, -, h⟩ := Except.bind_eq_ok_iff.1 h
  obtain ⟨verified, -, h⟩ := Except.bind_eq_ok_iff.1 h
  rw [← Except.ok.inj h]
  exact (Reconstruction.regular_of_ofItem hresult).1

theorem regular_of_recordsOfValue {v : Value} (h : recordsOfValue v = .ok records) :
    ∀ q ∈ records, q.result.Regular := by
  obtain ⟨field, -, h⟩ := Except.bind_eq_ok_iff.1 h
  obtain ⟨items, -, h⟩ := Except.bind_eq_ok_iff.1 h
  intro q hq
  obtain ⟨item, -, hread⟩ := Except.exists_of_mem_mapM h hq
  exact regular_of_ofItem hread

/-- A cache that was opened holds the last records of their keys, or none. -/
theorem ofFile_eq_ok [JsonReader.Stack] (h : (ofFile path maxAge content).result = .ok c) :
    (∃ records, (valueOfFile content).bind recordsOfValue = .ok records ∧
      (∀ q ∈ records, ∃ v, q.address.asKey = .ok v) ∧ c = ⟨maxAge, records.foldl insert []⟩) ∨
    c = .empty maxAge := by
  cases hread : (valueOfFile content).bind recordsOfValue with
  | ok records =>
      by_cases hkeys : ∀ q ∈ records, ∃ v, q.address.asKey = .ok v
      · rw [ofFile_ok hread hkeys] at h
        exact .inl ⟨records, rfl, hkeys, (Except.ok.inj h).symm⟩
      · obtain ⟨v, hfailed⟩ := ofFile_unhashable path maxAge hread hkeys
        rw [hfailed] at h
        exact absurd h (by simp)
  | error e =>
      cases hspoilt : spoilsFile e with
      | true =>
          rw [ofFile_spoilt hread hspoilt] at h
          exact .inr (Except.ok.inj h).symm
      | false =>
          rw [ofFile_escaping hread hspoilt] at h
          exact absurd h (by simp)

theorem maxAge_of_ofFile [JsonReader.Stack] (h : (ofFile path maxAge content).result = .ok c) :
    c.maxAge = maxAge := by
  rcases ofFile_eq_ok h with ⟨records, -, -, rfl⟩ | rfl
  · rfl
  · rfl

theorem sound_of_ofFile [JsonReader.Stack] (h : (ofFile path maxAge content).result = .ok c) :
    c.Sound := by
  rcases ofFile_eq_ok h with ⟨records, hread, hkeys, rfl⟩ | rfl
  · obtain ⟨v, -, hrecords⟩ := Except.bind_eq_ok_iff.1 hread
    refine ⟨distinct_foldl_insert maxAge records, ?_⟩
    intro q hq
    have hmem : q ∈ records := (mem_foldl_insert hq).resolve_right List.not_mem_nil
    exact ⟨hkeys q hmem, regular_of_recordsOfValue hrecords q hmem⟩
  · exact sound_empty maxAge

/-- JSON can carry the records of a cache that was opened, unless the document of the file left no
room for one more level. -/
theorem plain_of_ofFile [JsonReader.Stack] (h : (ofFile path maxAge content).result = .ok c)
    (hroom : ∀ v, valueOfFile content = .ok v → v.nesting < JsonReader.maxDepth) :
    ∀ q ∈ c.records, JsonReader.Plain (JsonReader.maxDepth - 2) q.toItem := by
  rcases ofFile_eq_ok h with ⟨records, hread, -, rfl⟩ | rfl
  · obtain ⟨v, hv, hrecords⟩ := Except.bind_eq_ok_iff.1 hread
    obtain ⟨depth, hdepth⟩ := JsonReader.exists_maxDepth_eq
    rw [hdepth] at hroom ⊢
    -- records lie two levels inside the document, and may be written one level deeper
    have hplain : JsonReader.Plain (depth + 1 + 2) v :=
      (plain_valueOfFile hv).of_nesting (Nat.le_of_lt_succ (hroom v hv))
    intro q hq
    have hmem : q ∈ records := (mem_foldl_insert hq).resolve_right List.not_mem_nil
    exact plain_recordsOfValue hplain hrecords q hmem
  · exact fun q hq => absurd hq List.not_mem_nil

theorem readsBack_store [JsonReader.Stack]
    (hc : ∀ q ∈ c.records, JsonReader.Plain (JsonReader.maxDepth - 2) q.toItem)
    (hr : JsonReader.Plain (JsonReader.maxDepth - 2) r.toItem) : (c.store r).ReadsBack := by
  apply readsBack_of_plain
  intro q hq
  rcases mem_store hq with rfl | ⟨hq, -⟩
  · exact hr
  · exact hc q hq

/-- A record that is stored in a sound cache is found when the document of the cache is opened. -/
theorem exists_stored [JsonReader.Stack] (path : String) (maxAge : Binary64) (hc : c.Sound)
    (hr : r.Fileable)
    {address : String} {n : Int} (hfor : isFor address n r = true) (hback : (c.store r).ReadsBack) :
    ∃ again, (openFile path maxAge (some (c.store r).content)).result = .ok again ∧
      ∃ q, again.find? address n = some q ∧ r.Mirrors q := by
  have hsound := sound_store hc hr
  have hself : List.Forall₂ Mirrors (c.store r).records (c.store r).records :=
    List.forall₂_same.2 fun q hq => (hsound.fileable q hq).mirrors
  obtain ⟨again, hopen, hagain⟩ :=
    exists_openFile path maxAge hsound.fileable hsound.distinct hself hback
  refine ⟨_, hopen, ?_⟩
  have hfound := rel_find? hagain address n
  rw [← find?_eq, find?_store c hfor] at hfound
  cases hfind : again.find? (isFor address n) with
  | none =>
      rw [hfind] at hfound
      cases hfound
  | some q =>
      rw [hfind] at hfound
      cases hfound with
      | some hmirrors => exact ⟨q, hfind, hmirrors⟩

end ResultCache

namespace FileCache

open ResultCache

variable {path : String} {maxAge : Binary64} {content : Bytes} {f : FileCache}

theorem result_openAt [JsonReader.Stack] (path : String) (maxAge : Binary64) (content : Bytes) :
    (openAt path maxAge (some content)).result =
      (ofFile path maxAge content).result.map fun c => ⟨c, some content⟩ := by
  unfold openAt
  rw [Traced.result_bind]
  change ((ofFile path maxAge content).result >>= _) = _
  cases (ofFile path maxAge content).result <;> rfl

theorem exists_reopened_put [JsonReader.Stack] (path : String) (hf : f.cache.Sound)
    (now : Binary64) (s : String)
    {chain : Value} {n : Int} (hchain : chain.toWhole = .ok n) {r : Reconstruction}
    (hr : r.Regular) (verified : Bool) :
    ∃ f', f.put now (.text s) chain r verified = .ok f' ∧
      ((∀ q ∈ f.cache.records, JsonReader.Plain (JsonReader.maxDepth - 2) q.toItem) →
        (Operation.put now (.text s) chain r verified).Plain →
        ∃ again, (openAt path f.cache.maxAge f'.file).result = .ok again ∧
          ∃ q, again.cache.find? (Text.lowered s) n = some q ∧
            CacheRecord.Mirrors ⟨.text (Text.lowered s), n, r, now, verified⟩ q) := by
  have hput := put_text f.cache now s r verified hchain
  have hregular : CacheRecord.Regular ⟨.text (Text.lowered s), n, r, now, verified⟩ :=
    ⟨⟨_, rfl⟩, hr⟩
  have hfor : isFor (Text.lowered s) n ⟨.text (Text.lowered s), n, r, now, verified⟩ = true :=
    isFor_iff.2 ⟨rfl, rfl⟩
  have hkey : key (.text s) chain = .ok (Text.lowered s, n) := key_text s hchain
  have hplain : (Operation.put now (.text s) chain r verified).Plain →
      CacheRecord.Plain ⟨.text (Text.lowered s), n, r, now, verified⟩ :=
    fun h => ⟨(h.2.1 _ n hkey).1, (h.2.1 _ n hkey).2, h.1, h.2.2⟩
  generalize (⟨.text (Text.lowered s), n, r, now, verified⟩ : CacheRecord) = stored at *
  refine ⟨⟨f.cache.store stored, some (f.cache.store stored).content⟩, ?_, ?_⟩
  · unfold FileCache.put
    rw [hput]
    rfl
  · intro hcarried hoperation
    have hback : (f.cache.store stored).ReadsBack :=
      readsBack_store hcarried (plain_of_mirrors (hplain hoperation) hregular.mirrors)
    obtain ⟨again, hopen, hfound⟩ :=
      exists_stored path f.cache.maxAge hf hregular.fileable hfor hback
    refine ⟨⟨again, some (f.cache.store stored).content⟩, ?_, hfound⟩
    have hopen' : (ofFile path f.cache.maxAge (f.cache.store stored).content).result =
        .ok again := hopen
    dsimp only
    rw [result_openAt, hopen']
    rfl

/-- Whatever a file holds, it is opened with the last records of their keys, opened without records,
or not opened. If it was opened, an assembled result can be stored; and where JSON can carry that
result and has room for one more level than the file had, the result is found when the file is
opened anew. -/
theorem opening_of_content [JsonReader.Stack] [AddressLibrary] (path : String) (maxAge : Binary64)
    (content : Bytes) :
    let reading := (valueOfFile content).bind recordsOfValue
    let opened := (openAt path maxAge (some content)).result
    (∀ records, reading = .ok records → (∀ q ∈ records, ∃ v, q.address.asKey = .ok v) →
      ∃ f, opened = .ok f ∧ f.cache.Distinct ∧
        ∀ q, q ∈ f.cache.records ↔ IsLast records q) ∧
    (∀ records, reading = .ok records → (¬∀ q ∈ records, ∃ v, q.address.asKey = .ok v) →
      ∃ v, opened = .error (.misfit (.unhashable v))) ∧
    (∀ e, reading = .error e →
      (spoilsFile e = true ∧ ∃ f, opened = .ok f ∧ f.cache.records = []) ∨
      (e.Escapes ∧ opened = .error e)) ∧
    ∀ f, opened = .ok f → ∀ now s chain n r verified, Assembler.Assembled Assembler.AnyChain r →
      chain.toWhole = .ok n →
      ∃ f', f.put now (.text s) chain r verified = .ok f' ∧
        ((∀ v, valueOfFile content = .ok v → v.nesting < JsonReader.maxDepth) →
          (Operation.put now (.text s) chain r verified).Plain →
          ∃ again, (openAt path maxAge f'.file).result = .ok again ∧
            ∃ q, again.cache.find? (Text.lowered s) n = some q ∧
              CacheRecord.Mirrors ⟨.text (Text.lowered s), n, r, now, verified⟩ q) := by
  dsimp only
  rw [result_openAt]
  refine ⟨?_, ?_, ?_, ?_⟩
  · intro records hread hkeys
    rw [ofFile_ok hread hkeys]
    exact ⟨_, rfl, distinct_foldl_insert maxAge records, fun q => mem_foldl_insert_iff⟩
  · intro records hread hkeys
    obtain ⟨v, hfailed⟩ := ofFile_unhashable path maxAge hread hkeys
    rw [hfailed]
    exact ⟨v, rfl⟩
  · intro e hread
    rcases (legible_content content).of_error hread with hspoilt | hescapes
    · rw [ofFile_spoilt hread hspoilt]
      exact .inl ⟨hspoilt, _, rfl, rfl⟩
    · have hspoils : spoilsFile e = false := by cases hescapes <;> rfl
      rw [ofFile_escaping hread hspoils]
      exact .inr ⟨hescapes, rfl⟩
  · intro f hopened now s chain n r verified hr hchain
    obtain ⟨c, hc, rfl⟩ := Except.map_eq_ok_iff.1 hopened
    have hsound := sound_of_ofFile hc
    have hage : c.maxAge = maxAge := maxAge_of_ofFile hc
    obtain ⟨f', hput, hreopened⟩ := exists_reopened_put (f := ⟨c, some content⟩) path hsound now s
      hchain (hr.regular fun _ => trivial).1 verified
    refine ⟨f', hput, ?_⟩
    intro hroom hplain
    rw [← hage]
    exact hreopened (plain_of_ofFile hc hroom) hplain

open JsonReader.Stack in
open AddressLibrary in
/-- A file without records is opened, and an assembled result that is stored is found again. -/
theorem opening_of_content_logging : ∃ f f' r again q,
    (openAt "abis.json" (.ofInt 60) (some (Utf8.encode "\x7b\x7d"))).result = .ok f ∧
    f.put .zero (.text "0x1111111111111111111111111111111111111111") (.int 1) r false = .ok f' ∧
    (openAt "abis.json" (.ofInt 60) f'.file).result = .ok again ∧
    again.cache.find? "0x1111111111111111111111111111111111111111" 1 = some q ∧
    q.result.toItem = loggingItem := by
  have hempty : valueOfFile (Utf8.encode "\x7b\x7d") = .ok (.object []) := by
    have hplain : JsonReader.Plain (974 + 1) (.object []) :=
      JsonReader.plain_object_iff.2
        ⟨List.nodup_nil, List.forall_mem_nil _, List.forall_mem_nil _⟩
    have hwritten : (Value.object []).toJson = "\x7b\x7d" := rfl
    rw [← hwritten]
    exact valueOfFile_encode hplain
  have hread : (valueOfFile (Utf8.encode "\x7b\x7d")).bind recordsOfValue = .ok [] := by
    rw [hempty]
    rfl
  obtain ⟨hkept, -, -, hstored⟩ :=
    opening_of_content "abis.json" (.ofInt 60) (Utf8.encode "\x7b\x7d")
  obtain ⟨f, hopened, -, -⟩ := hkept [] hread (List.forall_mem_nil _)
  obtain ⟨r, hassembled, hchain, hitem⟩ := exists_assembled_logging
  obtain ⟨f', hput, hreopened⟩ := hstored f hopened .zero
    "0x1111111111111111111111111111111111111111" (.int 1) 1 r false hassembled rfl
  have hroom : ∀ v, valueOfFile (Utf8.encode "\x7b\x7d") = .ok v →
      v.nesting < JsonReader.maxDepth := by
    intro v hv
    rw [hempty] at hv
    rw [← Except.ok.inj hv]
    decide
  obtain ⟨again, hagain, q, hfound, hmirrors⟩ :=
    hreopened hroom (plain_storing hchain hitem _ List.mem_cons_self)
  rw [lowered_ones] at hfound
  refine ⟨f, f', r, again, q, hopened, hput, hagain, hfound, ?_⟩
  obtain ⟨n, hn, hsame | ⟨hrestores, -⟩⟩ := hmirrors.result
  · rw [hsame]
    exact hitem
  · rw [hrestores.toItem_of_int hn hchain]
    exact hitem

open JsonReader.Stack in
/-- A list is no unreadable file, and is not opened. -/
theorem unopened_list : (openAt "abis.json" (.ofInt 60) (some (Utf8.encode "[]"))).result =
    .error (.noFields (.list []) "get") := by
  have hplain : JsonReader.Plain JsonReader.maxDepth (.list []) := by
    change JsonReader.Plain (974 + 1) _
    simp [JsonReader.Plain]
  have hwritten : (Value.list []).toJson = "[]" := rfl
  have hvalue : valueOfFile (Utf8.encode "[]") = .ok (.list []) :=
    hwritten ▸ valueOfFile_encode hplain
  have hread : (valueOfFile (Utf8.encode "[]")).bind recordsOfValue =
      .error (.noFields (.list []) "get") := by
    rw [hvalue]
    rfl
  rw [result_openAt, ofFile_escaping hread rfl]
  rfl

end FileCache

end ContractAbi
