import ContractAbi.Address.Libraries
import ContractAbi.Proofs.Assembly.Restore
import ContractAbi.Proofs.Cache.File

/-!
# Caches kept in a file

A cache that is kept in a file, and opened anew at any time, answers like a cache in memory that
has seen the same results. This takes that the documents which are written are read back.

* `InStep`: how the cache in memory and the cache of the file stand to each other;
* `inStep_put`, `inStep_clear` and `inStep_reopen`: what each operation keeps;
* `inStep_run`: any operations keep it;
* `readsBack_fileAfter`: documents are read back where JSON can carry what is stored;
* `file_refines_memory`: what is got from the two caches.
-/

namespace ContractAbi

namespace FileCache

open ResultCache CacheRecord

variable {memory : ResultCache} {f : FileCache} {path : String} {maxAge now : Binary64}
  {address chain : Value} {r : Reconstruction} {verified : Bool}

/-! ## Operations -/

inductive Operation where
  /-- A result is stored, at the time that the clock shows then. -/
  | put (now : Binary64) (address chain : Value) (r : Reconstruction) (verified : Bool)
  | clear
  /-- The file is opened anew. A cache in memory stays as it is. -/
  | reopen

def Operation.stored? : Operation → Option Reconstruction
  | put _ _ _ r _ => some r
  | clear | reopen => none

/-- The cache in memory after an operation. What fails leaves it as it was. -/
def Operation.inMemory (c : ResultCache) : Operation → ResultCache
  | put now address chain r verified => (c.put now address chain r verified).toOption.getD c
  | clear => c.clear
  | reopen => c

section

variable [JsonReader.Stack]

def Operation.inFile (path : String) (f : FileCache) : Operation → FileCache
  | put now address chain r verified => (f.put now address chain r verified).toOption.getD f
  | clear => f.clear
  | reopen => (openAt path f.cache.maxAge f.file).result.toOption.getD f

def memoryAfter (maxAge : Binary64) (operations : List Operation) : ResultCache :=
  operations.foldl Operation.inMemory (.empty maxAge)

def fileAfter (path : String) (maxAge : Binary64) (operations : List Operation) : FileCache :=
  operations.foldl (Operation.inFile path) ⟨.empty maxAge, none⟩

/-- A result that is stored replaces a record or adds one, in memory and in the file. Where the key
fails, nothing is stored in either. -/
theorem put_cases (path : String) (memory : ResultCache) (f : FileCache) (now : Binary64)
    (address chain : Value) (r : Reconstruction) (verified : Bool) :
    ((Operation.put now address chain r verified).inMemory memory = memory ∧
      (Operation.put now address chain r verified).inFile path f = f) ∨
    ∃ s n, key address chain = .ok (s, n) ∧
      (Operation.put now address chain r verified).inMemory memory =
        memory.store ⟨.text s, n, r, now, verified⟩ ∧
      (Operation.put now address chain r verified).inFile path f =
        ⟨f.cache.store ⟨.text s, n, r, now, verified⟩,
          some (f.cache.store ⟨.text s, n, r, now, verified⟩).content⟩ := by
  change ((memory.put now address chain r verified).toOption.getD memory = memory ∧
      (f.put now address chain r verified).toOption.getD f = f) ∨
    ∃ s n, key address chain = .ok (s, n) ∧
      (memory.put now address chain r verified).toOption.getD memory = _ ∧
      (f.put now address chain r verified).toOption.getD f = _
  rw [FileCache.put, ResultCache.put, ResultCache.put]
  cases hkey : key address chain with
  | error e => exact .inl ⟨rfl, rfl⟩
  | ok pair => exact .inr ⟨pair.1, pair.2, rfl, rfl, rfl⟩

theorem maxAge_inMemory (c : ResultCache) (o : Operation) : (o.inMemory c).maxAge = c.maxAge := by
  cases o with
  | put now address chain r verified =>
      rcases put_cases "" c ⟨c, none⟩ now address chain r verified with
        ⟨h, -⟩ | ⟨s, n, -, h, -⟩
      · rw [h]
      · rw [h]
        rfl
  | clear => rfl
  | reopen => rfl

omit [JsonReader.Stack] in
theorem memoryAfter_concat (maxAge : Binary64) (before : List Operation) (o : Operation) :
    memoryAfter maxAge (before ++ [o]) = o.inMemory (memoryAfter maxAge before) := by
  rw [memoryAfter, List.foldl_append]
  rfl

theorem fileAfter_concat (path : String) (maxAge : Binary64) (before : List Operation)
    (o : Operation) :
    fileAfter path maxAge (before ++ [o]) = o.inFile path (fileAfter path maxAge before) := by
  rw [fileAfter, List.foldl_append]
  rfl

theorem maxAge_memoryAfter (maxAge : Binary64) (operations : List Operation) :
    (memoryAfter maxAge operations).maxAge = maxAge := by
  induction operations using List.reverseRecOn with
  | nil => rfl
  | append_singleton before o ih =>
      rw [memoryAfter_concat, maxAge_inMemory]
      exact ih

/-! ## The two caches -/

/-- The records in memory are mirrored by those of the file's cache, and by those of a cache whose
document the file holds. A file is only missing where there are no records. -/
structure InStep (memory : ResultCache) (f : FileCache) : Prop where
  maxAge : f.cache.maxAge = memory.maxAge
  distinct : memory.Distinct
  regular : ∀ q ∈ memory.records, q.Regular
  records : List.Forall₂ Mirrors memory.records f.cache.records
  file : (f.file = none ∧ memory.records = []) ∨
    ∃ c : ResultCache, f.file = some c.content ∧ c.ReadsBack ∧
      List.Forall₂ Mirrors memory.records c.records

theorem inStep_empty (maxAge : Binary64) : InStep (.empty maxAge) ⟨.empty maxAge, none⟩ where
  maxAge := rfl
  distinct := List.Pairwise.nil
  regular _ hq := absurd hq List.not_mem_nil
  records := .nil
  file := .inl ⟨rfl, rfl⟩

theorem inStep_clear (h : InStep memory f) : InStep memory.clear f.clear where
  maxAge := h.maxAge
  distinct := List.Pairwise.nil
  regular _ hq := absurd hq List.not_mem_nil
  records := .nil
  file := .inl ⟨rfl, rfl⟩

theorem mirrors_put (h : InStep memory f) (hr : r.Regular) (path : String) :
    (∀ q ∈ ((Operation.put now address chain r verified).inMemory memory).records, q.Regular) ∧
      List.Forall₂ Mirrors ((Operation.put now address chain r verified).inMemory memory).records
        ((Operation.put now address chain r verified).inFile path f).cache.records := by
  rcases put_cases path memory f now address chain r verified with
    ⟨hmemory, hfile⟩ | ⟨s, n, -, hmemory, hfile⟩
  · rw [hmemory, hfile]
    exact ⟨h.regular, h.records⟩
  · have hrecord : CacheRecord.Regular ⟨.text s, n, r, now, verified⟩ := ⟨⟨s, rfl⟩, hr⟩
    rw [hmemory, hfile]
    refine ⟨fun q hq => ?_, mirrors_insert h.records hrecord.mirrors⟩
    rcases mem_store hq with rfl | ⟨hq, -⟩
    · exact hrecord
    · exact h.regular q hq

theorem inStep_put (h : InStep memory f) (hr : r.Regular)
    (hread : ((Operation.put now address chain r verified).inFile path f).cache.ReadsBack) :
    InStep ((Operation.put now address chain r verified).inMemory memory)
      ((Operation.put now address chain r verified).inFile path f) := by
  obtain ⟨hregular, hmirrors⟩ := mirrors_put h hr path
  rcases put_cases path memory f now address chain r verified with
    ⟨hmemory, hfile⟩ | ⟨s, n, -, hmemory, hfile⟩
  · rw [hmemory, hfile]
    exact h
  · rw [hmemory] at hregular hmirrors
    rw [hfile] at hmirrors hread
    rw [hmemory, hfile]
    exact ⟨h.maxAge, distinct_store h.distinct _, hregular, hmirrors,
      .inr ⟨_, rfl, hread, hmirrors⟩⟩

/-- Opening the file anew succeeds, and keeps the caches in step. -/
theorem exists_reopened (h : InStep memory f) (path : String) :
    ∃ f', (openAt path f.cache.maxAge f.file).result = .ok f' ∧ InStep memory f' := by
  unfold openAt
  rw [Traced.result_bind]
  rcases h.file with ⟨hmissing, hnone⟩ | ⟨c, hcontent, hback, hmirrors⟩
  · rw [hmissing]
    exact ⟨_, rfl, h.maxAge, h.distinct, h.regular, hnone ▸ .nil, .inl ⟨rfl, hnone⟩⟩
  · obtain ⟨again, hopen, hagain⟩ :=
      exists_openFile path f.cache.maxAge (fun q hq => (h.regular q hq).fileable) h.distinct
        hmirrors hback
    rw [hcontent, hopen]
    exact ⟨_, rfl, h.maxAge, h.distinct, h.regular, hagain, .inr ⟨c, rfl, hback, hmirrors⟩⟩

theorem inStep_reopen (h : InStep memory f) (path : String) :
    InStep (Operation.reopen.inMemory memory) (Operation.reopen.inFile path f) := by
  obtain ⟨f', hopen, hstep⟩ := exists_reopened h path
  unfold Operation.inMemory Operation.inFile
  rw [hopen]
  exact hstep

theorem inStep_step (h : InStep memory f) (o : Operation)
    (hstored : ∀ r, o.stored? = some r → r.Regular)
    (hread : (o.inFile path f).cache.ReadsBack) :
    InStep (o.inMemory memory) (o.inFile path f) := by
  cases o with
  | put now address chain r verified => exact inStep_put h (hstored r rfl) hread
  | clear => exact inStep_clear h
  | reopen => exact inStep_reopen h path

theorem inStep_run (path : String) (maxAge : Binary64) {operations : List Operation}
    (hstored : ∀ o ∈ operations, ∀ r, o.stored? = some r → r.Regular)
    (hread : ∀ before, before <+: operations → (fileAfter path maxAge before).cache.ReadsBack) :
    InStep (memoryAfter maxAge operations) (fileAfter path maxAge operations) := by
  induction operations using List.reverseRecOn with
  | nil => exact inStep_empty maxAge
  | append_singleton before o ih =>
      have hbefore := ih (fun p hp => hstored p (by simp [hp])) fun b hb =>
        hread b (hb.trans (List.prefix_append _ _))
      have hlast := hread _ List.prefix_rfl
      rw [fileAfter_concat] at hlast
      rw [memoryAfter_concat, fileAfter_concat]
      exact inStep_step hbefore o (hstored o (by simp)) hlast

/-! ## Files that are read back -/

def Operation.Plain : Operation → Prop
  | put now address chain r _ => JsonReader.Plain 0 (.float now) ∧
      (∀ s n, key address chain = .ok (s, n) →
        JsonReader.Plain 0 (.text s) ∧ JsonReader.Plain 0 (.int n)) ∧ r.Plain
  | clear | reopen => True

theorem plain_inMemory {o : Operation} (ho : o.Plain) (h : ∀ q ∈ memory.records, q.Plain) :
    ∀ q ∈ (o.inMemory memory).records, q.Plain := by
  cases o with
  | put now address chain r verified =>
      rcases put_cases "" memory ⟨memory, none⟩ now address chain r verified with
        ⟨hmemory, -⟩ | ⟨s, n, hkey, hmemory, -⟩
      · rwa [hmemory]
      · rw [hmemory]
        intro q hq
        rcases mem_store hq with rfl | ⟨hq, -⟩
        · obtain ⟨haddress, hchain⟩ := ho.2.1 s n hkey
          exact ⟨haddress, hchain, ho.1, ho.2.2⟩
        · exact h q hq
  | clear => exact fun q hq => absurd hq List.not_mem_nil
  | reopen => exact h

theorem plain_memoryAfter (maxAge : Binary64) {operations : List Operation}
    (hplain : ∀ o ∈ operations, o.Plain) :
    ∀ q ∈ (memoryAfter maxAge operations).records, q.Plain := by
  induction operations using List.reverseRecOn with
  | nil => exact fun q hq => absurd hq List.not_mem_nil
  | append_singleton before o ih =>
      rw [memoryAfter_concat]
      exact plain_inMemory (hplain o (by simp)) (ih fun p hp => hplain p (by simp [hp]))

/-- The records mirror each other after an operation, also before anything is read back. -/
theorem mirrors_step (h : InStep memory f) (o : Operation)
    (hstored : ∀ r, o.stored? = some r → r.Regular) (path : String) :
    (∀ q ∈ (o.inMemory memory).records, q.Regular) ∧
      List.Forall₂ Mirrors (o.inMemory memory).records (o.inFile path f).cache.records := by
  cases o with
  | put now address chain r verified => exact mirrors_put h (hstored r rfl) path
  | clear => exact ⟨(inStep_clear h).regular, (inStep_clear h).records⟩
  | reopen =>
      have hstep := inStep_reopen h path
      exact ⟨hstep.regular, hstep.records⟩

/-- Where JSON can carry all that is stored, every document is read back. -/
theorem readsBack_fileAfter (path : String) (maxAge : Binary64) {operations : List Operation}
    (hstored : ∀ o ∈ operations, ∀ r, o.stored? = some r → r.Regular)
    (hplain : ∀ o ∈ operations, o.Plain) :
    ∀ before, before <+: operations → (fileAfter path maxAge before).cache.ReadsBack := by
  induction operations using List.reverseRecOn with
  | nil =>
      intro before hbefore
      rw [List.prefix_nil.1 hbefore]
      exact readsBack_of_mirrors (by simp) (List.Forall₂.nil : List.Forall₂ Mirrors [] [])
  | append_singleton before o ih =>
      have hearlier := ih (fun p hp => hstored p (by simp [hp])) fun p hp => hplain p (by simp [hp])
      have hstep := inStep_run path maxAge (fun p hp => hstored p (by simp [hp])) hearlier
      obtain ⟨-, hmirrors⟩ := mirrors_step hstep o (hstored o (by simp)) path
      have hcarried := plain_memoryAfter maxAge hplain
      intro b hb
      rcases List.prefix_concat_iff.1 hb with rfl | hb
      · rw [memoryAfter_concat] at hcarried
        rw [fileAfter_concat]
        exact readsBack_of_mirrors hcarried hmirrors
      · exact hearlier b hb

end

/-! ## A result that is kept -/

def loggingItem : Value :=
  .object [("address", .text "0x1111111111111111111111111111111111111111"), ("chainId", .int 1),
    ("sourceKind", .text "bytecode-analysis"), ("proxyInfo", .null),
    ("selectors", .list [.text "0x63874960"]),
    ("abi", .list [
      .object [("type", .text "function"), ("name", .text "f"), ("selector", .text "0x63874960"),
        ("inputs", .list [pairs]), ("outputs", .list []), ("stateMutability", .text "nonpayable")],
      .object [("type", .text "event"), ("name", .text "E"), ("inputs", .list [pairs]),
        ("anonymous", .bool false)]])]
where
  pairs : Value :=
    .object [("name", .text "param0"), ("type", .text "tuple[]"), ("components", .list [
      .object [("name", .text ""), ("type", .text "uint256")],
      .object [("name", .text ""), ("type", .text "bytes1")]])]

theorem plain_one : JsonReader.Plain 0 (.int 1) := by
  rw [JsonReader.Plain]
  decide

open JsonReader.Stack in
theorem plain_loggingItem : JsonReader.Plain (JsonReader.maxDepth - 3) loggingItem := by
  have hone : (Nat.toDigits 10 1).length ≤ Integer.maxDigits := by decide
  change JsonReader.Plain (965 + 7) _
  simp [loggingItem, loggingItem.pairs, JsonReader.Plain, JsonReader.carried_of_isAscii,
    Text.isAscii, hone]

open AddressLibrary in
open Assembler in
theorem exists_assembled_logging [JsonReader.Stack] :
    ∃ r, Assembled AnyChain r ∧ r.chainId = .int 1 ∧ r.toItem = loggingItem := by
  obtain ⟨r, hr, hitem⟩ := Except.exists_ok_of_toOption
    (show ((assemble loggingTables.services .default
        (.text "0x1111111111111111111111111111111111111111") (.int 1)
        (run [] ⟨.null, .empty (.ofInt 60), .empty⟩)).1.result.toOption.map
          Reconstruction.toItem) = some loggingItem
      by decide +kernel)
  have hnone : (openFile "" (.ofInt 60) none).result = .ok (.empty (.ofInt 60)) := rfl
  refine ⟨r, .mk hnone .empty (.inl rfl) (fun o ho => absurd ho List.not_mem_nil) (.inr trivial) hr,
    ?_, hitem⟩
  simp only [Reconstruction.toItem, loggingItem, Value.object.injEq, List.cons.injEq,
    Prod.mk.injEq] at hitem
  exact hitem.2.1.2

def storing (r : Reconstruction) : List Operation :=
  [.put .zero (.text "0x1111111111111111111111111111111111111111") (.int 1) r false, .reopen]

theorem lowered_ones : Text.lowered "0x1111111111111111111111111111111111111111" =
    "0x1111111111111111111111111111111111111111" := by
  decide +kernel

open JsonReader.Stack in
theorem plain_storing (hchain : r.chainId = .int 1) (hitem : r.toItem = loggingItem) :
    ∀ o ∈ storing r, o.Plain := by
  intro o ho
  rcases List.mem_cons.1 ho with rfl | ho
  · refine ⟨?_, fun s n hkey => ?_, hitem ▸ plain_loggingItem, fun n hn => ?_⟩
    · exact JsonReader.plain_float Binary64.isDouble_zero
    · have hstored : key (.text "0x1111111111111111111111111111111111111111") (.int 1) =
          .ok (Text.lowered "0x1111111111111111111111111111111111111111", 1) := rfl
      obtain ⟨rfl, rfl⟩ := Prod.mk.inj (Except.ok.inj (hstored.symm.trans hkey))
      refine ⟨?_, plain_one⟩
      rw [lowered_ones, JsonReader.plain_text_iff]
      exact JsonReader.carried_of_isAscii (by simp [Text.isAscii])
    · rw [hchain] at hn
      exact Except.ok.inj hn ▸ plain_one
  · rw [List.mem_singleton.1 ho]
    trivial

theorem result_get?_storing (r : Reconstruction) (now : Binary64) :
    ((memoryAfter (.ofInt 60) (storing r)).get? now
      (.text "0x1111111111111111111111111111111111111111") (.int 1)).result =
        .ok (if (now.sub .zero).le (.ofInt 60) then some r else none) := by
  have hwhole : (Value.int 1).toWhole = .ok 1 := rfl
  have hput := (ResultCache.empty (.ofInt 60)).put_text .zero
    "0x1111111111111111111111111111111111111111" r false hwhole
  rw [lowered_ones] at hput
  have hmemory : memoryAfter (.ofInt 60) (storing r) =
      ((ResultCache.empty (.ofInt 60)).put .zero
        (.text "0x1111111111111111111111111111111111111111") (.int 1) r false).toOption.getD
          (.empty (.ofInt 60)) := rfl
  rw [hmemory, hput, result_get? _ now _ hwhole, lowered_ones]
  exact congrArg (fun found : Option CacheRecord => Except.ok (found.bind fun q =>
    if q.isFresh now (.ofInt 60) then some q.result else none))
    (find?_store (.empty (.ofInt 60)) (by simp [isFor]))

/-! ## What is got -/

/-- Two answers of caches in step: the same failure, no result from either of them, or a result that
mirrors the other. -/
inductive Answers :
    Except Fault (Option Reconstruction) → Except Fault (Option Reconstruction) → Prop
  | failed (e) : Answers (.error e) (.error e)
  | missing : Answers (.ok none) (.ok none)
  | found {r r' n} (hchain : r.chainId.toWhole = .ok n) (hresult : r.Mirrors n r') :
      Answers (.ok (some r)) (.ok (some r'))

theorem answers_of_inStep [JsonReader.Stack] (h : InStep memory f) (now : Binary64)
    (address chain : Value) :
    Answers (memory.get? now address chain).result (f.get? now address chain).result := by
  unfold FileCache.get?
  cases hkey : key address chain with
  | error e =>
      rw [result_get?_of_error _ _ hkey, result_get?_of_error _ _ hkey]
      exact .failed e
  | ok pair =>
      obtain ⟨s, n⟩ := pair
      rw [result_get?_of_key _ _ hkey, result_get?_of_key _ _ hkey, find?_eq, find?_eq, h.maxAge]
      have hfound := rel_find? h.records s n
      generalize memory.records.find? (isFor s n) = found at hfound ⊢
      generalize f.cache.records.find? (isFor s n) = found' at hfound ⊢
      cases hfound with
      | none => exact .missing
      | @some q q' hq =>
          dsimp only [Option.bind]
          rw [hq.isFresh]
          split
          · obtain ⟨k, hk, hresult⟩ := hq.result
            exact .found hk hresult
          · exact .missing

/-- After any operations, each with a result of an assembly where it stores one, the cache of the
file can be opened anew, and it gives a result exactly where the cache in memory gives one. The
result is written like that one, up to the sort of number that stands for its chain. -/
theorem file_refines_memory [JsonReader.Stack] [AddressLibrary]
    (path : String) (maxAge : Binary64) (operations : List Operation)
    (hstored : ∀ o ∈ operations, ∀ r, o.stored? = some r →
      Assembler.Assembled Assembler.AnyChain r)
    (hread : ∀ before, before <+: operations → (fileAfter path maxAge before).cache.ReadsBack) :
    (∃ f, (openAt path maxAge (fileAfter path maxAge operations).file).result = .ok f) ∧
    ∀ now address chain,
      let got := ((memoryAfter maxAge operations).get? now address chain).result
      let kept := ((fileAfter path maxAge operations).get? now address chain).result
      (∀ e, got = .error e ↔ kept = .error e) ∧ (got = .ok none ↔ kept = .ok none) ∧
      ∀ r, got = .ok (some r) → ∃ n r', kept = .ok (some r') ∧ r.chainId.toWhole = .ok n ∧
        Entry.keys r'.entries = Entry.keys r.entries ∧
        (r'.toItem = r.toItem ∨ r'.toItem = (r.onChain n).toItem) ∧
        (Assembler.WholeChain r.chainId → r'.toItem = r.toItem) := by
  have hstep := inStep_run path maxAge
    (fun o ho r hr => ((hstored o ho r hr).regular fun _ => trivial).1) hread
  refine ⟨?_, fun now address chain => ?_⟩
  · obtain ⟨f, hopen, -⟩ := exists_reopened hstep path
    rw [hstep.maxAge, maxAge_memoryAfter] at hopen
    exact ⟨f, hopen⟩
  · dsimp only
    have hanswers := answers_of_inStep hstep now address chain
    generalize ((memoryAfter maxAge operations).get? now address chain).result = got at hanswers ⊢
    generalize ((fileAfter path maxAge operations).get? now address chain).result = kept
      at hanswers ⊢
    cases hanswers with
    | failed e => simp
    | missing => simp
    | @found r r' n hchain hresult =>
        refine ⟨by simp, by simp, fun r₁ hr₁ => ?_⟩
        obtain rfl := Option.some.inj (Except.ok.inj hr₁)
        rcases hresult with rfl | ⟨hrestores, -⟩
        · exact ⟨n, _, rfl, hchain, rfl, .inl rfl, fun _ => rfl⟩
        · refine ⟨n, r', rfl, hchain, hrestores.keys, .inr hrestores.toItem, ?_⟩
          rintro ⟨k, hk⟩
          exact hrestores.toItem_of_int hchain hk

open JsonReader.Stack in
open AddressLibrary in
/-- An assembled result is got from the file that was opened anew, for a minute. -/
theorem file_refines_memory_logging : ∃ r r',
    Assembler.Assembled Assembler.AnyChain r ∧
    ((fileAfter "cache.json" (.ofInt 60) (storing r)).get? (.ofInt 60)
      (.text "0x1111111111111111111111111111111111111111") (.int 1)).result = .ok (some r') ∧
    r'.toItem = loggingItem ∧
    ((fileAfter "cache.json" (.ofInt 60) (storing r)).get? (.ofInt 61)
      (.text "0x1111111111111111111111111111111111111111") (.int 1)).result = .ok none := by
  obtain ⟨r, hassembled, hchain, hitem⟩ := exists_assembled_logging
  have hstored : ∀ o ∈ storing r, ∀ q, o.stored? = some q →
      Assembler.Assembled Assembler.AnyChain q := by
    intro o ho q hq
    rcases List.mem_cons.1 ho with rfl | ho
    · exact Option.some.inj hq ▸ hassembled
    · rw [List.mem_singleton.1 ho] at hq
      exact absurd hq (by simp [Operation.stored?])
  have hread := readsBack_fileAfter "cache.json" (.ofInt 60)
    (fun o ho r hr => ((hstored o ho r hr).regular fun _ => trivial).1)
    (plain_storing hchain hitem)
  obtain ⟨-, hgot⟩ := file_refines_memory "cache.json" (.ofInt 60) (storing r) hstored hread
  have hfresh : ((Binary64.ofInt 60).sub .zero).le (.ofInt 60) = true := by decide +kernel
  have hstale : ((Binary64.ofInt 61).sub .zero).le (.ofInt 60) = false := by decide +kernel
  obtain ⟨-, -, hfound⟩ := hgot (.ofInt 60)
    (.text "0x1111111111111111111111111111111111111111") (.int 1)
  obtain ⟨-, hmissing, -⟩ := hgot (.ofInt 61)
    (.text "0x1111111111111111111111111111111111111111") (.int 1)
  rw [result_get?_storing, hfresh, if_pos rfl] at hfound
  rw [result_get?_storing, hstale, if_neg (by decide)] at hmissing
  obtain ⟨n, r', hkept, -, -, -, hsame⟩ := hfound r rfl
  exact ⟨r, r', hassembled, hkept, (hsame ⟨1, hchain⟩).trans hitem, hmissing.1 rfl⟩

end FileCache

end ContractAbi
