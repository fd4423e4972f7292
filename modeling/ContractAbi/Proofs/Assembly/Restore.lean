import ContractAbi.Address.Libraries
import ContractAbi.Proofs.Assembly.Exploration
import ContractAbi.Proofs.Assembly.Published
import ContractAbi.Proofs.Assembly.Records
import ContractAbi.Proofs.Evm.Dispatcher
import ContractAbi.Proofs.Interface.ResultItem

/-!
# Assembled results as items

Whatever an assembler has been asked for, and whatever a file gave it to start with, its results are
read again from their items with the same entries and the same keys.

* `regular_unresolved`, `regular_applyTo` and `regular_toEvent`: entries from code are regular;
* `regular_assembleAt`: so are the entries of an assembly;
* `Kept` and `kept_maintained`: so is all that an assembler keeps, after any operations;
* `restored_of_assemble`: results are read again, and so are published interfaces.
-/

namespace ContractAbi

/-! ## Entries from code -/

theorem FunctionEntry.regular_unresolved {selector mutability : String}
    (hselector : Selector.normalize (.text selector) = .ok selector)
    (hmutability : mutability ≠ "") :
    (unresolved selector (.text mutability)).Regular where
  spelt := hselector
  name := by
    have hname : Selector.placeholder selector ≠ "" := fun hempty => by
      have hchars := congrArg String.toList hempty
      simp [Selector.placeholder] at hchars
    exact decide_eq_true hname
  mutability := decide_eq_true hmutability
  inputs := by simp [unresolved]
  outputs := by simp [unresolved]
  signature := ⟨_, rfl⟩

theorem FunctionEntry.regular_backfill {f : FunctionEntry} (h : f.Regular) :
    f.backfill.Regular := by
  unfold backfill
  split
  · cases hfragment : Fragment.for? f with
    | none => exact h
    | some k =>
        have hknown : k ∈ Fragment.known := by
          unfold Fragment.for? at hfragment
          split at hfragment
          · split at hfragment
            · exact List.mem_of_find?_eq_some hfragment
            · exact absurd hfragment (by simp)
          · exact absurd hfragment (by simp)
        have hheld : ∀ k ∈ Fragment.known, (Value.text k.mutability).holds = true := by decide
        refine { h with mutability := hheld k hknown, outputs := fun p hp => ?_ }
        obtain ⟨⟨t, i⟩, -, rfl⟩ := List.mem_map.1 hp
        exact ⟨Param.isName_text _, trivial⟩
  · exact h

namespace Signature

variable {sig : Signature} {f f' : FunctionEntry} {e : EventEntry}

theorem regular_applyTo (hf : f.Regular) (hname : isName sig.name.toList = true)
    (h : sig.applyTo f = .ok f') : f'.Regular := by
  have hsignature := signature_applyTo hname h
  obtain ⟨inputs, outputs, mutability, hinputs, hrest, h⟩ := applyTo_eq_ok h
  have hspelt := FunctionEntry.spelt_make h
  have hkept : (∀ p ∈ outputs, p.Named) ∧ mutability.holds = true := by
    rcases hrest with ⟨rfl, rfl⟩ | ⟨types, houtputs, rfl⟩
    · exact ⟨hf.outputs, hf.mutability⟩
    · exact ⟨Param.named_ofTypes houtputs, rfl⟩
  unfold FunctionEntry.make at h
  obtain ⟨selector, -, h⟩ := Except.bind_eq_ok_iff.1 h
  obtain rfl := Except.ok.inj h
  have hheld := holds_of_isName hname
  exact {
    spelt := hspelt
    name := by rw [if_pos hheld]; exact hheld
    mutability := hkept.2
    inputs := Param.named_ofTypes hinputs
    outputs := hkept.1
    signature := ⟨_, hsignature⟩ }

theorem regular_toEvent {topic : String} (htopic : Topic.normalize (.text topic) = .ok topic)
    (hname : isName sig.name.toList = true) (hhash : Topic.hashed sig.text = .ok topic)
    (h : sig.toEvent (.text topic) = .ok e) : e.Regular := by
  have hsignature := signature_toEvent h
  have hkey := topic_toEvent htopic h
  unfold toEvent at h
  obtain ⟨inputs, hinputs, h⟩ := Except.bind_eq_ok_iff.1 h
  unfold EventEntry.make at h
  rw [if_pos (Topic.holds_of_normalize htopic)] at h
  obtain ⟨key, -, h⟩ := Except.bind_eq_ok_iff.1 h
  obtain rfl := Except.ok.inj h
  exact ⟨holds_of_isName hname, Param.named_ofTypes hinputs, _, hsignature,
    hhash.trans (congrArg Except.ok hkey.symm)⟩

end Signature

namespace Assembler

open Resolver

variable {services : Services} {options : Options} {address given chain : Value}
  {place : String} {code : Bytes} {m m' : Memory} {w w' : Walk} {s : State}
  {r : Reconstruction} {entries : List Entry} {n : Int}

theorem regular_skeleton (code : Bytes) : ∀ f ∈ Skeleton.functions code, f.Regular := by
  intro f hf
  obtain ⟨selector, hselector, rfl⟩ := List.mem_map.1 hf
  refine FunctionEntry.regular_unresolved (Dispatcher.normalize_of_mem_selectors hselector) ?_
  unfold Skeleton.mutability
  split <;> decide

section

variable {say : LookupKind → String → Except Fault (Option Signature)} {limit : Int}

theorem regular_enriched {functions found : List FunctionEntry}
    (hsay : ∀ key sig, say .function key = .ok (some sig) → Vouched .function key sig)
    (hfunctions : ∀ f ∈ functions, f.Regular) (h : enriched say limit functions = .ok found) :
    ∀ f ∈ found, f.Regular := by
  intro f' hf'
  unfold enriched at h
  obtain ⟨signatures, hsignatures, h⟩ := Except.bind_eq_ok_iff.1 h
  obtain ⟨f, hf, h⟩ := Except.exists_of_mem_mapM h hf'
  unfold applyFound at h
  split at h
  · rename_i key sig hfind
    obtain ⟨-, hanswer⟩ :=
      mem_signatures hsignatures (List.mem_reverse.1 (List.mem_of_find?_eq_some hfind))
    obtain ⟨⟨t, hparse⟩, -⟩ := hsay key sig hanswer
    exact Signature.regular_applyTo (hfunctions f hf) (Signature.isName_of_parse hparse) h
  · obtain rfl := Except.ok.inj h
    exact hfunctions f hf

theorem regular_eventsOf {topics : List Value} {events : List EventEntry}
    (hsay : ∀ key sig, say .event key = .ok (some sig) → Vouched .event key sig)
    (h : eventsOf say limit topics = .ok events) : ∀ e ∈ events, e.Regular := by
  intro e he
  unfold eventsOf at h
  obtain ⟨found, hfound, h⟩ := Except.bind_eq_ok_iff.1 h
  obtain ⟨⟨topic, sig⟩, hpair, h⟩ := Except.exists_of_mem_mapM h he
  obtain ⟨⟨key, o⟩, hmem, hsome⟩ := List.mem_filterMap.1 hpair
  obtain ⟨_, rfl, hboth⟩ := Option.map_eq_some_iff.1 hsome
  obtain ⟨rfl, rfl⟩ := Prod.mk.inj hboth
  obtain ⟨⟨v, -, hspelt⟩, hanswer⟩ := mem_signatures hfound hmem
  obtain ⟨⟨t, hparse⟩, hhash⟩ := hsay _ _ hanswer
  exact Signature.regular_toEvent (Topic.normalize_normalize hspelt)
    (Signature.isName_of_parse hparse) hhash h

end

theorem regular_fromCode (hm : m.All Vouched)
    (h : (fromCode services options place code).Answers m entries m') :
    ∀ e ∈ entries, e.Regular := by
  have hsay : ∀ kind key sig, tells services.sources m kind key = .ok (some sig) →
      Vouched kind key sig :=
    fun _ _ _ => hm.of_tells_some fun _ _ _ => verdict_some
  have hresult := h.1
  rw [result_fromCode] at hresult
  obtain ⟨functions, events, hfunctions, hevents, rfl⟩ := exists_of_entriesOf hresult
  have hregular := regular_enriched (hsay .function) (regular_skeleton code) hfunctions
  have hfound : ∀ e ∈ events, e.Regular := by
    rcases hevents with hnone | hevents
    · simp [hnone]
    · exact regular_eventsOf (hsay .event) hevents
  intro e he
  rcases List.mem_append.1 he with he | he
  · obtain ⟨f, hf, rfl⟩ := List.mem_map.1 he
    exact hregular f hf
  · obtain ⟨v, hv, rfl⟩ := List.mem_map.1 he
    exact hfound v hv

theorem regular_backfill (h : ∀ e ∈ entries, e.Regular) :
    ∀ e ∈ Entry.backfill entries, e.Regular := by
  intro e he
  obtain ⟨d, hd, rfl⟩ := List.mem_map.1 he
  cases d with
  | function f => exact FunctionEntry.regular_backfill (h _ hd)
  | _ => exact h _ hd

/-! ## Assemblies -/

theorem regular_ownEntries {own : Own} (hm : m.All Vouched)
    (h : (ownEntries services options place chain).Answers m own m') :
    ∀ e ∈ own.completed, e.Regular := by
  rcases ownEntries_answers h with ⟨items, ⟨_, _, hread⟩, rfl, -⟩ | ⟨-, code, told, _, htold, rfl⟩
  · exact Entry.regular_of_ofAbi hread
  · exact regular_backfill (regular_fromCode hm htold)

theorem vouched_of_tells (hm : m.All Vouched)
    (h : tells services.sources m' = tells services.sources m) : m'.All Vouched :=
  hm.of_tells (fun _ _ _ => verdict_some) h

theorem vouched_assembleAt [AddressLibrary] {fuel depth : Nat} (hm : w.memory.All Vouched) :
    ((assembleAt services options chain fuel depth place) w).2.memory.All Vouched :=
  vouched_of_tells hm (keeps_assembleAt w)

theorem DelegateRun.regular {assemble : String → Session Walk Reconstruction}
    {as : List String} {found : List Reconstruction}
    (hregular : ∀ a w r w', w.memory.All Vouched → (assemble a).Answers w r w' →
      ∀ e ∈ r.entries, e.Regular)
    (hvouched : ∀ a w, w.memory.All Vouched → (assemble a w).2.memory.All Vouched)
    (h : DelegateRun assemble as w found w') (hm : w.memory.All Vouched) :
    ∀ d ∈ found, ∀ e ∈ d.entries, e.Regular := by
  induction h with
  | done w => simp
  | seen _ _ ih => exact ih hm
  | skipped _ _ _ ih => exact ih (hvouched _ _ hm)
  | entered _ hanswer _ ih =>
      intro d hd
      rcases List.mem_cons.1 hd with rfl | hd
      · exact hregular _ _ _ _ hm hanswer
      · exact ih (hanswer.2 ▸ hvouched _ _ hm) d hd

theorem regular_assembleAt [AddressLibrary] {fuel depth : Nat} (hm : w.memory.All Vouched)
    (h : (assembleAt services options chain fuel depth place).Answers w r w') :
    ∀ e ∈ r.entries, e.Regular := by
  induction fuel generalizing depth place w r w' with
  | zero =>
      obtain ⟨own, proxy, found, hgathers, rfl⟩ := assembleAt_answers h
      cases hgathers with
      | alone hown =>
          intro e he
          exact regular_ownEntries hm hown e (by simpa using Entry.mem_of_mem_dedupe he)
  | succ fuel ih =>
      obtain ⟨own, proxy, found, hgathers, rfl⟩ := assembleAt_answers h
      cases hgathers with
      | following hown _ _ hrun =>
          have hafter := vouched_of_tells hm (hown.2 ▸ keeps_ownEntries place w.memory)
          have hfound := hrun.regular (fun _ _ _ _ hm h => ih hm h)
            (fun _ _ hm => vouched_assembleAt hm) hafter
          intro e he
          rcases List.mem_append.1 (Entry.mem_of_mem_dedupe he) with he | he
          · exact regular_ownEntries hm hown e he
          · obtain ⟨es, hes, he⟩ := List.mem_flatten.1 he
            obtain ⟨d, hd, rfl⟩ := List.mem_map.1 hes
            exact hfound d hd e he

/-! ## What an assembler keeps -/

variable {W : Value → Prop}

/-- All results that are kept are regular, and what is remembered is vouched for. Chains that were
given have `W`. -/
structure Kept (W : Value → Prop) (s : State) : Prop where
  chain : s.chain.isNull = true ∨ W s.chain
  results : ∀ q ∈ s.cache.records, q.result.Regular ∧ W q.result.chainId
  memory : s.memory.All Vouched

theorem kept_moveTo (hnumber : ∀ n, W (.int n)) (h : Kept W s) (n : Int) : Kept W (s.moveTo n) where
  chain := .inr (hnumber n)
  results q hq := h.results q (State.mem_records_of_moveTo hq)
  memory := h.memory

theorem kept_assemble [AddressLibrary] (hnumber : ∀ n, W (.int n)) (h : Kept W s)
    (hgiven : given.isNull = true ∨ W given) :
    Kept W (assemble services options address given s).2 ∧
      ∀ r, (assemble services options address given s).1.result = .ok r →
        r.Regular ∧ W r.chainId := by
  have hrun := assemble_run services options address given s
  generalize (assemble services options address given s).2 = s' at hrun ⊢
  generalize (assemble services options address given s).1.result = result at hrun ⊢
  cases hrun with
  | refused _ => exact ⟨h, by simp⟩
  | @served place on n r _ hserved =>
      have hmoved := kept_moveTo hnumber h n
      refine ⟨hmoved, fun r' hr' => ?_⟩
      obtain rfl := Except.ok.inj hr'
      obtain ⟨q, hq, hfresh⟩ := Option.bind_eq_some_iff.1 hserved
      split at hfresh
      · obtain rfl := Option.some.inj hfresh
        exact hmoved.results q (ResultCache.mem_of_find? hq)
      · exact absurd hfresh (by simp)
  | @failed place on n f _ _ _ =>
      have hmoved := kept_moveTo hnumber h n
      have hmemory : (assembleAt services options on options.fuel 0 place
          ⟨s.memory, []⟩).2.memory.All Vouched := vouched_assembleAt h.memory
      exact ⟨⟨hmoved.chain, hmoved.results, hmemory⟩, by simp⟩
  | @stored place on n r w haim _ hanswer =>
      have hmoved := kept_moveTo hnumber h n
      have hmemory : (assembleAt services options on options.fuel 0 place
          ⟨s.memory, []⟩).2.memory.All Vouched := vouched_assembleAt h.memory
      rw [hanswer.2] at hmemory
      obtain ⟨-, hon, hn⟩ := aimOf_eq_ok_iff.1 haim
      obtain ⟨-, hchain⟩ := address_of_assembleAt hanswer
      have hnodup : (Entry.keys r.entries).Nodup := by
        obtain ⟨own, proxy, found, -, rfl⟩ := assembleAt_answers hanswer
        exact Entry.nodup_keys_dedupe _
      have hr : r.Regular ∧ W r.chainId :=
        ⟨⟨⟨n, hchain ▸ hn⟩, regular_assembleAt h.memory hanswer, hnodup⟩,
          hchain ▸ chainOf_has hnumber hgiven h.chain hon⟩
      refine ⟨⟨hmoved.chain, fun q hq => ?_, hmemory⟩, fun r' hr' => Except.ok.inj hr' ▸ hr⟩
      rcases ResultCache.mem_store hq with rfl | ⟨hq, -⟩
      · exact hr
      · exact hmoved.results q hq

theorem kept_maintained [AddressLibrary] (hnumber : ∀ n, W (.int n)) : Maintained W (Kept W) where
  moveTo _ n h := kept_moveTo hnumber h n
  assemble _ _ _ _ _ hgiven h := (kept_assemble hnumber h hgiven).1
  clear _ h := ⟨h.chain, fun _ hq => absurd hq List.not_mem_nil, Memory.all_empty⟩

/-! ## Results from a file -/

theorem regular_of_ofItem {v : Value} {q : CacheRecord} (h : CacheRecord.ofItem v = .ok q) :
    q.result.Regular ∧ ∃ n, q.result.chainId = .int n := by
  unfold CacheRecord.ofItem at h
  obtain ⟨address, -, h⟩ := Except.bind_eq_ok_iff.1 h
  obtain ⟨id, -, h⟩ := Except.bind_eq_ok_iff.1 h
  obtain ⟨chain, -, h⟩ := Except.bind_eq_ok_iff.1 h
  obtain ⟨item, -, h⟩ := Except.bind_eq_ok_iff.1 h
  obtain ⟨result, hresult, h⟩ := Except.bind_eq_ok_iff.1 h
  obtain ⟨time, -, h⟩ := Except.bind_eq_ok_iff.1 h
  obtain ⟨timestamp, -, h⟩ := Except.bind_eq_ok_iff.1 h
  obtain ⟨verified, -, h⟩ := Except.bind_eq_ok_iff.1 h
  obtain rfl := Except.ok.inj h
  exact Reconstruction.regular_of_ofItem hresult

/-- Whatever a file holds, the results that it gives are regular. -/
theorem regular_openFile [JsonReader.Stack] {path : String} {maxAge : Binary64}
    {content : Option Bytes}
    {cache : ResultCache} (h : (ResultCache.openFile path maxAge content).result = .ok cache) :
    ∀ q ∈ cache.records, q.result.Regular ∧ ∃ n, q.result.chainId = .int n := by
  intro q hq
  unfold ResultCache.openFile at h
  split at h
  · obtain rfl := Except.ok.inj h
    exact absurd hq List.not_mem_nil
  · rename_i bytes
    unfold ResultCache.ofFile at h
    split at h
    · rename_i records hrecords
      rw [Traced.result_bind] at h
      obtain ⟨_, -, h⟩ := Except.bind_eq_ok_iff.1 h
      obtain rfl := Except.ok.inj h
      obtain ⟨v, -, hread⟩ := Except.bind_eq_ok_iff.1 hrecords
      unfold ResultCache.recordsOfValue at hread
      obtain ⟨field, -, hread⟩ := Except.bind_eq_ok_iff.1 hread
      obtain ⟨items, -, hread⟩ := Except.bind_eq_ok_iff.1 hread
      rcases ResultCache.mem_foldl_insert hq with hq | hq
      · obtain ⟨item, -, hitem⟩ := Except.exists_of_mem_mapM hread hq
        exact regular_of_ofItem hitem
      · exact absurd hq List.not_mem_nil
    · split at h
      · rw [Traced.result_bind] at h
        obtain ⟨_, -, h⟩ := Except.bind_eq_ok_iff.1 h
        obtain rfl := Except.ok.inj h
        exact absurd hq List.not_mem_nil
      · exact absurd h (by simp)

theorem kept_openFile [JsonReader.Stack] {path : String} {maxAge : Binary64}
    {content : Option Bytes}
    {cache : ResultCache} (hnumber : ∀ n, W (.int n))
    (h : (ResultCache.openFile path maxAge content).result = .ok cache) (hm : Reachable m)
    (hchain : chain.isNull = true ∨ W chain) : Kept W ⟨chain, cache, m⟩ where
  chain := hchain
  results q hq := by
    obtain ⟨hregular, n, hn⟩ := regular_openFile h q hq
    exact ⟨hregular, hn ▸ hnumber n⟩
  memory := hm.vouched

/-! ## Results that are read again -/

/-- The results that assemblers answer. An assembler may start with whatever a file holds and with a
resolver that has been in use, and may have been asked for anything before. Chains that it is given
have `W`. -/
inductive Assembled [JsonReader.Stack] [AddressLibrary] (W : Value → Prop) : Reconstruction → Prop
  | mk {path : String} {maxAge : Binary64} {content : Option Bytes} {cache : ResultCache}
      {m : Memory} {chain : Value} {operations : List Operation} {services : Services}
      {options : Options} {address given : Value} {r : Reconstruction}
      (hcache : (ResultCache.openFile path maxAge content).result = .ok cache) (hm : Reachable m)
      (hchain : chain.isNull = true ∨ W chain)
      (hoperations : ∀ o ∈ operations, o.chain.isNull = true ∨ W o.chain)
      (hgiven : given.isNull = true ∨ W given)
      (hanswer : (assemble services options address given
        (run operations ⟨chain, cache, m⟩)).1.result = .ok r) :
      Assembled W r

theorem Assembled.regular [JsonReader.Stack] [AddressLibrary] (hnumber : ∀ n, W (.int n))
    (h : Assembled W r) :
    r.Regular ∧ W r.chainId := by
  obtain ⟨hcache, hm, hchain, hoperations, hgiven, hanswer⟩ := h
  have hkept := (kept_maintained hnumber).run (kept_openFile hnumber hcache hm hchain) _ hoperations
  exact (kept_assemble hnumber hkept hgiven).2 _ hanswer

def AnyChain (_ : Value) : Prop := True

def WholeChain (chain : Value) : Prop :=
  ∃ n, chain = .int n

/-- The result of an assembly is read from its item with the same keys and the same item, up to the
sort of number that stands for the chain. So are the entries of any published interface. -/
theorem restored_of_assemble [JsonReader.Stack] [AddressLibrary] :
    (∀ r, Assembled AnyChain r →
      ∃ n r', r.chainId.toWhole = .ok n ∧ Reconstruction.ofItem r.toItem = .ok r' ∧
        r.Restores n r' ∧ (Assembled WholeChain r → r'.toItem = r.toItem)) ∧
    (∀ abi entries, Entry.ofAbi abi = .ok entries →
      ∃ entries', Entry.ofAbi (Entry.toAbi entries) = .ok entries' ∧
        Entry.keys entries' = Entry.keys entries ∧
        Entry.toAbi entries' = Entry.toAbi entries) := by
  refine ⟨fun r h => ?_, fun abi entries h => ?_⟩
  · obtain ⟨hregular, -⟩ := h.regular fun _ => trivial
    obtain ⟨n, hn⟩ := hregular.chain
    obtain ⟨r', hread, hrestores⟩ := Reconstruction.ofItem_toItem hregular hn
    refine ⟨n, r', hn, hread, hrestores, fun hwhole => ?_⟩
    obtain ⟨-, k, hk⟩ := hwhole.regular fun n => ⟨n, rfl⟩
    exact hrestores.toItem_of_int hn hk
  · exact Entry.ofAbi_toAbi (Entry.regular_of_ofAbi h) (Entry.nodup_keys_ofAbi h)

def loggingTables : Tables :=
  { nestedTables with
    codes := [("0x1111111111111111111111111111111111111111", .bytes nestedCode)] }

def flaggedAbi : Value :=
  .list [.object [("name", .text "f"), ("constant", .bool true), ("selector", .text "DEADBEEF")],
    .object [("type", .text "error"), ("name", .text "E"), ("inputs", .list [
      .object [("type", .text "tuple"),
        ("components", .list [.object [("type", .text "uint")]])]])],
    .object [("type", .text "constructor"), ("payable", .bool true)]]

open JsonReader.Stack in
open AddressLibrary in
/-- Results from code, kept for a second assembly, and old items. -/
theorem restored_of_assemble_logging :
    (∃ r r', (assemble loggingTables.services .default
        (.text "0x1111111111111111111111111111111111111111") .null
        (run [.assemble loggingTables.services .default
          (.text "0x1111111111111111111111111111111111111111") (.int 1)]
          ⟨.null, .empty (.ofInt 60), .empty⟩)).1.result = .ok r ∧
      Reconstruction.ofItem r.toItem = .ok r' ∧ r'.toItem = r.toItem ∧
      Entry.keys r'.entries = [⟨.function, .text "0x63874960"⟩, ⟨.event, .text
        "0x8cb6d11c07e5800b143595cc7685e041fea0c7869d9b1b321d269541faeb8cb9"⟩]) ∧
    ∃ entries entries', Entry.ofAbi flaggedAbi = .ok entries ∧
      Entry.ofAbi (Entry.toAbi entries) = .ok entries' ∧
      Entry.keys entries' = [⟨.function, .text "0xdeadbeef"⟩, ⟨.error, .text "0xdb7c15eb"⟩,
        ⟨.other, .text "constructor"⟩] ∧
      Entry.toAbi entries' = Entry.toAbi entries := by
  obtain ⟨hresults, hentries⟩ := restored_of_assemble
  constructor
  · obtain ⟨r, hr, hkeys⟩ := Except.exists_ok_of_toOption
      (show ((assemble loggingTables.services .default
          (.text "0x1111111111111111111111111111111111111111") .null
          (run [.assemble loggingTables.services .default
            (.text "0x1111111111111111111111111111111111111111") (.int 1)]
            ⟨.null, .empty (.ofInt 60), .empty⟩)).1.result.toOption.map
            fun r => Entry.keys r.entries) =
          some [⟨.function, .text "0x63874960"⟩, ⟨.event, .text
            "0x8cb6d11c07e5800b143595cc7685e041fea0c7869d9b1b321d269541faeb8cb9"⟩]
        by decide +kernel)
    have hgiven : ∀ W : Value → Prop, (∀ n, W (.int n)) → Assembled W r := by
      intro W hnumber
      have hnone : (ResultCache.openFile "" (.ofInt 60) none).result =
          .ok (.empty (.ofInt 60)) := rfl
      refine .mk hnone .empty (.inl rfl) (fun o ho => ?_) (.inl rfl) hr
      rw [List.mem_singleton.1 ho]
      exact .inr (hnumber 1)
    obtain ⟨n, r', -, hread, hrestores, hsame⟩ := hresults r (hgiven AnyChain fun _ => trivial)
    exact ⟨r, r', hr, hread, hsame (hgiven WholeChain fun n => ⟨n, rfl⟩),
      hrestores.keys.trans hkeys⟩
  · obtain ⟨entries, hread, hkeys⟩ := Except.exists_ok_of_toOption
      (show ((Entry.ofAbi flaggedAbi).toOption.map Entry.keys) =
          some [⟨.function, .text "0xdeadbeef"⟩, ⟨.error, .text "0xdb7c15eb"⟩,
            ⟨.other, .text "constructor"⟩]
        by decide +kernel)
    obtain ⟨entries', hagain, hsame, hitems⟩ := hentries _ _ hread
    exact ⟨entries, entries', hread, hagain, hsame.trans hkeys, hitems⟩

end Assembler

end ContractAbi
