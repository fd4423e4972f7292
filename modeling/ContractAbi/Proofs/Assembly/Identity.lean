import ContractAbi.Address.Libraries
import ContractAbi.Proofs.Assembly.Phases
import ContractAbi.Proofs.Assembly.Provenance
import ContractAbi.Proofs.Assembly.Restore
import ContractAbi.Proofs.Interface.Selectors

/-!
# Functions are told apart by their selectors

Selectors come from code, from hashes and from published items. All of them are spelt from four
bytes, and an interface has each of them once. A line end behind a selector is the one thing that
can make two selectors of the same bytes.

* `identified_iff`: when the functions of a result are told apart by their bytes;
* `Contributes.selector`: the functions that one contract contributes;
* `forall_entries_assembleAt`: what all contributions have, all entries of an assembly have;
* `trimmed_run`: an assembler keeps no line ends as long as none are published;
* `functions_identified`: whole lives of an assembler;
* `doubled_by_line_end`: a result with two functions of the same bytes.
-/

namespace ContractAbi

/-! ## Functions of a result -/

/-- Every selector is `0x` and the digits of four bytes, and no two functions are called with the
same bytes. -/
structure Reconstruction.Identified (r : Reconstruction) : Prop where
  spelt : ∀ f ∈ r.functions, Hex.Spells 4 f.selector
  apart : r.functions.Pairwise fun f g => ∀ bs, f.Denotes bs → ¬g.Denotes bs

def Reconstruction.Trimmed (r : Reconstruction) : Prop :=
  ∀ f ∈ r.functions, ¬Selector.HasLineEnd f.selector

namespace Reconstruction.Regular

variable {r : Reconstruction}

theorem spelt_of_mem (h : r.Regular) {f : FunctionEntry} (hf : f ∈ r.functions) : f.Spelt :=
  (h.of_mem hf).spelt

/-- The functions of a result are told apart by their bytes if and only if no selector has a line
end behind it. -/
theorem identified_iff (h : r.Regular) : r.Identified ↔ r.Trimmed := by
  constructor
  · intro hidentified f hf
    exact (h.spelt_of_mem hf).spells_iff.1 (hidentified.spelt f hf)
  · intro htrim
    constructor
    · intro f hf
      exact (h.spelt_of_mem hf).spells_iff.2 (htrim f hf)
    · refine h.pairwise_selector.imp_of_mem fun {f g} hf hg hne bs hfb hgb => hne ?_
      exact (h.spelt_of_mem hf).eq_of_denotes (h.spelt_of_mem hg) hfb hgb
        (iff_of_false (htrim f hf) (htrim g hg))

end Reconstruction.Regular

namespace Assembler

open Resolver

variable {services : Services} {options : Options} {address given chain : Value} {place : String}
  {code : Bytes} {m : Memory} {w w' : Walk} {s : State} {r : Reconstruction} {own : List Entry}
  {f : FunctionEntry}

/-! ## What contracts contribute -/

theorem selector_of_applyFound {found : List (String × Option Signature)} {f f' : FunctionEntry}
    (hf : f.Spelt) (h : applyFound found f = .ok f') : f'.selector = f.selector := by
  unfold applyFound at h
  split at h
  · exact Signature.selector_applyTo hf h
  · rw [Except.ok.inj h]

/-- Functions that are read off code have selectors of the code. -/
theorem selector_of_fromCode {told : List Entry}
    (h : (fromCode services options place code m).1.result = .ok told)
    (hf : Entry.function f ∈ told) : f.selector ∈ Skeleton.selectors code := by
  rw [result_fromCode] at h
  obtain ⟨functions, events, hfunctions, -, rfl⟩ := exists_of_entriesOf h
  have hmem : f ∈ functions := by
    rcases List.mem_append.1 hf with hf | hf
    · obtain ⟨g, hg, hgf⟩ := List.mem_map.1 hf
      exact Entry.function.inj hgf ▸ hg
    · obtain ⟨e, -, hef⟩ := List.mem_map.1 hf
      exact absurd hef (by simp)
  unfold enriched at hfunctions
  obtain ⟨found, -, hfound⟩ := Except.bind_eq_ok_iff.1 hfunctions
  obtain ⟨g, hg, happly⟩ := Except.exists_of_mem_mapM hfound hmem
  obtain ⟨selector, hselector, rfl⟩ := List.mem_map.1 hg
  rw [selector_of_applyFound (Dispatcher.normalize_of_mem_selectors hselector) happly]
  exact hselector

def PublishesLineEnd (services : Services) (address : String) (chain : Value) : Prop :=
  ∃ abi, (AbiLoader.loadVerified services.loaders (.text address) chain).result = .ok (some abi) ∧
    Entry.StatesLineEnd abi

/-- Selectors are spelt from four bytes, unless a line end is published. -/
theorem Contributes.selector (h : Contributes services options chain place own)
    (hf : Entry.function f ∈ own) :
    Hex.Spells 4 f.selector ∨ PublishesLineEnd services place chain := by
  cases h with
  | published haccepts =>
      obtain ⟨abi, hchosen, hread⟩ := haccepts
      exact (Entry.selector_of_ofAbi hread hf).imp_right fun hends => ⟨abi, hchosen, hends⟩
  | code hnone hcode htold =>
      obtain ⟨e, he, hef⟩ := List.mem_map.1 hf
      cases e with
      | function g =>
          obtain rfl := Entry.function.inj hef
          rw [FunctionEntry.selector_backfill]
          exact .inl (Dispatcher.mem_selectors (selector_of_fromCode htold he))
      | _ => exact absurd hef (by simp)

/-- What all entries of contributions have, all entries of an assembly have. -/
theorem forall_entries_assembleAt [AddressLibrary] {Q : Entry → Prop} {fuel depth : Nat}
    (hQ : ∀ a own, Contributes services options chain a own → ∀ e ∈ own, Q e)
    (h : (assembleAt services options chain fuel depth place).Answers w r w') :
    ∀ e ∈ r.entries, Q e := by
  induction fuel generalizing depth place w r w' with
  | zero =>
      obtain ⟨own, proxy, found, hgathers, rfl⟩ := assembleAt_answers h
      cases hgathers with
      | alone hown =>
          intro e he
          rcases Entry.mem_of_mem_merge he with he | ⟨other, hother, -⟩
          · exact hQ place _ (contributes_of_ownEntries hown) e he
          · exact absurd hother List.not_mem_nil
  | succ fuel ih =>
      obtain ⟨own, proxy, found, hgathers, rfl⟩ := assembleAt_answers h
      cases hgathers with
      | following hown _ _ hrun =>
          intro e he
          rcases Entry.mem_of_mem_merge he with he | ⟨other, hother, he⟩
          · exact hQ place _ (contributes_of_ownEntries hown) e he
          · obtain ⟨d, hd, rfl⟩ := List.mem_map.1 hother
            obtain ⟨a, w₁, w₂, hanswer⟩ := hrun.answered d hd
            exact ih hanswer e he

/-! ## Whole lives -/

def Services.Trimmed (services : Services) : Prop :=
  ∀ address chain, ¬PublishesLineEnd services address chain

def Operation.Trimmed : Operation → Prop
  | assemble services _ _ _ => services.Trimmed
  | _ => True

def State.Trimmed (s : State) : Prop :=
  ∀ q ∈ s.cache.records, q.result.Trimmed

theorem trimmed_moveTo (h : s.Trimmed) (n : Int) : (s.moveTo n).Trimmed :=
  fun q hq => h q (State.mem_records_of_moveTo hq)

/-- An assembly keeps no line ends and answers none, if none are published. -/
theorem trimmed_assemble [AddressLibrary] (h : s.Trimmed) (hservices : services.Trimmed) :
    (assemble services options address given s).2.Trimmed ∧
      ∀ r, (assemble services options address given s).1.result = .ok r → r.Trimmed := by
  have hrun := assemble_run services options address given s
  generalize (assemble services options address given s).2 = s' at hrun ⊢
  generalize (assemble services options address given s).1.result = result at hrun ⊢
  cases hrun with
  | refused _ => exact ⟨h, by simp⟩
  | @served place on n r _ hserved =>
      have hmoved := trimmed_moveTo h n
      refine ⟨hmoved, fun r' hr' => ?_⟩
      obtain rfl := Except.ok.inj hr'
      obtain ⟨q, hq, hfresh⟩ := Option.bind_eq_some_iff.1 hserved
      split at hfresh
      · obtain rfl := Option.some.inj hfresh
        exact hmoved q (ResultCache.mem_of_find? hq)
      · exact absurd hfresh (by simp)
  | @failed place on n _ _ _ _ => exact ⟨trimmed_moveTo h n, by simp⟩
  | @stored place on n r w _ _ hanswer =>
      have hr : r.Trimmed := by
        intro f hf
        have hspells : ∀ e ∈ r.entries, ∀ f, e = .function f → Hex.Spells 4 f.selector := by
          refine forall_entries_assembleAt (fun a own hown e he f hef => ?_) hanswer
          rw [hef] at he
          exact (hown.selector he).resolve_right (hservices a on)
        obtain ⟨bs, -, hselector⟩ := hspells _ (Entry.mem_function?.1 hf) f rfl
        rw [hselector]
        exact Selector.not_hasLineEnd_encode0x bs
      refine ⟨fun q hq => ?_, fun r' hr' => Except.ok.inj hr' ▸ hr⟩
      rcases ResultCache.mem_store hq with rfl | ⟨hq, -⟩
      · exact hr
      · exact trimmed_moveTo h n q hq

theorem trimmed_setChain (h : s.Trimmed) (chain : Value) : (setChain chain s).2.Trimmed := by
  cases hwhole : chain.toWhole with
  | ok n =>
      rw [(setChain_of_whole hwhole s).2]
      exact trimmed_moveTo h n
  | error f =>
      rw [state_setChain_of_error hwhole]
      exact h

theorem trimmed_apply [AddressLibrary]
    (h : s.Trimmed) {o : Operation} (ho : o.Trimmed) : (o.apply s).Trimmed := by
  cases o with
  | assemble services options address given => exact (trimmed_assemble h ho).1
  | setChain chain => exact trimmed_setChain h chain
  | changeReader given =>
      change (changeReader given s).2.Trimmed
      unfold changeReader
      split
      · exact h
      · exact trimmed_setChain h given
  | clear => exact fun q hq => absurd hq List.not_mem_nil

/-- An assembler keeps no line ends as long as none are published. -/
theorem trimmed_run [AddressLibrary] {operations : List Operation} (h : s.Trimmed)
    (hoperations : ∀ o ∈ operations, o.Trimmed) : (run operations s).Trimmed := by
  induction operations generalizing s with
  | nil => exact h
  | cons o rest ih =>
      have hfirst : (o.apply s).Trimmed := trimmed_apply h (hoperations o List.mem_cons_self)
      exact ih hfirst fun o' ho' => hoperations o' (List.mem_cons_of_mem _ ho')

/-- All functions of a result denote four bytes and have selectors of their own, which are `0x` and
the digits of the bytes, but for a line end that may stand behind them. Functions are told apart by
their bytes if and only if there is no line end, and so they are as long as none is published and
none stands in the file that the assembler has started with. -/
theorem functions_identified [JsonReader.Stack] [AddressLibrary]
    {path : String} {maxAge : Binary64} {content : Option Bytes}
    {cache : ResultCache} {operations : List Operation}
    (hcache : (ResultCache.openFile path maxAge content).result = .ok cache) (hm : Reachable m)
    (hanswer : (assemble services options address given
      (run operations ⟨chain, cache, m⟩)).1.result = .ok r) :
    (∀ f ∈ r.functions, ∃ bs : Bytes, bs.length = 4 ∧ f.Denotes bs ∧
      (f.selector = Hex.encode0x bs ∨ f.selector = Hex.encode0x bs ++ "\n")) ∧
    (r.functions.Pairwise fun f g => f.selector ≠ g.selector) ∧
    (r.Identified ↔ r.Trimmed) ∧
    ((∀ q ∈ cache.records, q.result.Trimmed) → (∀ o ∈ operations, o.Trimmed) →
      services.Trimmed → r.Identified) := by
  have hassembled : Assembled AnyChain r :=
    .mk hcache hm (.inr trivial) (fun _ _ => .inr trivial) (.inr trivial) hanswer
  obtain ⟨hregular, -⟩ := hassembled.regular fun _ => trivial
  have hspelt : ∀ f ∈ r.functions, f.Spelt := fun f hf => hregular.spelt_of_mem hf
  refine ⟨fun f hf => (hspelt f hf).exists_denotes, hregular.pairwise_selector,
    hregular.identified_iff, fun hrecords hoperations hservices => ?_⟩
  have hkept : (run operations ⟨chain, cache, m⟩).Trimmed := trimmed_run hrecords hoperations
  have htrimmed : r.Trimmed := (trimmed_assemble hkept hservices).2 r hanswer
  exact hregular.identified_iff.2 htrimmed

/-- A proxy with items of the old style, one of them with a selector of its own. Its implementation
is known by its code only. -/
def mixedTables : Tables :=
  { phaseTables with
    abis := [(.text "0x1111111111111111111111111111111111111111", flaggedAbi)] }

theorem trimmed_mixedTables : mixedTables.services.Trimmed := by
  rintro address chain ⟨abi, hchosen, items, item, given, hitems, hitem, hgiven, hend⟩
  have hmem := Tables.mem_abis_of_loadVerified hchosen
  have habi : abi = flaggedAbi := (Prod.mk.inj (List.mem_singleton.1 hmem)).2
  have hstated : ∀ i ∈ items, (i.field "selector").toOption = some (.text "DEADBEEF") ∨
      (i.field "selector").toOption = some .null := by
    rw [habi] at hitems
    obtain rfl := Except.ok.inj hitems
    decide +kernel
  rcases hstated item hitem with hstated | hstated
  · rw [hgiven] at hstated
    obtain rfl := Value.text.inj (Option.some.inj hstated)
    exact absurd hend (by decide)
  · rw [hgiven] at hstated
    exact absurd hstated (by simp [Except.toOption])

open JsonReader.Stack in
open AddressLibrary in
/-- The functions of the proxy, when it is assembled for the second time. -/
theorem functions_identified_mixed :
    ∃ r, (assemble mixedTables.services .default
        (.text "0x1111111111111111111111111111111111111111") .null
        (run [.assemble mixedTables.services .default
          (.text "0x1111111111111111111111111111111111111111") (.int 1)]
          ⟨.null, .empty (.ofInt 60), .empty⟩)).1.result = .ok r ∧
      r.functions.map FunctionEntry.selector = ["0xdeadbeef", "0x06fdde03"] ∧ r.Identified ∧
      (∀ f ∈ r.functions, ∃ bs : Bytes, bs.length = 4 ∧ f.Denotes bs ∧
        (f.selector = Hex.encode0x bs ∨ f.selector = Hex.encode0x bs ++ "\n")) ∧
      (r.functions.Pairwise fun f g => f.selector ≠ g.selector) := by
  obtain ⟨r, hr, hselectors⟩ := Except.exists_ok_of_toOption
    (show ((assemble mixedTables.services .default
        (.text "0x1111111111111111111111111111111111111111") .null
        (run [.assemble mixedTables.services .default
          (.text "0x1111111111111111111111111111111111111111") (.int 1)]
          ⟨.null, .empty (.ofInt 60), .empty⟩)).1.result.toOption.map
          fun r => r.functions.map FunctionEntry.selector) = some ["0xdeadbeef", "0x06fdde03"]
      by decide +kernel)
  have hcache : (ResultCache.openFile "" (.ofInt 60) none).result = .ok (.empty (.ofInt 60)) := rfl
  have hoperations : ∀ o ∈ [Operation.assemble mixedTables.services .default
      (.text "0x1111111111111111111111111111111111111111") (.int 1)], o.Trimmed := by
    intro o ho
    rw [List.mem_singleton.1 ho]
    exact trimmed_mixedTables
  obtain ⟨hdenotes, hapart, -, hidentified⟩ := functions_identified hcache .empty hr
  have hrecords : ∀ q ∈ (ResultCache.empty (.ofInt 60)).records, q.result.Trimmed :=
    fun q hq => absurd hq List.not_mem_nil
  exact ⟨r, hr, hselectors, hidentified hrecords hoperations trimmed_mixedTables, hdenotes, hapart⟩

def doubledTables : Tables :=
  let item (selector : String) : Value :=
    .object [("type", .text "function"), ("name", .text "facetAddresses"), ("inputs", .list []),
      ("selector", .text selector)]
  { Tables.empty with
    abis := [(.text "0x1111111111111111111111111111111111111111",
      .list [item "0x2dec55a6", item "0x2dec55a6\n"])] }

open AddressLibrary in
/-- A function is in the result twice, once with a line end behind its selector, and calls of both
start with the same bytes. -/
theorem doubled_by_line_end :
    ∃ r f g, (assemble doubledTables.services .default
        (.text "0x1111111111111111111111111111111111111111") (.int 1)
        ⟨.null, .empty (.ofInt 60), .empty⟩).1.result = .ok r ∧ r.functions = [f, g] ∧
      f.selector = "0x2dec55a6" ∧ g.selector = "0x2dec55a6\n" ∧
      f.Denotes [0x2d, 0xec, 0x55, 0xa6] ∧ g.Denotes [0x2d, 0xec, 0x55, 0xa6] ∧
      ¬r.Identified := by
  obtain ⟨r, hr, hselectors⟩ := Except.exists_ok_of_toOption
    (show ((assemble doubledTables.services .default
        (.text "0x1111111111111111111111111111111111111111") (.int 1)
        ⟨.null, .empty (.ofInt 60), .empty⟩).1.result.toOption.map
          fun r => r.functions.map FunctionEntry.selector) = some ["0x2dec55a6", "0x2dec55a6\n"]
      by decide +kernel)
  obtain ⟨f, rest, hfunctions, hf, hrest⟩ := List.map_eq_cons_iff.1 hselectors
  obtain ⟨g, _, rfl, hg, hnone⟩ := List.map_eq_cons_iff.1 hrest
  obtain rfl := List.map_eq_nil_iff.1 hnone
  have hread : Hex.encode0x [0x2d, 0xec, 0x55, 0xa6] = "0x2dec55a6" := by decide
  have hfb : f.Denotes [0x2d, 0xec, 0x55, 0xa6] :=
    FunctionEntry.denotes_of_eq (.inl (hf.trans hread.symm))
  have hgb : g.Denotes [0x2d, 0xec, 0x55, 0xa6] :=
    FunctionEntry.denotes_of_eq (.inr (by rw [hg, hread]; decide))
  refine ⟨r, f, g, hr, hfunctions, hf, hg, hfb, hgb, fun hidentified => ?_⟩
  have hapart := hidentified.apart
  rw [hfunctions] at hapart
  exact List.rel_of_pairwise_cons hapart List.mem_cons_self _ hfb hgb

end Assembler

end ContractAbi
