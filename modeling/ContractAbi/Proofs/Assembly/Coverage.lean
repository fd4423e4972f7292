import ContractAbi.Address.Libraries
import ContractAbi.Proofs.Assembly.Exploration
import ContractAbi.Proofs.Assembly.Records
import ContractAbi.Proofs.Assembly.Tables
import ContractAbi.Proofs.Chain.Relisting

/-!
# What answers cover

While the services answer each question in one way, an assembler's answers, kept ones among them,
cover the graph of delegations: they hold the keys of all addresses that are open.

* `Covered` and `covered_of_answered`: the answers of an assembler at any time of its life;
* `graphOf_reading`: the graph does not hang on the order in which diamonds list their facets;
* `answers_cover`: what is in the answers, and what it does not hang on;
* `answers_miss_delegate`: an address that is not open is left out.
-/

namespace ContractAbi.Assembler

variable {services : Services} {options : Options} {address given : Value} {s : State} {n : Int}
  {r : Reconstruction}

/-! ## Time -/

def Services.atTime (s : Services) (now : Binary64) : Services :=
  { s with now := now }

theorem assembleAt_atTime [AddressLibrary] (now : Binary64) (chain : Value) (fuel depth : Nat) :
    assembleAt (services.atTime now) options chain fuel depth =
      assembleAt services options chain fuel depth := by
  funext place
  induction fuel generalizing depth place with
  | zero => rfl
  | succ fuel ih =>
      have hrecur : assembleAt (services.atTime now) options chain fuel (depth + 1) =
          assembleAt services options chain fuel (depth + 1) := funext (ih (depth + 1))
      have hdelegations : delegationsOf (services.atTime now) options chain (fuel + 1) depth place =
          delegationsOf services options chain (fuel + 1) depth place := by
        funext own
        change followDelegation (services.atTime now) options (assembleAt (services.atTime now)
          options chain fuel (depth + 1)) place own = _
        rw [hrecur]
        rfl
      rw [assembleAt_eq_enter, assembleAt_eq_enter, hdelegations]
      rfl

/-! ## The life of an assembler -/

/-- An assembly asks the services with the options; the other operations ask nobody. -/
def Operation.Uses (services : Services) (options : Options) : Operation → Prop
  | .assemble s o _ _ => (∃ now, s = services.atTime now) ∧ o = options
  | _ => True

def Covered [AddressLibrary]
    (services : Services) (options : Options) (root : String) (r : Reconstruction) :
    Prop :=
  Address.IsSpelt root ∧ r.address = .text root ∧
    (graphOf services options r.chainId).Covers root options.fuel (Entry.keys r.entries)

/-- Whatever is remembered is what the services say, and whatever is kept covers the graph. -/
structure Steady [AddressLibrary] (services : Services) (options : Options) (s : State) : Prop where
  memory : IsFaithful services s.memory
  covered : ∀ q ∈ s.cache.records, ∃ root, q.address = .text (Text.lowered root) ∧
    Covered services options root q.result

theorem steady_moveTo [AddressLibrary] (h : Steady services options s) (n : Int) :
    Steady services options (s.moveTo n) :=
  ⟨h.memory, fun q hq => h.covered q (State.mem_records_of_moveTo hq)⟩

theorem covered_of_assembleAt [AddressLibrary]
    {m : Resolver.Memory} {on : Value} {place : String} {w : Walk}
    (hplace : Address.IsSpelt place) (hm : IsFaithful services m)
    (h : (assembleAt services options on options.fuel 0 place).Answers ⟨m, []⟩ r w) :
    Covered services options place r := by
  obtain ⟨haddress, hchain⟩ := address_of_assembleAt h
  refine ⟨hplace, haddress, ?_⟩
  rw [hchain]
  exact covers_of_answers hplace hm rfl h

/-- An assembly leaves the assembler steady, and what it answers covers the graph. -/
theorem steady_assemble [AddressLibrary] (h : Steady services options s) (now : Binary64) :
    let run := assemble (services.atTime now) options address given s
    Steady services options run.2 ∧ ∀ r, run.1.result = .ok r →
      ∃ root, Address.checksum address = .ok root ∧ Covered services options root r := by
  intro run
  have hrun : AssembleRun (services.atTime now) options address given s run.1.result run.2 :=
    assemble_run _ _ _ _ _
  generalize run.1.result = result at *
  generalize run.2 = s' at *
  cases hrun with
  | refused _ => exact ⟨h, fun r hr => absurd hr (by simp)⟩
  | @served place on n r haim hserved =>
      have hmoved := steady_moveTo h n
      refine ⟨hmoved, fun r' hr => ?_⟩
      obtain rfl := Except.ok.inj hr
      obtain ⟨hplace, -, -⟩ := aimOf_eq_ok_iff.1 haim
      obtain ⟨q, hfind, hq⟩ := Option.bind_eq_some_iff.1 hserved
      split at hq
      · obtain rfl := Option.some.inj hq
        obtain ⟨root, hkey, hcovered⟩ := hmoved.covered q (ResultCache.mem_of_find? hfind)
        -- the record goes by the address in lower case, which is that of one spelling only
        have hsame := (ResultCache.isFor_iff.1 (ResultCache.isFor_of_find? hfind)).1
        rw [hkey, Value.text.injEq, Address.lowered_eq_fold hcovered.1,
          Address.lowered_eq_fold (Address.isSpelt_of_checksum hplace)] at hsame
        obtain rfl := Address.fold_inj hcovered.1 (Address.isSpelt_of_checksum hplace) hsame
        exact ⟨root, hplace, hcovered⟩
      · exact absurd hq (by simp)
  | @failed place on n f _ _ _ =>
      have hmoved := steady_moveTo h n
      refine ⟨⟨?_, hmoved.covered⟩, fun r hr => absurd hr (by simp)⟩
      rw [assembleAt_atTime]
      exact (keeps_assembleAt _).trans h.memory
  | @stored place on n r w haim _ hanswer =>
      obtain ⟨hplace, -, -⟩ := aimOf_eq_ok_iff.1 haim
      rw [assembleAt_atTime] at hanswer
      have hcovered := covered_of_assembleAt (Address.isSpelt_of_checksum hplace) h.memory hanswer
      have hmoved := steady_moveTo h n
      refine ⟨⟨?_, fun q hq => ?_⟩, fun r' hr => ?_⟩
      · change IsFaithful services w.memory
        rw [← hanswer.2]
        exact (keeps_assembleAt _).trans h.memory
      · rcases ResultCache.mem_store hq with rfl | ⟨hq, -⟩
        · exact ⟨place, rfl, hcovered⟩
        · exact hmoved.covered q hq
      · obtain rfl := Except.ok.inj hr
        exact ⟨place, hplace, hcovered⟩

theorem steady_setChain [AddressLibrary] (h : Steady services options s) (chain : Value) :
    Steady services options (setChain chain s).2 := by
  cases hwhole : chain.toWhole with
  | ok n =>
      rw [(setChain_of_whole hwhole s).2]
      exact steady_moveTo h n
  | error f =>
      rw [state_setChain_of_error hwhole]
      exact h

theorem steady_apply [AddressLibrary] (h : Steady services options s) {operation : Operation}
    (huses : operation.Uses services options) : Steady services options (operation.apply s) := by
  cases operation with
  | assemble s' o address given =>
      obtain ⟨⟨now, rfl⟩, rfl⟩ := huses
      exact (steady_assemble h now).1
  | setChain chain => exact steady_setChain h chain
  | changeReader given =>
      change Steady services options (changeReader given s).2
      unfold changeReader
      by_cases hnull : given.isNull = true
      · rw [if_pos hnull]
        exact h
      · rw [if_neg hnull]
        exact steady_setChain h given
  | clear => exact ⟨rfl, fun q hq => absurd hq List.not_mem_nil⟩

theorem steady_run [AddressLibrary] (h : Steady services options s) (operations : List Operation)
    (huses : ∀ o ∈ operations, o.Uses services options) :
    Steady services options (run operations s) := by
  induction operations generalizing s with
  | nil => exact h
  | cons o rest ih =>
      exact ih (steady_apply h (huses o List.mem_cons_self))
        fun o' ho' => huses o' (List.mem_cons_of_mem _ ho')

/-- At some time of its life with the services, an assembler that began with nothing answers an
assembly of the address. -/
def Answered [AddressLibrary]
    (services : Services) (options : Options) (address : Value) (r : Reconstruction) :
    Prop :=
  ∃ operations chain maxAge now given,
    (∀ o ∈ operations, Operation.Uses services options o) ∧
      (assemble (services.atTime now) options address given
        (run operations ⟨chain, .empty maxAge, .empty⟩)).1.result = .ok r

theorem covered_of_answered [AddressLibrary] (h : Answered services options address r) :
    ∃ root, Address.checksum address = .ok root ∧ Covered services options root r := by
  obtain ⟨operations, chain, maxAge, now, given, huses, hanswer⟩ := h
  have hsteady : Steady services options ⟨chain, .empty maxAge, .empty⟩ :=
    ⟨rfl, fun q hq => absurd hq List.not_mem_nil⟩
  exact (steady_assemble (steady_run hsteady operations huses) now).2 r hanswer

/-! ## Facets in another order -/

theorem delegatesTo_of_relists [AddressLibrary]
    {r q : ChainReader} (h : r.Relists q) {settings : Proxy.Settings}
    {place : String} {own : Own} {delegate : String}
    (hdelegates : DelegatesTo settings r place own delegate) :
    DelegatesTo settings q place own delegate := by
  cases hdelegates with
  | implementation hinfo hdelegate =>
      exact .implementation ((Proxy.result_detect_of_relists h _ _ _ _).trans hinfo) hdelegate
  | facet hfacets hdelegate =>
      obtain ⟨facets', hfacets', hmem⟩ := Proxy.mem_detectFacets_of_relists h hfacets
      exact .facet hfacets' ((hmem delegate).2 hdelegate)

theorem ownEntries_reading {q : ChainReader} (h : services.reader.Relists q) (place : String)
    (chain : Value) :
    ownEntries (services.reading q) options place chain =
      ownEntries services options place chain := by
  have hcode : getCode (services.reading q).reader place chain =
      getCode services.reader place chain := by
    unfold getCode Services.reading
    rw [h.code]
  have hpublished : published (services.reading q) = published services := rfl
  have hfrom : fromCode (services.reading q) = fromCode services := rfl
  unfold ownEntries
  rw [hcode, hpublished, hfrom]

theorem graphOf_reading [AddressLibrary]
    {q : ChainReader} (h : services.reader.Relists q) (chain : Value) :
    graphOf (services.reading q) options chain = graphOf services options chain := by
  have hdelegates : ∀ place own delegate,
      DelegatesTo options.proxy (services.reading q).reader place own delegate ↔
        DelegatesTo options.proxy services.reader place own delegate :=
    fun _ _ _ => ⟨delegatesTo_of_relists h.symm, delegatesTo_of_relists h⟩
  unfold graphOf
  simp only [ownEntries_reading h, hdelegates]

/-! ## What is in the answers -/

theorem fuel_mono {d d' : Int} (h : d ≤ d') :
    Options.fuel { options with maxDepth := d } ≤ Options.fuel { options with maxDepth := d' } := by
  unfold Options.fuel
  dsimp only
  split <;> omega

/-- An answer covers the graph of delegations from its address: the keys of all that is open are in
it, and nothing from beyond the limit. Where no address lies both at the limit and above it, the
keys are those of all addresses within the limit, they do not hang on the order of facets, and a
greater limit takes none away. -/
theorem answers_cover [AddressLibrary] :
    (∀ services options address r, Answered services options address r →
      ∃ root, Address.checksum address = .ok root ∧
        (graphOf services options r.chainId).Covers root options.fuel (Entry.keys r.entries)) ∧
    (∀ services options address root r, Address.checksum address = .ok root →
      (graphOf services options r.chainId).Settled root options.fuel →
      Answered services options address r → ∀ k, k ∈ Entry.keys r.entries ↔
        ∃ x rest own, (graphOf services options r.chainId).Trail root (x :: rest) ∧
          rest.length ≤ options.fuel ∧ (graphOf services options r.chainId).own x = .ok own ∧
          k ∈ Entry.keys own.entries) ∧
    (∀ services options address root q r r', Address.checksum address = .ok root →
      services.reader.Relists q → r'.chainId = r.chainId →
      (graphOf services options r.chainId).Settled root options.fuel →
      Answered services options address r → Answered (services.reading q) options address r' →
      ∀ k, k ∈ Entry.keys r'.entries ↔ k ∈ Entry.keys r.entries) ∧
    ∀ services options address root (d d' : Int) r r', Address.checksum address = .ok root →
      d ≤ d' → r'.chainId = r.chainId →
      (graphOf services options r.chainId).Settled root
        (Options.fuel { options with maxDepth := d' }) →
      Answered services { options with maxDepth := d } address r →
      Answered services { options with maxDepth := d' } address r' →
      ∀ k ∈ Entry.keys r.entries, k ∈ Entry.keys r'.entries := by
  have hcovers : ∀ {services options address root r}, Address.checksum address = .ok root →
      Answered services options address r →
      (graphOf services options r.chainId).Covers root options.fuel (Entry.keys r.entries) := by
    intro services options address root r hroot h
    obtain ⟨root', hroot', -, -, hcovers⟩ := covered_of_answered h
    obtain rfl := Except.ok.inj (hroot'.symm.trans hroot)
    exact hcovers
  refine ⟨fun services options address r h => ?_, fun services options address root r hroot hsettled
    h => (hcovers hroot h).mem_iff hsettled, ?_, ?_⟩
  · obtain ⟨root, hroot, -, -, hcovers⟩ := covered_of_answered h
    exact ⟨root, hroot, hcovers⟩
  · intro services options address root q r r' hroot hq hchain hsettled h h' k
    have hfirst := hcovers hroot h
    have hsecond := hcovers hroot h'
    rw [graphOf_reading hq, hchain] at hsecond
    rw [hfirst.mem_iff hsettled, hsecond.mem_iff hsettled]
  · intro services options address root d d' r r' hroot hle hchain hsettled h h' k hk
    have hfirst := hcovers hroot h
    have hsecond := hcovers hroot h'
    have hgraph : graphOf services { options with maxDepth := d' } r.chainId =
        graphOf services { options with maxDepth := d } r.chainId := rfl
    rw [hchain, hgraph] at hsecond
    exact hfirst.subset (fuel_mono hle) hsecond hsettled hk

/-! ## A diamond with two ways to an address -/

def addressOf (digit : Char) : String :=
  String.ofList ('0' :: 'x' :: List.replicate 40 digit)

def wordOf (byte : UInt8) : Bytes :=
  List.replicate 12 0 ++ List.replicate 20 byte

def listing (facets : List UInt8) : Value :=
  .bytes (List.replicate 31 0 ++ [32] ++ List.replicate 31 0 ++ [UInt8.ofNat facets.length] ++
    facets.flatMap wordOf)

/-- A diamond at 1 whose facets are to be 2 and 4: there are two ways from 1 to 5, a short one over
4, and a long one over 2, 3 and 4. -/
def diamondTables (facets : List UInt8) : Tables :=
  let slot : Value := .text "0x360894a13ba1a3210667c828492db98dca3e2076cc3735a920a3ca505d382bbc"
  let only (fields : List (String × Value)) : Value := .list [.object fields]
  { Tables.empty with
    codes := ['3', '4', '5'].map fun digit => (addressOf digit, .bytes [0xfe])
    words := [((addressOf '2', slot), .bytes (wordOf 0x33)),
      ((addressOf '3', slot), .bytes (wordOf 0x44)), ((addressOf '4', slot), .bytes (wordOf 0x55))]
    calls := [((addressOf '1', Proxy.facetsCall), listing facets)]
    abis := [(.text (addressOf '1'), only [("type", .text "function"),
        ("name", .text "facetAddresses"), ("inputs", .list []), ("outputs", .list [])]),
      (.text (addressOf '2'), only [("type", .text "fallback")]),
      (.text (addressOf '5'), only [("type", .text "receive")])] }

def diamondAnswer [AddressLibrary]
    (facets : List UInt8) (d : Int) : Option (Value × List EntryKey) :=
  (assemble (diamondTables facets).services { Options.default with maxDepth := d }
    (.text (addressOf '1')) (.int 1)
    ⟨.null, .empty (.ofInt 60), .empty⟩).1.result.toOption.map fun r =>
      (r.chainId, Entry.keys r.entries)

theorem answered_diamond [AddressLibrary]
    {facets : List UInt8} {d : Int} {chain : Value} {keys : List EntryKey}
    (h : diamondAnswer facets d = some (chain, keys)) :
    ∃ r, Answered (diamondTables facets).services { Options.default with maxDepth := d }
      (.text (addressOf '1')) r ∧ r.chainId = chain ∧ Entry.keys r.entries = keys := by
  obtain ⟨r, hr, hkeys⟩ := Except.exists_ok_of_toOption h
  obtain ⟨rfl, rfl⟩ := Prod.mk.inj hkeys
  exact ⟨r, ⟨[], .null, .ofInt 60, .ofInt 0, .int 1, fun o ho => absurd ho List.not_mem_nil, hr⟩,
    rfl, rfl⟩

open AddressLibrary in
theorem diamond_evaluates :
    let services := (diamondTables [0x22, 0x44]).services
    let delegates := fun digit =>
      (delegatesAt services .default (.int 1) (addressOf digit)).toOption.map id
    let facets : EntryKey := ⟨.function, .text Proxy.facetsSelector⟩
    let fallback : EntryKey := ⟨.other, .text "fallback"⟩
    let receive : EntryKey := ⟨.other, .text "receive"⟩
    (diamondAnswer [0x22, 0x44] 2 = some (.int 1, [facets, fallback, receive]) ∧
      diamondAnswer [0x22, 0x44] 3 = some (.int 1, [facets, fallback]) ∧
      diamondAnswer [0x44, 0x22] 3 = some (.int 1, [facets, receive, fallback]) ∧
      diamondAnswer [0x22, 0x44] 5 = some (.int 1, [facets, fallback, receive]) ∧
      diamondAnswer [0x44, 0x22] 5 = some (.int 1, [facets, receive, fallback])) ∧
    (delegates '1' = some [addressOf '2', addressOf '4'] ∧
      delegates '2' = some [addressOf '3'] ∧ delegates '3' = some [addressOf '4'] ∧
      delegates '4' = some [addressOf '5'] ∧ delegates '5' = some []) ∧
    (ownEntries services .default (addressOf '5') (.int 1) .empty).1.result.toOption.map
      (fun own => Entry.keys own.entries) = some [receive] ∧
    (Address.checksum (.text (addressOf '1'))).toOption.map id = some (addressOf '1') := by
  decide +kernel

theorem delegates_diamond [AddressLibrary] {digit : Char} {found : List String}
    (h : (delegatesAt (diamondTables [0x22, 0x44]).services .default (.int 1)
      (addressOf digit)).toOption.map id = some found) (y : String) :
    (graphOf (diamondTables [0x22, 0x44]).services .default (.int 1)).Delegates
      (addressOf digit) y ↔ y ∈ found := by
  obtain ⟨_, hfound, rfl⟩ := Except.exists_ok_of_toOption h
  exact (mem_delegatesAt hfound y).symm

theorem call_diamond (facets : List UInt8) (address : String) (data : Bytes) :
    ((diamondTables facets).reader.call address data).result =
      .ok (if (address, data) = (addressOf '1', Proxy.facetsCall) then listing facets
        else .null) := by
  change Except.ok ((List.lookup (address, data)
    [((addressOf '1', Proxy.facetsCall), listing facets)]).getD .null) = _
  by_cases h : (address, data) = (addressOf '1', Proxy.facetsCall)
  · rw [if_pos h, h, List.lookup_cons_self, Option.getD_some]
  · rw [if_neg h, List.lookup_cons, beq_eq_false_iff_ne.2 h]
    rfl

theorem relists_diamond :
    (diamondTables [0x22, 0x44]).reader.Relists (diamondTables [0x44, 0x22]).reader where
  code := rfl
  storage := rfl
  call address data hdata := by
    have hkey : (address, data) ≠ (addressOf '1', Proxy.facetsCall) :=
      fun h => hdata (Prod.mk.inj h).2
    rw [call_diamond, call_diamond, if_neg hkey, if_neg hkey]
  facets address := by
    have hbind : ∀ raw : Value, (Except.ok raw : Except Fault Value).bind Proxy.facetsOfReturn =
      Proxy.facetsOfReturn raw := fun _ => rfl
    rw [call_diamond, call_diamond, hbind, hbind]
    by_cases hroot : (address, Proxy.facetsCall) = (addressOf '1', Proxy.facetsCall)
    · have hclosed : (Proxy.facetsOfReturn (listing [0x22, 0x44])).toOption.map id =
            some [.text (addressOf '2'), .text (addressOf '4')] ∧
          (Proxy.facetsOfReturn (listing [0x44, 0x22])).toOption.map id =
            some [.text (addressOf '4'), .text (addressOf '2')] := by decide +kernel
      obtain ⟨_, hfirst, rfl⟩ := Except.exists_ok_of_toOption hclosed.1
      obtain ⟨_, hsecond, rfl⟩ := Except.exists_ok_of_toOption hclosed.2
      rw [if_pos hroot, if_pos hroot, hfirst, hsecond]
      exact .ok (.swap _ _ _)
    · obtain ⟨f, hf⟩ := Except.exists_error_of_isOk
        (show (Proxy.facetsOfReturn .null).isOk = false by decide +kernel)
      rw [if_neg hroot, if_neg hroot, hf]
      exact .error trivial

open AddressLibrary in
/-- With the limit 3 the facet 4 is reached over 2 and 3 first, at the limit, and when its own turn
comes it has been visited: 5 is left out, two delegations away from the diamond. Both a smaller
limit and the facets in the other order keep it. -/
theorem answers_miss_delegate :
    let services := (diamondTables [0x22, 0x44]).services
    let turned := (diamondTables [0x44, 0x22]).reader
    let g := graphOf services .default (.int 1)
    let answers (services : Services) (d : Int) (r : Reconstruction) :=
      Answered services { Options.default with maxDepth := d } (.text (addressOf '1')) r ∧
        r.chainId = .int 1
    let receive : EntryKey := ⟨.other, .text "receive"⟩
    (g.Delegates (addressOf '1') (addressOf '4') ∧ g.Delegates (addressOf '4') (addressOf '5') ∧
      ∃ own, g.own (addressOf '5') = .ok own ∧ receive ∈ Entry.keys own.entries) ∧
    (∃ r, answers services 3 r ∧ receive ∉ Entry.keys r.entries) ∧
    (∃ r, answers services 2 r ∧ receive ∈ Entry.keys r.entries) ∧
    services.reader.Relists turned ∧
    ∃ r, answers (services.reading turned) 3 r ∧ receive ∈ Entry.keys r.entries := by
  obtain ⟨⟨h2, h3, h3', -⟩, ⟨hone, -, -, hfour, -⟩, hown, -⟩ := diamond_evaluates
  obtain ⟨own, hfive, hkeys⟩ := Except.exists_ok_of_toOption hown
  obtain ⟨r, hr, hchain, hr'⟩ := answered_diamond h3
  obtain ⟨p, hp, hpchain, hp'⟩ := answered_diamond h2
  obtain ⟨q, hq, hqchain, hq'⟩ := answered_diamond h3'
  refine ⟨⟨(delegates_diamond hone _).2 ?_, (delegates_diamond hfour _).2 List.mem_cons_self,
    own, hfive, ?_⟩, ⟨r, ⟨hr, hchain⟩, ?_⟩, ⟨p, ⟨hp, hpchain⟩, ?_⟩, relists_diamond,
    q, ⟨hq, hqchain⟩, ?_⟩
  · exact List.mem_cons_of_mem _ List.mem_cons_self
  · simp [hkeys]
  · simp [hr']
  · simp [hp']
  · simp [hq']

open AddressLibrary in
theorem settled_diamond :
    (graphOf (diamondTables [0x22, 0x44]).services .default (.int 1)).Settled
      (addressOf '1') 5 := by
  obtain ⟨-, ⟨hone, htwo, hthree, hfour, hfive⟩, -⟩ := diamond_evaluates
  let digits := ['1', '2', '3', '4', '5']
  have hsubset : ∀ found : List Char, found ⊆ digits → ∀ y ∈ found.map addressOf,
      y ∈ digits.map addressOf := fun _ h _ hy => List.map_subset addressOf h hy
  have hroot : addressOf '1' ∈ digits.map addressOf := List.mem_cons_self
  refine Graph.settled_of_length_le hroot ?_ (Nat.le_refl 5)
  intro x hx y hy
  obtain ⟨digit, hdigit, rfl⟩ := List.mem_map.1 hx
  simp only [digits, List.mem_cons, List.not_mem_nil, or_false] at hdigit
  rcases hdigit with rfl | rfl | rfl | rfl | rfl
  · exact hsubset ['2', '4'] (by decide) y ((delegates_diamond hone y).1 hy)
  · exact hsubset ['3'] (by decide) y ((delegates_diamond htwo y).1 hy)
  · exact hsubset ['4'] (by decide) y ((delegates_diamond hthree y).1 hy)
  · exact hsubset ['5'] (by decide) y ((delegates_diamond hfour y).1 hy)
  · exact hsubset [] (by decide) y ((delegates_diamond hfive y).1 hy)

open AddressLibrary in
/-- With room for all five addresses, neither the order of facets nor a smaller limit matters. -/
theorem answers_cover_diamond :
    let services := (diamondTables [0x22, 0x44]).services
    let turned := (diamondTables [0x44, 0x22]).reader
    let g := graphOf services .default (.int 1)
    let answers (services : Services) (d : Int) (r : Reconstruction) :=
      Answered services { Options.default with maxDepth := d } (.text (addressOf '1')) r ∧
        r.chainId = .int 1
    services.reader.Relists turned ∧ g.Settled (addressOf '1') 5 ∧
    ∃ p r q, answers services 2 p ∧ answers services 5 r ∧ answers (services.reading turned) 5 q ∧
      g.Covers (addressOf '1') 5 (Entry.keys r.entries) ∧
      (∀ k, k ∈ Entry.keys r.entries ↔ ∃ x rest own, g.Trail (addressOf '1') (x :: rest) ∧
        rest.length ≤ 5 ∧ g.own x = .ok own ∧ k ∈ Entry.keys own.entries) ∧
      (∀ k, k ∈ Entry.keys q.entries ↔ k ∈ Entry.keys r.entries) ∧
      ∀ k ∈ Entry.keys p.entries, k ∈ Entry.keys r.entries := by
  intro services turned g answers
  obtain ⟨⟨h2, -, -, h5, h5'⟩, -, -, hchecksum⟩ := diamond_evaluates
  obtain ⟨root, hroot, rfl⟩ := Except.exists_ok_of_toOption hchecksum
  obtain ⟨p, hp, hpchain, -⟩ := answered_diamond h2
  obtain ⟨r, hr, hrchain, -⟩ := answered_diamond h5
  obtain ⟨q, hq, hqchain, -⟩ := answered_diamond h5'
  have hsettled : (graphOf services { Options.default with maxDepth := 5 } r.chainId).Settled
      (addressOf '1') (Options.fuel { Options.default with maxDepth := 5 }) := by
    rw [hrchain]
    exact settled_diamond
  obtain ⟨hcovers, hexact, horder, hraise⟩ := answers_cover
  have hexact := hexact services _ _ _ r hroot hsettled hr
  obtain ⟨root', hroot', hcovers⟩ := hcovers _ _ _ r hr
  obtain rfl := Except.ok.inj (hroot'.symm.trans hroot)
  rw [hrchain] at hcovers hexact
  refine ⟨relists_diamond, settled_diamond, p, r, q, ⟨hp, hpchain⟩, ⟨hr, hrchain⟩, ⟨hq, hqchain⟩,
    hcovers, hexact, ?_, ?_⟩
  · exact horder services _ _ _ turned r q hroot relists_diamond (hqchain.trans hrchain.symm)
      hsettled hr hq
  · exact hraise services _ _ _ 2 5 p r hroot (by decide) (hrchain.trans hpchain.symm)
      (by rw [hpchain, ← hrchain]; exact hsettled) hp hr

end ContractAbi.Assembler
