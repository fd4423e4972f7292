import ContractAbi.Address.Libraries
import ContractAbi.Proofs.Assembly.Provenance
import ContractAbi.Proofs.Assembly.Step
import ContractAbi.Proofs.Chain.Veiling

/-!
# Published interfaces before code

A contract for which an interface is published contributes this interface as it is. Its code is not
looked at. Keys are looked up for the other contracts only, and only those that are in their code.

* `Separated`: keys are looked up for the contract that was entered last;
* `separated_assembleAt`: so they are all through an assembly, whether it answers or fails;
* `assembleAt_of_veiled`: the code of a contract with a published interface changes nothing;
* `entries_assemble`: an assembly enters what the assembly of its contract enters;
* `phases_separate`: whole assemblies.
-/

namespace ContractAbi

def Event.lookedUp? : Event → Option (LookupKind × String)
  | .request (.lookup _ selector) => some (.function, selector)
  | .request (.lookupEvent _ topic) => some (.event, topic)
  | _ => none

namespace Assembler

open Resolver

variable {services : Services} {options : Options} {address : String} {chain : Value}
  {kind : LookupKind} {key : String} {es es' : List Event}

def lookups (es : List Event) : List (LookupKind × String) :=
  es.filterMap Event.lookedUp?

@[simp] theorem lookups_append (es es' : List Event) :
    lookups (es ++ es') = lookups es ++ lookups es' :=
  List.filterMap_append

/-! ## Lookups -/

/-- Nothing that can be used is published for the contract, and the key is in its code. -/
structure Wanted (services : Services) (chain : Value) (address : String) (kind : LookupKind)
    (key : String) : Prop where
  unpublished : ∀ own, ¬Accepts services address chain own
  inCode : ∃ code, (getCode services.reader address chain).result = .ok code ∧
    key ∈ keysOf kind code

/-- Whenever a key is looked up, it is wanted for the contract that was entered last. -/
def Separated (services : Services) (chain : Value) (es : List Event) : Prop :=
  ∀ before e after kind key, es = before ++ e :: after → e.lookedUp? = some (kind, key) →
    ∃ address depth, (entries before).getLast? = some (address, depth) ∧
      Wanted services chain address kind key

theorem separated_of_lookups_nil (h : lookups es = []) : Separated services chain es := by
  intro before e after kind key hes hkey
  have hmem : (kind, key) ∈ lookups es :=
    List.mem_filterMap.2 ⟨e, by simp [hes], hkey⟩
  rw [h] at hmem
  exact absurd hmem List.not_mem_nil

theorem Separated.append (h : Separated services chain es) (h' : Separated services chain es') :
    Separated services chain (es ++ es') := by
  intro before e after kind key hes hkey
  rcases List.append_eq_append_iff.1 hes with ⟨more, rfl, hrest⟩ | ⟨more, hfirst, hrest⟩
  · obtain ⟨address, depth, hlast, hwanted⟩ := h' more e after kind key hrest hkey
    refine ⟨address, depth, ?_, hwanted⟩
    rw [entries_append, List.getLast?_append, hlast]
    rfl
  · cases more with
    | nil =>
        -- the key would be looked up before any address is entered
        obtain ⟨_, _, hlast, _⟩ := h' [] e after kind key hrest.symm hkey
        exact absurd hlast (by simp [entries])
    | cons _ more =>
        obtain ⟨rfl, -⟩ := List.cons.inj hrest
        exact h before e more kind key hfirst hkey

def AsksWanted (services : Services) (chain : Value) (address : String) (r : Request) : Prop :=
  ∀ kind key, Event.lookedUp? (.request r) = some (kind, key) →
    Wanted services chain address kind key

theorem separated_entered {depth : Nat}
    (h : ∀ e ∈ es, e.AsksOnly (AsksWanted services chain address)) :
    Separated services chain (.entered address depth :: es) := by
  intro before e after kind key hes hkey
  cases before with
  | nil =>
      obtain ⟨rfl, -⟩ := List.cons.inj hes
      exact absurd hkey (by simp [Event.lookedUp?])
  | cons first before =>
      obtain ⟨rfl, rfl⟩ := List.cons.inj hes
      have hnone : entries before = [] :=
        entries_of_asks fun e he => h e (List.mem_append_left _ he)
      have hlast : entries (.entered address depth :: before) = [(address, depth)] :=
        congrArg ((address, depth) :: ·) hnone
      refine ⟨address, depth, by rw [hlast]; rfl, ?_⟩
      have hasked := h e (by simp)
      cases e with
      | request r => exact hasked kind key hkey
      | _ => exact absurd hkey (by simp [Event.lookedUp?])

/-! ## From contract to contract -/

def LooksUpNone (r : Request) : Prop :=
  Event.lookedUp? (.request r) = none

theorem lookups_of_asks (h : ∀ e ∈ es, e.AsksOnly LooksUpNone) : lookups es = [] := by
  refine List.filterMap_eq_nil_iff.2 fun e he => ?_
  have hasks := h e he
  cases e with
  | request r => exact hasks
  | _ => rfl

theorem sequential_separated :
    Sequential LooksUpNone fun _ es _ => Separated services chain es where
  asks h _ := separated_of_lookups_nil (lookups_of_asks h)
  append := .append

theorem separated_enter (services : Services) (options : Options) (chain : Value) (depth : Nat)
    (address : String) (w : Walk) :
    (enter services.observed options chain depth address).Leads
      (fun _ es _ => Separated services chain es) w := by
  have hown : (ownEntries services.observed options address chain).Asks
      (AsksWanted services chain address) := by
    refine asks_ownEntries (fun loader hloader => ?_) (Traced.asks_asking nofun)
      fun hnone code hcode kind key hkey source hsource => ?_
    · obtain ⟨l, -, rfl⟩ := List.mem_map.1 hloader
      exact Traced.asks_asking nofun
    · obtain ⟨s, -, rfl⟩ := List.mem_map.1 hsource
      rw [result_getCode_observed] at hcode
      have hwanted : Wanted services chain address kind key :=
        ⟨fun own h => published_eq_none_iff.1 hnone own (accepts_observed.2 h), code, hcode, hkey⟩
      refine Traced.asks_asking fun kind' key' hasked => ?_
      cases kind with
      | function =>
          obtain ⟨rfl, rfl⟩ := Prod.mk.inj (Option.some.inj hasked)
          exact hwanted
      | event =>
          obtain ⟨rfl, rfl⟩ := Prod.mk.inj (Option.some.inj hasked)
          exact hwanted
  exact separated_entered (hown w.memory)

theorem searches_none (services : Services) (address : String) :
    Proxy.Searches LooksUpNone services.observed.reader address where
  code _ := Traced.asks_asking rfl
  beacon _ := Traced.asks_asking rfl
  slot _ := Traced.asks_asking rfl
  facets := Traced.asks_asking rfl

/-- All through an assembly, whether it answers or fails, keys are looked up for the contract that
was entered last. -/
theorem separated_assembleAt [AddressLibrary] (fuel depth : Nat) (w : Walk) :
    (assembleAt services.observed options chain fuel depth address).Leads
      (fun _ es _ => Separated services chain es) w :=
  sequential_separated.assembleAt (separated_enter services options chain)
    (fun _ _ _ => Proxy.asks_detect _ _ _ fun place _ => searches_none services place)
    (fun address _ => Proxy.asks_detectFacets _ (searches_none services address)) fuel depth w

/-! ## Code that is not looked at -/

/-- A reader that differs from the services' own one at most in the code of contracts for which
something is published that can be used, and does not differ in which contracts have code. -/
structure Services.Veiled (services : Services) (chain : Value) (q : ChainReader) : Prop where
  veils : services.reader.Veils q
  code : ∀ address, (∀ own, ¬Accepts services address chain own) →
    q.code address = services.reader.code address

variable {q : ChainReader}

theorem ownEntries_of_veiled (h : services.Veiled chain q) :
    ownEntries (services.reading q) options address chain =
      ownEntries services options address chain := by
  funext m
  rcases result_published services address chain with ⟨own, _, haccepts⟩ | ⟨_, hnone⟩
  · have hread : Accepts (services.reading q) address chain own := haccepts
    exact (ownEntries_of_accepts hread m).trans (ownEntries_of_accepts haccepts m).symm
  · have hcode : getCode (services.reading q).reader address chain =
        getCode services.reader address chain := by
      unfold getCode
      rw [show (services.reading q).reader.code address = services.reader.code address from
        h.code address hnone]
    unfold ownEntries
    rw [hcode]
    rfl

theorem followDelegation_of_veiled [AddressLibrary] (h : services.Veiled chain q) :
    followDelegation (services.reading q) = followDelegation services := by
  have hveils : services.reader.Veils (services.reading q).reader := h.veils
  funext options assemble address own
  unfold followDelegation
  rw [Proxy.detect_of_veils hveils, Proxy.detectFacets_of_veils hveils]

theorem assembleAt_of_veiled [AddressLibrary] (h : services.Veiled chain q) (fuel depth : Nat) :
    assembleAt (services.reading q) options chain fuel depth =
      assembleAt services options chain fuel depth := by
  funext place
  induction fuel generalizing depth place with
  | zero =>
      rw [assembleAt_eq_enter, assembleAt_eq_enter, enter, enter, ownEntries_of_veiled h]
      rfl
  | succ fuel ih =>
      have hrecur : assembleAt (services.reading q) options chain fuel (depth + 1) =
          assembleAt services options chain fuel (depth + 1) := funext (ih (depth + 1))
      have hdelegations : delegationsOf (services.reading q) options chain (fuel + 1) depth place =
          delegationsOf services options chain (fuel + 1) depth place := by
        funext own
        change followDelegation (services.reading q) options (assembleAt (services.reading q)
          options chain fuel (depth + 1)) place own = _
        rw [hrecur, followDelegation_of_veiled h]
        rfl
      rw [assembleAt_eq_enter, assembleAt_eq_enter, enter, enter, ownEntries_of_veiled h,
        hdelegations]

/-! ## Whole assemblies -/

variable {given : Value} {s : State}

theorem toWhole_of_setChain {u : Unit} (h : (setChain chain s).1.result = .ok u) :
    ∃ n, chain.toWhole = .ok n := by
  cases hwhole : chain.toWhole with
  | ok n => exact ⟨n, rfl⟩
  | error f => exact absurd ((result_setChain_of_error hwhole s).symm.trans h) (by simp)

theorem result_chainOf_observed {place : String} {kept : Value} :
    (chainOf services.observed place given kept).result =
      (chainOf services place given kept).result := by
  unfold chainOf readChain
  split
  · rfl
  · split
    · rfl
    · simp only [Traced.result_bind, Traced.result_attempt]
      rfl

theorem aimOf_observed [AddressLibrary] {address : Value} :
    aimOf services.observed address given s = aimOf services address given s := by
  unfold aimOf
  cases Address.checksum address with
  | error f => rfl
  | ok place => rw [Except.ok_bind, Except.ok_bind, result_chainOf_observed]

/-- An assembly that is served by a record enters no address. Any other enters what the assembly of
its contract enters, whether it answers or fails. -/
theorem entries_assemble [AddressLibrary]
    (options : Options) {address : Value} {place : String} {n : Int}
    (haim : aimOf services address given s = .ok (place, chain, n)) :
    entries (assemble services.observed options address given s).1.events =
      if (s.moveTo n).served? services.now place n = none then
        entries (assembleAt services.observed options chain options.fuel 0 place
          ⟨s.memory, []⟩).1.events
      else [] := by
  obtain ⟨hplace, hon, hn⟩ := aimOf_eq_ok_iff.1 haim
  obtain ⟨hmoved, hstate⟩ := setChain_of_whole hn s
  have hchain : (Session.lift (chainOf services.observed place given s.chain) s).1.result =
      .ok chain := by
    rw [Session.result_lift, result_chainOf_observed, hon]
  have hlookUp : (Session.lift ((s.moveTo n).cache.get? services.observed.now (.text place) chain)
      (s.moveTo n)).1.result = .ok ((s.moveTo n).served? services.now place n) :=
    ResultCache.result_get? _ _ _ hn
  have hasked : entries (Session.lift (chainOf services.observed place given s.chain)
      s).1.events = [] :=
    entries_of_asks (Session.asks_lift (asks_chainOf (R := LooksUpNone) rfl _ _ _) s)
  have hset : entries (setChain chain s).1.events = [] :=
    entries_of_asks (asks_setChain (R := LooksUpNone) chain s)
  have hgot : entries (Session.lift ((s.moveTo n).cache.get? services.observed.now (.text place)
      chain) (s.moveTo n)).1.events = [] :=
    entries_of_asks (Session.asks_lift (asks_get? (R := LooksUpNone) _ _ _ _) _)
  rw [assemble_eq_assembleOn, hplace, Session.run_bind_ofExcept_ok, Session.run_bind_get,
    Session.events_bind_of_ok _ hchain, entries_append, hasked, List.nil_append,
    Session.state_lift]
  unfold assembleOn
  rw [Session.events_bind_of_ok _ hmoved, entries_append, hset, List.nil_append, hstate,
    Session.run_bind_get, Session.events_bind_of_ok _ hlookUp, entries_append, hgot,
    List.nil_append, Session.state_lift]
  cases hserved : (s.moveTo n).served? services.now place n with
  | some r => rfl
  | none =>
      have hwalk : (Session.focus (fun s => ⟨s.memory, []⟩)
          (fun (w : Walk) (s : State) => { s with memory := w.memory })
          (assembleAt services.observed options chain options.fuel 0 place)
            (s.moveTo n)).1.result =
          (assembleAt services.observed options chain options.fuel 0 place
            ⟨s.memory, []⟩).1.result := rfl
      rw [if_pos rfl]
      dsimp only
      cases hresult : (assembleAt services.observed options chain options.fuel 0 place
          ⟨s.memory, []⟩).1.result with
      | error f =>
          rw [hresult] at hwalk
          rw [Session.events_bind, hwalk, entries_append]
          exact List.append_nil _
      | ok r =>
          rw [hresult] at hwalk
          rw [Session.events_bind_of_ok _ hwalk, entries_append,
            ResultCache.put_text _ _ _ _ _ hn]
          exact List.append_nil _

/-- What happens in an assembly, and its outcome: either no contract is assembled and no key looked
up, or keys are looked up for the contract that was entered last only, and the interface that is
answered is merged from the contributions of the contracts that were entered. -/
inductive Phased [AddressLibrary]
    (services : Services) (options : Options) (address given : Value) (s : State)
    (es : List Event) (result : Except Fault Reconstruction) : Prop
  | unassembled (hentered : entries es = []) (hlookups : lookups es = [])
  | assembled {place chain n} (haim : aimOf services address given s = .ok (place, chain, n))
      (hlookups : Separated services chain es)
      (hanswer : ∀ r, result = .ok r → ∃ own parts,
        Composed services options chain ((place, own) :: parts) es [r.entries] ∧
          r.entries = Entry.merge own (parts.map Prod.snd))

namespace Phased

variable {address : Value} {result : Except Fault Reconstruction}

theorem of_asks [AddressLibrary] (h : ∀ e ∈ es, e.AsksOnly LooksUpNone) :
    Phased services options address given s es result :=
  .unassembled (entries_of_asks h) (lookups_of_asks h)

/-- What is asked before the first contract is entered is of no matter. -/
theorem after_asks [AddressLibrary] (h : ∀ e ∈ es, e.AsksOnly LooksUpNone)
    (h' : Phased services options address given s es' result) :
    Phased services options address given s (es ++ es') result := by
  cases h' with
  | unassembled hentered hlookups =>
      refine .unassembled ?_ ?_
      · rw [entries_append, entries_of_asks h, hentered]
        rfl
      · rw [lookups_append, lookups_of_asks h, hlookups]
        rfl
  | assembled haim hlookups hanswer =>
      refine .assembled haim ((separated_of_lookups_nil (lookups_of_asks h)).append hlookups)
        fun r hr => ?_
      obtain ⟨own, parts, hcomposed, hmerged⟩ := hanswer r hr
      exact ⟨own, parts, (Composed.nil es).append hcomposed, hmerged⟩

/-- What comes after the interface is put together is of no matter either. -/
theorem append [AddressLibrary]
    {r : Reconstruction} (h : Phased services options address given s es (.ok r))
    (hentered : entries es' = []) (hlookups : lookups es' = [])
    (hresult : ∀ r', result = .ok r' → r' = r) :
    Phased services options address given s (es ++ es') result := by
  cases h with
  | unassembled hentered' hlookups' =>
      refine .unassembled ?_ ?_
      · rw [entries_append, hentered', hentered]
        rfl
      · rw [lookups_append, hlookups', hlookups]
        rfl
  | assembled haim hseparated hanswer =>
      refine .assembled haim (hseparated.append (separated_of_lookups_nil hlookups))
        fun r' hr' => ?_
      obtain rfl := hresult r' hr'
      obtain ⟨own, parts, hcomposed, hmerged⟩ := hanswer r' rfl
      refine ⟨own, parts, ?_, hmerged⟩
      simpa using hcomposed.append (Composed.nil es')

end Phased

theorem phased_assembleOn [AddressLibrary] {place : String} {on : Value} {address : Value}
    (haim : ∀ n, on.toWhole = .ok n → aimOf services address given s = .ok (place, on, n)) :
    (assembleOn services.observed options place on).Runs
      (Phased services options address given s) s := by
  have herror : ∀ (es : List Event) (e : Fault), (∀ e ∈ es, e.AsksOnly LooksUpNone) →
      Phased services options address given s es (.error e) := fun _ _ h => .of_asks h
  unfold assembleOn
  refine Session.runs_bind_of_asks (asks_setChain on) herror .after_asks fun _ hset => ?_
  obtain ⟨n, hn⟩ := toWhole_of_setChain hset
  refine Session.runs_bind_of_asks Session.asks_get herror .after_asks fun s' _ => ?_
  refine Session.runs_bind_of_asks (Session.asks_lift (asks_get? _ _ _ _)) herror .after_asks
    fun found _ => ?_
  cases found with
  | some r =>
      exact .of_asks ((Session.asks_note _ _ _).bind (fun _ => Session.asks_pure r) _)
  | none =>
      have hwalk : (Session.focus (fun s => ⟨s.memory, []⟩)
          (fun (w : Walk) (s : State) => { s with memory := w.memory })
          (assembleAt services.observed options on options.fuel 0 place)).Runs
          (Phased services options address given s) (setChain on s).2 :=
        .assembled (haim n hn) (separated_assembleAt options.fuel 0 _)
          (composed_assembleAt options.fuel 0 _)
      refine hwalk.bind (fun _ _ h => h) fun es r hes _ => ?_
      cases hput : s'.cache.put services.observed.now (.text place) on r r.verified with
      | error f => exact hes.append rfl rfl nofun
      | ok cache => exact hes.append rfl rfl fun r' hr' => (Except.ok.inj hr').symm

theorem phased_assemble [AddressLibrary]
    (services : Services) (options : Options) (address given : Value)
    (s : State) :
    (assemble services.observed options address given).Runs
      (Phased services options address given s) s := by
  rw [assemble_eq_assembleOn]
  cases hplace : Address.checksum address with
  | error f => exact .unassembled rfl rfl
  | ok place =>
      unfold Session.Runs
      rw [Session.run_bind_ofExcept_ok, Session.run_bind_get]
      have hasks : (chainOf services.observed place given s.chain).Asks LooksUpNone :=
        asks_chainOf (R := LooksUpNone) rfl place given s.chain
      refine Session.runs_bind_of_asks (Session.asks_lift hasks) (fun _ _ h => .of_asks h)
        .after_asks fun on hon => phased_assembleOn fun n hn => ?_
      rw [Session.result_lift, result_chainOf_observed] at hon
      exact aimOf_eq_ok_iff.2 ⟨hplace, hon, hn⟩

theorem assemble_of_veiled [AddressLibrary]
    {address : Value} (hchain : q.chainId = services.reader.chainId)
    (hveiled : ∀ place on n, aimOf services address given s = .ok (place, on, n) →
      services.Veiled on q) :
    assemble (services.reading q) options address given s =
      assemble services options address given s := by
  have hchainOf : ∀ place, chainOf (services.reading q) place given s.chain =
      chainOf services place given s.chain := by
    intro place
    have hread : readChain (services.reading q).reader place = readChain services.reader place := by
      unfold readChain
      rw [show (services.reading q).reader.chainId = services.reader.chainId from hchain]
    unfold chainOf
    rw [hread]
  rw [assemble_eq_assembleOn, assemble_eq_assembleOn]
  refine Session.run_bind_congr fun place hplace => ?_
  rw [Session.state_ofExcept, Session.run_bind_get, Session.run_bind_get, hchainOf]
  refine Session.run_bind_congr fun on hon => ?_
  unfold assembleOn
  refine Session.run_bind_congr fun _ hset => ?_
  obtain ⟨n, hn⟩ := toWhole_of_setChain hset
  rw [assembleAt_of_veiled (hveiled place on n (aimOf_eq_ok_iff.2 ⟨hplace, hon, hn⟩)),
    show (services.reading q).now = services.now from rfl]

/-- Whatever the services answer and whether the assembly answers or fails: keys are looked up for
the contract that was entered last only, if they are in its code and nothing is published for it
that can be used; and the interface that is answered is merged from the contributions of the
contracts that were entered. Where something is published that can be used, it is contributed as it
is, and is all that is asked for; what code there is makes no difference to the run. The interface
that is believed is that of the first loader with one, whatever the others do. -/
theorem phases_separate [AddressLibrary]
    (services : Services) (options : Options) (address given : Value)
    (s : State) :
    let run := (assemble services.observed options address given s).1
    Phased services options address given s run.events run.result ∧
      (∀ place chain own, Accepts services place chain own →
        (∀ own', Contributes services options chain place own' ↔ own' = own) ∧
        ∀ m, ownEntries services options place chain m =
          (⟨.ok ⟨own, none⟩, (published services place chain).events⟩, m)) ∧
      (∀ q : ChainReader, q.chainId = services.reader.chainId →
        (∀ place chain n, aimOf services address given s = .ok (place, chain, n) →
          services.Veiled chain q) →
        assemble (services.reading q) options address given s =
          assemble services options address given s) ∧
      ∀ place chain, ∃ chosen,
        (AbiLoader.loadVerified services.loaders place chain).result = .ok chosen ∧
        ∀ abi, chosen = some abi ↔ ∃ before loader after,
          services.loaders = before ++ loader :: after ∧
          (loader.fetch place chain).result = .ok abi ∧ abi.holds = true ∧
          ∀ l ∈ before, ∀ v, (l.fetch place chain).result = .ok v → v.holds = false := by
  intro run
  refine ⟨phased_assemble services options address given s, fun place chain own h => ?_,
    fun q hchain hveiled => assemble_of_veiled hchain hveiled, fun place chain => ?_⟩
  · exact ⟨fun own' => Contributes.iff_of_accepts h, ownEntries_of_accepts h⟩
  · have hchosen := AbiLoader.result_loadVerified services.loaders place chain
    refine ⟨_, hchosen, fun abi => ?_⟩
    rw [← AbiLoader.loadVerified_eq_some_iff, hchosen, Except.ok.injEq]

def phaseAbi : Value :=
  .list [.object [("type", .text "function"), ("name", .text "name"), ("inputs", .list []),
    ("stateMutability", .text "nonpayable")]]

/-- A proxy of which only the code is known, and its implementation, which is published without
outputs. The code of each of them compares a selector. -/
def phaseTables : Tables :=
  { Tables.empty with
    codes := [("0x1111111111111111111111111111111111111111", .bytes nestedCode),
      ("0x2222222222222222222222222222222222222222", .bytes [0x60, 0x00, 0x35, 0x63, 0x06, 0xfd,
        0xde, 0x03, 0x14, 0x61, 0x00, 0x10, 0x57])]
    words := [(("0x1111111111111111111111111111111111111111",
        .text "0x360894a13ba1a3210667c828492db98dca3e2076cc3735a920a3ca505d382bbc"),
      .bytes (List.replicate 12 0 ++ List.replicate 20 0x22))]
    abis := [(.text "0x2222222222222222222222222222222222222222", phaseAbi)]
    signatures := nestedTables.signatures }

def phaseReader : ChainReader :=
  { phaseTables.reader with
    code := fun address =>
      if address = "0x2222222222222222222222222222222222222222" then .answer (.bytes [0xfe])
      else phaseTables.reader.code address }

theorem accepts_phaseTables (chain : Value) :
    ∃ own, Accepts phaseTables.services "0x2222222222222222222222222222222222222222" chain own := by
  obtain ⟨own, hown⟩ := Except.exists_ok_of_isOk
    (show (Entry.ofAbi phaseAbi).isOk = true by decide +kernel)
  have hfetch : (phaseTables.loader.fetch (.text "0x2222222222222222222222222222222222222222")
      chain).result = .ok phaseAbi := by
    rfl
  exact ⟨own, phaseAbi, AbiLoader.loadVerified_eq_some_iff.2
    ⟨[], phaseTables.loader, [], rfl, hfetch, rfl, by simp⟩, hown⟩

theorem veiled_phaseReader (chain : Value) : phaseTables.services.Veiled chain phaseReader where
  veils := {
    held := fun address => by
      by_cases haddress : address = "0x2222222222222222222222222222222222222222"
      · subst haddress
        rfl
      · unfold Proxy.hasCode
        rw [show phaseReader.code address = phaseTables.reader.code address from if_neg haddress]
        rfl
    storage := rfl
    call := rfl }
  code address hnone := by
    obtain ⟨own, hown⟩ := accepts_phaseTables chain
    refine if_neg fun haddress => hnone own ?_
    rw [haddress]
    exact hown

open AddressLibrary in
/-- The assembly of that proxy looks up the keys of its own code only. The implementation's function
is merged without outputs, although its name is known. -/
theorem phaseTables_evaluates :
    let run := (assemble phaseTables.services.observed .default
      (.text "0x1111111111111111111111111111111111111111") (.int 1)
      ⟨.null, .empty (.ofInt 60), .empty⟩).1
    lookups run.events = [(.function, "0x63874960"),
        (.event, "0x8cb6d11c07e5800b143595cc7685e041fea0c7869d9b1b321d269541faeb8cb9")] ∧
      (run.result.toOption.map fun r => (r.entries.filterMap Entry.function?).map fun f =>
        (f.selector, f.outputs.length, f.mutability.plain)) =
          some [("0x63874960", 0, "nonpayable"), ("0x06fdde03", 0, "nonpayable")] := by
  decide +kernel

open AddressLibrary in
/-- The assembly of that proxy, by the separation of the phases: with other code of the
implementation nothing changes. -/
theorem phases_separate_proxy :
    let run := (assemble phaseTables.services.observed .default
      (.text "0x1111111111111111111111111111111111111111") (.int 1)
      ⟨.null, .empty (.ofInt 60), .empty⟩).1
    Phased phaseTables.services .default (.text "0x1111111111111111111111111111111111111111")
        (.int 1) ⟨.null, .empty (.ofInt 60), .empty⟩ run.events run.result ∧
      lookups run.events = [(.function, "0x63874960"),
        (.event, "0x8cb6d11c07e5800b143595cc7685e041fea0c7869d9b1b321d269541faeb8cb9")] ∧
      (∃ own, Accepts phaseTables.services "0x2222222222222222222222222222222222222222" (.int 1)
          own ∧ ∀ own', Contributes phaseTables.services .default (.int 1)
            "0x2222222222222222222222222222222222222222" own' ↔ own' = own) ∧
      assemble (phaseTables.services.reading phaseReader) .default
          (.text "0x1111111111111111111111111111111111111111") (.int 1)
          ⟨.null, .empty (.ofInt 60), .empty⟩ =
        assemble phaseTables.services .default
          (.text "0x1111111111111111111111111111111111111111") (.int 1)
          ⟨.null, .empty (.ofInt 60), .empty⟩ := by
  obtain ⟨own, haccepts⟩ := accepts_phaseTables (.int 1)
  -- the run stays unopened, so that its evaluation is not repeated
  exact ⟨(phases_separate _ _ _ _ _).1, phaseTables_evaluates.1,
    ⟨own, haccepts, ((phases_separate phaseTables.services .default
      (.text "0x1111111111111111111111111111111111111111") (.int 1)
      ⟨.null, .empty (.ofInt 60), .empty⟩).2.1 _ _ _ haccepts).1⟩,
    (phases_separate _ _ _ _ _).2.2.1 phaseReader rfl
      fun _ chain _ _ => veiled_phaseReader chain⟩

end Assembler

end ContractAbi
