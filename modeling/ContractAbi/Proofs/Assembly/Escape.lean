import ContractAbi.Proofs.Address.Refusal
import ContractAbi.Proofs.Assembly.Containment
import ContractAbi.Proofs.Resolver.Escape

/-!
# Answers that assemblies cannot digest

For each chain, word and answer of a source that is not digestible, there is an assembly that ends
with a failure of another kind: the first one of an assembler, with services that answer little
else.

* `not_contained_of_assembleAt`: failures of a contract are those of the first assembly;
* `contained_iff_digestible`: assemblies end as announced for digestible answers only.
-/

namespace ContractAbi.Assembler

open Resolver

variable {p : Repertoire} {code : Bytes} {word : Traced Value} {sources : List SignatureSource}
  {kind : LookupKind} {v : Value}

/-! ## One failing assembly -/

def place : String :=
  "0x1111111111111111111111111111111111111111"

theorem checksum_place [AddressLibrary] : Address.checksum (.text place) = .ok place := by
  have hdigits : Address.AreDigits (List.replicate 40 '1') := by
    refine ⟨rfl, fun c hc => ?_⟩
    rw [List.eq_of_mem_replicate hc]
    decide
  have hspelt : place = Address.ofDigits (List.replicate 40 '1') := by decide +kernel
  exact Address.checksum_of_isSpelt ⟨_, hdigits, hspelt⟩ (by decide)

def State.fresh : State :=
  ⟨.null, .empty ResultCache.defaultMaxAge, .empty⟩

def single (code : Bytes) (word : Traced Value) (sources : List SignatureSource) : Services where
  reader :=
    { code := fun _ => .answer (.bytes code)
      storage := fun _ _ => word
      call := fun _ _ => .fail (.timeout "")
      chainId := .answer (.int 1) }
  sources := sources
  loaders := []
  now := .ofInt 0

theorem within_single (hword : ∀ v, word.result = .ok v → p.words v)
    (hsources : ∀ source ∈ sources, ∀ kind key v,
      (source.candidates kind key).result = .ok v → p.candidates kind v) :
    (single code word sources).Within p where
  code _ _ h := .inl ⟨code, (Except.ok.inj h).symm⟩
  storage _ _ := hword
  call _ _ _ h := absurd h nofun
  candidates := hsources

theorem result_assembleOn_fresh [AddressLibrary]
    {services : Services} {options : Options} {address : String}
    {f : Fault}
    (h : (assembleAt services options (.int 1) options.fuel 0 address ⟨.empty, []⟩).1.result =
      .error f) :
    (assembleOn services options address (.int 1) State.fresh).1.result = .error f := by
  have hmoved : setChain (.int 1) State.fresh =
      (⟨.ok (), []⟩, { State.fresh with chain := .int 1 }) := rfl
  unfold assembleOn
  rw [Session.result_bind_of_ok (a := ()) _ (by rw [hmoved]), hmoved,
    Session.result_bind_of_ok _ (Session.result_get _), Session.state_get,
    Session.result_bind_of_ok (a := none) _ (by
      rw [Session.result_lift, ResultCache.result_get? (n := 1) _ _ _ rfl]
      rfl)]
  exact Session.result_bind_of_error _ h

theorem not_contained_of_assembleAt [AddressLibrary] (code : Bytes) (word : Traced Value)
    (sources : List SignatureSource) (hword : ∀ v, word.result = .ok v → p.words v)
    (hsources : ∀ source ∈ sources, ∀ kind key v,
      (source.candidates kind key).result = .ok v → p.candidates kind v) {f : Fault}
    (hf : f.Unannounced)
    (h : (assembleAt (single code word sources) .default (.int 1) Options.default.fuel 0 place
      ⟨.empty, []⟩).1.result = .error f) :
    ¬Contained p := by
  intro hp
  have hends := hp .fresh (.fresh (.inl rfl) _) (single code word sources)
    (within_single hword hsources) .default (by decide) (.text place) .null (.inl rfl)
  have hchain : (chainOf (single code word sources) place .null State.fresh.chain).result =
      .ok (.int 1) := rfl
  rw [result_assemble, checksum_place, Except.ok_bind, hchain, Except.ok_bind] at hends
  exact hf (hends.of_error (result_assembleOn_fresh h))

/-! ## Failures of a contract -/

section

variable {services : Services} {options : Options} {address : String} {chain : Value}
  {fuel depth : Nat} {w : Walk} {f : Fault}

theorem result_assembleAt_of_ownEntries [AddressLibrary]
    (h : (ownEntries services options address chain w.memory).1.result = .error f) :
    (assembleAt services options chain fuel depth address w).1.result = .error f := by
  rw [assembleAt_eq, Session.result_bind_of_ok (a := ()) _ rfl,
    Session.result_bind_of_ok (a := ()) _ rfl]
  exact Session.result_bind_of_error _ h

theorem result_assembleAt_of_detect [AddressLibrary] {own : Own} {m : Memory}
    (hown : (ownEntries services options address chain).Answers w.memory own m)
    (h : (Proxy.detect options.proxy services.reader (.text address) (own.selectors.map .text)
      own.codeValue).result = .error f) :
    (assembleAt services options chain (fuel + 1) depth address w).1.result = .error f := by
  have hfocus : (Session.focus Walk.memory (fun m w => { w with memory := m })
      (ownEntries services options address chain) (w.enter address)).1.result = .ok own :=
    hown.1
  rw [assembleAt_eq, Session.result_bind_of_ok (a := ()) _ rfl,
    Session.result_bind_of_ok (a := ()) _ rfl]
  refine (Session.result_bind_of_ok _ hfocus).trans ?_
  refine Session.result_bind_of_error _ ?_
  unfold delegationsOf followDelegation
  exact Session.result_bind_of_error _ h

/-- Services with one code tell nothing of a contract but the entries of that code. -/
theorem result_ownEntries_single (hcode : isBlankCode (.bytes code) = false) (m : Memory) :
    (ownEntries (single code word sources) options address chain m).1.result = (do
      return ⟨← entriesOf (tells sources m) options code, some code⟩) := by
  have hpublished : (published (single code word sources) address chain).result = .ok none := by
    unfold published
    rw [Traced.result_bind, AbiLoader.result_loadVerified]
    rfl
  have hread : (getCode (single code word sources).reader address chain).result = .ok code := by
    unfold getCode
    change (if isBlankCode (.bytes code) = true then _ else _ : Traced Bytes).result = _
    rw [hcode, if_neg (by simp), Traced.result_ofExcept]
    cases code with
    | nil => exact absurd hcode (by decide)
    | cons b rest => rfl
  unfold ownEntries
  rw [Session.result_bind_of_ok (a := none) _ hpublished]
  dsimp only
  rw [Session.result_bind_of_ok (a := code) _ hread, Session.result_bind, result_fromCode]
  rfl

end

/-! ## Chains -/

theorem chains_of_contained [AddressLibrary]
    (hp : Contained p) {chain : Value} (hchain : p.Chain chain) :
    chain.isNull = true ∨ ∃ n, chain.toWhole = .ok n := by
  cases hnull : chain.isNull with
  | true => exact .inl rfl
  | false =>
      cases hresult : chain.toWhole with
      | ok n => exact .inr ⟨n, rfl⟩
      | error f =>
          have hends := hp .fresh (.fresh (.inl rfl) _) (single [] (.fail (.timeout "")) [])
            (within_single nofun (by simp)) .default (by decide) (.text place) chain hchain
          have hgiven : (chainOf (single [] (.fail (.timeout "")) []) place chain
              State.fresh.chain).result = .ok chain := by
            rw [chainOf_of_known (.inl hnull), hnull]
            rfl
          have hfail : (assembleOn (single [] (.fail (.timeout "")) []) .default place chain
              State.fresh).1.result = .error f := by
            unfold assembleOn setChain
            rw [hresult]
            rfl
          rw [result_assemble, checksum_place, Except.ok_bind, hgiven, Except.ok_bind] at hends
          exact absurd (hends.of_error hfail) ((Value.unannounced_toWhole chain).of_error hresult)

/-! ## Words -/

theorem result_afterWord_of_error [AddressLibrary]
    {r : ChainReader} {address : String} {slot : ProxySlot}
    {w : Value} {f : Fault} (hw : Address.ofWordValue w = .error f) :
    (Proxy.afterWord r address slot w).result = .error f := by
  unfold Proxy.afterWord
  rw [Traced.result_bind, Traced.result_ofExcept, hw]
  rfl

/-- A word that cannot be read keeps all slots from being probed. -/
theorem result_probe_of_error [AddressLibrary]
    {r : ChainReader} {address : String} {slot : ProxySlot}
    {slots : List ProxySlot} {w : Value} {f : Fault}
    (hstorage : ∀ address slot, (r.storage address slot).result = .ok w)
    (hw : Address.ofWordValue w = .error f) :
    (Proxy.probe r address (slot :: slots)).result = .error f := by
  have hread : ∀ slot, (Proxy.readWord r address slot).result = .ok w := by
    intro slot
    unfold Proxy.readWord
    rw [Traced.result_bind, Traced.result_attempt, Except.ok_bind, hstorage]
    rfl
  unfold Proxy.probe
  rw [Traced.result_bind, Traced.result_mapM,
    Except.mapM_eq_ok_map (g := fun _ => w) fun slot _ => hread slot, Except.ok_bind,
    Traced.result_bind, List.map_cons, List.zip_cons_cons, Proxy.result_together, List.mapM_cons,
    result_afterWord_of_error hw]
  rfl

def plainCode : Bytes := [0xfe]

theorem functions_plainCode : Skeleton.functions plainCode = [] := by
  have hscan : Dispatcher.scan plainCode Dispatcher.defaultWindow = ⟨[], [], false⟩ := by
    decide +kernel
  rw [Skeleton.functions, hscan]
  rfl

theorem entriesOf_plainCode (say : LookupKind → String → Except Fault (Option Signature)) :
    entriesOf say .default plainCode = .ok [] := by
  rw [entriesOf, functions_plainCode]
  rfl

theorem result_detect_plainCode [AddressLibrary]
    {w : Value} {f : Fault} (hw : Address.ofWordValue w = .error f) :
    (Proxy.detect .default (single plainCode (.answer w) []).reader (.text place) []
      (.bytes plainCode)).result = .error f := by
  have hclone : (Proxy.cloneTarget (single plainCode (.answer w) []).reader
      (.bytes plainCode)).result = .ok none := rfl
  have hproxyLike : Proxy.isProxyLike [] = .ok false := rfl
  have hprobe : (Proxy.probe (single plainCode (.answer w) []).reader place
      Proxy.slots).result = .error f :=
    result_probe_of_error (fun _ _ => rfl) hw
  unfold Proxy.detect Proxy.detectAt
  rw [Traced.result_bind, Traced.result_ofExcept, checksum_place, Except.ok_bind,
    Traced.result_bind, hclone, Except.ok_bind]
  dsimp only
  rw [Traced.result_bind, Traced.result_ofExcept, hproxyLike, Except.ok_bind, if_neg (by simp),
    Traced.result_bind]
  change ((Proxy.probe (single plainCode (.answer w) []).reader place Proxy.slots).result >>= _) = _
  rw [hprobe]
  rfl

theorem words_of_contained [AddressLibrary]
    (hp : Contained p) {w : Value} (hw : p.words w) : Readable w := by
  cases hresult : Address.ofWordValue w with
  | ok found => exact ⟨found, hresult⟩
  | error f =>
      have hown : (ownEntries (single plainCode (.answer w) []) .default place (.int 1)).Answers
          .empty ⟨[], some plainCode⟩ _ :=
        ⟨(result_ownEntries_single (by decide) .empty).trans (by rw [entriesOf_plainCode]; rfl),
          rfl⟩
      refine absurd hp (not_contained_of_assembleAt plainCode (.answer w) [] ?_ (by simp)
        ((Address.unannounced_ofWordValue w).of_error hresult)
        (result_assembleAt_of_detect hown (result_detect_plainCode hresult)))
      intro v hv
      exact Except.ok.inj hv ▸ hw

/-! ## Candidates -/

def constantSource (kind : LookupKind) (v : Value) : SignatureSource where
  name := "constant"
  candidates other _ := if other = kind then .answer v else .fail (.timeout "")

theorem verdict_constantSource {key : String} (hv : v ≠ .null) :
    verdict kind key [constantSource kind v] = (do chosen kind key (← v.toItems)) := by
  have hoffered : offered? (constantSource kind v) kind key = some v := by
    have hanswer : ((constantSource kind v).candidates kind key).result = .ok v := by
      unfold constantSource
      dsimp only
      rw [if_pos rfl]
      rfl
    unfold offered?
    rw [hanswer]
    cases v with
    | null => exact absurd rfl hv
    | _ => rfl
  unfold verdict
  rw [hoffered]
  refine congrArg (v.toItems >>= ·) (funext fun items => ?_)
  cases chosen kind key items with
  | error f => rfl
  | ok found => cases found <;> rfl

theorem isBlankCode_of_mem_keysOf {key : String} (h : key ∈ keysOf kind code) :
    isBlankCode (.bytes code) = false := by
  cases hblank : isBlankCode (.bytes code) with
  | false => rfl
  | true =>
      have hcode : code = [] ∨ code = [0x30, 0x78] := by
        cases code with
        | nil => exact .inl rfl
        | cons b rest => exact .inr (by simpa [isBlankCode, Value.holds] using hblank)
      have hnone : keysOf kind code = [] := by
        rcases hcode with rfl | rfl <;> cases kind <;> decide +kernel
      rw [hnone] at h
      exact absurd h List.not_mem_nil

/-- What is told of the keys of a code whose entries are put together. -/
theorem builds_of_entriesOf {say : LookupKind → String → Except Fault (Option Signature)}
    {key : String} {entries : List Entry} (h : entriesOf say .default code = .ok entries)
    (hkey : key ∈ keysOf kind code) :
    ∃ o, say kind key = .ok o ∧ ∀ sig, o = some sig → Builds kind sig := by
  unfold entriesOf at h
  obtain ⟨functions, hfunctions, h⟩ := Except.bind_eq_ok_iff.1 h
  cases kind with
  | function => exact builds_of_enriched hfunctions hkey
  | event =>
      have hscan : EventTopics.scan code ≠ [] := List.ne_nil_of_mem hkey
      have htopics : Options.topics .default code = EventTopics.scan code := rfl
      rw [htopics, if_neg (by simpa using hscan)] at h
      obtain ⟨events, hevents, -⟩ := Except.bind_eq_ok_iff.1 h
      exact builds_of_eventsOf hevents hkey (EventTopics.normalize_of_mem_scan hkey)

theorem verdict_of_contained [AddressLibrary]
    (hp : Contained p) (hv : p.candidates kind v) {key : String}
    (hkey : InCode kind key) :
    ∃ o, verdict kind key [constantSource kind v] = .ok o ∧
      ∀ sig, o = some sig → Builds kind sig := by
  obtain ⟨code, hkey⟩ := hkey
  have htellable := tellable_unannounced [constantSource kind v] .empty
  have hentries : Except.Meets (fun entries => ∀ e ∈ entries, e.Spelt) Fault.Unannounced
      (entriesOf (tells [constantSource kind v] .empty) .default code) :=
    meets_entriesOf htellable (fun hnegative => absurd hnegative (by decide)) code
  cases hresult : entriesOf (tells [constantSource kind v] .empty) .default code with
  | ok entries =>
      obtain ⟨o, ho, hbuilds⟩ := builds_of_entriesOf hresult hkey
      refine ⟨o, ?_, hbuilds⟩
      rw [← ho]
      cases kind <;> rfl
  | error f =>
      refine absurd hp (not_contained_of_assembleAt code (.fail (.timeout ""))
        [constantSource kind v] nofun ?_ (hentries.of_error hresult) ?_)
      · intro source hsource other key answer hanswer
        obtain rfl := List.mem_singleton.1 hsource
        unfold constantSource at hanswer
        dsimp only at hanswer
        split at hanswer
        · subst_vars
          exact Except.ok.inj hanswer ▸ hv
        · exact absurd hanswer nofun
      · refine result_assembleAt_of_ownEntries ?_
        rw [result_ownEntries_single (isBlankCode_of_mem_keysOf hkey), hresult]
        rfl

theorem exists_inCode (kind : LookupKind) : ∃ key, InCode kind key := by
  cases kind with
  | function => exact ⟨"0x63874960", nestedCode, by decide +kernel⟩
  | event =>
      exact ⟨"0x8cb6d11c07e5800b143595cc7685e041fea0c7869d9b1b321d269541faeb8cb9", nestedCode,
        by decide +kernel⟩

theorem candidates_of_contained [AddressLibrary] (hp : Contained p) (hv : p.candidates kind v) :
    Resolver.Digestible kind v := by
  by_cases hnull : v = .null
  · exact .inl hnull
  · have hverdict : ∀ key, InCode kind key → ∃ o,
        (do chosen kind key (← v.toItems)) = Except.ok o ∧
          ∀ sig, o = some sig → Builds kind sig := by
      intro key hkey
      rw [← verdict_constantSource hnull]
      exact verdict_of_contained hp hv hkey
    obtain ⟨key, hkey⟩ := exists_inCode kind
    obtain ⟨o, ho, -⟩ := hverdict key hkey
    obtain ⟨items, hitems, -⟩ := Except.bind_eq_ok_iff.1 ho
    refine .inr ⟨items, hitems, fun key hkey => ?_⟩
    obtain ⟨found, hfound, hbuilds⟩ := hverdict key hkey
    rw [hitems, Except.ok_bind] at hfound
    exact ⟨found, hfound, hbuilds⟩

/-- Assemblies answer or fail as announced for digestible answers, and for no others. -/
theorem contained_iff_digestible [AddressLibrary]
    (p : Repertoire) : Contained p ↔ p.Digestible where
  mp hp :=
    { chains := fun _ => chains_of_contained hp
      words := fun _ => words_of_contained hp
      candidates := fun _ _ => candidates_of_contained hp }
  mpr := contained_of_digestible

end ContractAbi.Assembler
