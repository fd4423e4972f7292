import ContractAbi.Proofs.Assembly.HashIntegrity
import ContractAbi.Proofs.Assembly.Published
import ContractAbi.Proofs.Assembly.Step
import ContractAbi.Proofs.Chain.Containment
import ContractAbi.Proofs.Resolver.Digestible

/-!
# Failures that leave an assembly

An assembly is announced to end with a result, with an invalid address, or without a contract. It
does so for exactly those answers that it digests: chains that are numbers, words that can be read,
and candidates that can be gone through and made into entries.

* `Repertoire`: what an assembler is given and answered over its life;
* `Contained`: whatever an assembler meets of these, its assemblies end as announced;
* `meets_assemble`: with digestible answers an assembly ends as announced;
* `contained_of_digestible`: so do all assemblies of an assembler that has met no others.
-/

namespace ContractAbi.Assembler

open Resolver

/-! ## Repertoires -/

/-- What an assembler is given and answered: chains, words of storage and of calls, and candidates
for signatures. -/
structure Repertoire where
  chains : Value → Prop
  words : Value → Prop
  candidates : LookupKind → Value → Prop

def Repertoire.Chain (p : Repertoire) (chain : Value) : Prop :=
  chain.isNull = true ∨ p.chains chain

/-- Services that fail or answer within a repertoire. Codes are bytes or texts; loaders and the
reader's chain are free. -/
structure Services.Within (p : Repertoire) (s : Services) : Prop where
  code : ∀ address v, (s.reader.code address).result = .ok v →
    (∃ bs, v = .bytes bs) ∨ ∃ t, v = .text t
  storage : ∀ address slot v, (s.reader.storage address slot).result = .ok v → p.words v
  call : ∀ address data v, (s.reader.call address data).result = .ok v → p.words v
  candidates : ∀ source ∈ s.sources, ∀ kind key v,
    (source.candidates kind key).result = .ok v → p.candidates kind v

inductive Reaches [AddressLibrary] (p : Repertoire) : State → Prop
  | fresh {chain} (hchain : p.Chain chain) (cache) : Reaches p ⟨chain, cache, .empty⟩
  | assembled {s} (h : Reaches p s) {services : Services} (hservices : services.Within p)
      {options : Options} (hoptions : 1 ≤ options.concurrency) {chain} (hchain : p.Chain chain)
      (address) : Reaches p (assemble services options address chain s).2
  | moved {s} (h : Reaches p s) (chain) : Reaches p (setChain chain s).2
  | cleared {s} (h : Reaches p s) : Reaches p (clear s).2

/-- Every assembly within a repertoire answers, or fails as announced. -/
def Contained [AddressLibrary] (p : Repertoire) : Prop :=
  ∀ s, Reaches p s → ∀ services, services.Within p → ∀ options : Options, 1 ≤ options.concurrency →
    ∀ address chain, p.Chain chain →
      Except.Meets (fun _ => True) Fault.Announced
        (assemble services options address chain s).1.result

/-- A repertoire of chains that are numbers, words that can be read, and candidates that can be gone
through and made into entries. -/
structure Repertoire.Digestible [AddressLibrary] (p : Repertoire) : Prop where
  chains : ∀ chain, p.Chain chain → chain.isNull = true ∨ ∃ n, chain.toWhole = .ok n
  words : ∀ word, p.words word → Readable word
  candidates : ∀ kind v, p.candidates kind v → Resolver.Digestible kind v

/-! ## One contract -/

section

variable [AddressLibrary] {p : Repertoire} (hp : p.Digestible) {services : Services}
  (hservices : services.Within p) {options : Options} (hoptions : 1 ≤ options.concurrency)
  {chain : Value}

def Sound (m : Memory) : Prop :=
  m.All fun kind key sig => InCode kind key → Builds kind sig

include hp hservices

theorem verdict_builds (E : Fault → Prop) {kind : LookupKind} {key : String}
    (hkey : InCode kind key) :
    Except.Meets (fun o => ∀ sig, o = some sig → Builds kind sig) E
      (verdict kind key services.sources) :=
  meets_verdict (fun source hsource v hanswer =>
    hp.candidates kind v (hservices.candidates source hsource kind key v hanswer)) hkey

theorem sound_of_tells {m m' : Memory} (hm : Sound m)
    (h : tells services.sources m' = tells services.sources m) : Sound m' := by
  refine Memory.All.of_tells hm (fun kind key sig hverdict hkey => ?_) h
  exact (verdict_builds hp hservices (fun _ => False) hkey).of_ok hverdict sig rfl

theorem tellable_of_sound {m : Memory} (hm : Sound m) (E : Fault → Prop) :
    Tellable E (tells services.sources m) := by
  intro kind key hkey
  unfold tells view
  cases hknown : (m.memo kind).known? key with
  | none =>
      exact (verdict_builds hp hservices E hkey).mono
        (fun o ho sig hsig => (ho sig hsig).buildsOr E) fun _ h => h
  | some o =>
      refine .ok fun sig hsig => ?_
      rw [hsig] at hknown
      exact Builds.buildsOr (hm kind key sig hknown hkey) E

omit [AddressLibrary] in
omit hp hservices in
theorem meets_published {E : Fault → Prop} (address : String) :
    Except.Meets (fun o => ∀ entries, o = some entries → ∀ e ∈ entries, e.Spelt) E
      (published services address chain).result := by
  rcases result_published services address chain with
    ⟨own, hresult, _, _, hentries⟩ | ⟨hresult, -⟩
  · rw [hresult]
    refine .ok fun found hfound => ?_
    obtain rfl := Option.some.inj hfound
    exact Entry.spelt_of_ofAbi hentries
  · rw [hresult]
    exact .ok (by simp)

omit [AddressLibrary] in
omit hp hservices in
theorem meets_ofValue {v : Value} (hv : (∃ bs, v = .bytes bs) ∨ ∃ t, v = .text t) :
    Except.Meets (fun _ => True) Fault.Announced (Code.ofValue v) := by
  unfold Code.ofValue
  rcases hv with ⟨bs, rfl⟩ | ⟨t, rfl⟩
  · cases bs with
    | nil => exact .error (.noContract _ _ _)
    | cons b bs => exact .ok trivial
  · unfold Value.toBytes Value.bytesOfText
    dsimp only
    cases Hex.decodeLoose t with
    | error i => exact .error (.noContract _ _ _)
    | ok bs =>
        cases bs with
        | nil => exact .error (.noContract _ _ _)
        | cons b bs => exact .ok trivial

omit [AddressLibrary] in
omit hp in
theorem meets_getCode (address : String) :
    Except.Meets (fun _ => True) Fault.Announced
      (getCode services.reader address chain).result := by
  unfold getCode
  rw [Traced.result_bind, Traced.result_attempt, Except.ok_bind]
  cases hcode : (services.reader.code address).result with
  | error f => cases f <;> exact .error (.noContract _ _ _)
  | ok v =>
      dsimp only
      split
      · exact .error (.noContract _ _ _)
      · exact meets_ofValue (hservices.code address v hcode)

omit [AddressLibrary] in
omit hp hservices in
/-- The entries of a code are put together, up to failures of what is told of its keys. -/
theorem meets_entriesOf {E : Fault → Prop}
    {say : LookupKind → String → Except Fault (Option Signature)} (hsay : Tellable E say)
    (hlimit : options.concurrency < 0 → E (.malformed .negativeConcurrency)) (code : Bytes) :
    Except.Meets (fun entries => ∀ e ∈ entries, e.Spelt) E (entriesOf say options code) := by
  unfold entriesOf
  refine (meets_enriched hsay hlimit code).bind fun functions hfunctions => ?_
  have hspelt : ∀ events : List EventEntry,
      ∀ e ∈ functions.map Entry.function ++ events.map Entry.event, e.Spelt := by
    rintro events e he f rfl
    rcases List.mem_append.1 he with he | he
    · obtain ⟨g, hg, hgf⟩ := List.mem_map.1 he
      exact Entry.function.inj hgf ▸ hfunctions g hg
    · obtain ⟨g, -, hgf⟩ := List.mem_map.1 he
      exact absurd hgf (by simp)
  split
  · exact .ok (hspelt [])
  · have htopics : ∀ t ∈ options.topics code, t ∈ EventTopics.scan code := by
      unfold Options.topics
      split
      · exact fun t ht => ht
      · simp
    exact (meets_eventsOf hsay hlimit htopics).bind fun events _ => .ok (hspelt events)

include hoptions

theorem meets_fromCode (address : String) (code : Bytes) :
    (fromCode services options address code).Meets Sound (fun entries => ∀ e ∈ entries, e.Spelt)
      Fault.Announced := by
  intro m hm
  refine ⟨sound_of_tells hp hservices hm (tells_fromCode m), ?_⟩
  rw [result_fromCode]
  exact meets_entriesOf (tellable_of_sound hp hservices hm Fault.Announced)
    (fun hnegative => absurd hnegative (by omega)) code

def Own.Spelt (own : Own) : Prop :=
  ∀ e ∈ own.entries, e.Spelt

omit [AddressLibrary] in
omit hp hservices hoptions in
theorem Own.Spelt.selectors {own : Own} (h : own.Spelt) :
    Proxy.AreSpelt (own.selectors.map .text) := by
  intro v hv
  obtain ⟨s, hs, rfl⟩ := List.mem_map.1 hv
  obtain ⟨f, hf, rfl⟩ := List.mem_map.1 hs
  obtain ⟨e, he, hfunction⟩ := List.mem_filterMap.1 hf
  cases e with
  | function g =>
      obtain rfl := Option.some.inj hfunction
      exact ⟨g.selector, h _ he g rfl⟩
  | _ => exact absurd hfunction (by simp [Entry.function?])

theorem meets_ownEntries (address : String) :
    (ownEntries services options address chain).Meets Sound Own.Spelt Fault.Announced := by
  unfold ownEntries
  refine (Session.meets_lift (meets_published address)).bind fun found hfound => ?_
  cases found with
  | some entries => exact Session.meets_pure (hfound entries rfl)
  | none =>
      refine (Session.meets_lift (meets_getCode hservices address)).bind fun code _ => ?_
      refine (meets_fromCode hp hservices hoptions address code).bind fun entries hentries => ?_
      exact Session.meets_pure hentries

/-! ## Delegation -/

omit [AddressLibrary] in
omit hp hservices hoptions in
theorem meets_delegates {assemble : String → Session Walk Reconstruction}
    (hassemble : ∀ a, (assemble a).Meets (fun w => Sound w.memory) (fun _ => True) Fault.Announced)
    (addresses : List String) :
    (delegates assemble addresses).Meets (fun w => Sound w.memory) (fun _ => True)
      Fault.Announced := by
  induction addresses with
  | nil => exact Session.meets_pure trivial
  | cons address rest ih =>
      have hfirst : (delegate assemble address).Meets (fun w => Sound w.memory) (fun _ => True)
          Fault.Announced := by
        unfold delegate
        refine Session.meets_get.bind fun w _ => ?_
        split
        · exact (Session.meets_note _ _ _).bind fun _ _ => Session.meets_pure trivial
        · refine (hassemble address).attempt.bind fun outcome houtcome => ?_
          cases houtcome with
          | ok h => exact Session.meets_pure trivial
          | error h =>
              cases h with
              | invalidAddress v => exact Session.meets_fail (.invalidAddress v)
              | noContract =>
                  exact (Session.meets_note _ _ _).bind fun _ _ => Session.meets_pure trivial
      unfold delegates
      exact hfirst.bind fun _ _ => ih.bind fun _ _ => Session.meets_pure trivial

omit hoptions in
theorem meets_followDelegation {assemble : String → Session Walk Reconstruction}
    (hassemble : ∀ a, (assemble a).Meets (fun w => Sound w.memory) (fun _ => True) Fault.Announced)
    (address : String) {own : Own} (hown : own.Spelt) :
    (followDelegation services options assemble address own).Meets (fun w => Sound w.memory)
      (fun _ => True) Fault.Announced := by
  have hreader : services.reader.Readable :=
    ⟨fun a slot v h => hp.words v (hservices.storage a slot v h),
      fun a data v h => hp.words v (hservices.call a data v h)⟩
  have hcode : Proxy.IsCode own.codeValue := by
    unfold Own.codeValue
    cases own.code with
    | none => exact .inl rfl
    | some code => exact .inr ⟨code, rfl⟩
  unfold followDelegation
  refine (Session.meets_lift (Proxy.meets_detect hreader options.proxy _ hown.selectors
    hcode)).bind fun info _ => ?_
  refine (meets_delegates hassemble _).bind fun implementation _ => ?_
  refine (Session.meets_lift (Proxy.meets_detectFacets address hown.selectors)).bind
    fun facets _ => ?_
  split
  · exact Session.meets_pure trivial
  · refine (Session.meets_note _ _ _).bind fun _ _ => ?_
    exact (meets_delegates hassemble facets).bind fun _ _ => Session.meets_pure trivial

theorem meets_contract {fuel depth : Nat} {address : String}
    (hdelegations : ∀ own, Own.Spelt own →
      (delegationsOf services options chain fuel depth address own).Meets
        (fun w => Sound w.memory) (fun _ => True) Fault.Announced) :
    (assembleAt services options chain fuel depth address).Meets (fun w => Sound w.memory)
      (fun _ => True) Fault.Announced := by
  have henter : (Session.modify (Walk.enter · address)).Meets (fun w => Sound w.memory)
      (fun _ => True) Fault.Announced := Session.meets_modify fun w hw => hw
  rw [assembleAt_eq]
  refine (Session.meets_lift (P := fun _ => True) (.ok trivial)).bind fun _ _ => ?_
  refine henter.bind fun _ _ => ?_
  refine ((meets_ownEntries hp hservices hoptions address).focus (fun w hw => hw)
    fun w m _ hm => hm).bind fun own hown => ?_
  exact (hdelegations own hown).bind fun _ _ => Session.meets_pure trivial

theorem meets_assembleAt (fuel depth : Nat) (address : String) :
    (assembleAt services options chain fuel depth address).Meets (fun w => Sound w.memory)
      (fun _ => True) Fault.Announced := by
  induction fuel generalizing depth address with
  | zero => exact meets_contract hp hservices hoptions fun own _ => Session.meets_pure trivial
  | succ fuel ih =>
      exact meets_contract hp hservices hoptions fun own hown =>
        meets_followDelegation hp hservices (fun a => ih (depth + 1) a) address hown

/-! ## Whole assemblies -/

structure State.Sound (s : State) : Prop where
  chain : s.chain.isNull = true ∨ ∃ n, s.chain.toWhole = .ok n
  memory : Assembler.Sound s.memory

omit [AddressLibrary] in
omit hp hservices hoptions in
theorem meets_setChain {chain : Value} (hchain : ∃ n, chain.toWhole = .ok n) :
    (setChain chain).Meets State.Sound (fun _ => True) Fault.Announced := by
  obtain ⟨n, hn⟩ := hchain
  have hmove : (Session.modify fun s : State => { s with chain := .int n }).Meets State.Sound
      (fun _ => True) Fault.Announced :=
    Session.meets_modify fun s hs => ⟨.inr ⟨n, rfl⟩, hs.memory⟩
  unfold setChain
  rw [hn]
  refine (Session.meets_ofExcept (P := fun m => m = n) (.ok rfl)).bind ?_
  rintro m rfl
  refine Session.meets_get.bind fun s _ => ?_
  split
  · refine (Session.meets_note _ _ _).bind fun _ _ => ?_
    exact (Session.meets_modify fun s hs => ⟨hs.chain, hs.memory⟩).bind fun _ _ => hmove
  · exact hmove

theorem meets_assembleOn (address : String) {chain : Value} (hchain : ∃ n, chain.toWhole = .ok n) :
    (assembleOn services options address chain).Meets State.Sound (fun _ => True)
      Fault.Announced := by
  obtain ⟨n, hn⟩ := hchain
  unfold assembleOn
  refine (meets_setChain ⟨n, hn⟩).bind fun _ _ => ?_
  refine Session.meets_get.bind fun s _ => ?_
  refine (Session.meets_lift (P := fun _ => True) ?_).bind fun found _ => ?_
  · rw [ResultCache.result_get? _ _ _ hn]
    exact .ok trivial
  cases found with
  | some r => exact (Session.meets_note _ _ _).bind fun _ _ => Session.meets_pure trivial
  | none =>
      refine ((meets_assembleAt hp hservices hoptions options.fuel 0 address).focus
        (fun s hs => hs.memory) fun s w hs hw => ⟨hs.chain, hw⟩).bind fun r _ => ?_
      refine (Session.meets_ofExcept (P := fun _ => True) ?_).bind fun cache _ => ?_
      · rw [ResultCache.put_text _ _ _ _ _ hn]
        exact .ok trivial
      refine (Session.meets_modify fun s hs => ⟨hs.chain, hs.memory⟩).bind fun _ _ => ?_
      exact (Session.meets_lift (P := fun _ => True) (.ok trivial)).bind
        fun _ _ => Session.meets_pure trivial

omit [AddressLibrary] in
omit hp hservices hoptions in
/-- The chain of an assembly is a number, or the reader cannot tell it. -/
theorem meets_chainOf {given kept : Value} (address : String)
    (hgiven : given.isNull = true ∨ ∃ n, given.toWhole = .ok n)
    (hkept : kept.isNull = true ∨ ∃ n, kept.toWhole = .ok n) :
    Except.Meets (fun chain : Value => ∃ n, chain.toWhole = .ok n) Fault.Announced
      (chainOf services address given kept).result := by
  unfold chainOf
  cases hg : given.isNull with
  | false => exact .ok (hgiven.resolve_left (by simp [hg]))
  | true =>
      cases hk : kept.isNull with
      | false => exact .ok (hkept.resolve_left (by simp [hk]))
      | true =>
          unfold readChain
          rw [Traced.result_ite, if_neg (by simp), Traced.result_ite, if_neg (by simp),
            Traced.result_bind, Traced.result_attempt, Except.ok_bind]
          split
          · exact .ok ⟨_, rfl⟩
          · exact .error (.noContract _ _ _)
          · exact .error (.noContract _ _ _)

theorem meets_assemble {given : Value} (hgiven : p.Chain given) (address : Value) :
    (assemble services options address given).Meets State.Sound (fun _ => True)
      Fault.Announced := by
  rw [assemble_eq_assembleOn]
  refine (Session.meets_ofExcept (Address.announced_checksum address)).bind fun address _ => ?_
  refine Session.meets_get.bind fun s hs => ?_
  refine (Session.meets_lift (meets_chainOf address (hp.chains given hgiven) hs.chain)).bind
    fun chain hchain => ?_
  exact meets_assembleOn hp hservices hoptions address hchain

end

theorem Reaches.sound [AddressLibrary]
    {p : Repertoire} (hp : p.Digestible) {s : State} (h : Reaches p s) :
    s.Sound := by
  induction h with
  | fresh hchain cache => exact ⟨hp.chains _ hchain, Memory.all_empty⟩
  | assembled _ hservices hoptions hchain address ih =>
      exact (meets_assemble hp hservices hoptions hchain address _ ih).1
  | @moved s _ chain ih =>
      cases hwhole : chain.toWhole with
      | ok n => exact (meets_setChain ⟨n, hwhole⟩ s ih).1
      | error f =>
          rw [state_setChain_of_error hwhole]
          exact ih
  | cleared _ ih => exact ⟨ih.chain, Memory.all_empty⟩

/-- Assemblies that meet digestible answers only end as announced. -/
theorem contained_of_digestible [AddressLibrary]
    {p : Repertoire} (hp : p.Digestible) : Contained p :=
  fun s hs _ hservices _ hoptions address _ hchain =>
    (meets_assemble hp hservices hoptions hchain address s (hs.sound hp)).2

end ContractAbi.Assembler
