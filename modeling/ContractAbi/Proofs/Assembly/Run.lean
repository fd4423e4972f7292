import ContractAbi.Assembler
import ContractAbi.Proofs.Session.Run

/-!
# Runs of an assembly

What an assembly that answers has done: it found the contract's own entries, and entered the
contracts that are delegated to one after the other, each of them once.

* `DelegateRun`: the contracts of a list, as they are passed over, skipped or entered;
* `Gathers`: the own entries and the delegates' interfaces that one assembly puts together;
* `assembleAt_answers`: every answer is put together from what was gathered.
-/

namespace ContractAbi.Assembler

variable {services : Services} {options : Options} {chain : Value} {fuel depth : Nat}
  {address : String} {w w' : Walk} {r : Reconstruction}

def Services.reading (s : Services) (reader : ChainReader) : Services :=
  { s with reader := reader }

def Walk.enter (w : Walk) (address : String) : Walk :=
  { w with visited := Address.fold address :: w.visited }

def delegationsOf [AddressLibrary] (services : Services) (options : Options) (chain : Value) :
    (fuel depth : Nat) → String → Own → Session Walk (Option ProxyInfo × List Reconstruction)
  | 0, _, _, _ => pure (none, [])
  | fuel + 1, depth, address, own =>
    followDelegation services options (assembleAt services options chain fuel (depth + 1)) address
      own

/-- One contract: it is entered, then its own entries are found, then what it delegates to. -/
theorem assembleAt_eq [AddressLibrary] (fuel depth : Nat) (address : String) :
    assembleAt services options chain fuel depth address = (do
      .lift ⟨.ok (), [.entered address depth]⟩
      .modify (Walk.enter · address)
      let own ← .focus Walk.memory (fun m w => { w with memory := m })
        (ownEntries services options address chain)
      let (proxy, found) ← delegationsOf services options chain fuel depth address own
      return ⟨.text address, chain, Entry.merge own.completed (found.map Reconstruction.entries),
        own.sourceKind, proxy, own.selectors.map .text⟩) := by
  cases fuel <;> rfl

/-- How contracts that are delegated to are assembled one after the other, and what of it is
kept. -/
inductive DelegateRun (assemble : String → Session Walk Reconstruction) :
    List String → Walk → List Reconstruction → Walk → Prop
  | done (w : Walk) : DelegateRun assemble [] w [] w
  | seen {a rest w found w'} (hseen : Address.fold a ∈ w.visited)
      (hrest : DelegateRun assemble rest w found w') :
      DelegateRun assemble (a :: rest) w found w'
  | skipped {a rest w found w' place c reason} (hnew : Address.fold a ∉ w.visited)
      (hfail : (assemble a w).1.result = .error (.noContract place c reason))
      (hrest : DelegateRun assemble rest (assemble a w).2 found w') :
      DelegateRun assemble (a :: rest) w found w'
  | entered {a rest w r w₁ found w'} (hnew : Address.fold a ∉ w.visited)
      (hanswer : (assemble a).Answers w r w₁)
      (hrest : DelegateRun assemble rest w₁ found w') :
      DelegateRun assemble (a :: rest) w (r :: found) w'

theorem DelegateRun.append {assemble : String → Session Walk Reconstruction}
    {as bs : List String} {w w₁ w₂ : Walk} {found more : List Reconstruction}
    (hfirst : DelegateRun assemble as w found w₁) (hsecond : DelegateRun assemble bs w₁ more w₂) :
    DelegateRun assemble (as ++ bs) w (found ++ more) w₂ := by
  induction hfirst with
  | done w => exact hsecond
  | seen hseen _ ih => exact .seen hseen (ih hsecond)
  | skipped hnew hfail _ ih => exact .skipped hnew hfail (ih hsecond)
  | entered hnew hanswer _ ih => exact .entered hnew hanswer (ih hsecond)

theorem delegate_answers {assemble : String → Session Walk Reconstruction} {a : String}
    {o : Option Reconstruction} (h : (delegate assemble a).Answers w o w') :
    (Address.fold a ∈ w.visited ∧ o = none ∧ w = w') ∨
      (Address.fold a ∉ w.visited ∧ o = none ∧ (assemble a w).2 = w' ∧
        ∃ place c reason, (assemble a w).1.result = .error (.noContract place c reason)) ∨
      (Address.fold a ∉ w.visited ∧ ∃ r, o = some r ∧ (assemble a).Answers w r w') := by
  unfold delegate at h
  rw [Session.answers_bind_iff] at h
  obtain ⟨_, _, hget, h⟩ := h
  obtain ⟨rfl, rfl⟩ := Session.answers_get_iff.1 hget
  by_cases hseen : Address.fold a ∈ w.visited
  · rw [if_pos (by simpa using hseen), Session.answers_bind_iff] at h
    obtain ⟨_, _, hnote, hpure⟩ := h
    rw [Session.answers_note_iff] at hnote
    rw [Session.answers_pure_iff] at hpure
    exact .inl ⟨hseen, hpure.1.symm, hnote.trans hpure.2⟩
  · rw [if_neg (by simpa using hseen), Session.answers_bind_iff] at h
    obtain ⟨result, t, hattempt, h⟩ := h
    obtain ⟨hresult, rfl⟩ := Session.answers_attempt_iff.1 hattempt
    cases result with
    | ok r =>
        obtain ⟨rfl, rfl⟩ := Session.answers_pure_iff.1 h
        exact .inr (.inr ⟨hseen, r, rfl, hresult, rfl⟩)
    | error f =>
        cases f with
        | noContract place c reason =>
            rw [Session.answers_bind_iff] at h
            obtain ⟨_, _, hnote, hpure⟩ := h
            rw [Session.answers_note_iff] at hnote
            rw [Session.answers_pure_iff] at hpure
            exact .inr (.inl ⟨hseen, hpure.1.symm, hnote.trans hpure.2, place, c, reason,
              hresult⟩)
        | _ => exact absurd (Session.answers_fail_iff.1 h) id

theorem delegates_answers {assemble : String → Session Walk Reconstruction} {as : List String}
    {found : List Reconstruction} (h : (delegates assemble as).Answers w found w') :
    DelegateRun assemble as w found w' := by
  induction as generalizing w found with
  | nil =>
      obtain ⟨rfl, rfl⟩ := Session.answers_pure_iff.1 h
      exact .done w
  | cons a rest ih =>
      unfold delegates at h
      rw [Session.answers_bind_iff] at h
      obtain ⟨o, w₁, hfirst, h⟩ := h
      rw [Session.answers_bind_iff] at h
      obtain ⟨more, w₂, hrest, hpure⟩ := h
      obtain ⟨rfl, rfl⟩ := Session.answers_pure_iff.1 hpure
      have hrun := ih hrest
      rcases delegate_answers hfirst with
        ⟨hseen, rfl, rfl⟩ | ⟨hnew, rfl, rfl, _, _, _, hfail⟩ | ⟨hnew, r, rfl, hanswer⟩
      · exact .seen hseen hrun
      · exact .skipped hnew hfail hrun
      · exact .entered hnew hanswer hrun

def delegateAddresses (info : Option ProxyInfo) (facets : List String) : List String :=
  (info.bind fun i => i.implementation.text?).toList ++ facets

/-- What following the delegations of a contract has answered: the implementation was assembled
first, then the facets in their order. -/
theorem followDelegation_answers [AddressLibrary]
    {assemble : String → Session Walk Reconstruction} {own : Own}
    {proxy : Option ProxyInfo} {found : List Reconstruction}
    (h : (followDelegation services options assemble address own).Answers w (proxy, found) w') :
    ∃ info facets,
      (Proxy.detect options.proxy services.reader (.text address) (own.selectors.map .text)
        own.codeValue).result = .ok info ∧
      (Proxy.detectFacets services.reader address (own.selectors.map .text)).result =
        .ok facets ∧
      DelegateRun assemble (delegateAddresses info facets) w found w' := by
  unfold followDelegation at h
  rw [Session.answers_bind_iff] at h
  obtain ⟨info, _, hdetect, h⟩ := h
  obtain ⟨hinfo, rfl⟩ := Session.answers_lift_iff.1 hdetect
  rw [Session.answers_bind_iff] at h
  obtain ⟨implementation, w₁, hfirst, h⟩ := h
  rw [Session.answers_bind_iff] at h
  obtain ⟨facets, _, hlift, h⟩ := h
  obtain ⟨hfacets, rfl⟩ := Session.answers_lift_iff.1 hlift
  refine ⟨info, facets, hinfo, hfacets, ?_⟩
  have hrun := delegates_answers hfirst
  by_cases hempty : facets.isEmpty
  · rw [if_pos hempty, Session.answers_pure_iff] at h
    obtain ⟨hpair, rfl⟩ := h
    obtain ⟨-, rfl⟩ := Prod.mk.inj hpair
    rw [List.isEmpty_iff] at hempty
    simpa [delegateAddresses, hempty] using hrun
  · rw [if_neg hempty, Session.answers_bind_iff] at h
    obtain ⟨_, _, hnote, h⟩ := h
    rw [Session.answers_note_iff] at hnote
    subst hnote
    rw [Session.answers_bind_iff] at h
    obtain ⟨others, w₂, hsecond, h⟩ := h
    obtain ⟨hpair, rfl⟩ := Session.answers_pure_iff.1 h
    obtain ⟨-, rfl⟩ := Prod.mk.inj hpair
    exact hrun.append (delegates_answers hsecond)

/-- The own entries that an assembly has found, and the interfaces of the contracts that it has
entered, in the order in which they were assembled. -/
inductive Gathers [AddressLibrary] (services : Services) (options : Options) (chain : Value) :
    (fuel depth : Nat) → String → Walk → Own → List Reconstruction → Walk → Prop
  | alone {depth address w own m}
      (hown : (ownEntries services options address chain).Answers w.memory own m) :
      Gathers services options chain 0 depth address w own []
        { w.enter address with memory := m }
  | following {fuel depth address w own m info facets found w'}
      (hown : (ownEntries services options address chain).Answers w.memory own m)
      (hinfo : (Proxy.detect options.proxy services.reader (.text address)
        (own.selectors.map .text) own.codeValue).result = .ok info)
      (hfacets : (Proxy.detectFacets services.reader address
        (own.selectors.map .text)).result = .ok facets)
      (hrun : DelegateRun (assembleAt services options chain fuel (depth + 1))
        (delegateAddresses info facets) { w.enter address with memory := m } found w') :
      Gathers services options chain (fuel + 1) depth address w own found w'

/-- Every answer is put together from the own entries and the interfaces of delegates. -/
theorem assembleAt_answers [AddressLibrary]
    (h : (assembleAt services options chain fuel depth address).Answers w r w') :
    ∃ own proxy found,
      Gathers services options chain fuel depth address w own found w' ∧
      r = ⟨.text address, chain, Entry.merge own.completed (found.map Reconstruction.entries),
        own.sourceKind, proxy, own.selectors.map .text⟩ := by
  rw [assembleAt_eq, Session.answers_bind_iff] at h
  obtain ⟨_, _, hnote, h⟩ := h
  obtain ⟨-, rfl⟩ := Session.answers_lift_iff.1 hnote
  rw [Session.answers_bind_iff] at h
  obtain ⟨_, _, henter, h⟩ := h
  rw [Session.answers_modify_iff] at henter
  subst henter
  rw [Session.answers_bind_iff] at h
  obtain ⟨own, _, hfocus, h⟩ := h
  obtain ⟨m, hown, rfl⟩ := Session.answers_focus_iff.1 hfocus
  rw [Session.answers_bind_iff] at h
  obtain ⟨⟨proxy, found⟩, w₁, hdelegations, h⟩ := h
  obtain ⟨rfl, rfl⟩ := Session.answers_pure_iff.1 h
  cases fuel with
  | zero =>
      obtain ⟨hnone, rfl⟩ := Session.answers_pure_iff.1 hdelegations
      obtain ⟨rfl, rfl⟩ := Prod.mk.inj hnone
      exact ⟨own, none, [], .alone hown, rfl⟩
  | succ fuel =>
      obtain ⟨info, facets, hinfo, hfacets, hrun⟩ := followDelegation_answers hdelegations
      exact ⟨own, proxy, found, .following hown hinfo hfacets hrun, rfl⟩

/-! ## Whole assemblies -/

/-- The chain that an assembly is on: the one given, else the assembler's, else the reader's. -/
def chainOf (services : Services) (address : String) (given kept : Value) : Traced Value :=
  if !given.isNull then pure given
  else if !kept.isNull then pure kept
  else readChain services.reader address

def assembleOn [AddressLibrary]
    (services : Services) (options : Options) (address : String) (chain : Value) :
    Session State Reconstruction := do
  setChain chain
  let s ← .get
  match ← .lift (s.cache.get? services.now (.text address) chain) with
  | some r =>
    .note .info origin ("Using cached result for " ++ address ++ " on chain " ++ chain.plain)
    return r
  | none =>
    let r ← .focus (fun s => ⟨s.memory, []⟩) (fun (w : Walk) s => { s with memory := w.memory })
      (assembleAt services options chain options.fuel 0 address)
    let cache ← .ofExcept (s.cache.put services.now (.text address) chain r r.verified)
    .modify fun s => { s with cache := cache }
    .lift ⟨.ok (), [.stored]⟩
    return r

theorem assemble_eq_assembleOn [AddressLibrary] (address chain : Value) :
    assemble services options address chain = (do
      let address ← .ofExcept (Address.checksum address)
      let s ← .get
      let chain ← .lift (chainOf services address chain s.chain)
      assembleOn services options address chain) := by
  unfold assemble
  refine congrArg (Session.ofExcept (Address.checksum address) >>= ·) (funext fun address => ?_)
  refine congrArg (Session.get >>= ·) (funext fun s => ?_)
  unfold chainOf
  split
  · rfl
  · split
    · rfl
    · rfl

theorem result_assemble [AddressLibrary] (address chain : Value) (s : State) :
    (assemble services options address chain s).1.result = (do
      let address ← Address.checksum address
      let chain ← (chainOf services address chain s.chain).result
      (assembleOn services options address chain s).1.result) := by
  rw [assemble_eq_assembleOn, Session.result_bind, Session.result_ofExcept,
    Session.state_ofExcept]
  refine congrArg (Address.checksum address >>= ·) (funext fun address => ?_)
  rw [Session.result_bind_of_ok _ (Session.result_get s), Session.state_get, Session.result_bind,
    Session.result_lift, Session.state_lift]

theorem chainOf_of_known {given kept : Value} (h : given.isNull = false ∨ kept.isNull = false) :
    chainOf services address given kept = pure (if given.isNull then kept else given) := by
  unfold chainOf
  cases hgiven : given.isNull with
  | false => rfl
  | true =>
      rw [hgiven] at h
      have hkept : kept.isNull = false := h.resolve_left (by simp)
      rw [hkept]
      rfl

end ContractAbi.Assembler
