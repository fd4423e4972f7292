import ContractAbi.Proofs.Assembly.Run
import ContractAbi.Proofs.Cache

/-!
# What one assembly does to an assembler

An assembly refuses its address or chain and leaves the assembler as it was, or moves it to the
chain. There a fresh record serves the result; otherwise the contract is assembled, and the result
stored if there is one.

* `setChain_of_whole`: moving to a chain;
* `AssembleRun` and `assemble_run`: everything that an assembly can do.
-/

namespace ContractAbi.Assembler

variable {services : Services} {options : Options} {address chain : Value} {s : State} {n : Int}

/-! ## Moving to a chain -/

def State.isOffChain (s : State) (n : Int) : Bool :=
  !s.chain.isNull && !s.chain.same (.int n)

def State.moveTo (s : State) (n : Int) : State :=
  { s with chain := .int n, cache := if s.isOffChain n then s.cache.clear else s.cache }

@[simp] theorem State.maxAge_moveTo (s : State) (n : Int) :
    (s.moveTo n).cache.maxAge = s.cache.maxAge := by
  unfold moveTo
  dsimp only
  split <;> rfl

theorem State.moveTo_of_chain (h : s.chain = .int n) : s.moveTo n = s := by
  have hstays : s.isOffChain n = false := by simp [isOffChain, h, Value.same, Value.isNull]
  obtain ⟨chain, cache, memory⟩ := s
  obtain rfl : chain = .int n := h
  unfold moveTo
  rw [hstays]
  rfl

theorem State.moveTo_of_isOffChain (h : s.isOffChain n = true) :
    s.moveTo n = { s with chain := .int n, cache := s.cache.clear } := by
  simp [moveTo, h]

theorem State.moveTo_of_not_isOffChain (h : ¬s.isOffChain n = true) :
    s.moveTo n = { s with chain := .int n } := by
  simp [moveTo, h]

theorem State.mem_records_of_moveTo {q : CacheRecord} (h : q ∈ (s.moveTo n).cache.records) :
    q ∈ s.cache.records := by
  by_cases hoff : s.isOffChain n = true
  · rw [moveTo_of_isOffChain hoff] at h
    exact absurd h List.not_mem_nil
  · rwa [moveTo_of_not_isOffChain hoff] at h

/-- A chain that is a number is moved to, with no question to anyone. -/
theorem setChain_of_whole (h : chain.toWhole = .ok n) (s : State) :
    (setChain chain s).1.result = .ok () ∧ (setChain chain s).2 = s.moveTo n := by
  unfold setChain
  rw [h]
  by_cases hoff : s.isOffChain n = true
  · rw [State.moveTo_of_isOffChain hoff]
    unfold State.isOffChain at hoff
    simp only [Session.result_bind, Session.state_bind, Session.result_ofExcept,
      Session.state_ofExcept, Except.ok_bind, Session.result_get, Session.state_get]
    rw [if_pos hoff]
    exact ⟨rfl, rfl⟩
  · rw [State.moveTo_of_not_isOffChain hoff]
    unfold State.isOffChain at hoff
    simp only [Session.result_bind, Session.state_bind, Session.result_ofExcept,
      Session.state_ofExcept, Except.ok_bind, Session.result_get, Session.state_get]
    rw [if_neg hoff]
    exact ⟨rfl, rfl⟩

theorem state_setChain_of_error {f : Fault} (h : chain.toWhole = .error f) (s : State) :
    (setChain chain s).2 = s := by
  unfold setChain
  rw [h]
  exact Session.state_bind_of_error _ (Session.result_ofExcept _ s)

theorem result_setChain_of_error {f : Fault} (h : chain.toWhole = .error f) (s : State) :
    (setChain chain s).1.result = .error f := by
  unfold setChain
  rw [h]
  exact Session.result_bind_of_error _ (Session.result_ofExcept _ s)

/-! ## What an assembly is for -/

def aimOf [AddressLibrary] (services : Services) (address chain : Value) (s : State) :
    Except Fault (String × Value × Int) := do
  let place ← Address.checksum address
  let on ← (chainOf services place chain s.chain).result
  return (place, on, ← on.toWhole)

theorem aimOf_eq_ok_iff [AddressLibrary] {place : String} {on : Value} :
    aimOf services address chain s = .ok (place, on, n) ↔
      Address.checksum address = .ok place ∧
        (chainOf services place chain s.chain).result = .ok on ∧ on.toWhole = .ok n := by
  unfold aimOf
  constructor
  · intro h
    obtain ⟨place', hplace, h⟩ := Except.bind_eq_ok_iff.1 h
    obtain ⟨on', hon, h⟩ := Except.bind_eq_ok_iff.1 h
    obtain ⟨n', hn, h⟩ := Except.bind_eq_ok_iff.1 h
    obtain ⟨rfl, rfl, rfl⟩ : place' = place ∧ on' = on ∧ n' = n := by simpa using h
    exact ⟨hplace, hon, hn⟩
  · rintro ⟨hplace, hon, hn⟩
    rw [hplace, Except.ok_bind, hon, Except.ok_bind, hn]
    rfl

def State.served? (s : State) (now : Binary64) (place : String) (n : Int) : Option Reconstruction :=
  (s.cache.find? (Text.lowered place) n).bind fun r =>
    if r.isFresh now s.cache.maxAge then some r.result else none

def recordOf (place : String) (n : Int) (r : Reconstruction) (now : Binary64) : CacheRecord :=
  ⟨.text (Text.lowered place), n, r, now, r.verified⟩

theorem isFor_recordOf (place : String) (n : Int) (r : Reconstruction) (now : Binary64) :
    ResultCache.isFor (Text.lowered place) n (recordOf place n r now) = true := by
  simp [ResultCache.isFor, recordOf]

def State.keep (s : State) (record : CacheRecord) (m : Resolver.Memory) : State :=
  { s with cache := s.cache.store record, memory := m }

/-! ## All that an assembly can do -/

/-- The ways in which an assembly ends, each with its outcome and the assembler that it leaves. -/
inductive AssembleRun [AddressLibrary]
    (services : Services) (options : Options) (address chain : Value)
    (s : State) : Except Fault Reconstruction → State → Prop
  /-- The address or the chain cannot be read. -/
  | refused {f} (haim : aimOf services address chain s = .error f) :
      AssembleRun services options address chain s (.error f) s
  | served {place on n r} (haim : aimOf services address chain s = .ok (place, on, n))
      (hserved : (s.moveTo n).served? services.now place n = some r) :
      AssembleRun services options address chain s (.ok r) (s.moveTo n)
  | failed {place on n f} (haim : aimOf services address chain s = .ok (place, on, n))
      (hmissed : (s.moveTo n).served? services.now place n = none)
      (hfail : (assembleAt services options on options.fuel 0 place ⟨s.memory, []⟩).1.result =
        .error f) :
      AssembleRun services options address chain s (.error f)
        { s.moveTo n with
          memory := (assembleAt services options on options.fuel 0 place ⟨s.memory, []⟩).2.memory }
  | stored {place on n r w} (haim : aimOf services address chain s = .ok (place, on, n))
      (hmissed : (s.moveTo n).served? services.now place n = none)
      (hanswer : (assembleAt services options on options.fuel 0 place).Answers ⟨s.memory, []⟩ r w) :
      AssembleRun services options address chain s (.ok r)
        ((s.moveTo n).keep (recordOf place n r services.now) w.memory)

theorem assembleOn_run [AddressLibrary] {place : String} {on : Value}
    (haim : aimOf services address chain s = .ok (place, on, n)) :
    AssembleRun services options address chain s (assembleOn services options place on s).1.result
      (assembleOn services options place on s).2 := by
  obtain ⟨-, -, hn⟩ := aimOf_eq_ok_iff.1 haim
  obtain ⟨hmoved, hstate⟩ := setChain_of_whole hn s
  have hlookUp : ((s.moveTo n).cache.get? services.now (.text place) on).result =
      .ok ((s.moveTo n).served? services.now place n) :=
    ResultCache.result_get? _ _ _ hn
  unfold assembleOn
  rw [Session.result_bind_of_ok _ hmoved, Session.state_bind_of_ok _ hmoved, hstate,
    Session.result_bind_of_ok _ (Session.result_get _),
    Session.state_bind_of_ok _ (Session.result_get _), Session.state_get,
    Session.result_bind_of_ok _ hlookUp, Session.state_bind_of_ok _ hlookUp, Session.state_lift]
  cases hserved : (s.moveTo n).served? services.now place n with
  | some r => exact .served haim hserved
  | none =>
      dsimp only
      have hwalk : (Session.focus (fun s => ⟨s.memory, []⟩)
          (fun (w : Walk) (s : State) => { s with memory := w.memory })
          (assembleAt services options on options.fuel 0 place) (s.moveTo n)).1.result =
          (assembleAt services options on options.fuel 0 place ⟨s.memory, []⟩).1.result := rfl
      cases hresult : (assembleAt services options on options.fuel 0 place
          ⟨s.memory, []⟩).1.result with
      | error f =>
          rw [hresult] at hwalk
          rw [Session.result_bind_of_error _ hwalk, Session.state_bind_of_error _ hwalk]
          exact .failed haim hserved hresult
      | ok r =>
          rw [hresult] at hwalk
          rw [Session.result_bind_of_ok _ hwalk, Session.state_bind_of_ok _ hwalk,
            ResultCache.put_text _ _ _ _ _ hn]
          exact .stored haim hserved ⟨hresult, rfl⟩

theorem assemble_run [AddressLibrary]
    (services : Services) (options : Options) (address chain : Value)
    (s : State) :
    AssembleRun services options address chain s
      (assemble services options address chain s).1.result
      (assemble services options address chain s).2 := by
  rw [assemble_eq_assembleOn]
  cases hplace : Address.checksum address with
  | error f =>
      exact .refused (by rw [aimOf, hplace]; rfl)
  | ok place =>
      rw [Session.result_bind_of_ok (a := place) _ rfl, Session.state_bind_of_ok (a := place) _ rfl,
        Session.state_ofExcept, Session.result_bind_of_ok _ (Session.result_get _),
        Session.state_bind_of_ok _ (Session.result_get _), Session.state_get]
      cases hon : (chainOf services place chain s.chain).result with
      | error f =>
          rw [Session.result_bind_of_error (e := f) _ hon,
            Session.state_bind_of_error (e := f) _ hon]
          exact .refused (by rw [aimOf, hplace, Except.ok_bind, hon]; rfl)
      | ok on =>
          rw [Session.result_bind_of_ok (a := on) _ hon, Session.state_bind_of_ok (a := on) _ hon,
            Session.state_lift]
          cases hn : on.toWhole with
          | error f =>
              have hfail := result_setChain_of_error hn s
              unfold assembleOn
              rw [Session.result_bind_of_error _ hfail, Session.state_bind_of_error _ hfail,
                state_setChain_of_error hn]
              exact .refused (by
                rw [aimOf, hplace, Except.ok_bind, hon, Except.ok_bind, hn]
                rfl)
          | ok n => exact assembleOn_run (aimOf_eq_ok_iff.2 ⟨hplace, hon, hn⟩)

end ContractAbi.Assembler
