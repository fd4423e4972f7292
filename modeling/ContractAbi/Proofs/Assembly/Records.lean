import ContractAbi.Address.Libraries
import ContractAbi.Proofs.Assembly.Step
import ContractAbi.Proofs.Assembly.MergeLaw

/-!
# The records of an assembler

Whatever an assembler is asked for, its cache holds results for the chain that it is on, each under
the address and chain of the result. An assembly that fails stores nothing.

* `Maintained` and `Maintained.run`: what every operation keeps, all of them keep in any order;
* `Filed` and `filed_maintained`: what is true of the records at any time;
* `cache_of_error`: what a failed assembly may do to the cache;
* `records_fit_run`: the records after any operations.
-/

namespace ContractAbi.Assembler

variable {services : Services} {options : Options} {address given : Value} {s : State} {n : Int}

/-! ## Operations -/

/-- What is asked of an assembler. Services answer as they do at the time, with the reader that the
assembler has then. -/
inductive Operation where
  | assemble (services : Services) (options : Options) (address given : Value)
  | setChain (chain : Value)
  | changeReader (given : Value)
  | clear

def Operation.apply [AddressLibrary] (s : State) : Operation → State
  | assemble services options address given =>
    (Assembler.assemble services options address given s).2
  | setChain chain => (Assembler.setChain chain s).2
  | changeReader given => (Assembler.changeReader given s).2
  | clear => (Assembler.clear s).2

def run [AddressLibrary] (operations : List Operation) (s : State) : State :=
  operations.foldl Operation.apply s

def Operation.chain : Operation → Value
  | assemble _ _ _ given => given
  | setChain chain => chain
  | changeReader given => given
  | clear => .null

/-- A property that every operation keeps, where it is given a chain with `W` or none. -/
structure Maintained [AddressLibrary] (W : Value → Prop) (P : State → Prop) : Prop where
  moveTo : ∀ s n, P s → P (s.moveTo n)
  assemble : ∀ services options address given s, given.isNull = true ∨ W given → P s →
    P (Assembler.assemble services options address given s).2
  clear : ∀ s, P s → P (Assembler.clear s).2

section

variable {W : Value → Prop} {P : State → Prop}

theorem Maintained.setChain [AddressLibrary] (hP : Maintained W P) (h : P s) (chain : Value) :
    P (Assembler.setChain chain s).2 := by
  cases hwhole : chain.toWhole with
  | ok n =>
      rw [(setChain_of_whole hwhole s).2]
      exact hP.moveTo s n h
  | error f =>
      rw [state_setChain_of_error hwhole]
      exact h

theorem Maintained.apply [AddressLibrary] (hP : Maintained W P) (h : P s) (operation : Operation)
    (hgiven : operation.chain.isNull = true ∨ W operation.chain) : P (operation.apply s) := by
  cases operation with
  | assemble services options address given =>
      exact hP.assemble services options address given s hgiven h
  | setChain chain => exact hP.setChain h chain
  | changeReader given =>
      change P (changeReader given s).2
      unfold changeReader
      by_cases hnull : given.isNull = true
      · rw [if_pos hnull]
        exact h
      · rw [if_neg hnull]
        exact hP.setChain h given
  | clear => exact hP.clear s h

theorem Maintained.run [AddressLibrary]
    (hP : Maintained W P) (h : P s) (operations : List Operation)
    (hgiven : ∀ o ∈ operations, o.chain.isNull = true ∨ W o.chain) :
    P (Assembler.run operations s) := by
  induction operations generalizing s with
  | nil => exact h
  | cons o rest ih =>
      exact ih (hP.apply h o (hgiven o List.mem_cons_self))
        fun o' ho' => hgiven o' (List.mem_cons_of_mem _ ho')

end

/-! ## Records -/

/-- A record goes by the address and chain of its result, is for the chain that the assembler is
on, and never grows stale if the result is an author's. -/
structure Fits (current : Value) (q : CacheRecord) : Prop where
  address : ∃ place, q.result.address = .text place ∧ q.address = .text (Text.lowered place)
  chain : q.result.chainId.toWhole = .ok q.chainId
  current : current = .int q.chainId
  verified : q.verified = q.result.verified

/-- All records fit and have keys of their own. Chains that were given have `W`. -/
structure Filed (W : Value → Prop) (s : State) : Prop where
  chain : s.chain.isNull = true ∨ W s.chain
  fits : ∀ q ∈ s.cache.records, Fits s.chain q
  given : ∀ q ∈ s.cache.records, W q.result.chainId
  distinct : s.cache.Distinct

variable {W : Value → Prop}

theorem filed_empty {cache : ResultCache} (hcache : cache.records = []) {m : Resolver.Memory}
    {chain : Value} (hchain : chain.isNull = true ∨ W chain) : Filed W ⟨chain, cache, m⟩ where
  chain := hchain
  fits q hq := by simp [hcache] at hq
  given q hq := by simp [hcache] at hq
  distinct := by simp [ResultCache.Distinct, hcache]

theorem filed_moveTo (hnumber : ∀ n, W (.int n)) (h : Filed W s) (n : Int) :
    Filed W (s.moveTo n) := by
  by_cases hoff : s.isOffChain n = true
  · rw [State.moveTo_of_isOffChain hoff]
    exact filed_empty rfl (.inr (hnumber n))
  · rw [State.moveTo_of_not_isOffChain hoff]
    refine ⟨.inr (hnumber n), fun q hq => ?_, h.given, h.distinct⟩
    have hfits := h.fits q hq
    -- a record shows which chain the assembler is on, so it has not been moved
    have hsame : q.chainId = n := by
      unfold State.isOffChain at hoff
      rw [hfits.current] at hoff
      simpa [Value.isNull, Value.same, Value.unified] using hoff
    exact ⟨hfits.address, hfits.chain, by rw [hsame], hfits.verified⟩

/-- The chain of an assembly is one that was given or kept, or a number of the reader's. -/
theorem chainOf_has (hnumber : ∀ n, W (.int n)) {place : String} {kept on : Value}
    (hgiven : given.isNull = true ∨ W given) (hkept : kept.isNull = true ∨ W kept)
    (h : (chainOf services place given kept).result = .ok on) : W on := by
  unfold chainOf at h
  cases hg : given.isNull with
  | false =>
      rw [hg] at h
      obtain rfl := Except.ok.inj h
      exact hgiven.resolve_left (by simp [hg])
  | true =>
      rw [hg] at h
      cases hk : kept.isNull with
      | false =>
          rw [hk] at h
          obtain rfl := Except.ok.inj h
          exact hkept.resolve_left (by simp [hk])
      | true =>
          rw [hk, if_neg (by simp), if_neg (by simp)] at h
          unfold readChain at h
          rw [Traced.result_bind, Traced.result_attempt, Except.ok_bind] at h
          split at h
          · obtain rfl := Except.ok.inj h
            exact hnumber _
          · exact absurd h (by simp)
          · exact absurd h (by simp)

/-- A result of an assembly is for the address and chain of that assembly. -/
theorem address_of_assembleAt [AddressLibrary]
    {chain : Value} {fuel depth : Nat} {place : String} {w w' : Walk}
    {r : Reconstruction}
    (h : (assembleAt services options chain fuel depth place).Answers w r w') :
    r.address = .text place ∧ r.chainId = chain := by
  obtain ⟨own, proxy, found, -, rfl⟩ := assembleAt_answers h
  exact ⟨rfl, rfl⟩

theorem filed_assemble [AddressLibrary] (hnumber : ∀ n, W (.int n)) (h : Filed W s)
    (hgiven : given.isNull = true ∨ W given) :
    Filed W (assemble services options address given s).2 := by
  generalize hresult : (assemble services options address given s).1.result = result
  generalize hstate : (assemble services options address given s).2 = s'
  have hrun : AssembleRun services options address given s result s' := by
    rw [← hresult, ← hstate]
    exact assemble_run _ _ _ _ _
  cases hrun with
  | refused _ => exact h
  | served _ _ => exact filed_moveTo hnumber h _
  | @failed place on n _ _ _ _ =>
      have hmoved := filed_moveTo hnumber h n
      exact ⟨hmoved.chain, hmoved.fits, hmoved.given, hmoved.distinct⟩
  | @stored place on n r w haim _ hanswer =>
      obtain ⟨-, hon, hn⟩ := aimOf_eq_ok_iff.1 haim
      obtain ⟨haddress, hchain⟩ := address_of_assembleAt hanswer
      have hmoved := filed_moveTo hnumber h n
      refine ⟨hmoved.chain, fun q hq => ?_, fun q hq => ?_, ResultCache.distinct_store
        hmoved.distinct _⟩
      · rcases ResultCache.mem_store hq with rfl | ⟨hq, -⟩
        · exact ⟨⟨place, haddress, rfl⟩, (congrArg Value.toWhole hchain).trans hn, rfl, rfl⟩
        · exact hmoved.fits q hq
      · rcases ResultCache.mem_store hq with rfl | ⟨hq, -⟩
        · have hW := chainOf_has hnumber hgiven h.chain hon
          rw [← hchain] at hW
          exact hW
        · exact hmoved.given q hq

theorem filed_maintained [AddressLibrary] (hnumber : ∀ n, W (.int n)) : Maintained W (Filed W) where
  moveTo _ n h := filed_moveTo hnumber h n
  assemble _ _ _ _ _ hgiven h := filed_assemble hnumber h hgiven
  clear _ h := filed_empty rfl h.chain

/-! ## Assemblies that fail -/

/-- A failed assembly leaves the cache as it was, or empty where it has moved to another chain. -/
theorem cache_of_error [AddressLibrary] {f : Fault}
    (h : (assemble services options address given s).1.result = .error f) :
    (assemble services options address given s).2.cache = s.cache ∨
      ∃ n, s.isOffChain n = true ∧
        (assemble services options address given s).2.cache = s.cache.clear ∧
        (assemble services options address given s).2.chain = .int n := by
  have hrun := assemble_run services options address given s
  generalize (assemble services options address given s).2 = s' at hrun ⊢
  rw [h] at hrun
  cases hrun with
  | refused _ => exact .inl rfl
  | @failed place on n _ _ _ _ =>
      by_cases hoff : s.isOffChain n = true
      · exact .inr ⟨n, hoff, by rw [State.moveTo_of_isOffChain hoff], rfl⟩
      · exact .inl (by rw [State.moveTo_of_not_isOffChain hoff])

/-- Where no chain is known and the reader tells none, an assembly fails and changes nothing. -/
theorem assemble_of_unknown_chain [AddressLibrary] {place : String} {f : Fault}
    (hplace : Address.checksum address = .ok place) (hgiven : given.isNull = true)
    (hkept : s.chain.isNull = true)
    (hread : services.reader.chainId.result.bind Value.toWhole = .error f) :
    (∃ reason, (assemble services options address given s).1.result =
      .error (.noContract place none (some reason))) ∧
      (assemble services options address given s).2 = s := by
  obtain ⟨reason, hreason⟩ : ∃ reason, (chainOf services place given s.chain).result =
      .error (.noContract place none (some reason)) := by
    unfold chainOf
    rw [hgiven, hkept, if_neg (by simp), if_neg (by simp)]
    unfold readChain
    rw [Traced.result_bind, Traced.result_attempt, Except.ok_bind, hread]
    cases f <;> exact ⟨_, rfl⟩
  have haim : aimOf services address given s = .error (.noContract place none (some reason)) := by
    rw [aimOf, hplace, Except.ok_bind, hreason]
    rfl
  have hrun := assemble_run services options address given s
  generalize (assemble services options address given s).2 = s' at hrun ⊢
  generalize (assemble services options address given s).1.result = result at hrun ⊢
  cases hrun with
  | refused h =>
      rw [haim] at h
      obtain rfl := Except.error.inj h
      exact ⟨⟨reason, rfl⟩, rfl⟩
  | served h _ | failed h _ _ | stored h _ _ =>
      rw [haim] at h
      exact absurd h (by simp)

/-! ## Whole lives -/

theorem toWhole_of_int? {v : Value} {m : Int} (h : v.int? = some m) : v.toWhole = .ok m := by
  cases v with
  | bool b => exact congrArg Except.ok (Option.some.inj h)
  | int k => exact congrArg Except.ok (Option.some.inj h)
  | _ => exact absurd h (by simp [Value.int?])

def IsNumbered (chain : Value) : Prop :=
  chain.isNull = true ∨ ∃ m, chain.int? = some m

/-- Whatever an assembler with an empty cache is asked for, its records fit, and have the chain of
their results as it is where only whole numbers are given. Failed assemblies store nothing, and
those that know no chain change nothing. -/
theorem records_fit_run [AddressLibrary] :
    (∀ (operations : List Operation) (chain : Value) (maxAge : Binary64) (m : Resolver.Memory),
      let s := run operations ⟨chain, .empty maxAge, m⟩
      (∀ q ∈ s.cache.records, Fits s.chain q) ∧ s.cache.Distinct ∧
        (IsNumbered chain → (∀ o ∈ operations, IsNumbered o.chain) →
          ∀ q ∈ s.cache.records, q.result.chainId.int? = some q.chainId)) ∧
    (∀ services options address given s f,
      (assemble services options address given s).1.result = .error f →
      (assemble services options address given s).2.cache = s.cache ∨
        ∃ n, s.isOffChain n = true ∧
          (assemble services options address given s).2.cache = s.cache.clear ∧
          (assemble services options address given s).2.chain = .int n) ∧
    (∀ services options address given s place f, Address.checksum address = .ok place →
      given.isNull = true → s.chain.isNull = true →
      services.reader.chainId.result.bind Value.toWhole = .error f →
      (∃ reason, (assemble services options address given s).1.result =
        .error (.noContract place none (some reason))) ∧
      (assemble services options address given s).2 = s) := by
  refine ⟨fun operations chain maxAge m => ?_, fun _ _ _ _ _ _ => cache_of_error,
    fun _ _ _ _ _ _ _ => assemble_of_unknown_chain⟩
  have hany : Filed (fun _ => True) (run operations ⟨chain, .empty maxAge, m⟩) :=
    (filed_maintained fun _ => trivial).run (filed_empty rfl (.inr trivial)) operations
      fun _ _ => .inr trivial
  refine ⟨hany.fits, hany.distinct, fun hchain hgiven q hq => ?_⟩
  have hchain : chain.isNull = true ∨ ∃ m, chain.int? = some m := hchain
  have hnumbered : Filed (fun v => ∃ m, v.int? = some m)
      (run operations ⟨chain, .empty maxAge, m⟩) :=
    (filed_maintained fun n => ⟨n, rfl⟩).run (filed_empty rfl hchain) operations hgiven
  obtain ⟨k, hk⟩ := hnumbered.given q hq
  have hwhole := (hnumbered.fits q hq).chain
  rw [toWhole_of_int? hk] at hwhole
  rw [hk, Except.ok.inj hwhole]

open AddressLibrary in
/-- A proxy is assembled, and then a place without a contract. -/
theorem records_fit_run_proxy :
    let services := overlapTables.services
    let proxy : Value := .text "0x1111111111111111111111111111111111111111"
    let bare : Value := .text "0x4444444444444444444444444444444444444444"
    let fresh : State := ⟨.null, .empty (.ofInt 60), .empty⟩
    let s := run [.assemble services .default proxy (.int 1), .changeReader .null] fresh
    (∃ q, s.cache.records = [q] ∧ Fits s.chain q ∧ q.result.chainId.int? = some q.chainId) ∧
      (∃ f, (assemble services .default bare (.int 1) s).1.result = .error f) ∧
      (assemble services .default bare (.int 1) s).2.cache = s.cache ∧
      (assemble services .default proxy .null fresh).2 = fresh := by
  intro services proxy bare fresh s
  have hclosed : s.cache.records.length = 1 ∧ s.isOffChain 1 = false ∧
      (assemble services .default bare (.int 1) s).1.result.isOk = false ∧
      (assemble services .default bare (.int 1) s).2.chain = .int 1 := by decide +kernel
  obtain ⟨hlength, hon, hfail, hchain⟩ := hclosed
  obtain ⟨f, hf⟩ := Except.exists_error_of_isOk hfail
  obtain ⟨g, hg⟩ := Except.exists_error_of_isOk
    (show (services.reader.chainId.result.bind Value.toWhole).isOk = false by decide +kernel)
  obtain ⟨place, hplace, -⟩ := Except.exists_ok_of_toOption
    (show (Address.checksum proxy).toOption.map String.length = some 42 by decide +kernel)
  obtain ⟨hlife, herror, hunknown⟩ := records_fit_run
  obtain ⟨hfits, -, hnumbered⟩ := hlife [.assemble services .default proxy (.int 1),
    .changeReader .null] .null (.ofInt 60) .empty
  have hs : run [.assemble services .default proxy (.int 1), .changeReader .null]
    ⟨.null, .empty (.ofInt 60), .empty⟩ = s := rfl
  clear_value s
  rw [hs] at hfits hnumbered
  have hnumbers : ∀ o ∈ [Operation.assemble services .default proxy (.int 1), .changeReader .null],
      IsNumbered o.chain := by
    intro o ho
    rcases List.mem_pair.1 ho with rfl | rfl
    · exact .inr ⟨1, rfl⟩
    · exact .inl rfl
  obtain ⟨q, hq⟩ := List.length_eq_one_iff.1 hlength
  have hmem : q ∈ s.cache.records := by simp [hq]
  refine ⟨⟨q, hq, hfits q hmem, hnumbered (.inl rfl) hnumbers q hmem⟩, ⟨f, hf⟩, ?_, ?_⟩
  · rcases herror services .default bare (.int 1) s f hf with hkept | ⟨n, hoff, -, hmoved⟩
    · exact hkept
    · obtain rfl : n = 1 := by simpa [hchain] using hmoved.symm
      exact absurd hoff (by simp [hon])
  · exact (hunknown services .default proxy .null fresh place g hplace rfl rfl hg).2

end ContractAbi.Assembler
