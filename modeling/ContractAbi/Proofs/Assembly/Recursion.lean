import ContractAbi.Address.Libraries
import ContractAbi.Proofs.Assembly.Orderly
import ContractAbi.Proofs.Assembly.Tables

/-!
# How an assembly goes from contract to contract

The recursion over contracts comes to an end at the depth up to which delegations are followed.

* `assembleAt_unique`: the recursion that asks at each depth whether it may go on;
* `Tidy`: the events of an orderly assembly from its first contract on;
* `recursion_safe`: whole assemblies.
-/

namespace ContractAbi

namespace Assembler

variable {services : Services} {options : Options} {chain : Value} {fuel depth limit : Nat}
  {address : String} {probing : List String} {w w' : Walk} {es : List Event}

/-! ## The depth at which it ends -/

def delegationsAt [AddressLibrary] (services : Services) (options : Options)
    (recur : Nat → String → Session Walk Reconstruction) (depth : Nat) (address : String)
    (own : Own) : Session Walk (Option ProxyInfo × List Reconstruction) :=
  if options.followProxies && decide ((depth : Int) < options.maxDepth) then
    followDelegation services options (recur (depth + 1)) address own
  else pure (none, [])

def contract [AddressLibrary] (services : Services) (options : Options) (chain : Value)
    (recur : Nat → String → Session Walk Reconstruction) (depth : Nat) (address : String) :
    Session Walk Reconstruction := do
  let own ← enter services options chain depth address
  let (proxy, found) ← delegationsAt services options recur depth address own
  return ⟨.text address, chain, Entry.merge own.completed (found.map Reconstruction.entries),
    own.sourceKind, proxy, own.selectors.map .text⟩

theorem follows_iff {options : Options} :
    (options.followProxies && decide ((depth : Int) < options.maxDepth)) = true ↔
      depth < options.fuel := by
  unfold Options.fuel
  cases options.followProxies with
  | false => simp
  | true =>
      simp only [Bool.true_and, decide_eq_true_eq, if_true]
      omega

theorem contract_of_lt [AddressLibrary] {recur : Nat → String → Session Walk Reconstruction}
    (h : depth < options.fuel)
    (hrecur : recur (depth + 1) =
      assembleAt services options chain (options.fuel - (depth + 1)) (depth + 1)) :
    contract services options chain recur depth =
      assembleAt services options chain (options.fuel - depth) depth := by
  funext address
  obtain ⟨k, hk⟩ : ∃ k, options.fuel - depth = k + 1 := ⟨options.fuel - depth - 1, by omega⟩
  have hnext : options.fuel - (depth + 1) = k := by omega
  have hsame : delegationsAt services options recur depth address =
      delegationsOf services options chain (k + 1) depth address := by
    funext own
    rw [delegationsAt, if_pos (follows_iff.2 h), hrecur, hnext]
    rfl
  rw [hk, assembleAt_eq_enter, contract, hsame]

theorem contract_of_not_lt [AddressLibrary] (recur : Nat → String → Session Walk Reconstruction)
    (h : ¬depth < options.fuel) :
    contract services options chain recur depth =
      assembleAt services options chain (options.fuel - depth) depth := by
  funext address
  have hzero : options.fuel - depth = 0 := by omega
  have hsame : delegationsAt services options recur depth address =
      delegationsOf services options chain 0 depth address := by
    funext own
    rw [delegationsAt, if_neg fun hfollows => h (follows_iff.1 hfollows)]
    rfl
  rw [hzero, assembleAt_eq_enter, contract, hsame]

/-- The recursion that asks at each depth whether it may go on comes to an end: there is exactly
one such recursion, and it is the one that counts the delegations left. -/
theorem assembleAt_unique [AddressLibrary] (recur : Nat → String → Session Walk Reconstruction) :
    (∀ depth, recur depth = contract services options chain recur depth) ↔
      recur = fun depth => assembleAt services options chain (options.fuel - depth) depth := by
  constructor
  · intro h
    have hat : ∀ left depth, options.fuel - depth = left →
        recur depth = assembleAt services options chain (options.fuel - depth) depth := by
      intro left
      induction left with
      | zero =>
          intro depth hleft
          rw [h depth]
          exact contract_of_not_lt recur (by omega)
      | succ left ih =>
          intro depth hleft
          rw [h depth]
          exact contract_of_lt (by omega) (ih (depth + 1) (by omega))
    exact funext fun depth => hat _ depth rfl
  · rintro rfl depth
    by_cases hdepth : depth < options.fuel
    · exact (contract_of_lt hdepth rfl).symm
    · exact (contract_of_not_lt _ hdepth).symm

/-! ## Whole assemblies -/

def Tidy (services : Services) (limit : Nat) (es : List Event) : Prop :=
  ∃ chain, ∃ w w' : Walk, w.visited = [] ∧ Orderly services chain limit [] w es w'

theorem tidy_nil : Tidy services limit [] :=
  ⟨.null, ⟨.empty, []⟩, _, rfl, .none _⟩

theorem Tidy.after_calm {es' : List Event} (h : ∀ e ∈ es, e.AsksOnly (Calm []))
    (h' : Tidy services limit es') : Tidy services limit (es ++ es') := by
  obtain ⟨chain, w, w', hw, hrest⟩ := h'
  exact ⟨chain, w, w', hw, (Orderly.of_calm h w rfl).append hrest⟩

theorem Tidy.append_quiet {es' : List Event} (h : Tidy services limit es)
    (h' : AsksLoaders [] es') : Tidy services limit (es ++ es') := by
  obtain ⟨chain, w, w', hw, hfirst⟩ := h
  refine ⟨chain, w, w', hw, hfirst.append (.of_entries_nil h'.entries h'.fetches ?_ rfl)⟩
  simp [h'.probes]

theorem asks_setChain {R : Request → Prop} (chain : Value) : (setChain chain).Asks R := by
  unfold setChain
  refine (Session.asks_ofExcept _).bind fun n => Session.asks_get.bind fun s => ?_
  split
  · refine (Session.asks_note _ _ _).bind fun _ => (Session.asks_modify _).bind fun _ => ?_
    exact Session.asks_modify _
  · exact Session.asks_modify _

theorem asks_get? {R : Request → Prop} (c : ResultCache) (now : Binary64)
    (address chain : Value) : (c.get? now address chain).Asks R := by
  unfold ResultCache.get?
  refine (Traced.asks_ofExcept _).bind fun found => ?_
  split
  · exact Traced.asks_pure _
  · split
    · exact Traced.asks_pure _
    · exact (Traced.asks_note _ _ _).bind fun _ => Traced.asks_pure _

theorem asks_chainOf {R : Request → Prop} (h : R .chainId) (place : String) (given kept : Value) :
    (chainOf services.observed place given kept).Asks R := by
  have hread : services.observed.reader.chainId.Asks R := Traced.asks_asking h
  unfold chainOf
  split
  · exact Traced.asks_pure _
  · split
    · exact Traced.asks_pure _
    · unfold readChain
      refine hread.attempt.bind fun result => ?_
      split
      · exact Traced.asks_pure _
      · exact Traced.asks_fail _
      · exact Traced.asks_fail _

theorem tidy_bind_of_asks {x : Session State α} {f : α → Session State β} (hx : x.Asks (Calm []))
    (hf : ∀ a s, Tidy services limit (f a s).1.events) (s : State) :
    Tidy services limit ((x >>= f) s).1.events := by
  have hleads : x.Leads (fun _ es _ => ∀ e ∈ es, e.AsksOnly (Calm [])) s := hx s
  have hrest : ∀ a s, (f a).Leads (fun _ es _ => Tidy services limit es) s := hf
  change (x >>= f).Leads (fun _ es _ => Tidy services limit es) s
  exact hleads.bind (fun h h' => h'.after_calm h) (fun _ => tidy_nil) fun a _ => hrest a _

theorem Tidy.bind_quiet {x : Session State α} {f : α → Session State β} {s : State}
    (hx : Tidy services limit (x s).1.events) (hf : ∀ a s, AsksLoaders [] (f a s).1.events) :
    Tidy services limit ((x >>= f) s).1.events := by
  have hleads : x.Leads (fun _ es _ => Tidy services limit es) s := hx
  have hrest : ∀ a s, (f a).Leads (fun _ es _ => AsksLoaders [] es) s := hf
  change (x >>= f).Leads (fun _ es _ => Tidy services limit es) s
  exact hleads.bind (fun h h' => h.append_quiet h') (fun _ => ⟨rfl, rfl, rfl⟩)
    fun a _ => hrest a _

/-- Once the address and the chain are known, the result is served, or the first contract is
assembled. -/
theorem tidy_assembleOn [AddressLibrary]
    {place : String} (hspelt : Address.IsSpelt place) (on : Value)
    (s : State) :
    Tidy services options.fuel (assembleOn services.observed options place on s).1.events := by
  unfold assembleOn
  refine tidy_bind_of_asks (asks_setChain on) (fun _ s => ?_) s
  refine tidy_bind_of_asks Session.asks_get (fun s' s => ?_) s
  refine tidy_bind_of_asks (Session.asks_lift (asks_get? _ _ _ _)) (fun found s => ?_) s
  cases found with
  | some r =>
      have hcalm : ∀ s : State, _ := (Session.asks_note (R := Calm []) .info origin
        ("Using cached result for " ++ place ++ " on chain " ++ on.plain)).bind
          fun _ => Session.asks_pure r
      simpa using tidy_nil.after_calm (hcalm s)
  | none =>
      have hwalk : (assembleAt services.observed options on options.fuel 0 place).Leads
          (Orderly services on options.fuel []) ⟨s.memory, []⟩ :=
        orderly_assembleAt (Nat.zero_add _) hspelt List.not_mem_nil
      have hfocus : Tidy services options.fuel (Session.focus (fun s => ⟨s.memory, []⟩)
          (fun (w : Walk) (s : State) => { s with memory := w.memory })
          (assembleAt services.observed options on options.fuel 0 place) s).1.events :=
        ⟨on, _, _, rfl, hwalk⟩
      refine hfocus.bind_quiet fun r s => ?_
      cases hput : s'.cache.put services.observed.now (.text place) on r r.verified with
      | error f => exact ⟨rfl, rfl, rfl⟩
      | ok cache => exact ⟨rfl, rfl, rfl⟩

theorem tidy_assemble [AddressLibrary]
    (services : Services) (options : Options) (address given : Value)
    (s : State) :
    Tidy services options.fuel (assemble services.observed options address given s).1.events := by
  rw [assemble_eq_assembleOn]
  cases hplace : Address.checksum address with
  | error f => exact tidy_nil
  | ok place =>
      rw [Session.run_bind_ofExcept_ok, Session.run_bind_get]
      have hcalm : Calm [] .chainId := ⟨rfl, fun a ha => absurd ha (by simp [Event.probed?])⟩
      exact tidy_bind_of_asks (Session.asks_lift (asks_chainOf hcalm _ _ _))
        (fun on s => tidy_assembleOn (Address.isSpelt_of_checksum hplace) on s) s

/-- Whatever the services answer and whether the assembly answers or fails: no address is entered
twice or deeper than the limit, loaders are asked once for each address that is entered, and
delegates are looked for of addresses above the limit only. The recursion that asks at each depth
whether it may go on is the one that ends where the limit is reached. -/
theorem recursion_safe [AddressLibrary]
    (services : Services) (options : Options) (address given : Value)
    (s : State) :
    let es := (assemble services.observed options address given s).1.events
    ((entries es).map fun p => Address.fold p.1).Nodup ∧
      (∀ p ∈ entries es, p.2 ≤ options.maxDepth.toNat) ∧
      (∃ chain, fetches es = (entries es).flatMap fun p => round services p.1 chain) ∧
      (∀ a ∈ probes es, ∃ d : Nat, (a, d) ∈ entries es ∧ (d : Int) < options.maxDepth) ∧
      ∀ chain recur, (∀ depth, recur depth = contract services options chain recur depth) ↔
        recur = fun depth => assembleAt services options chain (options.fuel - depth) depth := by
  intro es
  obtain ⟨chain, w, w', hw, hes⟩ := tidy_assemble services options address given s
  have hfuel : options.fuel ≤ options.maxDepth.toNat := by
    unfold Options.fuel
    split <;> omega
  have hvisited := hes.distinct (by simp [hw])
  rw [hes.visited, hw, List.append_nil] at hvisited
  refine ⟨(List.pairwise_reverse.1 hvisited).imp Ne.symm,
    fun p hp => Nat.le_trans (hes.depth p hp) hfuel, ⟨chain, hes.fetches⟩, fun a ha => ?_,
    fun chain recur => assembleAt_unique recur⟩
  obtain ⟨d, hd, hentered⟩ := (hes.probes a ha).resolve_left List.not_mem_nil
  exact ⟨d, hentered, by omega⟩

def cycleTables : Tables :=
  let slot : Value := .text "0x360894a13ba1a3210667c828492db98dca3e2076cc3735a920a3ca505d382bbc"
  { Tables.empty with
    codes := [("0x1111111111111111111111111111111111111111", .bytes [0xfe]),
      ("0x2222222222222222222222222222222222222222", .bytes [0xfe])]
    words := [
      (("0x1111111111111111111111111111111111111111", slot),
        .bytes (List.replicate 12 0 ++ List.replicate 20 0x22)),
      (("0x2222222222222222222222222222222222222222", slot),
        .bytes (List.replicate 12 0 ++ List.replicate 20 0x11))] }

open AddressLibrary in
/-- Of two proxies that delegate to each other each is entered once, and both are looked at for
delegates. -/
theorem recursion_safe_cycle :
    let es := (assemble cycleTables.services.observed .default
      (.text "0x1111111111111111111111111111111111111111") (.int 1)
      ⟨.null, .empty (.ofInt 60), .empty⟩).1.events
    entries es = [("0x1111111111111111111111111111111111111111", 0),
        ("0x2222222222222222222222222222222222222222", 1)] ∧
      (probes es).length = 10 ∧ ((entries es).map fun p => Address.fold p.1).Nodup ∧
      ∀ a ∈ probes es, ∃ d : Nat, (a, d) ∈ entries es ∧ (d : Int) < Options.default.maxDepth := by
  intro es
  have hclosed : entries es = [("0x1111111111111111111111111111111111111111", 0),
      ("0x2222222222222222222222222222222222222222", 1)] ∧ (probes es).length = 10 := by
    decide +kernel
  obtain ⟨hdistinct, -, -, hprobes, -⟩ := recursion_safe cycleTables.services .default
    (.text "0x1111111111111111111111111111111111111111") (.int 1)
    ⟨.null, .empty (.ofInt 60), .empty⟩
  exact ⟨hclosed.1, hclosed.2, hdistinct, hprobes⟩

end Assembler

end ContractAbi
