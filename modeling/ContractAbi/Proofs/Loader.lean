import ContractAbi.Loader
import ContractAbi.Proofs.Session.Trace

/-!
# What loaders give

* `AbiLoader.result_loadVerified`: of the interfaces that loaders give, the first one that holds is
  believed; loaders that fail give none;
* `AbiLoader.loadVerified_eq_some_iff`: the loaders after that one have no say in it.
-/

namespace ContractAbi.AbiLoader

def given (loader : AbiLoader) (address chain : Value) : Value :=
  match (loader.fetch address chain).result with
  | .ok v => v
  | .error _ => .null

theorem result_tryFetch (loader : AbiLoader) (address chain : Value) :
    (tryFetch loader address chain).result = .ok (loader.given address chain) := by
  unfold tryFetch given
  rw [Traced.result_bind, Traced.result_attempt, Except.ok_bind]
  cases (loader.fetch address chain).result with
  | ok v => rfl
  | error f => cases f <;> rfl

theorem firstHeld_zip (loaders : List AbiLoader) (f : AbiLoader → Value) :
    (firstHeld (loaders.zip (loaders.map f))).map Prod.snd =
      (loaders.map f).find? Value.holds := by
  induction loaders with
  | nil => rfl
  | cons loader rest ih =>
      rw [List.map_cons, List.zip_cons_cons, List.find?_cons]
      unfold firstHeld
      cases hholds : (f loader).holds with
      | true => rfl
      | false => exact ih

theorem result_loadVerified (loaders : List AbiLoader) (address chain : Value) :
    (loadVerified loaders address chain).result =
      .ok ((loaders.map fun loader => loader.given address chain).find? Value.holds) := by
  have hanswers : (loaders.mapM fun loader => tryFetch loader address chain).result =
      .ok (loaders.map fun loader => loader.given address chain) := by
    rw [Traced.result_mapM]
    exact Except.mapM_eq_ok_map fun loader _ => result_tryFetch loader address chain
  unfold loadVerified
  rw [Traced.result_bind, hanswers, Except.ok_bind, ← firstHeld_zip]
  cases firstHeld (loaders.zip (loaders.map fun loader => loader.given address chain)) with
  | none => rfl
  | some found => rfl

/-- An interface is believed if some loader gives it, it holds, and no loader before that one gives
one that holds. -/
theorem loadVerified_eq_some_iff {loaders : List AbiLoader} {address chain abi : Value} :
    (loadVerified loaders address chain).result = .ok (some abi) ↔
      ∃ before loader after, loaders = before ++ loader :: after ∧
        (loader.fetch address chain).result = .ok abi ∧ abi.holds = true ∧
        ∀ l ∈ before, ∀ v, (l.fetch address chain).result = .ok v → v.holds = false := by
  have hgiven : ∀ l : AbiLoader, (l.given address chain).holds = false ↔
      ∀ v, (l.fetch address chain).result = .ok v → v.holds = false := by
    intro l
    unfold given
    cases (l.fetch address chain).result with
    | error f => simp [Value.holds]
    | ok v => simp
  rw [result_loadVerified, Except.ok.injEq, List.find?_map, Option.map_eq_some_iff]
  simp only [Function.comp_def, List.find?_eq_some_iff_append, Bool.not_eq_true', hgiven]
  constructor
  · rintro ⟨loader, ⟨hholds, before, after, hloaders, hbefore⟩, rfl⟩
    have hfetch : (loader.fetch address chain).result = .ok (loader.given address chain) := by
      unfold given at hholds ⊢
      cases hresult : (loader.fetch address chain).result with
      | error f => exact absurd hholds (by simp [hresult, Value.holds])
      | ok v => rfl
    exact ⟨before, loader, after, hloaders, hfetch, hholds, hbefore⟩
  · rintro ⟨before, loader, after, hloaders, hfetch, hholds, hbefore⟩
    have hanswer : loader.given address chain = abi := by rw [given, hfetch]
    exact ⟨loader, ⟨by rwa [hanswer], before, after, hloaders, hbefore⟩, hanswer⟩

/-! ## What loaders ask -/

variable {R : Request → Prop} {address chain : Value}

theorem asks_tryFetch {loader : AbiLoader} (h : (loader.fetch address chain).Asks R) :
    (tryFetch loader address chain).Asks R := by
  unfold tryFetch
  refine h.attempt.bind fun result => ?_
  split
  · exact Traced.asks_pure _
  · exact (Traced.asks_note _ _ _).bind fun _ => Traced.asks_pure _
  · exact (Traced.asks_note _ _ _).bind fun _ => Traced.asks_pure _
  · exact (Traced.asks_note _ _ _).bind fun _ => Traced.asks_pure _

theorem asks_loadVerified {loaders : List AbiLoader}
    (h : ∀ loader ∈ loaders, (loader.fetch address chain).Asks R) :
    (loadVerified loaders address chain).Asks R := by
  unfold loadVerified
  refine (Traced.Asks.mapM fun loader hloader => asks_tryFetch (h loader hloader)).bind
    fun answers => ?_
  split
  · exact (Traced.asks_note _ _ _).bind fun _ => Traced.asks_pure _
  · exact Traced.asks_pure _

end ContractAbi.AbiLoader
