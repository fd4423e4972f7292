import ContractAbi.Address.Libraries
import ContractAbi.Proofs.Assembly.HashIntegrity
import ContractAbi.Proofs.Assembly.Run
import ContractAbi.Proofs.Chain.Softening
import ContractAbi.Proofs.Loader

/-!
# Failures and absences

A service that fails counts as one that has nothing to say. Where some failures are replaced by
empty answers, an assembly answers the same, or finds no contract as before.

* `Resolver.verdict_of_softens` and `result_published_of_softens`: names and published interfaces;
* `simulates_assembleAt`: two assemblies side by side, contract by contract;
* `assemble_of_softens`: whole assemblies.
-/

namespace ContractAbi

def NoCandidates (v : Value) : Prop :=
  v = .list [] ∨ v = .null

/-- Some lookups that the first source fails on have no candidates with the second one. -/
def SignatureSource.Softens (a b : SignatureSource) : Prop :=
  ∀ kind key, (a.candidates kind key).Softened NoCandidates (b.candidates kind key)

def AbiLoader.Softens (a b : AbiLoader) : Prop :=
  ∀ address chain, (a.fetch address chain).Softened (· = .null) (b.fetch address chain)

namespace Resolver

theorem verdict_of_softens {sources sources' : List SignatureSource}
    (h : List.Forall₂ SignatureSource.Softens sources sources') (kind : LookupKind)
    (key : String) : verdict kind key sources' = verdict kind key sources := by
  induction h with
  | nil => rfl
  | cons hfirst _ ih =>
      unfold verdict offered?
      cases hfirst kind key with
      | same hsame => rw [hsame, ih]
      | softened hfail hanswer hempty =>
          rw [hfail, hanswer]
          rcases hempty with rfl | rfl
          · exact ih
          · exact ih

end Resolver

namespace AbiLoader

theorem given_of_softens {a b : AbiLoader} (h : a.Softens b) (address chain : Value) :
    b.given address chain = a.given address chain := by
  unfold given
  cases h address chain with
  | same hsame => rw [hsame]
  | softened hfail hanswer hempty => rw [hfail, hanswer, hempty]

theorem map_given_of_softens {loaders loaders' : List AbiLoader}
    (h : List.Forall₂ AbiLoader.Softens loaders loaders') (address chain : Value) :
    (loaders'.map fun loader => loader.given address chain) =
      loaders.map fun loader => loader.given address chain := by
  induction h with
  | nil => rfl
  | cons hfirst _ ih => rw [List.map_cons, List.map_cons, given_of_softens hfirst, ih]

end AbiLoader

namespace Assembler

open Resolver

/-- Some questions that the first services fail on have empty answers with the second ones. -/
structure Services.Softens (s t : Services) : Prop where
  reader : s.reader.Softens t.reader
  sources : List.Forall₂ SignatureSource.Softens s.sources t.sources
  loaders : List.Forall₂ AbiLoader.Softens s.loaders t.loaders
  now : t.now = s.now

/-- The same failure, or in both cases that no contract was found. -/
inductive SameFault : Fault → Fault → Prop
  | same (f) : SameFault f f
  | noContract (address chain reason address' chain' reason') :
      SameFault (.noContract address chain reason) (.noContract address' chain' reason')

variable {s t : Services} (h : s.Softens t) {options : Options} {chain : Value}

include h

/-! ## One contract -/

theorem result_published_of_softens (address : String) :
    (published t address chain).result = (published s address chain).result := by
  unfold published
  rw [Traced.result_bind, Traced.result_bind, AbiLoader.result_loadVerified,
    AbiLoader.result_loadVerified, AbiLoader.map_given_of_softens h.loaders]

theorem related_getCode (address : String) :
    Except.Related (· = ·) SameFault (getCode s.reader address chain).result
      (getCode t.reader address chain).result := by
  unfold getCode
  rw [Traced.result_bind, Traced.result_bind, Traced.result_attempt, Traced.result_attempt]
  cases h.reader.code address with
  | same hsame => exact .of_eq .same (by rw [hsame])
  | softened hfail hanswer hempty =>
      rw [hfail, hanswer, hempty]
      rename_i f v
      cases f <;> exact .error (.noContract _ _ _ _ _ _)

/-- What is told of each key does not hang on which of the services are asked. -/
def Alike (s t : Services) (m m' : Memory) : Prop :=
  tells s.sources m = tells t.sources m'

omit h in
theorem simulates_fromCode (address : String) (code : Bytes) :
    (fromCode s options address code).Simulates (Alike s t) (· = ·) SameFault
      (fromCode t options address code) := by
  intro m m' hm
  refine ⟨?_, .of_eq .same ?_⟩
  · unfold Alike
    rw [tells_fromCode, tells_fromCode]
    exact hm
  · rw [result_fromCode, result_fromCode, hm]

theorem simulates_ownEntries (address : String) :
    (ownEntries s options address chain).Simulates (Alike s t) (· = ·) SameFault
      (ownEntries t options address chain) := by
  unfold ownEntries
  refine (Session.simulates_lift (.of_eq .same
    (result_published_of_softens h address).symm)).bind ?_
  rintro found _ rfl
  cases found with
  | some entries => exact Session.simulates_pure rfl
  | none =>
      refine (Session.simulates_lift (related_getCode h address)).bind ?_
      rintro code _ rfl
      refine (simulates_fromCode address code).bind ?_
      rintro entries _ rfl
      exact Session.simulates_pure rfl

/-! ## Delegation -/

structure Walk.Alike (s t : Services) (w w' : Walk) : Prop where
  memory : Assembler.Alike s t w.memory w'.memory
  visited : w.visited = w'.visited

section

omit h

variable {assemble assemble' : String → Session Walk Reconstruction}
  (hassemble : ∀ a, (assemble a).Simulates (Walk.Alike s t) (· = ·) SameFault (assemble' a))

include hassemble

theorem simulates_delegate (address : String) :
    (delegate assemble address).Simulates (Walk.Alike s t) (· = ·) SameFault
      (delegate assemble' address) := by
  unfold delegate
  refine Session.simulates_get.bind fun w w' hw => ?_
  rw [hw.visited]
  split
  · refine (Session.simulates_note (U := fun _ _ => True) trivial).bind fun _ _ _ => ?_
    exact Session.simulates_pure rfl
  · refine (hassemble address).attempt.bind fun r r' hr => ?_
    cases hr with
    | ok hr => exact Session.simulates_pure (congrArg some hr)
    | error hfault =>
        cases hfault with
        | noContract =>
            refine (Session.simulates_note (U := fun _ _ => True) trivial).bind fun _ _ _ => ?_
            exact Session.simulates_pure rfl
        | same =>
            rename_i fault
            cases fault with
            | noContract =>
                refine (Session.simulates_note (U := fun _ _ => True) trivial).bind
                  fun _ _ _ => ?_
                exact Session.simulates_pure rfl
            | _ => exact Session.simulates_fail (.same _)

theorem simulates_delegates (addresses : List String) :
    (delegates assemble addresses).Simulates (Walk.Alike s t) (· = ·) SameFault
      (delegates assemble' addresses) := by
  induction addresses with
  | nil => exact Session.simulates_pure rfl
  | cons address rest ih =>
      unfold delegates
      refine (simulates_delegate hassemble address).bind ?_
      rintro found _ rfl
      refine ih.bind ?_
      rintro others _ rfl
      exact Session.simulates_pure rfl

end

theorem simulates_followDelegation [AddressLibrary]
    {assemble assemble' : String → Session Walk Reconstruction}
    (hassemble : ∀ a, (assemble a).Simulates (Walk.Alike s t) (· = ·) SameFault (assemble' a))
    (address : String) (own : Own) :
    (followDelegation s options assemble address own).Simulates (Walk.Alike s t) (· = ·) SameFault
      (followDelegation t options assemble' address own) := by
  unfold followDelegation
  refine (Session.simulates_lift (.of_eq .same
    (Proxy.result_detect_of_softens h.reader.probes _ _ _ _).symm)).bind ?_
  rintro info _ rfl
  refine (simulates_delegates hassemble _).bind ?_
  rintro implementation _ rfl
  refine (Session.simulates_lift (.of_eq .same
    (Proxy.result_detectFacets_of_softens h.reader _ _).symm)).bind ?_
  rintro facets _ rfl
  split
  · exact Session.simulates_pure rfl
  · refine (Session.simulates_note (U := fun _ _ => True) trivial).bind fun _ _ _ => ?_
    refine (simulates_delegates hassemble facets).bind ?_
    rintro others _ rfl
    exact Session.simulates_pure rfl

theorem simulates_contract [AddressLibrary] {fuel depth : Nat} {address : String}
    (hdelegations : ∀ own, (delegationsOf s options chain fuel depth address own).Simulates
      (Walk.Alike s t) (· = ·) SameFault (delegationsOf t options chain fuel depth address own)) :
    (assembleAt s options chain fuel depth address).Simulates (Walk.Alike s t) (· = ·) SameFault
      (assembleAt t options chain fuel depth address) := by
  rw [assembleAt_eq, assembleAt_eq]
  refine (Session.simulates_lift (P := fun _ _ => True) (.ok trivial)).bind fun _ _ _ => ?_
  refine (Session.simulates_modify (U := fun _ _ => True) trivial
    fun w w' hw => ⟨hw.memory, congrArg (_ :: ·) hw.visited⟩).bind fun _ _ _ => ?_
  refine ((simulates_ownEntries h address).focus (fun w w' hw => hw.memory)
    fun w w' m m' hw hm => ⟨hm, hw.visited⟩).bind ?_
  rintro own _ rfl
  refine (hdelegations own).bind ?_
  rintro ⟨proxy, found⟩ _ rfl
  exact Session.simulates_pure rfl

/-- Assemblies with both services answer the same, or fail in the same way. -/
theorem simulates_assembleAt [AddressLibrary] (fuel depth : Nat) (address : String) :
    (assembleAt s options chain fuel depth address).Simulates (Walk.Alike s t) (· = ·) SameFault
      (assembleAt t options chain fuel depth address) := by
  induction fuel generalizing depth address with
  | zero => exact simulates_contract h fun own => Session.simulates_pure rfl
  | succ fuel ih =>
      exact simulates_contract h fun own =>
        simulates_followDelegation h (fun a => ih (depth + 1) a) address own

/-! ## Whole assemblies -/

structure State.Alike (s t : Services) (a b : State) : Prop where
  chain : a.chain = b.chain
  cache : a.cache = b.cache
  memory : Assembler.Alike s t a.memory b.memory

omit h in
theorem simulates_setChain (chain : Value) :
    (setChain chain).Simulates (State.Alike s t) (fun _ _ => True) SameFault (setChain chain) := by
  unfold setChain
  refine (Session.simulates_ofExcept (.of_eq .same rfl)).bind ?_
  rintro chain _ rfl
  refine Session.simulates_get.bind fun a b hab => ?_
  rw [hab.chain]
  split
  · refine (Session.simulates_note (U := fun _ _ => True) trivial).bind fun _ _ _ => ?_
    refine (Session.simulates_modify (U := fun _ _ => True) trivial fun a b hab =>
      ⟨hab.chain, congrArg ResultCache.clear hab.cache, hab.memory⟩).bind fun _ _ _ => ?_
    exact Session.simulates_modify trivial fun a b hab => ⟨rfl, hab.cache, hab.memory⟩
  · exact Session.simulates_modify trivial fun a b hab => ⟨rfl, hab.cache, hab.memory⟩

theorem simulates_assembleOn [AddressLibrary] (address : String) (chain : Value) :
    (assembleOn s options address chain).Simulates (State.Alike s t) (· = ·) SameFault
      (assembleOn t options address chain) := by
  unfold assembleOn
  refine (simulates_setChain chain).bind fun _ _ _ => ?_
  refine Session.simulates_get.bind fun a b hab => ?_
  rw [hab.cache, h.now]
  refine (Session.simulates_lift (.of_eq .same rfl)).bind ?_
  rintro found _ rfl
  cases found with
  | some r =>
      refine (Session.simulates_note (U := fun _ _ => True) trivial).bind fun _ _ _ => ?_
      exact Session.simulates_pure rfl
  | none =>
      refine ((simulates_assembleAt h options.fuel 0 address).focus
        (fun a b hab => ⟨hab.memory, rfl⟩)
        fun a b w w' hab hw => ⟨hab.chain, hab.cache, hw.memory⟩).bind ?_
      rintro r _ rfl
      refine (Session.simulates_ofExcept (.of_eq .same rfl)).bind ?_
      rintro cache _ rfl
      refine (Session.simulates_modify (U := fun _ _ => True) trivial
        fun a b hab => ⟨hab.chain, rfl, hab.memory⟩).bind fun _ _ _ => ?_
      refine (Session.simulates_lift (P := fun _ _ => True) (.ok trivial)).bind fun _ _ _ => ?_
      exact Session.simulates_pure rfl

/-- Where some failures of services are replaced by empty answers, an assembly on a known chain
answers the same, or fails in the same way. -/
theorem assemble_of_softens [AddressLibrary] (options : Options) (address chain : Value) (a : State)
    (hchain : chain.isNull = false ∨ a.chain.isNull = false) :
    Except.Related (· = ·) SameFault (assemble s options address chain a).1.result
      (assemble t options address chain a).1.result := by
  have hmemory : Alike s t a.memory a.memory := by
    unfold Alike tells view
    funext kind key
    rw [verdict_of_softens h.sources]
  rw [result_assemble, result_assemble]
  refine (Except.Related.of_eq .same rfl).bind ?_
  rintro address _ rfl
  rw [chainOf_of_known hchain, chainOf_of_known hchain]
  exact (simulates_assembleOn h address _ a a ⟨rfl, rfl, hmemory⟩).2

omit h

def steadyServices (storage call candidates abi : Traced Value) : Services where
  reader := ⟨fun _ => .answer (.bytes [0xfe]), fun _ _ => storage, fun _ _ => call, .answer .null⟩
  sources := [⟨"static", fun _ _ => candidates⟩]
  loaders := [⟨"static", fun _ _ => abi⟩]
  now := .ofInt 0

open AddressLibrary in
/-- Timeouts, and empty answers in their place. -/
theorem assemble_of_softens_timeouts :
    let late := steadyServices (.fail (.timeout "")) (.fail (.timeout "")) (.fail (.timeout ""))
      (.fail (.timeout ""))
    let empty := steadyServices (.answer (.bytes zeroWord)) (.answer (.bytes []))
      (.answer (.list [])) (.answer .null)
    let address : Value := .text "0x1111111111111111111111111111111111111111"
    let fresh : State := ⟨.null, .empty (.ofInt 0), .empty⟩
    late.Softens empty ∧
      ∃ r, (assemble late .default address (.int 1) fresh).1.result = .ok r ∧
        (assemble empty .default address (.int 1) fresh).1.result = .ok r := by
  intro late empty address fresh
  have hsoftens : late.Softens empty :=
    { reader :=
        { code := fun _ => .same rfl
          storage := fun _ _ => .softened rfl rfl rfl
          call := fun _ _ => .softened rfl rfl rfl }
      sources := .cons (fun _ _ => .softened rfl rfl (.inl rfl)) .nil
      loaders := .cons (fun _ _ => .softened rfl rfl rfl) .nil
      now := rfl }
  refine ⟨hsoftens, ?_⟩
  have hrelated := assemble_of_softens hsoftens .default address (.int 1) fresh (.inl rfl)
  obtain ⟨r, hr, -⟩ := Except.exists_ok_of_toOption
    (show ((assemble late .default address (.int 1) fresh).1.result.toOption.map
      fun r => r.entries.length) = some 0 by decide +kernel)
  rw [hr] at hrelated
  obtain ⟨r', hr', rfl⟩ := hrelated.exists_ok
  exact ⟨r, hr, hr'⟩

end Assembler

end ContractAbi
