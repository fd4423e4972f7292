import ContractAbi.Proofs.Interface.Backfill
import ContractAbi.Proofs.Signature

/-!
# Outputs that a signature states

A signature that states outputs, be it none at all, marks its function as one that only reads. A
function keeps what is known of its outputs as a list alone, so that stated outputs are told from
missing ones by the list: a function that is said to return nothing is filled in like one of which
nothing is said.

* `exists_of_applyTo`: the function that a signature with outputs makes;
* `describes_iff`: which well-known function describes it;
* `stated_outputs_kept`: what becomes of the outputs that are stated.
-/

namespace ContractAbi.Signature

open Fragment

variable {sig : Signature} {f g : FunctionEntry} {k : Fragment} {types : List String}

structure Names (sig : Signature) (k : Fragment) : Prop where
  name : sig.name = k.name
  inputs : sig.inputs.map TypeText.canonical = k.inputs.map TypeText.canonical

/-- The function that a signature with outputs makes, put together from its parts. -/
theorem exists_of_applyTo (houtputs : sig.outputs = some types) (h : sig.applyTo f = .ok g) :
    ∃ inputs outputs,
      Param.ofTypes "param" sig.inputs = .ok inputs ∧
      Param.ofTypes "output" types = .ok outputs ∧
      FunctionEntry.make (.text f.selector) (.text sig.name) inputs outputs (.text "view") =
        .ok g := by
  unfold applyTo at h
  rw [houtputs] at h
  obtain ⟨outputs, hout, h⟩ := Except.bind_eq_ok_iff.1 h
  rw [Except.pure_eq_ok, Except.ok_bind] at h
  obtain ⟨inputs, hinputs, h⟩ := Except.bind_eq_ok_iff.1 h
  exact ⟨inputs, outputs, hinputs, hout, h⟩

theorem canonicalTypes_applyTo (houtputs : sig.outputs = some types) (h : sig.applyTo f = .ok g) :
    Param.canonicalTypes g.inputs = .ok (sig.inputs.map TypeText.canonical) ∧
      Param.canonicalTypes g.outputs = .ok (types.map TypeText.canonical) := by
  obtain ⟨inputs, outputs, hinputs, hout, hmade⟩ := exists_of_applyTo houtputs h
  unfold FunctionEntry.make at hmade
  obtain ⟨selector, -, hmade⟩ := Except.bind_eq_ok_iff.1 hmade
  obtain rfl := Except.ok.inj hmade
  exact ⟨Param.canonicalTypes_ofTypes hinputs, Param.canonicalTypes_ofTypes hout⟩

theorem mutability_applyTo (houtputs : sig.outputs = some types) (h : sig.applyTo f = .ok g) :
    g.mutability = .text "view" := by
  obtain ⟨inputs, outputs, -, -, hmade⟩ := exists_of_applyTo houtputs h
  unfold FunctionEntry.make at hmade
  obtain ⟨selector, -, hmade⟩ := Except.bind_eq_ok_iff.1 hmade
  obtain rfl := Except.ok.inj hmade
  rfl

/-- The function has no outputs just where the signature states that there are none. -/
theorem outputs_eq_nil_iff (houtputs : sig.outputs = some types) (h : sig.applyTo f = .ok g) :
    g.outputs = [] ↔ types = [] := by
  have hcanonical := (canonicalTypes_applyTo houtputs h).2
  rw [Param.canonicalTypes_eq_mapM, Except.mapM_eq_ok_iff] at hcanonical
  have hlength := hcanonical.length_eq
  rw [List.length_map] at hlength
  rw [← List.length_eq_zero_iff, ← List.length_eq_zero_iff, hlength]

theorem describes_iff (houtputs : sig.outputs = some types) (h : sig.applyTo f = .ok g)
    (hk : k ∈ known) : k.Describes g ↔ sig.Names k := by
  have hinputs := (canonicalTypes_applyTo houtputs h).1
  obtain ⟨inputs, outputs, -, -, hmade⟩ := exists_of_applyTo houtputs h
  have hname : g.name = .text k.name ↔ sig.name = k.name := by
    unfold FunctionEntry.make at hmade
    obtain ⟨selector, -, hmade⟩ := Except.bind_eq_ok_iff.1 hmade
    obtain rfl := Except.ok.inj hmade
    dsimp only
    split
    · exact Value.text.injEq _ _ ▸ Iff.rfl
    · -- a function without a name goes by its selector, as no well-known one does
      rename_i hempty
      constructor
      · intro heq
        exact absurd (Value.text.inj heq).symm (name_ne_placeholder hk selector)
      · intro heq
        have hnames : ∀ k ∈ known, (Value.text k.name).holds = true := by decide
        rw [heq] at hempty
        exact absurd (hnames k hk) hempty
  constructor
  · intro hdescribes
    have hsame := hdescribes.inputs
    rw [hinputs] at hsame
    exact ⟨hname.1 hdescribes.name, Except.ok.inj hsame⟩
  · intro hnames
    exact ⟨hname.2 hnames.name, hinputs.trans (congrArg Except.ok hnames.inputs)⟩

theorem canonicalTypes_outputParams (hk : k ∈ known) :
    Param.canonicalTypes k.outputParams = .ok (k.outputs.map TypeText.canonical) :=
  Param.canonicalTypes_ofTypes (FunctionEntry.ofTypes_outputs hk)

theorem outputs_ne_nil (hk : k ∈ known) : k.outputs ≠ [] := by
  have houtputs : ∀ k ∈ known, k.outputs ≠ [] := by decide
  exact houtputs k hk

/-- What a signature states of outputs is still there, and the function still one that only reads,
after outputs are filled in, with one exception: where a signature with the name and the inputs of a
well-known function states that there are no outputs, those of the well-known function and its
mutability take their place. -/
theorem stated_outputs_kept (houtputs : sig.outputs = some types) (h : sig.applyTo f = .ok g) :
    ∃ g', Entry.backfill [.function g] = [.function g'] ∧
      ((Param.canonicalTypes g'.outputs = .ok (types.map TypeText.canonical) ∧
          g'.mutability = .text "view") ↔
        ¬(types = [] ∧ ∃ k ∈ known, sig.Names k)) ∧
      ∀ k ∈ known, types = [] → sig.Names k →
        Param.canonicalTypes g'.outputs = .ok (k.outputs.map TypeText.canonical) ∧
          g'.mutability = .text k.mutability := by
  have hempty := outputs_eq_nil_iff houtputs h
  have hfilled : ∀ k ∈ known, types = [] → sig.Names k → g.backfill = g.filledFrom k := by
    intro k hk hnone hnames
    apply FunctionEntry.backfill_eq_filledFrom (hempty.2 hnone) hk
    exact (describes_iff houtputs h hk).2 hnames
  refine ⟨g.backfill, rfl, ⟨?_, ?_⟩, ?_⟩
  · rintro ⟨hkept, -⟩ ⟨rfl, k, hk, hnames⟩
    rw [hfilled k hk rfl hnames, FunctionEntry.filledFrom, canonicalTypes_outputParams hk] at hkept
    have hnil : k.outputs = [] := by simpa using Except.ok.inj hkept
    exact outputs_ne_nil hk hnil
  · intro hexcept
    have hself : g.backfill = g := by
      apply FunctionEntry.backfill_eq_self
      intro hnil k hk hdescribes
      exact hexcept ⟨hempty.1 hnil, k, hk, (describes_iff houtputs h hk).1 hdescribes⟩
    rw [hself]
    exact ⟨(canonicalTypes_applyTo houtputs h).2, mutability_applyTo houtputs h⟩
  · intro k hk hnone hnames
    rw [hfilled k hk hnone hnames]
    exact ⟨canonicalTypes_outputParams hk, rfl⟩

/-- A number of decimals that is stated with another type than usual stays. -/
theorem stated_outputs_kept_decimals : ∃ sig g g',
    parse "decimals() returns (uint)" = .ok sig ∧
    sig.applyTo (.unresolved "0x313ce567" defaultMutability) = .ok g ∧
    Entry.backfill [.function g] = [.function g'] ∧
    Param.canonicalTypes g'.outputs = .ok ["uint256"] ∧ g'.mutability = .text "view" := by
  have hparse : parse "decimals() returns (uint)" = .ok ⟨"decimals", [], some ["uint"]⟩ := rfl
  have happly := Except.exists_ok_of_isOk (x := applyTo ⟨"decimals", [], some ["uint"]⟩
    (.unresolved "0x313ce567" defaultMutability)) (by decide +kernel)
  obtain ⟨g, hg⟩ := happly
  obtain ⟨g', hfilled, hkept, -⟩ := stated_outputs_kept rfl hg
  have htypes : ["uint"].map TypeText.canonical = ["uint256"] := by decide
  rw [htypes] at hkept
  exact ⟨_, g, g', hparse, hg, hfilled, hkept.2 (by simp)⟩

/-- A transfer that is stated to return nothing comes out as one that returns a truth value and
does not only read. -/
theorem stated_none_replaced : ∃ sig g g',
    parse "transfer(address,uint256) returns ()" = .ok sig ∧ sig.outputs = some [] ∧
    sig.applyTo (.unresolved "0xa9059cbb" defaultMutability) = .ok g ∧
    Param.canonicalTypes g.outputs = .ok [] ∧ g.mutability = .text "view" ∧
    Entry.backfill [.function g] = [.function g'] ∧
    Param.canonicalTypes g'.outputs = .ok ["bool"] ∧ g'.mutability = .text "nonpayable" := by
  have hparse : parse "transfer(address,uint256) returns ()" =
      .ok ⟨"transfer", ["address", "uint256"], some []⟩ := rfl
  have happly := Except.exists_ok_of_isOk
    (x := applyTo ⟨"transfer", ["address", "uint256"], some []⟩
    (.unresolved "0xa9059cbb" defaultMutability)) (by decide +kernel)
  obtain ⟨g, hg⟩ := happly
  have hknown : ⟨"transfer", ["address", "uint256"], ["bool"], "nonpayable"⟩ ∈ known := by
    simp [known]
  have hdescribes := (describes_iff rfl hg hknown).2 ⟨rfl, rfl⟩
  have hfilled := FunctionEntry.backfill_eq_filledFrom ((outputs_eq_nil_iff rfl hg).2 rfl) hknown
    hdescribes
  have hstated : Param.canonicalTypes g.outputs = .ok (List.map TypeText.canonical []) :=
    (canonicalTypes_applyTo rfl hg).2
  exact ⟨_, g, _, hparse, rfl, hg, hstated, mutability_applyTo rfl hg,
    congrArg (fun f => [Entry.function f]) hfilled, canonicalTypes_outputParams hknown, rfl⟩

end ContractAbi.Signature
