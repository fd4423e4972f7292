import ContractAbi.Signature
import ContractAbi.Proofs.Interface.Param
import ContractAbi.Proofs.Selector

/-!
# Entries from signatures

An entry that is made from a signature has that signature again, whatever the nesting of its types.

* `Signature.signature_applyTo` and `Signature.signature_toEvent`: the signature of the entry;
* `Signature.selector_applyTo` and `Signature.topic_toEvent`: its key.
-/

namespace ContractAbi.Signature

variable {sig : Signature} {f f' : FunctionEntry} {e : EventEntry}

theorem isName_of_parse {s : String} (h : parse s = .ok sig) : isName sig.name.toList = true := by
  unfold parse parseChars at h
  dsimp only at h
  split at h
  · exact absurd h (by simp [fail])
  · split at h
    · exact absurd h (by simp [fail])
    · rename_i hname
      split at h
      · exact absurd h (by simp [fail])
      · obtain ⟨inputs, -, h⟩ := Except.bind_eq_ok_iff.1 h
        obtain ⟨outputs, -, h⟩ := Except.bind_eq_ok_iff.1 h
        obtain rfl := Except.ok.inj h
        simpa using hname

theorem holds_of_isName {name : String} (h : isName name.toList = true) :
    (Value.text name).holds = true := by
  refine decide_eq_true fun hempty => ?_
  rw [hempty] at h
  exact absurd h (by decide)

/-- What a signature makes of a function: the parts that it is put together from. -/
theorem applyTo_eq_ok (h : sig.applyTo f = .ok f') :
    ∃ inputs outputs mutability,
      Param.ofTypes "param" sig.inputs = .ok inputs ∧
      ((outputs = f.outputs ∧ mutability = f.mutability) ∨
        ∃ types, Param.ofTypes "output" types = .ok outputs ∧ mutability = .text "view") ∧
      FunctionEntry.make (.text f.selector) (.text sig.name) inputs outputs mutability =
        .ok f' := by
  unfold applyTo at h
  dsimp only at h
  split at h
  · rename_i types _
    obtain ⟨outputs, houtputs, h⟩ := Except.bind_eq_ok_iff.1 h
    rw [Except.pure_eq_ok, Except.ok_bind] at h
    obtain ⟨inputs, hinputs, h⟩ := Except.bind_eq_ok_iff.1 h
    exact ⟨inputs, outputs, .text "view", hinputs, .inr ⟨types, houtputs, rfl⟩, h⟩
  · rw [Except.pure_eq_ok, Except.ok_bind] at h
    obtain ⟨inputs, hinputs, h⟩ := Except.bind_eq_ok_iff.1 h
    exact ⟨inputs, f.outputs, f.mutability, hinputs, .inl ⟨rfl, rfl⟩, h⟩

theorem selector_applyTo (hselector : Selector.normalize (.text f.selector) = .ok f.selector)
    (h : sig.applyTo f = .ok f') : f'.selector = f.selector := by
  obtain ⟨inputs, outputs, mutability, -, -, h⟩ := applyTo_eq_ok h
  unfold FunctionEntry.make at h
  rw [hselector, Except.ok_bind] at h
  obtain rfl := Except.ok.inj h
  rfl

theorem signature_applyTo (hname : isName sig.name.toList = true)
    (h : sig.applyTo f = .ok f') : f'.signature = .ok sig.text := by
  obtain ⟨inputs, outputs, mutability, hinputs, -, h⟩ := applyTo_eq_ok h
  unfold FunctionEntry.make at h
  obtain ⟨selector, -, h⟩ := Except.bind_eq_ok_iff.1 h
  obtain rfl := Except.ok.inj h
  rw [holds_of_isName hname, if_pos rfl]
  exact Param.signature_ofTypes hinputs

theorem topic_toEvent {topic : String} (htopic : Topic.normalize (.text topic) = .ok topic)
    (h : sig.toEvent (.text topic) = .ok e) : e.topic = topic := by
  unfold toEvent at h
  obtain ⟨inputs, -, h⟩ := Except.bind_eq_ok_iff.1 h
  unfold EventEntry.make at h
  rw [if_pos (Topic.holds_of_normalize htopic), htopic] at h
  obtain rfl := Except.ok.inj h
  rfl

theorem signature_toEvent {topic : Value} (h : sig.toEvent topic = .ok e) :
    e.signature = .ok sig.text := by
  unfold toEvent at h
  obtain ⟨inputs, hinputs, h⟩ := Except.bind_eq_ok_iff.1 h
  unfold EventEntry.make at h
  split at h
  · obtain ⟨key, -, h⟩ := Except.bind_eq_ok_iff.1 h
    obtain rfl := Except.ok.inj h
    exact Param.signature_ofTypes hinputs
  · obtain ⟨t, -, h⟩ := Except.bind_eq_ok_iff.1 h
    obtain ⟨key, -, h⟩ := Except.bind_eq_ok_iff.1 h
    obtain rfl := Except.ok.inj h
    exact Param.signature_ofTypes hinputs

end ContractAbi.Signature
