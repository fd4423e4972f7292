import ContractAbi.Evm.Code

/-!
# Code as a service gives it

* `Code.ofValue_bytes`: bytes are code as they are, if there are any;
* `Code.ofValue_text` and `Code.ofValue_text_iff`: a text is code if it is hex and stands for some
  bytes.
-/

namespace ContractAbi

def HexCode (s : String) : Prop :=
  s = "" ∨ s = "0x" ∨ s = "0X" ∨ ∃ code, code ≠ [] ∧ Value.bytesOfText s = .ok code

theorem Code.ofValue_bytes {code : Bytes} (h : code ≠ []) : ofValue (.bytes code) = .ok code := by
  cases code with
  | nil => exact absurd rfl h
  | cons op rest => rfl

theorem Code.ofValue_text (s : String) :
    (∃ code, code ≠ [] ∧ Value.bytesOfText s = .ok code ∧ ofValue (.text s) = .ok code) ∨
      ((∀ code, Value.bytesOfText s = .ok code → code = []) ∧
        ∃ f, ofValue (.text s) = .error f) := by
  rw [ofValue, Value.toBytes, Value.bytesOfText]
  cases hread : Hex.decodeLoose s with
  | ok code =>
      cases code with
      | nil => exact .inr ⟨fun code h => (Except.ok.inj h).symm, _, rfl⟩
      | cons op rest => exact .inl ⟨op :: rest, by simp, rfl, rfl⟩
  | error i => exact .inr ⟨fun code h => absurd h (by simp), _, rfl⟩

theorem Code.ofValue_text_iff {s : String} {code : Bytes} :
    ofValue (.text s) = .ok code ↔ code ≠ [] ∧ Hex.decodeLoose s = .ok code := by
  rw [ofValue, Value.toBytes, Value.bytesOfText]
  cases hread : Hex.decodeLoose s with
  | error i => simp
  | ok bytes =>
      cases bytes with
      | nil =>
          constructor
          · intro h
            cases h
          · rintro ⟨hne, h⟩
            exact absurd (Except.ok.inj h).symm hne
      | cons op rest =>
          change Except.ok (op :: rest) = .ok code ↔ _
          rw [Except.ok.injEq, Except.ok.injEq]
          constructor
          · intro h
            exact ⟨by rw [← h]; simp, h⟩
          · exact fun h => h.2

end ContractAbi
