import ContractAbi.Evm.Instruction
import ContractAbi.Interface.Skeleton
import ContractAbi.Proofs.Evm.Code
import ContractAbi.Proofs.Text.HexPairs

/-!
# Code in hex, for selectors and for listings

Selectors are looked for in code as people write it, and a listing takes pairs of digits behind
`0x`. What both of them read are the same bytes, but a listing does not read all of it.

* `disassembleValue_text`: a listing is of what is read as it stands;
* `hex_readings_agree`: selectors are those of the bytes, and so is the listing of digits in pairs.
-/

namespace ContractAbi

theorem disassembleValue_text (s : String) :
    disassembleValue (.text s) =
      ((Hex.decode (Hex.dropLower0x s.toList)).mapError fun i => .malformed (.hex i)).map
        disassemble := by
  rw [disassembleValue]
  cases Hex.decode (Hex.dropLower0x s.toList) <;> rfl

/-- A text that is code has the selectors of its bytes. Without the blanks around it, it has their
listing if what is left is in pairs of digits behind an optional `0x`, and else it has none. -/
theorem hex_readings_agree (s : String) {code : Bytes} (h : Code.ofValue (.text s) = .ok code) :
    Skeleton.selectorsOfValue (.text s) = Skeleton.selectorsOfValue (.bytes code) ∧
      (Hex.Paired (Text.trim s.toList) →
        disassembleValue (.text (Text.trimmed s)) = disassembleValue (.bytes code)) ∧
      (¬Hex.Paired (Text.trim s.toList) →
        ∃ i, disassembleValue (.text (Text.trimmed s)) = .error (.malformed (.hex i))) := by
  obtain ⟨hne, hread⟩ := Code.ofValue_text_iff.1 h
  obtain ⟨hpaired, hunpaired⟩ := Hex.decode_dropLower0x hread
  have htrimmed : (Text.trimmed s).toList = Text.trim s.toList := String.toList_ofList
  refine ⟨?_, fun hin => ?_, fun hin => ?_⟩
  · rw [Skeleton.selectorsOfValue, Skeleton.selectorsOfValue, h, Code.ofValue_bytes hne]
  · rw [disassembleValue_text, htrimmed, hpaired hin]
    rfl
  · obtain ⟨i, hi⟩ := hunpaired hin
    exact ⟨i, by rw [disassembleValue_text, htrimmed, hi]; rfl⟩

/-- Blanks around the digits and between pairs, and digits of either case. -/
theorem hex_readings_agree_spaced :
    Code.ofValue (.text " 0x60  5B00 ") = .ok [0x60, 0x5b, 0x00] ∧
      Hex.Paired (Text.trim " 0x60  5B00 ".toList) ∧
      disassembleValue (.text (Text.trimmed " 0x60  5B00 ")) =
        .ok [⟨0, 0x60, [0x5b]⟩, ⟨2, 0x00, []⟩] := by
  have hcode : Code.ofValue (.text " 0x60  5B00 ") = .ok [0x60, 0x5b, 0x00] :=
    Code.ofValue_text_iff.2 ⟨by decide, by cbv⟩
  have hpaired : Hex.Paired (Text.trim " 0x60  5B00 ".toList) := by decide
  exact ⟨hcode, hpaired, (hex_readings_agree _ hcode).2.1 hpaired⟩

/-- Behind a capital `0X`, and in an odd number, digits are code that has no listing. -/
theorem unlisted_hex :
    (Code.ofValue (.text "0X5f") = .ok [0x5f] ∧
      disassembleValue (.text (Text.trimmed "0X5f")) = .error (.malformed (.hex 1)) ∧
      disassembleValue (.bytes [0x5f]) = .ok [⟨0, 0x5f, []⟩]) ∧
    Code.ofValue (.text "5f3") = .ok [0x05, 0xf3] ∧
      disassembleValue (.text (Text.trimmed "5f3")) = .error (.malformed (.hex 3)) ∧
      disassembleValue (.bytes [0x05, 0xf3]) = .ok [⟨0, 0x05, []⟩, ⟨1, 0xf3, []⟩] := by
  refine ⟨⟨?_, ?_, ?_⟩, ?_, ?_, ?_⟩
  · exact Code.ofValue_text_iff.2 ⟨by decide, by cbv⟩
  · rfl
  · rfl
  · exact Code.ofValue_text_iff.2 ⟨by decide, by cbv⟩
  · rfl
  · rfl

end ContractAbi
