import ContractAbi.Proofs.Evm.OpcodeName
import ContractAbi.Proofs.Evm.Sequence

/-!
# Code from its listing

A listing shows the place, the name and the immediate of each instruction. Nothing of the code is
lost in it.

* `flatMap_encode_disassembleFrom`: the bytes of the instructions are the bytes of the code;
* `length_immediate_of_mem_dropLast`: only the last instruction may lack some of its immediate;
* `assemble?_disassemble` and `disassembly_lossless`: the code is read back from what is shown.
-/

namespace ContractAbi

/-! ## Instructions as they are shown -/

namespace Instruction

def shown (i : Instruction) : Nat × String × Bytes :=
  (i.pc, i.name, i.immediate)

def encodeShown? : Nat × String × Bytes → Option Bytes
  | (_, name, immediate) => (Opcode.spelt? name).map (· :: immediate)

theorem encodeShown?_shown (i : Instruction) : encodeShown? i.shown = some i.encode := by
  rw [shown, encodeShown?, name, Opcode.spelt?_name]
  rfl

end Instruction

def assemble? (shown : List (Nat × String × Bytes)) : Option Bytes :=
  (shown.mapM Instruction.encodeShown?).map List.flatten

theorem assemble?_map_shown (is : List Instruction) :
    assemble? (is.map Instruction.shown) = some (is.flatMap Instruction.encode) := by
  have hbytes : (is.map Instruction.shown).mapM Instruction.encodeShown? =
      some (is.map Instruction.encode) := by
    induction is with
    | nil => rfl
    | cons i rest ih =>
        rw [List.map_cons, List.mapM_cons, Instruction.encodeShown?_shown, ih]
        rfl
  rw [assemble?, hbytes, List.flatMap_def]
  rfl

/-! ## Bytes of instructions -/

/-- The bytes of the instructions are those of the code, but for the bytes of the push before. -/
theorem flatMap_encode_disassembleFrom (pc skip : Nat) (code : Bytes) :
    (disassembleFrom pc skip code).flatMap Instruction.encode = code.drop skip := by
  induction code generalizing pc skip with
  | nil => rw [disassembleFrom, List.flatMap_nil, List.drop_nil]
  | cons op rest ih =>
      rw [disassembleFrom]
      by_cases hskip : 0 < skip
      · obtain ⟨n, rfl⟩ := Nat.exists_eq_succ_of_ne_zero (Nat.ne_of_gt hskip)
        rw [if_pos hskip, ih]
        rfl
      · obtain rfl : skip = 0 := by omega
        rw [if_neg hskip, List.flatMap_cons, ih, Instruction.encode, List.cons_append,
          List.take_append_drop]
        rfl

/-- All instructions but the last have the whole of their immediate. -/
theorem length_immediate_of_mem_dropLast {pc skip : Nat} {code : Bytes} {i : Instruction}
    (h : i ∈ (disassembleFrom pc skip code).dropLast) :
    i.immediate.length = Opcode.pushSize i.opcode := by
  induction code generalizing pc skip with
  | nil => exact absurd h (by simp [disassembleFrom])
  | cons op rest ih =>
      rw [disassembleFrom] at h
      by_cases hskip : 0 < skip
      · rw [if_pos hskip] at h
        exact ih h
      · rw [if_neg hskip] at h
        by_cases hlast : disassembleFrom (pc + 1) (Opcode.pushSize op) rest = []
        · rw [hlast] at h
          exact absurd h List.not_mem_nil
        · rw [List.dropLast_cons_of_ne_nil hlast] at h
          rcases List.mem_cons.1 h with rfl | h
          · -- another instruction follows, so the code does not end inside of the immediate
            have hlong : Opcode.pushSize op ≤ rest.length := by
              by_contra hshort
              exact hlast (disassembleFrom_of_length_le (Nat.le_of_not_le hshort))
            exact List.length_take_of_le hlong
          · exact ih h

/-! ## Listings -/

theorem assemble?_disassemble (code : Bytes) :
    assemble? ((disassemble code).map Instruction.shown) = some code := by
  rw [assemble?_map_shown, disassemble, flatMap_encode_disassembleFrom, List.drop_zero]

/-- The instructions of a code stand one after the other from its first byte on, each behind the
place that the immediate of the one before asks for, and only the last one may lack some of its
immediate. What is shown of them gives the code back, so no two codes are shown alike. -/
theorem disassembly_lossless (code : Bytes) :
    (∀ i ∈ (disassemble code).head?, i.pc = 0) ∧
      (disassemble code).IsChain (fun i j => j.pc = i.pc + 1 + Opcode.pushSize i.opcode) ∧
      (∀ i ∈ (disassemble code).dropLast, i.immediate.length = Opcode.pushSize i.opcode) ∧
      assemble? ((disassemble code).map Instruction.shown) = some code ∧
      ∀ code',
        (disassemble code').map Instruction.shown = (disassemble code).map Instruction.shown →
        code' = code := by
  refine ⟨?_, ?_, ?_, assemble?_disassemble code, ?_⟩
  · intro i hi
    exact pc_of_mem_head? hi
  · exact (isChain_disassembleFrom 0 0 code).imp fun _ _ hnext => hnext.symm
  · intro i hi
    exact length_immediate_of_mem_dropLast hi
  · intro code' hshown
    have hcode := assemble?_disassemble code
    rw [← hshown, assemble?_disassemble] at hcode
    exact Option.some.inj hcode

/-- Code with an opcode outside the instruction set and with a push that is cut off. -/
theorem disassembly_lossless_cutOff :
    (disassemble [0x0c, 0x60, 0x5b, 0x62, 0xff]).map Instruction.shown =
        [(0, "UNKNOWN_0x0c", []), (1, "PUSH1", [0x5b]), (3, "PUSH3", [0xff])] ∧
      assemble? [(0, "UNKNOWN_0x0c", []), (1, "PUSH1", [0x5b]), (3, "PUSH3", [0xff])] =
        some [0x0c, 0x60, 0x5b, 0x62, 0xff] := by
  have hshown : (disassemble [0x0c, 0x60, 0x5b, 0x62, 0xff]).map Instruction.shown =
      [(0, "UNKNOWN_0x0c", []), (1, "PUSH1", [0x5b]), (3, "PUSH3", [0xff])] := by
    decide +kernel
  obtain ⟨-, -, -, hcode, -⟩ := disassembly_lossless [0x0c, 0x60, 0x5b, 0x62, 0xff]
  rw [hshown] at hcode
  exact ⟨hshown, hcode⟩

end ContractAbi
