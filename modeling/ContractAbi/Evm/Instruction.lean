import ContractAbi.Evm.Opcode
import ContractAbi.Value.Access

/-!
# Instructions

Byte code as a list of instructions, from its first byte on. A push takes the bytes behind it as
its immediate; the last push may find fewer than it asks for.
-/

namespace ContractAbi

/-- An instruction and the place of its opcode in the code. -/
structure Instruction where
  pc : Nat
  opcode : UInt8
  immediate : Bytes
  deriving Repr, DecidableEq

namespace Instruction

def name (i : Instruction) : String :=
  Opcode.name i.opcode

/-- The place right behind the instruction and the whole of its immediate. -/
def next (i : Instruction) : Nat :=
  i.pc + 1 + Opcode.pushSize i.opcode

def encode (i : Instruction) : Bytes :=
  i.opcode :: i.immediate

def line (i : Instruction) : String :=
  Hex.ofNatPadded 6 i.pc ++ "  " ++ i.name ++
    (if i.immediate.isEmpty then "" else " " ++ Hex.encode0x i.immediate)

end Instruction

/-- The instructions of the code from place `pc` on, of which the first `skip` bytes belong to the
push before. -/
def disassembleFrom (pc skip : Nat) : Bytes → List Instruction
  | [] => []
  | op :: rest =>
    if 0 < skip then disassembleFrom (pc + 1) (skip - 1) rest
    else ⟨pc, op, rest.take (Opcode.pushSize op)⟩ ::
      disassembleFrom (pc + 1) (Opcode.pushSize op) rest

def disassemble (code : Bytes) : List Instruction :=
  disassembleFrom 0 0 code

/-- The instructions of code that is given as bytes or as pairs of hex digits behind an optional
`0x`. -/
def disassembleValue : Value → Except Fault (List Instruction)
  | .bytes code => .ok (disassemble code)
  | .text s =>
    match Hex.decode (Hex.dropLower0x s.toList) with
    | .ok code => .ok (disassemble code)
    | .error i => .error (.malformed (.hex i))
  | v => .error (.misfit (.unsized v))

def listing (s : String) : Except Fault (List String) := do
  let instructions ← disassembleValue (.text (Text.trimmed s))
  return instructions.map Instruction.line

end ContractAbi
