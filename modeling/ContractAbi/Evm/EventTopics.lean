import ContractAbi.Evm.Instruction

/-!
# Event topics

The constants of 32 bytes that code gives to a log in the same stretch between jump destinations.
-/

namespace ContractAbi.EventTopics

/-- The topics found so far, and the last constant that no log has used. -/
structure Scan where
  topics : List String
  pending : Option Bytes
  deriving Repr, DecidableEq

def isMask (word : Bytes) : Bool :=
  Bytes.padLeft 32 word == List.replicate 32 0xff

def step (s : Scan) (i : Instruction) : Scan :=
  if i.opcode = Opcode.jumpDest then { s with pending := none }
  else if i.opcode = Opcode.push32 then { s with pending := some i.immediate }
  else if Opcode.isTopicLog i.opcode then
    match s.pending with
    | some word =>
      let topic := Hex.encode0x word
      if isMask word || s.topics.contains topic then { s with pending := none }
      else ⟨s.topics ++ [topic], none⟩
    | none => s
  else s

def scan (code : Bytes) : List String :=
  ((disassemble code).foldl step ⟨[], none⟩).topics

end ContractAbi.EventTopics
