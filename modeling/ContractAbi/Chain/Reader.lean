import ContractAbi.Session
import ContractAbi.Address

/-!
# Reading a chain

The four questions that are asked of a chain, and a node that answers them.
-/

namespace ContractAbi

/-- What answers questions about a chain. -/
structure ChainReader where
  code : String → Traced Value
  storage : String → Value → Traced Value
  call : String → Bytes → Traced Value
  chainId : Traced Value

namespace ChainReader

def slotNumber : Value → Except Fault Value
  | .text s =>
    match Integer.read? 16 s with
    | some n => .ok (.int n)
    | none => .error (.malformed (.integer 16 (.text s)))
  | .int n => .ok (.int n)
  | .bool b => .ok (.bool b)
  | v => .error (.misfit (.notWhole v))

end ChainReader

/-- A node that is asked at one block. Its answers come as bytes or in hex. -/
structure Node where
  block : Value
  code : String → Traced Value
  storage : (address : String) → (slot : Value) → Traced Value
  call : String → Value → Traced Value
  chainId : Traced Value

namespace Node

def defaultBlock : Value := .text "latest"

variable [AddressLibrary]

def codeBytes (n : Node) (address : Value) : Traced Bytes := do
  let address ← .ofExcept (Address.checksumAny address)
  let code ← n.code address
  .ofExcept code.toBytes

def storageWord (n : Node) (address slot : Value) : Traced Bytes := do
  let address ← .ofExcept (Address.checksumAny address)
  let slot ← .ofExcept (ChainReader.slotNumber slot)
  let word ← n.storage address slot
  .ofExcept (word.toBytes.map (Bytes.padLeft 32))

def callBytes (n : Node) (address data : Value) : Traced Bytes := do
  let address ← .ofExcept (Address.checksumAny address)
  let result ← n.call address data
  .ofExcept result.toBytes

def chainNumber (n : Node) : Traced Int := do
  let id ← n.chainId
  .ofExcept id.toWhole

end Node

end ContractAbi
