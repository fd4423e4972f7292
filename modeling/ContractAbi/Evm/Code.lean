import ContractAbi.Address

/-!
# Deployed code

The code of a contract as a service gives it. A contract has at least one byte of code.
-/

namespace ContractAbi

def Code.place : String := "<bytecode>"

/-- The bytes of the code. No bytes, and hex that cannot be read, mean that there is no
contract. -/
def Code.ofValue (v : Value) : Except Fault Bytes :=
  match v.toBytes with
  | .ok [] => .error (.noContract Code.place none (some "empty bytecode"))
  | .ok code => .ok code
  | .error (.malformed cause) =>
    .error (.noContract Code.place none (some ("malformed bytecode: " ++ cause.message)))
  | .error f => .error f

/-! ## Minimal proxies -/

namespace MinimalProxy

def head : Bytes :=
  [0x36, 0x3d, 0x3d, 0x37, 0x3d, 0x3d, 0x3d, 0x36, 0x3d, 0x73]

def tail : Bytes :=
  [0x5a, 0xf4, 0x3d, 0x82, 0x80, 0x3e, 0x90, 0x3d, 0x91, 0x60, 0x2b, 0x57, 0xfd, 0x5b, 0xf3]

variable [AddressLibrary]

/-- The address that a clone delegates to, for code that is a clone. -/
def target? (code : Bytes) : Option String :=
  let address := (code.drop head.length).take 20
  if address.length = 20 ∧ code = head ++ address ++ tail then some (Address.ofBytes address)
  else none

def targetOfValue? (v : Value) : Except Fault (Option String) :=
  match Code.ofValue v with
  | .ok code => .ok (target? code)
  | .error (.noContract ..) => .ok none
  | .error f => .error f

end MinimalProxy

end ContractAbi
