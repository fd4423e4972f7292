import ContractAbi.Digest.Keccak
import ContractAbi.Value.Access

/-!
# Selectors and topics

The names that calls and logs go by: four bytes of the hash of a function's signature, and the
whole hash of an event's signature. Both are written as `0x` and lower-case hex digits.
-/

namespace ContractAbi

/-- A text that can be hashed: no half of a pair stands alone in it. -/
def Text.hashable (s : String) : Except Fault String :=
  match Text.loneHalves? s with
  | some found => .error (.malformed (.loneHalves found))
  | none => .ok s

/-- A given number of hex digits behind an optional `0x`, in lower case. One line end may follow
and stays. -/
def fixedHex? (width : Nat) (s : String) : Option (List Char) :=
  let cs := Hex.dropLower0x s.toList
  let tail := cs.drop width
  if width ≤ cs.length ∧ (cs.take width).all Hex.isDigit ∧ (tail = [] ∨ tail = ['\n']) then
    some (cs.map Char.toLower)
  else none

namespace Selector

def ofSignature (signature : String) : String :=
  Hex.encode0x ((Keccak.hashText signature).take 4)

def hashed (signature : String) : Except Fault String :=
  (Text.hashable signature).map ofSignature

/-- The one spelling of a selector, whatever its case and with or without `0x` in front. -/
def normalize (v : Value) : Except Fault String :=
  match v with
  | .text s =>
    match fixedHex? 8 s with
    | some ds => .ok (String.ofList ('0' :: 'x' :: ds))
    | none => .error (.malformed (.selector v))
  | v => .error (.malformed (.selector v))

def digits (selector : String) : String :=
  String.ofList (Hex.drop0x selector.toList)

def placeholder (selector : String) : String :=
  "func_" ++ digits selector

end Selector

namespace Topic

def ofSignature (signature : String) : String :=
  Hex.encode0x (Keccak.hashText signature)

def hashed (signature : String) : Except Fault String :=
  (Text.hashable signature).map ofSignature

def normalize (v : Value) : Except Fault String :=
  match v with
  | .text s =>
    match fixedHex? 64 s with
    | some ds => .ok (String.ofList ('0' :: 'x' :: ds))
    | none => .error (.malformed (.topic v))
  | v => .error (.malformed (.topic v))

end Topic

end ContractAbi
