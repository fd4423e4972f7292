import ContractAbi.Address
import ContractAbi.Calldata.Type
import ContractAbi.Text.Utf8

/-!
# Encoding of arguments

Values as calldata: words of 32 bytes, with pointers in front to values whose size their type does
not tell. A value that does not fit its type has no encoding.
-/

namespace ContractAbi.AbiType

def word (n : Int) : Bytes :=
  Bytes.ofNat 32 (n % (Nat.pow 2 256 : Nat)).toNat

def wordCeil (n : Nat) : Nat :=
  (n + 31) / 32 * 32

/-- A byte string behind its length, filled up to whole words. -/
def lengthPrefixed (bs : Bytes) : Bytes :=
  word bs.length ++ Bytes.padRight (wordCeil bs.length) bs

variable [AddressLibrary]

/-- The bytes of an address given as text or as its twenty bytes. -/
def addressBytes? : Value → Option Bytes
  | .text s =>
    if AddressLibrary.accepts s then
      (Address.digits? s).bind fun ds => (Hex.decode ds).toOption
    else none
  | .bytes bs => if bs.length = 20 then some bs else none
  | _ => none

/-- Parts one after the other: static ones in front, and the others behind, each at the place that
a pointer in front names. `used` is the size of the front and of the parts placed so far. -/
def layOut (used : Nat) : List (Bool × Bytes) → Bytes × Bytes
  | [] => ([], [])
  | (false, part) :: parts =>
    let (front, back) := layOut used parts
    (part ++ front, back)
  | (true, part) :: parts =>
    let (front, back) := layOut (used + part.length) parts
    (word used ++ front, part ++ back)

def frontSize : List (Bool × Bytes) → Nat
  | [] => 0
  | (needsPointer, part) :: parts => (if needsPointer then 32 else part.length) + frontSize parts

def join (parts : List (Bool × Bytes)) : Bytes :=
  let (front, back) := layOut (frontSize parts) parts
  front ++ back

mutual

/-- The encoding of a value that fits the type. -/
def encode? : AbiType → Value → Option Bytes
  | uint bits, .int n => if 0 ≤ n ∧ n < (Nat.pow 2 bits : Nat) then some (word n) else none
  | int bits, .int n =>
    let half : Int := (Nat.pow 2 (bits - 1) : Nat)
    if -half ≤ n ∧ n < half then some (word n) else none
  | bool, .bool b => some (word (if b then 1 else 0))
  | address, v => (addressBytes? v).map (Bytes.padLeft 32)
  | fixedBytes size, .bytes bs =>
    if bs.length ≤ size then some (Bytes.padRight 32 bs) else none
  | bytes, .bytes bs => some (lengthPrefixed bs)
  | string, .text s =>
    if (Text.loneHalves? s).isSome then none else some (lengthPrefixed (Utf8.encode s))
  | sized item count, .list vs =>
    if vs.length = count then
      (vs.mapM (encode? item)).map fun parts => join (parts.map (isDynamic item, ·))
    else none
  | unsized item, .list vs =>
    (vs.mapM (encode? item)).map fun parts =>
      word vs.length ++ join (parts.map (isDynamic item, ·))
  | tuple items, .list vs => (encodeParts? items vs).map join
  | _, _ => none
termination_by structural t => t

def encodeParts? : List AbiType → List Value → Option (List (Bool × Bytes))
  | [], [] => some []
  | t :: ts, v :: vs => do
    let part ← encode? t v
    let parts ← encodeParts? ts vs
    return (isDynamic t, part) :: parts
  | _, _ => none
termination_by structural ts => ts

end

/-- The encoding of arguments for types given as text. -/
def encodeAll (types : List String) (args : List Value) : Except Fault Bytes := do
  let types ← types.mapM parse
  match encode? (.tuple types) (.list args) with
  | some bs => return bs
  | none => throw .unencodable

end ContractAbi.AbiType
