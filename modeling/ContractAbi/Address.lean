import ContractAbi.Selector

/-!
# Addresses

Addresses of twenty bytes, their checksummed spelling, and the address that a storage word holds.
Which texts are taken for addresses is left to a library of addresses.
-/

namespace ContractAbi

namespace Address

structure AreDigits (ds : List Char) : Prop where
  length : ds.length = 40
  digits : ∀ c ∈ ds, c ∈ Hex.digits

/-- The text consists of forty digits of either case, `0x` or `0X` in front allowed. In lower case
the digits are as given. -/
def Spells (s : String) (ds : List Char) : Prop :=
  ∃ front ∈ ["", "0x", "0X"], ∃ cs : List Char, s = front ++ String.ofList cs ∧ cs.length = 40 ∧
    (∀ c ∈ cs, Hex.isDigit c = true) ∧ cs.map Char.toLower = ds

/-- The digits that a text spells, in lower case. -/
def digits? (s : String) : Option (List Char) :=
  let cs := Hex.drop0x s.toList
  if cs.length = 40 ∧ cs.all Hex.isDigit then some (cs.map Char.toLower) else none

def nibbles (bs : Bytes) : List Nat :=
  bs.flatMap fun b => [b.toNat / 16, b.toNat % 16]

/-- Letters are upper-case where the hash of the lower-case digits has a half-byte of eight or
more. -/
def mixCase (digits : List Char) : List Char :=
  let hash := nibbles (Keccak.hash (digits.map fun c => UInt8.ofNat c.toNat))
  (digits.zip hash).map fun (c, n) => if 8 ≤ n then c.toUpper else c

/-- The checksummed spelling of forty lower-case digits. -/
def ofDigits (digits : List Char) : String :=
  String.ofList ('0' :: 'x' :: mixCase digits)

end Address

/-- What is asked of a library of addresses: whether a text is one, and its checksummed spelling.
Libraries differ in the texts of mixed case that they accept. -/
class AddressLibrary where
  accepts : String → Bool
  spell : String → String
  spells_of_accepts {s : String} : accepts s = true → ∃ ds, Address.Spells s ds
  accepts_lower {front : String} {ds : List Char} : front ∈ ["", "0x", "0X"] →
    Address.AreDigits ds → accepts (front ++ String.ofList ds) = true
  accepts_ofDigits {ds : List Char} :
    Address.AreDigits ds → accepts (Address.ofDigits ds) = true
  spell_eq {s : String} {ds : List Char} :
    accepts s = true → Address.Spells s ds → spell s = Address.ofDigits ds

namespace Address

/-- Comparison of addresses goes by this spelling. -/
def fold (s : String) : String :=
  String.ofList (s.toList.map Char.toLower)

def zero : String :=
  "0x0000000000000000000000000000000000000000"

variable [AddressLibrary]

def isValid : Value → Bool
  | .text s => AddressLibrary.accepts s
  | _ => false

def ofBytes (bs : Bytes) : String :=
  AddressLibrary.spell (Hex.encode0x bs)

/-- The checksummed spelling of an address, the zero address among them. -/
def checksumAny (v : Value) : Except Fault String :=
  match v with
  | .text s =>
    if AddressLibrary.accepts s then .ok (AddressLibrary.spell s)
    else .error (.invalidAddress v)
  | v => .error (.invalidAddress v)

/-- The checksummed spelling of an address. The zero address behind `0x` is refused. -/
def checksum (v : Value) : Except Fault String :=
  match v with
  | .text s => if fold s = zero then .error (.invalidAddress v) else checksumAny v
  | v => .error (.invalidAddress v)

/-- The address in the low twenty bytes of a word, if they hold one. -/
def ofWord (word : Bytes) : Option String :=
  let low := Bytes.lastPadded 20 word
  if low.all (· == 0) then none else some (ofBytes low)

def ofWordValue (word : Value) : Except Fault (Option String) :=
  word.toBytes.map ofWord

end Address

end ContractAbi
