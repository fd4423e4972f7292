import ContractAbi.Fault

/-!
# Access to values

How a value that a service answers is taken as a byte string, a whole number or a double, and how
its parts and fields are visited.
-/

namespace ContractAbi.Value

/-- The bytes of a hex text, blanks around it, `0x` and an odd number of digits allowed. -/
def bytesOfText (s : String) : Except Fault Bytes :=
  match Hex.decodeLoose s with
  | .ok bs => .ok bs
  | .error i => .error (.malformed (.hex i))

/-- Bytes as they are, the bytes of a hex text, and none for an absent value. -/
def toBytes : Value → Except Fault Bytes
  | null => .ok []
  | bytes bs => .ok bs
  | text s => bytesOfText s
  | v => .error (.noFields v "strip")

def asciiText? (bs : Bytes) : Option String :=
  if bs.all (·.toNat < 128) then some (String.ofList (bs.map fun b => Char.ofNat b.toNat)) else none

/-- The whole number that the text of a value spells in decimal. -/
def wholeOfText (given : Value) (s : String) : Except Fault Int :=
  match Integer.read? 10 s with
  | some n => .ok n
  | none =>
    match Integer.excess? s with
    | some digits => .error (.malformed (.longInteger digits))
    | none => .error (.malformed (.integer 10 given))

/-- The whole number that a value gives: a number without its fraction, or a decimal in text or in
bytes. -/
def toWhole : Value → Except Fault Int
  | int n => .ok n
  | bool b => .ok (if b then 1 else 0)
  | float .nan => .error (.malformed .wholeOfNaN)
  | float x =>
    match x.truncate? with
    | some n => .ok n
    | none => .error .infiniteWhole
  | text s => wholeOfText (text s) s
  | bytes bs =>
    match asciiText? bs with
    | some s => wholeOfText (bytes bs) s
    | none => .error (.malformed (.integer 10 (bytes bs)))
  | v => .error (.misfit (.notWhole v))

/-- The double that a value gives: a number, or a text or bytes that spell one. -/
def toDouble : Value → Except Fault Binary64
  | float x => .ok x
  | int n =>
    match Binary64.ofInt n with
    | .infinite _ => .error .overlargeWhole
    | x => .ok x
  | bool b => .ok (.ofInt (if b then 1 else 0))
  | text s =>
    match Binary64.read? s with
    | some x => .ok x
    | none => .error (.malformed (.number (text s)))
  | bytes bs =>
    match (asciiText? bs).bind Binary64.read? with
    | some x => .ok x
    | none => .error (.malformed (.number (bytes bs)))
  | v => .error (.misfit (.notNumeric v))

def pointTexts (s : String) : List Value :=
  (Text.points s.toList).map fun p => .text (Text.ofPoints [p])

/-- What a value is made of: items of a list, characters of a text, names of an object's fields,
bytes as numbers. -/
def toItems : Value → Except Fault (List Value)
  | list items => .ok items
  | text s => .ok (pointTexts s)
  | object fields => .ok (fields.map fun f => .text f.1)
  | bytes bs => .ok (bs.map fun b => .int b.toNat)
  | v => .error (.misfit (.notIterable v))

/-- The parts of a value that holds, none of one that does not. -/
def toItemsIfHeld (v : Value) : Except Fault (List Value) :=
  if v.holds then v.toItems else .ok []

/-- A field of an object, absent where the object lacks it. Other values have no fields. -/
def field (name : String) : Value → Except Fault Value
  | object fields => .ok ((lookup name fields).getD .null)
  | v => .error (.noFields v "get")

/-- A field of an object, with a value to stand in where the object lacks it. -/
def fieldOr (v : Value) (name : String) (absent : Value) : Except Fault Value :=
  match v with
  | object fields => .ok ((lookup name fields).getD absent)
  | v => .error (.noFields v "get")

def require (name : String) : Value → Except Fault Value
  | object fields =>
    match lookup name fields with
    | some v => .ok v
    | none => .error (.missingKey name)
  | text _ => .error (.misfit .textKey)
  | list _ => .error (.misfit .listKey)
  | v => .error (.misfit (.notSubscriptable v))

/-- Lists and objects cannot name an entry. -/
def asKey (v : Value) : Except Fault Value :=
  match v with
  | list _ | object _ => .error (.misfit (.unhashable v))
  | v => .ok v

end ContractAbi.Value
