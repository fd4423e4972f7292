import ContractAbi.Interface.TypeText

/-!
# Types of calldata

The types that arguments and return values are encoded by, and their text.
-/

namespace ContractAbi

inductive AbiType where
  | uint (bits : Nat)
  | int (bits : Nat)
  | bool
  | address
  | fixedBytes (size : Nat)
  | bytes
  | string
  | sized (item : AbiType) (count : Nat)
  | unsized (item : AbiType)
  | tuple (items : List AbiType)
  deriving Repr

namespace AbiType

/-! ## Shape -/

mutual

/-- Values whose size the type does not tell stand behind the others. -/
def isDynamic : AbiType → Bool
  | bytes | string | unsized _ => true
  | sized item _ => isDynamic item
  | tuple items => anyDynamic items
  | _ => false
termination_by structural t => t

def anyDynamic : List AbiType → Bool
  | [] => false
  | t :: ts => isDynamic t || anyDynamic ts
termination_by structural ts => ts

end

mutual

/-- The number of bytes of a value in front: of a static value all of it, else a pointer. -/
def headSize : AbiType → Nat
  | sized item count => if isDynamic item then 32 else count * headSize item
  | tuple items => if anyDynamic items then 32 else headSizes items
  | _ => 32
termination_by structural t => t

def headSizes : List AbiType → Nat
  | [] => 0
  | t :: ts => headSize t + headSizes ts
termination_by structural ts => ts

end

/-! ## Text -/

/-- A type as it is written, before names and sizes are looked at: a word and what follows it. -/
inductive Written where
  | basic (base : List Char) (size : Option Nat) (isPair : Bool)
  | tuple (items : List Written)
  /-- No count for an array without a fixed length. -/
  | array (item : Written) (count : Option Nat)

def isLetter (c : Char) : Bool :=
  c.isAlpha

/-- Digits without a leading zero, and what follows them. -/
def digits? (cs : List Char) : Option (Nat × List Char) :=
  match cs with
  | c :: _ =>
    if c.isDigit ∧ c ≠ '0' then
      some (Binary64.digitsValue (cs.takeWhile Char.isDigit), cs.dropWhile Char.isDigit)
    else none
  | [] => none

/-- The lengths in brackets behind a type. The fuel bounds their number. -/
def readArrays : (fuel : Nat) → Written → List Char → Written × List Char
  | fuel + 1, t, '[' :: ']' :: rest => readArrays fuel (.array t none) rest
  | fuel + 1, t, '[' :: rest =>
    match digits? rest with
    | some (n, ']' :: rest) => readArrays fuel (.array t (some n)) rest
    | _ => (t, '[' :: rest)
  | _, t, rest => (t, rest)

def readBasic (cs : List Char) : Option (Written × List Char) :=
  let base := cs.takeWhile isLetter
  let rest := cs.dropWhile isLetter
  if base.isEmpty then none
  else
    match digits? rest with
    | none => some (.basic base none false, rest)
    | some (n, 'x' :: more) =>
      match digits? more with
      | some (_, rest) => some (.basic base (some n) true, rest)
      | none => some (.basic base (some n) false, 'x' :: more)
    | some (n, rest) => some (.basic base (some n) false, rest)

mutual

/-- A type at the start of a text. The fuel bounds the number of steps. -/
def readWritten (fuel : Nat) (cs : List Char) : Option (Written × List Char) :=
  match fuel with
  | 0 => none
  | fuel + 1 =>
    match cs with
    | '(' :: rest => do
      let (items, rest) ← readTuple fuel rest
      return readArrays rest.length (.tuple items) rest
    | cs => do
      let (t, rest) ← readBasic cs
      return readArrays rest.length t rest

/-- The types of a tuple from one of them on, with the closing bracket. -/
def readTuple (fuel : Nat) (cs : List Char) : Option (List Written × List Char) :=
  match fuel with
  | 0 => none
  | fuel + 1 => do
    let (t, rest) ← readWritten fuel cs
    match rest with
    | ')' :: rest => return ([t], rest)
    | ',' :: rest =>
      let (ts, rest) ← readTuple fuel rest
      return (t :: ts, rest)
    | _ => none

end

/-- Names of types that stand for others. -/
def expand (word : List Char) : List Char :=
  if word = "uint".toList then "uint256".toList
  else if word = "int".toList then "int256".toList
  else if word = "byte".toList then "bytes1".toList
  else if word = "function".toList then "bytes24".toList
  else word

def isIntegerSize (n : Nat) : Bool :=
  8 ≤ n && n ≤ 256 && n % 8 == 0

def ofBasic? (base : List Char) (size : Option Nat) (isPair : Bool) : Option AbiType :=
  match String.ofList base, size, isPair with
  | "uint", some n, false => if isIntegerSize n then some (.uint n) else none
  | "int", some n, false => if isIntegerSize n then some (.int n) else none
  | "bool", _, _ => some .bool
  | "address", none, _ => some .address
  | "bytes", none, _ => some .bytes
  | "bytes", some n, false => if n ≤ 32 then some (.fixedBytes n) else none
  | "string", none, _ => some .string
  | _, _, _ => none

mutual

def ofWritten? : Written → Option AbiType
  | .basic base size isPair => ofBasic? base size isPair
  | .tuple items => (ofWrittens? items).map .tuple
  | .array item count =>
    match count with
    | some n => (ofWritten? item).map fun t => .sized t n
    | none => (ofWritten? item).map .unsized
termination_by structural w => w

def ofWrittens? : List Written → Option (List AbiType)
  | [] => some []
  | w :: ws => do
    let t ← ofWritten? w
    let ts ← ofWrittens? ws
    return t :: ts
termination_by structural ws => ws

end

/-- Whether a tuple without types is written somewhere in a text. -/
def hasEmptyTuple : List Char → Bool
  | [] => false
  | '(' :: ')' :: _ => true
  | _ :: rest => hasEmptyTuple rest

def parse (s : String) : Except Fault AbiType :=
  let cs := ((TypeText.runs s.toList).map expand).flatten
  match readWritten (2 * cs.length + 2) cs with
  | some (w, []) =>
    match ofWritten? w with
    | some t => .ok t
    | none => .error .unusableType
  | _ =>
    if hasEmptyTuple cs then .error (.malformed .zeroSizedTuple) else .error .unusableType

end AbiType

end ContractAbi
