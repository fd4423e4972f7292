import ContractAbi.Fault
import ContractAbi.Text.Encoding

/-!
# Reading JSON text

A reader of JSON documents that names the place of the first fault. Beside the standard it reads
the words for infinity and for a value that is no number; of two fields of one name the later value
counts.
-/

namespace ContractAbi.JsonReader

structure Cursor where
  offset : Nat
  rest : List Char
  deriving Repr

inductive Stop where
  /-- The document is wrong at an offset. -/
  | wrong (reason : String) (offset : Nat)
  | longInteger (digits : Nat)
  | tooDeep (inside : String)
  deriving Repr

/-- How deeply lists and objects may be nested: as far as the stack reaches that is left where
reading starts. Four levels can be read on any. -/
class Stack where
  maxDepth : Nat
  four_le_maxDepth : 4 ≤ maxDepth

export Stack (maxDepth)

namespace Stack

/-- A thousand calls, of which a few are in progress where reading starts. -/
scoped instance thousand : Stack where
  maxDepth := 975
  four_le_maxDepth := by decide

end Stack

def isSpace (c : Char) : Bool :=
  c == ' ' || c == '\t' || c == '\n' || c == '\r'

namespace Cursor

def advance (n : Nat) (c : Cursor) : Cursor :=
  ⟨c.offset + n, c.rest.drop n⟩

def skip (p : Char → Bool) (c : Cursor) : Cursor :=
  ⟨c.offset + (c.rest.takeWhile p).length, c.rest.dropWhile p⟩

def skipSpace (c : Cursor) : Cursor :=
  c.skip isSpace

def startsWith (word : String) (c : Cursor) : Bool :=
  word.toList.isPrefixOf c.rest

end Cursor

def expectingValue (c : Cursor) : Except Stop (α × Cursor) :=
  .error (.wrong "Expecting value" c.offset)

/-! ## Text -/

def fourDigits? (cs : List Char) : Option Nat :=
  if cs.length < 5 then none
  else (cs.take 4).foldl
    (fun acc c => acc.bind fun n => (Hex.digitValue? c).map (16 * n + ·)) (some 0)

def simpleEscape? : Char → Option Char
  | '"' => some '"'
  | '\\' => some '\\'
  | '/' => some '/'
  | 'b' => some '\x08'
  | 'f' => some '\x0c'
  | 'n' => some '\n'
  | 'r' => some '\r'
  | 't' => some '\t'
  | _ => none

/-- The unit escaped right behind another one, if more text follows it: `some none` where its
digits are wrong. -/
def unitBehind? : List Char → Option (Option Nat)
  | '\\' :: 'u' :: rest => if 4 < rest.length then some (fourDigits? rest) else none
  | _ => none

/-- What escaped units stand for, with the number of characters read behind the first unit's digits;
`none` where the second unit's digits are wrong. -/
def joinUnits (first : Nat) (behind : List Char) : Option (Text.Point × Nat) :=
  match if Text.isHighHalf first then unitBehind? behind else none with
  | some none => none
  | some (some second) =>
    if Text.isLowHalf second then some (.char (Text.pairChar first second), 6)
    else some (.ofNat first, 0)
  | none => some (.ofNat first, 0)

/-- What stands between quotes, up to and with the closing one. `start` is the offset of the
opening quote, `offset` that of the first character given; `acc` holds what was read, last first.
The fuel bounds the number of characters. -/
def readText (start : Nat) : (fuel offset : Nat) → (acc : List Char) → List Char →
    Except Stop (String × Cursor)
  | 0, _, _, _ => .error (.wrong "Unterminated string starting at" start)
  | _, _, _, [] => .error (.wrong "Unterminated string starting at" start)
  | fuel + 1, offset, acc, c :: rest =>
    if c = '"' then .ok (String.ofList acc.reverse, ⟨offset + 1, rest⟩)
    else if c.toNat < 32 then .error (.wrong "Invalid control character at" offset)
    else if c ≠ '\\' then readText start fuel (offset + 1) (c :: acc) rest
    else
      match rest with
      | [] => .error (.wrong "Unterminated string starting at" start)
      | 'u' :: rest =>
        match fourDigits? rest with
        | none => .error (.wrong "Invalid \\uXXXX escape" (offset + 1))
        | some first =>
          let behind := rest.drop 4
          match joinUnits first behind with
          | none => .error (.wrong "Invalid \\uXXXX escape" (offset + 7))
          | some (x, more) =>
            readText start fuel (offset + 6 + more) (x.chars.reverse ++ acc) (behind.drop more)
      | d :: rest =>
        match simpleEscape? d with
        | some x => readText start fuel (offset + 2) (x :: acc) rest
        | none => .error (.wrong "Invalid \\escape" offset)

/-! ## Numbers -/

def wholePart : List Char → List Char
  | '0' :: _ => ['0']
  | cs => cs.takeWhile Char.isDigit

def fractionPart : List Char → List Char
  | '.' :: rest =>
    let ds := rest.takeWhile Char.isDigit
    if ds.isEmpty then [] else '.' :: ds
  | _ => []

def exponentPart : List Char → List Char
  | c :: rest =>
    if c = 'e' ∨ c = 'E' then
      let sign := match rest with
        | '+' :: _ => ['+']
        | '-' :: _ => ['-']
        | _ => []
      let ds := (rest.drop sign.length).takeWhile Char.isDigit
      if ds.isEmpty then [] else c :: sign ++ ds
    else []
  | [] => []

/-- A number: whole where it has neither fraction nor exponent. -/
def readNumber (c : Cursor) : Except Stop (Value × Cursor) :=
  let negative := c.rest.head? == some '-'
  let body := if negative then c.rest.drop 1 else c.rest
  let whole := wholePart body
  let fraction := fractionPart (body.drop whole.length)
  let exponent := exponentPart (body.drop (whole.length + fraction.length))
  let size := whole.length + fraction.length + exponent.length + (if negative then 1 else 0)
  if whole.isEmpty then expectingValue c
  else if fraction.isEmpty && exponent.isEmpty then
    if Integer.maxDigits < whole.length then .error (.longInteger whole.length)
    else
      let n : Int := Binary64.digitsValue whole
      .ok (.int (if negative then -n else n), c.advance size)
  else
    match Binary64.read? (String.ofList (c.rest.take size)) with
    | some x => .ok (.float x, c.advance size)
    | none => expectingValue c

/-! ## Values -/

def words : List (String × Value) :=
  [("null", .null), ("true", .bool true), ("false", .bool false), ("NaN", .float .nan),
    ("Infinity", .float (.infinite false)), ("-Infinity", .float (.infinite true))]

def readWord? (c : Cursor) : Option (Value × Cursor) :=
  (words.find? fun w => c.startsWith w.1).map fun w => (w.2, c.advance w.1.length)

mutual

/-- A value. The fuel bounds the number of steps, two for each character, and `depth` is how many
more lists and objects may be open at a time. -/
def readValue (fuel depth : Nat) (c : Cursor) : Except Stop (Value × Cursor) :=
  match fuel with
  | 0 => expectingValue c
  | fuel + 1 =>
    match c.rest with
    | '"' :: rest => do
      let (s, c) ← readText c.offset (rest.length + 1) (c.offset + 1) [] rest
      return (.text s, c)
    | '\x7b' :: _ =>
      let inside := (c.advance 1).skipSpace
      if depth = 0 then .error (.tooDeep "object")
      else if inside.rest.head? == some '\x7d' then .ok (.object [], inside.advance 1)
      else do
        let (fields, c) ← readFields fuel (depth - 1) inside
        return (.object (Value.ofFields fields), c)
    | '[' :: _ =>
      let inside := (c.advance 1).skipSpace
      if depth = 0 then .error (.tooDeep "array")
      else if inside.rest.head? == some ']' then .ok (.list [], inside.advance 1)
      else do
        let (items, c) ← readItems fuel (depth - 1) inside
        return (.list items, c)
    | _ =>
      match readWord? c with
      | some found => .ok found
      | none => readNumber c

def readItems (fuel depth : Nat) (c : Cursor) : Except Stop (List Value × Cursor) :=
  match fuel with
  | 0 => expectingValue c
  | fuel + 1 => do
    let (v, c) ← readValue fuel depth c
    let c := c.skipSpace
    match c.rest with
    | ']' :: _ => return ([v], c.advance 1)
    | ',' :: _ =>
      let (vs, c) ← readItems fuel depth (c.advance 1).skipSpace
      return (v :: vs, c)
    | _ => .error (.wrong "Expecting ',' delimiter" c.offset)

def readFields (fuel depth : Nat) (c : Cursor) :
    Except Stop (List (String × Value) × Cursor) :=
  match fuel with
  | 0 => expectingValue c
  | fuel + 1 =>
    match c.rest with
    | '"' :: rest => do
      let (key, c) ← readText c.offset (rest.length + 1) (c.offset + 1) [] rest
      let c := c.skipSpace
      match c.rest with
      | ':' :: _ =>
        let (v, c) ← readValue fuel depth (c.advance 1).skipSpace
        let c := c.skipSpace
        match c.rest with
        | '\x7d' :: _ => return ([(key, v)], c.advance 1)
        | ',' :: _ =>
          let (fs, c) ← readFields fuel depth (c.advance 1).skipSpace
          return ((key, v) :: fs, c)
        | _ => .error (.wrong "Expecting ',' delimiter" c.offset)
      | _ => .error (.wrong "Expecting ':' delimiter" c.offset)
    | _ => .error (.wrong "Expecting property name enclosed in double quotes" c.offset)

end

/-- A whole document: one value with nothing but space around it. -/
def readDocument [Stack] (cs : List Char) : Except Stop Value := do
  let (v, c) ← readValue (2 * cs.length + 2) maxDepth (Cursor.skipSpace ⟨0, cs⟩)
  let c := c.skipSpace
  if c.rest.isEmpty then return v else .error (.wrong "Extra data" c.offset)

/-- What is wrong at an offset, which is counted in places. Lines and columns count from one. -/
def faultAt (cs : List Char) (reason : String) (offset : Nat) : JsonFault :=
  let before := Text.points (cs.take offset)
  ⟨reason, before.count (.char '\n') + 1,
    (before.reverse.takeWhile (· ≠ .char '\n')).length + 1, before.length⟩

/-- What is wrong with a document in which reading stopped. -/
def Stop.fault (cs : List Char) : Stop → Fault
  | wrong reason offset => .malformed (.json (faultAt cs reason offset))
  | longInteger digits => .malformed (.longInteger digits)
  | tooDeep inside => .tooDeep inside

end ContractAbi.JsonReader

namespace ContractAbi.Value

open JsonReader

/-- The value of the text of a JSON document, which no mark of byte order precedes. -/
def ofJsonText [JsonReader.Stack] (s : String) : Except Fault Value :=
  let cs := s.toList
  (readDocument cs).mapError (Stop.fault cs)

def ofJson [JsonReader.Stack] (s : String) : Except Fault Value :=
  if s.toList.head? == some '\ufeff' then
    .error ((Stop.wrong "Unexpected UTF-8 BOM (decode using utf-8-sig)" 0).fault s.toList)
  else ofJsonText s

def ofJsonBytes [JsonReader.Stack] (bs : Bytes) : Except Fault Value :=
  match Encoding.decodeDocument bs with
  | .ok s => ofJsonText s
  | .error bad => .error (.invalidText bad.message)

end ContractAbi.Value
