import ContractAbi.Text.Half
import ContractAbi.Value

/-!
# JSON text

Values as JSON: two spaces of indentation for each level, empty lists and objects on one line, and
every character outside ASCII as an escape.
-/

namespace ContractAbi.Value

def unitEscape (n : Nat) : List Char :=
  '\\' :: 'u' :: (Hex.ofNatPadded 4 n).toList

/-- A character inside quotes; one beyond sixteen bits is written as two units. -/
def jsonChar (c : Char) : List Char :=
  let n := c.toNat
  if c = '"' then ['\\', '"']
  else if c = '\\' then ['\\', '\\']
  else if n = 10 then ['\\', 'n']
  else if n = 13 then ['\\', 'r']
  else if n = 9 then ['\\', 't']
  else if n = 12 then ['\\', 'f']
  else if n = 8 then ['\\', 'b']
  else if 32 ≤ n ∧ n < 127 then [c]
  else if n < 0x10000 then unitEscape n
  else
    let v := n - 0x10000
    unitEscape (0xd800 + v / 0x400) ++ unitEscape (0xdc00 + v % 0x400)

/-- Half of a pair is written as its unit. -/
def jsonPoint : Text.Point → List Char
  | .char c => jsonChar c
  | .half n => unitEscape n

def jsonText (s : String) : String :=
  String.ofList (['"'] ++ (Text.points s.toList).flatMap jsonPoint ++ ['"'])

def jsonNumber : Binary64 → String
  | .nan => "NaN"
  | .infinite false => "Infinity"
  | .infinite true => "-Infinity"
  | .finite s m e => Binary64.renderFinite s m e

def indentation (level : Nat) : String :=
  "\n" ++ String.ofList (List.replicate (2 * level) ' ')

def bracketed (opening closing : String) (level : Nat) (parts : List String) : String :=
  if parts.isEmpty then opening ++ closing
  else
    let line := indentation (level + 1)
    opening ++ line ++ ("," ++ line).intercalate parts ++ indentation level ++ closing

mutual

/-- The JSON text of a value whose line is indented by `level` steps. -/
def jsonAt (level : Nat) : Value → String
  | null => "null"
  | bool true => "true"
  | bool false => "false"
  | int n => Integer.render n
  | float x => jsonNumber x
  | text s => jsonText s
  | bytes bs => jsonText (Hex.encode0x bs)
  | list items => bracketed "[" "]" level (jsonItems (level + 1) items)
  | object fields => bracketed "\x7b" "\x7d" level (jsonFields (level + 1) fields)
termination_by structural v => v

def jsonItems (level : Nat) : List Value → List String
  | [] => []
  | v :: vs => jsonAt level v :: jsonItems level vs
termination_by structural vs => vs

def jsonFields (level : Nat) : List (String × Value) → List String
  | [] => []
  | f :: fs => jsonField level f :: jsonFields level fs
termination_by structural fs => fs

def jsonField (level : Nat) : String × Value → String
  | (k, v) => jsonText k ++ ": " ++ jsonAt level v
termination_by structural f => f

end

def toJson (v : Value) : String :=
  jsonAt 0 v

end ContractAbi.Value
