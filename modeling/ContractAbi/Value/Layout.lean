import ContractAbi.Value.Literal

/-!
# Values over several lines

A value as a literal of source code: on one line where it fits into a hundred columns, else one
item to a line.
-/

namespace ContractAbi.Value

def columns : Nat := 100

/-- Parts between brackets, each on a line of its own that starts `indent` columns in. -/
def stacked (opening closing : String) (indent : Nat) (parts : List String) : String :=
  opening ++ (",\n" ++ String.ofList (List.replicate indent ' ')).intercalate parts ++ closing

mutual

/-- The value where its text starts `indent` columns in and `trailing` columns have to stay free
behind it. -/
def layOut (indent trailing : Nat) : Value → String
  | list items =>
    let line := literal (list items)
    if line.length + indent + trailing ≤ columns ∨ items.isEmpty then line
    else stacked "[" "]" (indent + 1) (layOutItems (indent + 1) (trailing + 1) items)
  | object fields =>
    let line := literal (object fields)
    if line.length + indent + trailing ≤ columns ∨ fields.isEmpty then line
    else stacked "\x7b" "\x7d" (indent + 1) (layOutFields (indent + 1) (trailing + 1) fields)
  | v => literal v
termination_by structural v => v

def layOutItems (indent trailing : Nat) : List Value → List String
  | [] => []
  | v :: vs =>
    layOut indent (if vs.isEmpty then trailing else 1) v :: layOutItems indent trailing vs
termination_by structural vs => vs

def layOutFields (indent trailing : Nat) : List (String × Value) → List String
  | [] => []
  | f :: fs =>
    layOutField indent (if fs.isEmpty then trailing else 1) f :: layOutFields indent trailing fs
termination_by structural fs => fs

def layOutField (indent trailing : Nat) : String × Value → String
  | (k, v) =>
    let name := Quoted.text k ++ ": "
    name ++ layOut (indent + name.length) trailing v
termination_by structural f => f

end

def toSource (v : Value) : String :=
  layOut 0 0 v

end ContractAbi.Value
