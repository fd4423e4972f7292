import ContractAbi.Text.Quoted
import ContractAbi.Value

/-!
# Values inside messages

A value on one line: quoted text, `[a, b]` for lists, `{'k': v}` for objects, and words for truth
values and for the absent value.
-/

namespace ContractAbi.Value

mutual

def literal : Value → String
  | null => "None"
  | bool true => "True"
  | bool false => "False"
  | int n => Integer.render n
  | float x => x.render
  | text s => Quoted.text s
  | bytes bs => Quoted.bytes bs
  | list items => "[" ++ ", ".intercalate (literals items) ++ "]"
  | object fields => "\x7b" ++ ", ".intercalate (fieldLiterals fields) ++ "\x7d"
termination_by structural v => v

def literals : List Value → List String
  | [] => []
  | v :: vs => literal v :: literals vs
termination_by structural vs => vs

def fieldLiterals : List (String × Value) → List String
  | [] => []
  | f :: fs => fieldLiteral f :: fieldLiterals fs
termination_by structural fs => fs

def fieldLiteral : String × Value → String
  | (k, v) => Quoted.text k ++ ": " ++ literal v
termination_by structural f => f

end

/-- The value as it reads inside a longer text: text stands without quotes. -/
def plain : Value → String
  | text s => s
  | v => v.literal

/-- The first `n` characters of the value on one line. -/
def literalCut (n : Nat) (v : Value) : String :=
  String.ofList (v.literal.toList.take n)

end ContractAbi.Value
