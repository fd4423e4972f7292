import ContractAbi.Text.Word
import ContractAbi.Selector

/-!
# Type texts

Types as signatures spell them: the canonical spelling, brackets that belong together, and lists of
types between commas.
-/

namespace ContractAbi.TypeText

open Text

/-! ## The canonical spelling -/

def runs : List Char → List (List Char)
  | [] => []
  | c :: cs =>
    match runs cs with
    | (d :: run) :: rest =>
      if isWordChar c == isWordChar d then (c :: d :: run) :: rest else [c] :: (d :: run) :: rest
    | rest => [c] :: rest

/-- Short names of types, and the names that they stand for. -/
def fullName (word : List Char) : List Char :=
  if word = "uint".toList then "uint256".toList
  else if word = "int".toList then "int256".toList
  else if word = "byte".toList then "bytes1".toList
  else word

/-- Short names are written out, and the word in front of a tuple's bracket goes. -/
def spellOut : List (List Char) → List (List Char)
  | [] => []
  | word :: rest =>
    if word = "tuple".toList ∧ (rest.head?.bind List.head?) = some '(' then spellOut rest
    else fullName word :: spellOut rest

def canonicalChars (cs : List Char) : List Char :=
  (spellOut (runs (squeeze cs))).flatten

/-- The canonical spelling of a type, such as `(uint256,address)[]`. -/
def canonical (s : String) : String :=
  String.ofList (canonicalChars s.toList)

/-! ## Brackets -/

def closerOf? : Char → Option Char
  | '(' => some ')'
  | '[' => some ']'
  | _ => none

def isCloser (c : Char) : Bool :=
  c == ')' || c == ']'

/-- The place of the character that closes the last bracket of `stack`, whose closers come last
first. `i` is the place of the first character given. -/
def closingFrom? (i : Nat) (stack : List Char) : List Char → Option Nat
  | [] => none
  | c :: cs =>
    match closerOf? c with
    | some d => closingFrom? (i + 1) (d :: stack) cs
    | none =>
      if isCloser c then
        match stack with
        | [] => none
        | d :: stack =>
          if c ≠ d then none
          else if stack.isEmpty then some i
          else closingFrom? (i + 1) stack cs
      else closingFrom? (i + 1) stack cs

/-- The place of the bracket that closes the first bracket from place `start` on. -/
def closing? (cs : List Char) (start : Nat) : Option Nat :=
  closingFrom? start [] (cs.drop start)

/-- The same for a place that may lie before the text: places there are those of its last
characters, and behind them the whole text follows. -/
def closingAround? (cs : List Char) (start : Int) : Except Fault (Option Int) :=
  if 0 ≤ start then .ok ((closing? cs start.toNat).map Int.ofNat)
  else if start < -cs.length then .error .outOfRange
  else .ok ((closing? (cs.drop (cs.length + start).toNat ++ cs) 0).map fun k => start + k)

/-! ## Lists of types -/

/-- Puts a character in front of the first part. -/
def extendFirst (c : Char) : List (List Char) → List (List Char)
  | [] => [[c]]
  | part :: parts => (c :: part) :: parts

/-- The parts between the commas outside all brackets, if the brackets are balanced. -/
def splitTop? : (depth : Nat) → List Char → Option (List (List Char))
  | depth, [] => if depth = 0 then some [[]] else none
  | depth, c :: cs =>
    if c = '(' ∨ c = '[' then (splitTop? (depth + 1) cs).map (extendFirst c)
    else if isCloser c then
      match depth with
      | 0 => none
      | depth + 1 => (splitTop? depth cs).map (extendFirst c)
    else if c = ',' ∧ depth = 0 then (splitTop? 0 cs).map ([] :: ·)
    else (splitTop? depth cs).map (extendFirst c)

def splitChars (cs : List Char) : Except Fault (List (List Char)) :=
  let cs := trim cs
  if cs.isEmpty then .ok []
  else
    match splitTop? 0 cs with
    | none => .error (.malformed (.unbalancedParameters (String.ofList cs)))
    | some parts =>
      let types := parts.map trim
      if types.any List.isEmpty then
        .error (.malformed (.emptyParameter (String.ofList cs)))
      else .ok types

def split (s : String) : Except Fault (List String) :=
  (splitChars s.toList).map fun types => types.map String.ofList

/-- A name and the canonical spellings of its types, as hashes take it. -/
def signature (name : String) (types : List String) : String :=
  name ++ "(" ++ ",".intercalate (types.map canonical) ++ ")"

end ContractAbi.TypeText
