import ContractAbi.Text.Hex
import ContractAbi.Text.Word

/-!
# Whole numbers as text

Reading a whole number in base ten or sixteen: blanks around it, a sign, digits of any script with
single underscores between them and, in base sixteen, one `0x` in front.
-/

namespace ContractAbi.Integer

open Text

/-- Text in which every blank beyond ASCII is a space and every decimal digit an ASCII one. -/
def simplify (cs : List Char) : List Char :=
  cs.map fun c =>
    if c.toNat < 128 then c
    else if isBlank c then ' '
    else match decimalValue? c with
      | some d => Hex.digit d
      | none => c

/-- Digits with single underscores between them, the value so far in `acc`. `afterDigit` tells
whether the character before was a digit. -/
def readDigits (base : Nat) (afterDigit : Bool) (acc : Nat) : List Char → Option Nat
  | [] => if afterDigit then some acc else none
  | '_' :: rest => if afterDigit then readDigits base false acc rest else none
  | c :: rest =>
    match Hex.digitValue? c with
    | some d => if d < base then readDigits base true (base * acc + d) rest else none
    | none => none

/-- How many digits a number in base ten starts with, where single underscores between them are not
counted. -/
def countDigits (afterDigit : Bool) : List Char → Option Nat
  | '_' :: rest => if afterDigit then countDigits false rest else none
  | c :: rest =>
    if c.isDigit then (countDigits true rest).map (· + 1)
    else if afterDigit then some 0
    else none
  | [] => if afterDigit then some 0 else none

def maxDigits : Nat := 4300

def dropSign : List Char → List Char
  | '-' :: rest | '+' :: rest => rest
  | cs => cs

/-- The digits of a text in base ten that has too many of them. -/
def excess? (s : String) : Option Nat :=
  (countDigits false (dropSign (trimBy isAsciiBlank (simplify s.toList)))).filter (maxDigits < ·)

/-- The digits behind the mark that base sixteen allows in front, with the underscore that may
follow the mark. -/
def dropMark (base : Nat) (cs : List Char) : List Char :=
  if base = 16 then
    match cs with
    | '0' :: 'x' :: '_' :: rest | '0' :: 'X' :: '_' :: rest => rest
    | '0' :: 'x' :: rest | '0' :: 'X' :: rest => rest
    | cs => cs
  else cs

def readMagnitude (base : Nat) (cs : List Char) : Option Nat :=
  readDigits base false 0 (dropMark base cs)

/-- The number that a text spells, if it spells one and is not too long for its base. -/
def read? (base : Nat) (s : String) : Option Int :=
  if base = 10 && (excess? s).isSome then none
  else
    match trimBy isAsciiBlank (simplify s.toList) with
    | '-' :: rest => (readMagnitude base rest).map fun n => -(n : Int)
    | '+' :: rest => (readMagnitude base rest).map fun n => (n : Int)
    | rest => (readMagnitude base rest).map fun n => (n : Int)

/-- Decimal digits of a number, a minus sign in front of a negative one. The limit on digits is one
of reading: numbers of any size are written. -/
def render (n : Int) : String :=
  String.ofList (if n < 0 then '-' :: Nat.toDigits 10 n.natAbs else Nat.toDigits 10 n.natAbs)

end ContractAbi.Integer
