import ContractAbi.Text.Half
import ContractAbi.Text.Printable

/-!
# Quoted text

How a text or a byte string is shown inside a message: between quotes, with what cannot be shown
written as an escape.
-/

namespace ContractAbi.Quoted

open Text

/-- Single quotes, unless the text holds a single quote and no double one. -/
def quoteFor (hasSingle hasDouble : Bool) : Char :=
  if hasSingle && !hasDouble then '"' else '\''

/-- An escape of the least of the three widths that holds the character. -/
def numericEscape (c : Char) : List Char :=
  let n := c.toNat
  if n < 0x100 then '\\' :: 'x' :: (Hex.ofNatPadded 2 n).toList
  else if n < 0x10000 then '\\' :: 'u' :: (Hex.ofNatPadded 4 n).toList
  else '\\' :: 'U' :: (Hex.ofNatPadded 8 n).toList

def shortEscape? (quote c : Char) : Option (List Char) :=
  if c = quote ∨ c = '\\' then some ['\\', c]
  else if c = '\t' then some ['\\', 't']
  else if c = '\n' then some ['\\', 'n']
  else if c = '\r' then some ['\\', 'r']
  else none

def textChar (quote c : Char) : List Char :=
  (shortEscape? quote c).getD (if isPrintable c then [c] else numericEscape c)

def textPoint (quote : Char) : Point → List Char
  | .char c => textChar quote c
  | .half n => '\\' :: 'u' :: (Hex.ofNatPadded 4 n).toList

def text (s : String) : String :=
  let ps := points s.toList
  let quote := quoteFor (ps.contains (.char '\'')) (ps.contains (.char '"'))
  String.ofList ([quote] ++ ps.flatMap (textPoint quote) ++ [quote])

def byteChar (quote : Char) (b : UInt8) : List Char :=
  let c := Char.ofNat b.toNat
  (shortEscape? quote c).getD (if c.toNat < 128 && isPrintable c then [c] else numericEscape c)

/-- The bytes between quotes after a `b`, with printable ASCII shown as it is. -/
def bytes (bs : Bytes) : String :=
  let quote := quoteFor (bs.contains 39) (bs.contains 34)
  String.ofList (['b', quote] ++ bs.flatMap (byteChar quote) ++ [quote])

end ContractAbi.Quoted
