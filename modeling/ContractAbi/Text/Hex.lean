import ContractAbi.Bytes
import ContractAbi.Text.Blank

/-!
# Hexadecimal text

Bytes and their text in pairs of hex digits. Writing uses lower case; reading takes either case,
allows ASCII blanks before a pair, and otherwise names the index of the character at fault.
-/

namespace ContractAbi.Hex

open Text

def digitValue? (c : Char) : Option Nat :=
  let n := c.toNat
  if 48 ≤ n ∧ n ≤ 57 then some (n - 48)
  else if 97 ≤ n ∧ n ≤ 102 then some (n - 87)
  else if 65 ≤ n ∧ n ≤ 70 then some (n - 55)
  else none

def isDigit (c : Char) : Bool :=
  (digitValue? c).isSome

def digit (n : Nat) : Char :=
  if n < 10 then Char.ofNat (48 + n) else Char.ofNat (87 + n)

def digits : List Char :=
  ['0', '1', '2', '3', '4', '5', '6', '7', '8', '9', 'a', 'b', 'c', 'd', 'e', 'f']

def ofByte (b : UInt8) : List Char :=
  [digit (b.toNat / 16), digit (b.toNat % 16)]

def ofBytes (bs : Bytes) : List Char :=
  bs.flatMap ofByte

def encode (bs : Bytes) : String :=
  String.ofList (ofBytes bs)

/-- The bytes in lower-case hex after `0x`. -/
def encode0x (bs : Bytes) : String :=
  "0x" ++ encode bs

/-- Reads pairs of digits; `i` is the index of the first character given. -/
def readPairs (i : Nat) : List Char → Except Nat Bytes
  | [] => .ok []
  | c :: rest =>
    if isAsciiBlank c then readPairs (i + 1) rest
    else
      match digitValue? c, rest with
      | none, _ => .error i
      | some _, [] => .error (i + 1)
      | some hi, d :: rest =>
        match digitValue? d with
        | none => .error (i + 1)
        | some lo => (readPairs (i + 2) rest).map (UInt8.ofNat (16 * hi + lo) :: ·)

/-- The bytes that a text of digit pairs stands for, or the index of the character at fault. A
character outside ASCII is at fault before any other. -/
def decode (cs : List Char) : Except Nat Bytes :=
  match cs.findIdx? (fun c => 127 < c.toNat) with
  | some i => .error i
  | none => readPairs 0 cs

def dropLower0x : List Char → List Char
  | '0' :: 'x' :: rest => rest
  | cs => cs

def drop0x : List Char → List Char
  | '0' :: 'x' :: rest => rest
  | '0' :: 'X' :: rest => rest
  | cs => cs

/-- A text with an odd number of characters gets a zero in front. -/
def padEven (cs : List Char) : List Char :=
  if cs.length % 2 = 0 then cs else '0' :: cs

/-- Reads hex as people write it: blanks around it, `0x` or `0X` in front and an odd number of
digits are all allowed. -/
def decodeLoose (s : String) : Except Nat Bytes :=
  decode (padEven (drop0x (trim s.toList)))

def ofNat (n : Nat) : String :=
  String.ofList (Nat.toDigits 16 n)

/-- The digits of a number, with zeros in front up to a width. -/
def ofNatPadded (width n : Nat) : String :=
  let ds := Nat.toDigits 16 n
  String.ofList (List.replicate (width - ds.length) '0' ++ ds)

end ContractAbi.Hex
