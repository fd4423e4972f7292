import ContractAbi.Text.Utf8

/-!
# Encodings of documents

A document may be written in units of one, two or four bytes. Which one it is shows in its first
bytes: in a mark of the order of bytes, or in the places of zeros, as a document starts with
characters of ASCII.
-/

namespace ContractAbi

/-- How characters are written as bytes. -/
inductive Encoding where
  | utf8
  | utf16 (bigEndian : Bool)
  | utf32 (bigEndian : Bool)
  deriving Repr, DecidableEq

namespace Encoding

open Text

def orderName (bigEndian : Bool) : String :=
  if bigEndian then "be" else "le"

def name : Encoding → String
  | utf8 => "utf-8"
  | utf16 bigEndian => "utf-16-" ++ orderName bigEndian
  | utf32 bigEndian => "utf-32-" ++ orderName bigEndian

/-- The encoding that a mark of byte order tells, and the size of the mark. -/
def ofMark? : Bytes → Option (Encoding × Nat)
  | 0x00 :: 0x00 :: 0xfe :: 0xff :: _ => some (utf32 true, 4)
  | 0xff :: 0xfe :: 0x00 :: 0x00 :: _ => some (utf32 false, 4)
  | 0xfe :: 0xff :: _ => some (utf16 true, 2)
  | 0xff :: 0xfe :: _ => some (utf16 false, 2)
  | 0xef :: 0xbb :: 0xbf :: _ => some (utf8, 3)
  | _ => none

def ofZeros : Bytes → Encoding
  | a :: b :: c :: d :: _ =>
    if a = 0 then (if b = 0 then utf32 true else utf16 true)
    else if b = 0 then (if c = 0 ∧ d = 0 then utf32 false else utf16 false)
    else utf8
  | [a, b] => if a = 0 then utf16 true else if b = 0 then utf16 false else utf8
  | _ => utf8

/-- The encoding of a document and the size of the mark in front of it. -/
def ofDocument (bs : Bytes) : Encoding × Nat :=
  (ofMark? bs).getD (ofZeros bs, 0)

/-! ## Units -/

def unit (bigEndian : Bool) (bs : Bytes) : Nat :=
  Bytes.toNat (if bigEndian then bs else bs.reverse)

/-- What units of two bytes stand for. -/
def joinPairs : List Nat → List Point
  | high :: low :: rest =>
    if isHighHalf high && isLowHalf low then .char (pairChar high low) :: joinPairs rest
    else .ofNat high :: joinPairs (low :: rest)
  | [n] => [.ofNat n]
  | [] => []

/-- The bytes from `i` on that are too few for a unit. -/
def cutOff (e : Encoding) (i : Nat) (first : UInt8) (size : Nat) : BadBytes :=
  ⟨e.name, i, i + size, first, "truncated data"⟩

/-- Units of two bytes; `i` is the place of the first byte given. -/
def readPairUnits (bigEndian : Bool) (i : Nat) : Bytes → Except BadBytes (List Nat)
  | a :: b :: rest => (readPairUnits bigEndian (i + 2) rest).map (unit bigEndian [a, b] :: ·)
  | [a] => .error (cutOff (utf16 bigEndian) i a 1)
  | [] => .ok []

/-- What units of four bytes stand for; `i` is the place of the first byte given. -/
def readFourfold (bigEndian : Bool) (i : Nat) : Bytes → Except BadBytes (List Point)
  | a :: b :: c :: d :: rest =>
    let n := unit bigEndian [a, b, c, d]
    if 0x110000 ≤ n then
      .error ⟨(utf32 bigEndian).name, i, i + 4, a, "code point not in range(0x110000)"⟩
    else (readFourfold bigEndian (i + 4) rest).map (.ofNat n :: ·)
  | a :: rest => .error (cutOff (utf32 bigEndian) i a (rest.length + 1))
  | [] => .ok []

/-- The text of bytes behind a mark of a size. -/
def decode (e : Encoding) (markSize : Nat) (bs : Bytes) : Except BadBytes String :=
  let content := bs.drop markSize
  match e with
  | utf8 => Utf8.decodeHalves content
  | utf16 bigEndian =>
    (readPairUnits bigEndian markSize content).map fun units => ofPoints (joinPairs units)
  | utf32 bigEndian => (readFourfold bigEndian markSize content).map ofPoints

def decodeDocument (bs : Bytes) : Except BadBytes String :=
  let (e, markSize) := ofDocument bs
  e.decode markSize bs

end Encoding

end ContractAbi
