import ContractAbi.Number.Integer

/-!
# Halves of pairs

Sixteen-bit units stand for characters, some of them in pairs. A text may hold half of a pair by
itself, which is no character. Here some characters of a private plane stand for halves; where one
of them is meant itself, it is written in another way, with a mark in front of it.
-/

namespace ContractAbi.Text

/-- What stands at a place of a text: a character, or half of a pair. -/
inductive Point where
  | char (c : Char)
  | half (n : Nat)
  deriving Repr, DecidableEq

def isHighHalf (n : Nat) : Bool :=
  0xd800 ≤ n && n < 0xdc00

def isLowHalf (n : Nat) : Bool :=
  0xdc00 ≤ n && n < 0xe000

def pairChar (high low : Nat) : Char :=
  Char.ofNat (0x10000 + (high - 0xd800) * 0x400 + (low - 0xdc00))

def halfChar (n : Nat) : Char :=
  Char.ofNat (n + 0x100800)

def isHalf (c : Char) : Bool :=
  0x10e000 ≤ c.toNat && c.toNat < 0x10e800

def mark : Char := Char.ofNat 0x10e800

def isReserved (c : Char) : Bool :=
  isHalf c || c == mark

/-- What is written behind the mark for a reserved character. -/
def cover (c : Char) : Char :=
  Char.ofNat (c.toNat + 0x1000)

def isCover (c : Char) : Bool :=
  0x10f000 ≤ c.toNat && c.toNat ≤ 0x10f800

def ofChar (c : Char) : List Char :=
  if isReserved c then [mark, cover c] else [c]

namespace Point

/-- What a number of the character set stands for. -/
def ofNat (n : Nat) : Point :=
  if 0xd800 ≤ n ∧ n < 0xe000 then half n else char (Char.ofNat n)

def isHalf : Point → Bool
  | char _ => false
  | half _ => true

def chars : Point → List Char
  | char c => ofChar c
  | half n => [halfChar n]

/-- The character of a point. Half of a pair has none, and is shown as unknown. -/
def shown : Point → Char
  | char c => c
  | half _ => '\ufffd'

def number : Point → Nat
  | char c => c.toNat
  | half n => n

end Point

/-- The point that a character is written for where no mark stands in front of it. -/
def pointOf (c : Char) : Point :=
  if isHalf c then .half (c.toNat - 0x100800) else .char c

def points : List Char → List Point
  | [] => []
  | [c] => [pointOf c]
  | c :: d :: rest =>
    if c = mark ∧ isCover d then .char (Char.ofNat (d.toNat - 0x1000)) :: points rest
    else pointOf c :: points (d :: rest)

def ofPoints (ps : List Point) : String :=
  String.ofList (ps.flatMap Point.chars)

def ofChars (cs : List Char) : String :=
  String.ofList (cs.flatMap ofChar)

def characters (s : String) : List Char :=
  (points s.toList).map Point.shown

def size (s : String) : Nat :=
  (points s.toList).length

/-! ## Texts without UTF-8 form -/

/-- Halves of pairs from the place `start` to before `stop`, of which `first` is the first one. -/
structure LoneHalves where
  first : Nat
  start : Nat
  stop : Nat
  deriving Repr, DecidableEq

def LoneHalves.message (l : LoneHalves) : String :=
  "'utf-8' codec can't encode " ++
    (if l.start + 1 = l.stop then
      "character '\\u" ++ Hex.ofNatPadded 4 l.first ++ "' in position " ++ Integer.render l.start
    else
      "characters in position " ++ Integer.render l.start ++ "-" ++
        Integer.render (l.stop - 1)) ++
    ": surrogates not allowed"

def loneHalves? (s : String) : Option LoneHalves :=
  let ps := points s.toList
  let start := (ps.takeWhile fun p => !p.isHalf).length
  let run := (ps.drop start).takeWhile Point.isHalf
  run.head?.map fun p => ⟨p.number, start, start + run.length⟩

end ContractAbi.Text
