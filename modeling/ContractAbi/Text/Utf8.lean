import ContractAbi.Text.Half

/-!
# UTF-8

Text from bytes. Where bytes are no text, the fault names the bytes that cannot be read and why.
Documents may hold halves of pairs, each in three bytes.
-/

namespace ContractAbi

/-- The bytes from `start` to before `stop`, of which `first` is the first one, are no character of
an encoding. -/
structure BadBytes where
  encoding : String
  start : Nat
  stop : Nat
  first : UInt8
  reason : String
  deriving Repr

def BadBytes.message (b : BadBytes) : String :=
  "'" ++ b.encoding ++ "' codec can't decode " ++
    (if b.start + 1 = b.stop then
      "byte 0x" ++ Hex.encode [b.first] ++ " in position " ++
        String.ofList (Nat.toDigits 10 b.start)
    else
      "bytes in position " ++ String.ofList (Nat.toDigits 10 b.start) ++ "-" ++
        String.ofList (Nat.toDigits 10 (b.stop - 1))) ++
    ": " ++ b.reason

namespace Utf8

/-- The number of bytes that a first byte asks for, with the range of the second one. -/
def shape? (b : UInt8) : Option (Nat × Nat × Nat) :=
  let n := b.toNat
  if n < 0x80 then some (1, 0, 0)
  else if 0xc2 ≤ n ∧ n ≤ 0xdf then some (2, 0x80, 0xbf)
  else if n = 0xe0 then some (3, 0xa0, 0xbf)
  else if n = 0xed then some (3, 0x80, 0x9f)
  else if 0xe1 ≤ n ∧ n ≤ 0xef then some (3, 0x80, 0xbf)
  else if n = 0xf0 then some (4, 0x90, 0xbf)
  else if 0xf1 ≤ n ∧ n ≤ 0xf3 then some (4, 0x80, 0xbf)
  else if n = 0xf4 then some (4, 0x80, 0x8f)
  else none

/-- How many of the bytes behind the first one may follow it. -/
def followers (low high : Nat) : (wanted : Nat) → Bytes → Nat
  | 0, _ => 0
  | _, [] => 0
  | wanted + 1, b :: rest =>
    if low ≤ b.toNat ∧ b.toNat ≤ high then followers 0x80 0xbf wanted rest + 1 else 0

def startsWithHalf : Bytes → Bool
  | a :: b :: c :: _ => a == 0xed && 0xa0 ≤ b && b ≤ 0xbf && 0x80 ≤ c && c ≤ 0xbf
  | _ => false

/-- The first place at which bytes are no text; `i` is the place of the first byte given, of which
`skip` belong to the character before. Halves of pairs may be taken for text. -/
def fault? (halves : Bool) (i skip : Nat) : Bytes → Option BadBytes
  | [] => none
  | b :: rest =>
    if 0 < skip then fault? halves (i + 1) (skip - 1) rest
    else if halves && startsWithHalf (b :: rest) then fault? halves (i + 1) 2 rest
    else
      match shape? b with
      | none => some ⟨"utf-8", i, i + 1, b, "invalid start byte"⟩
      | some (size, low, high) =>
        let found := followers low high (size - 1) rest
        let stop := i + 1 + found
        if found = size - 1 then fault? halves (i + 1) (size - 1) rest
        else if found = rest.length then some ⟨"utf-8", i, stop, b, "unexpected end of data"⟩
        else some ⟨"utf-8", i, stop, b, "invalid continuation byte"⟩

/-- What the first byte tells of a character's number, and how many bytes of it are to come. -/
def lead (b : UInt8) : Nat × Nat :=
  match shape? b with
  | some (size + 2, _, _) => (b.toNat % Nat.pow 2 (5 - size), size + 1)
  | _ => (b.toNat, 0)

/-- The numbers of the characters of a text. Of the first one `n` was read before, and `left` bytes
of it are still to come. -/
def numbers (n left : Nat) : Bytes → List Nat
  | [] => []
  | b :: rest =>
    let read := if left = 0 then lead b else (64 * n + b.toNat % 64, left - 1)
    if read.2 = 0 then read.1 :: numbers 0 0 rest else numbers read.1 read.2 rest

def decode (bs : Bytes) : Except BadBytes String :=
  match fault? false 0 0 bs with
  | some bad => .error bad
  | none => .ok (Text.ofChars ((numbers 0 0 bs).map Char.ofNat))

def decodeHalves (bs : Bytes) : Except BadBytes String :=
  match fault? true 0 0 bs with
  | some bad => .error bad
  | none => .ok (Text.ofPoints ((numbers 0 0 bs).map Text.Point.ofNat))

def encode (s : String) : Bytes :=
  (String.ofList (Text.characters s)).toUTF8.toList

end Utf8

end ContractAbi
