import ContractAbi.Text.Utf8

/-!
# Keccak

The 256-bit Keccak hash with the multi-rate padding that starts with a single one bit, over lanes
of 64 bits held as natural numbers.
-/

namespace ContractAbi.Keccak

def rate : Nat := 136

def laneModulus : Nat := Nat.pow 2 64

def rotate (x n : Nat) : Nat :=
  (x <<< n ||| x >>> (64 - n)) % laneModulus

def complement (x : Nat) : Nat :=
  x ^^^ (laneModulus - 1)

def roundConstants : List Nat :=
  [0x0000000000000001, 0x0000000000008082, 0x800000000000808a, 0x8000000080008000,
    0x000000000000808b, 0x0000000080000001, 0x8000000080008081, 0x8000000000008009,
    0x000000000000008a, 0x0000000000000088, 0x0000000080008009, 0x000000008000000a,
    0x000000008000808b, 0x800000000000008b, 0x8000000000008089, 0x8000000000008003,
    0x8000000000008002, 0x8000000000000080, 0x000000000000800a, 0x800000008000000a,
    0x8000000080008081, 0x8000000000008080, 0x0000000080000001, 0x8000000080008008]

structure Row where
  a : Nat
  b : Nat
  c : Nat
  d : Nat
  e : Nat

namespace Row

def xor (x y : Row) : Row :=
  ⟨x.a ^^^ y.a, x.b ^^^ y.b, x.c ^^^ y.c, x.d ^^^ y.d, x.e ^^^ y.e⟩

/-- Each lane takes up the ones of its right neighbour's right neighbour where its right neighbour
has zeros. -/
def chi (x : Row) : Row :=
  ⟨x.a ^^^ (complement x.b &&& x.c), x.b ^^^ (complement x.c &&& x.d),
    x.c ^^^ (complement x.d &&& x.e), x.d ^^^ (complement x.e &&& x.a),
    x.e ^^^ (complement x.a &&& x.b)⟩

def zero : Row := ⟨0, 0, 0, 0, 0⟩

def toList (x : Row) : List Nat := [x.a, x.b, x.c, x.d, x.e]

end Row

structure Sponge where
  r0 : Row
  r1 : Row
  r2 : Row
  r3 : Row
  r4 : Row

namespace Sponge

def zero : Sponge := ⟨.zero, .zero, .zero, .zero, .zero⟩

def toList (s : Sponge) : List Nat :=
  s.r0.toList ++ s.r1.toList ++ s.r2.toList ++ s.r3.toList ++ s.r4.toList

/-- Adds to every lane the parities of two neighbouring columns. -/
def theta (s : Sponge) : Sponge :=
  let p := s.r0.xor (s.r1.xor (s.r2.xor (s.r3.xor s.r4)))
  let t : Row :=
    ⟨p.e ^^^ rotate p.b 1, p.a ^^^ rotate p.c 1, p.b ^^^ rotate p.d 1, p.c ^^^ rotate p.e 1,
      p.d ^^^ rotate p.a 1⟩
  ⟨s.r0.xor t, s.r1.xor t, s.r2.xor t, s.r3.xor t, s.r4.xor t⟩

/-- Rotates every lane by its own amount and moves it to its new place. -/
def rhoPi (s : Sponge) : Sponge :=
  ⟨⟨s.r0.a, rotate s.r1.b 44, rotate s.r2.c 43, rotate s.r3.d 21, rotate s.r4.e 14⟩,
    ⟨rotate s.r0.d 28, rotate s.r1.e 20, rotate s.r2.a 3, rotate s.r3.b 45, rotate s.r4.c 61⟩,
    ⟨rotate s.r0.b 1, rotate s.r1.c 6, rotate s.r2.d 25, rotate s.r3.e 8, rotate s.r4.a 18⟩,
    ⟨rotate s.r0.e 27, rotate s.r1.a 36, rotate s.r2.b 10, rotate s.r3.c 15, rotate s.r4.d 56⟩,
    ⟨rotate s.r0.c 62, rotate s.r1.d 55, rotate s.r2.e 39, rotate s.r3.a 41, rotate s.r4.b 2⟩⟩

def chi (s : Sponge) : Sponge :=
  ⟨s.r0.chi, s.r1.chi, s.r2.chi, s.r3.chi, s.r4.chi⟩

def iota (k : Nat) (s : Sponge) : Sponge :=
  { s with r0 := { s.r0 with a := s.r0.a ^^^ k } }

def round (s : Sponge) (k : Nat) : Sponge :=
  iota k s.theta.rhoPi.chi

def permute (s : Sponge) : Sponge :=
  roundConstants.foldl round s

end Sponge

def laneOfBytes (bs : Bytes) : Nat :=
  bs.foldr (fun b n => b.toNat + 256 * n) 0

def laneBytes : (count lane : Nat) → Bytes
  | 0, _ => []
  | count + 1, lane => UInt8.ofNat (lane % 256) :: laneBytes count (lane / 256)

/-- The lane at a place of a block; places beyond the rate hold zero. -/
def blockLane (block : Bytes) (i : Nat) : Nat :=
  laneOfBytes ((block.drop (8 * i)).take 8)

def blockRow (block : Bytes) (i : Nat) : Row :=
  ⟨blockLane block i, blockLane block (i + 1), blockLane block (i + 2), blockLane block (i + 3),
    blockLane block (i + 4)⟩

def absorb (s : Sponge) (block : Bytes) : Sponge :=
  Sponge.permute
    ⟨s.r0.xor (blockRow block 0), s.r1.xor (blockRow block 5), s.r2.xor (blockRow block 10),
      s.r3.xor (blockRow block 15), s.r4.xor (blockRow block 20)⟩

def lastBlock (rest : Bytes) : Bytes :=
  let gap := rate - rest.length
  if gap ≤ 1 then rest ++ [0x81]
  else rest ++ [0x01] ++ List.replicate (gap - 2) 0 ++ [0x80]

/-- Takes in a message that has fewer than `blocks + 1` full blocks. -/
def absorbAll : (blocks : Nat) → Sponge → Bytes → Sponge
  | 0, s, rest => absorb s (lastBlock rest)
  | blocks + 1, s, message => absorbAll blocks (absorb s (message.take rate)) (message.drop rate)

def hash (message : Bytes) : Bytes :=
  let s := absorbAll (message.length / rate) .zero message
  s.r0.toList.take 4 |>.flatMap (laneBytes 8)

def hashText (s : String) : Bytes :=
  hash (Utf8.encode s)

end ContractAbi.Keccak
