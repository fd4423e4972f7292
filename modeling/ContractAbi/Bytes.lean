/-!
# Byte strings

Byte strings with their padding, and the numbers whose big-endian form they are.
-/

namespace ContractAbi

abbrev Bytes := List UInt8

namespace Bytes

/-- The last `n` bytes, after zeros in front where there are fewer. -/
def lastPadded (n : Nat) (bs : Bytes) : Bytes :=
  let padded := List.replicate (n - bs.length) 0 ++ bs
  padded.drop (padded.length - n)

def padLeft (n : Nat) (bs : Bytes) : Bytes :=
  List.replicate (n - bs.length) 0 ++ bs

/-- Zeros behind up to a width; longer byte strings stay as they are. -/
def padRight (n : Nat) (bs : Bytes) : Bytes :=
  bs ++ List.replicate (n - bs.length) 0

def toNat (bs : Bytes) : Nat :=
  bs.foldl (fun n b => 256 * n + b.toNat) 0

/-- The big-endian form of a number modulo `256 ^ width`. -/
def ofNat : (width n : Nat) → Bytes
  | 0, _ => []
  | width + 1, n => ofNat width (n / 256) ++ [UInt8.ofNat (n % 256)]

end Bytes

end ContractAbi
