import ContractAbi.Proofs.Evm.ByteWalk
import Mathlib.Algebra.Group.Nat.Defs

/-!
# The code of branches

A dispatcher tests the selector of a call against one value after the other and goes to a place
where a test holds.

* `disassembleFrom_testCode`: the instructions of a test;
* `Branch`: a test against a value of three or four bytes, with what it enters into a table.
-/

namespace ContractAbi

theorem Bytes.toNat_concat (bs : Bytes) (b : UInt8) :
    Bytes.toNat (bs ++ [b]) = 256 * Bytes.toNat bs + b.toNat := by
  rw [Bytes.toNat, Bytes.toNat, List.foldl_concat]

theorem Bytes.toNat_ofNat {width n : Nat} (h : n < 256 ^ width) :
    Bytes.toNat (Bytes.ofNat width n) = n := by
  induction width generalizing n with
  | zero =>
      rw [Nat.pow_zero] at h
      have hzero : n = 0 := by omega
      rw [hzero]
      rfl
  | succ width ih =>
      have hhigh : n / 256 < 256 ^ width := by
        rw [Nat.pow_succ] at h
        omega
      have hlow : (UInt8.ofNat (n % 256)).toNat = n % 256 := by
        rw [UInt8.toNat_ofNat']
        omega
      rw [Bytes.ofNat, Bytes.toNat_concat, ih hhigh, hlow]
      omega

namespace Opcode

theorem pushSize_ofNat {n : Nat} (h : n ≤ 32) : pushSize (UInt8.ofNat (0x5f + n)) = n := by
  have hbyte : (UInt8.ofNat (0x5f + n)).toNat = 0x5f + n := by
    rw [UInt8.toNat_ofNat']
    omega
  rw [pushSize_eq, hbyte]
  split
  · omega
  · omega

theorem isPush_of_pushSize {op : UInt8} (h : 0 < pushSize op) : isPush op = true := by
  rw [pushSize_eq] at h
  split at h
  · simp only [isPush, Bool.and_eq_true, decide_eq_true_eq]
    omega
  · exact absurd h (Nat.lt_irrefl _)

end Opcode

namespace Dispatcher

/-- The code of a test of the selector: a second copy of it, a value, the instruction that tests, a
place to go to and the conditional jump. -/
def testCode (value : Bytes) (test : UInt8) (place : Bytes) : Bytes :=
  [0x80, UInt8.ofNat (0x5f + value.length)] ++ value ++
    [test, UInt8.ofNat (0x5f + place.length)] ++ place ++ [Opcode.jumpIf]

def testInstructions (value : Bytes) (test : UInt8) (place : Bytes) (pc : Nat) :
    List Instruction :=
  [⟨pc, 0x80, []⟩,
    ⟨pc + 1, UInt8.ofNat (0x5f + value.length), value⟩,
    ⟨pc + 2 + value.length, test, []⟩,
    ⟨pc + 3 + value.length, UInt8.ofNat (0x5f + place.length), place⟩,
    ⟨pc + (4 + place.length) + value.length, Opcode.jumpIf, []⟩]

theorem disassembleFrom_testCode {value place : Bytes} {test : UInt8} (hvalue : value.length ≤ 32)
    (hplace : place.length ≤ 32) (htest : Opcode.pushSize test = 0) (pc : Nat) (rest : Bytes) :
    disassembleFrom pc 0 (testCode value test place ++ rest) =
      testInstructions value test place pc ++
        disassembleFrom (pc + (testCode value test place).length) 0 rest := by
  have hsequence : InSequence pc (testInstructions value test place pc) := by
    have hcopy : Opcode.pushSize 0x80 = 0 := by decide
    have hjump : Opcode.pushSize Opcode.jumpIf = 0 := by decide
    simp only [testInstructions, InSequence, Instruction.next, hcopy, Opcode.pushSize_ofNat hvalue,
      htest, Opcode.pushSize_ofNat hplace, hjump, List.length_nil, true_and, and_true]
    omega
  have hcode : (testInstructions value test place pc).flatMap Instruction.encode =
      testCode value test place := by
    simp [testInstructions, testCode, Instruction.encode]
  have h := disassembleFrom_encode hsequence rest
  rwa [hcode] at h

inductive Test
  /-- It is the value of the branch. -/
  | equal
  /-- It lies behind the value of the branch. -/
  | above
  deriving Repr, DecidableEq

def Test.opcode : Test → UInt8
  | .equal => Opcode.eq
  | .above => 0x11

def Test.compares : Test → Bool
  | .equal => true
  | .above => false

/-- A test of the selector against a pushed value of three or four bytes, and the place to go to. -/
structure Branch where
  test : Test
  value : Bytes
  wide : value.length = 3 ∨ value.length = 4
  place : UInt16

namespace Branch

def encode (b : Branch) : Bytes :=
  [0x80, UInt8.ofNat (0x5f + b.value.length)] ++ b.value ++ [b.test.opcode, 0x61] ++
    Bytes.ofNat 2 b.place.toNat ++ [Opcode.jumpIf]

/-- The selector that the branch compares. The mask is none, and values that the selector is only
ordered by are none either. -/
def compared? (b : Branch) : Option String :=
  match b.test with
  | .equal =>
    if Bytes.padLeft 4 b.value = Scan.mask then none
    else some (Hex.encode0x (Bytes.padLeft 4 b.value))
  | .above => none

def enter (t : DispatchTable) (b : Branch) : DispatchTable :=
  match b.compared? with
  | some x =>
    if x ∈ t.selectors then t
    else
      { t with
        selectors := t.selectors ++ [x]
        targets := t.targets ++ [(x, b.place.toNat)] }
  | none => t

def instructions (b : Branch) (pc : Nat) : List Instruction :=
  testInstructions b.value b.test.opcode (Bytes.ofNat 2 b.place.toNat) pc

variable (b : Branch)

theorem pushSize_test (test : Test) : Opcode.pushSize test.opcode = 0 := by
  cases test <;> decide

theorem length_value_le : b.value.length ≤ 32 := by
  have hwide := b.wide
  omega

theorem pushSize_value :
    Opcode.pushSize (UInt8.ofNat (0x5f + b.value.length)) = b.value.length :=
  Opcode.pushSize_ofNat b.length_value_le

theorem disassembleFrom_branch (pc : Nat) (rest : Bytes) :
    disassembleFrom pc 0 (b.encode ++ rest) =
      b.instructions pc ++ disassembleFrom (pc + b.encode.length) 0 rest := by
  have hplace : (Bytes.ofNat 2 b.place.toNat).length ≤ 32 := by simp [Bytes.ofNat]
  exact disassembleFrom_testCode b.length_value_le hplace (pushSize_test b.test) pc rest

end Branch

end Dispatcher

end ContractAbi
