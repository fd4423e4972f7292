import ContractAbi.Interface.Skeleton
import ContractAbi.Proofs.Evm.Code
import ContractAbi.Proofs.Evm.Sequence

/-!
# Functions that take value

Whether a function takes value is guessed from the first instructions behind the place that the
dispatcher goes to.

* `readsCallValue_iff`: which instructions are looked at;
* `isPayable_iff`: what makes a function payable;
* `entryAt_of_split`: at an instruction, the entry is what stands behind it in the code;
* `mutability_guess`: the functions of a code, and what their guess depends on.
-/

namespace ContractAbi

namespace Dispatcher

/-! ## Entries -/

def endsBlock (op : UInt8) : Bool :=
  Opcode.isHalting op || op == Opcode.jumpIf || op == Opcode.jumpDest

def opening (n : Nat) (ops : List UInt8) : List UInt8 :=
  (ops.take n).takeWhile fun op => !endsBlock op

theorem endsBlock_iff {op : UInt8} : endsBlock op = true ↔
    Opcode.isHalting op ∨ op = Opcode.jumpIf ∨ op = Opcode.jumpDest := by
  simp [endsBlock, or_assoc]

theorem opening_take (n : Nat) (ops : List UInt8) : opening n (ops.take n) = opening n ops := by
  rw [opening, opening, List.take_take, Nat.min_self]

theorem opening_succ_cons (n : Nat) (op : UInt8) (ops : List UInt8) :
    opening (n + 1) (op :: ops) = if endsBlock op then [] else op :: opening n ops := by
  cases h : endsBlock op <;> simp [opening, h]

theorem readsCallValue_iff (left : Nat) (is : List Instruction) :
    readsCallValue left is = true ↔
      Opcode.callValue ∈ opening (left + 1) (is.map Instruction.opcode) := by
  induction is generalizing left with
  | nil => simp [readsCallValue, opening]
  | cons i rest ih =>
      unfold readsCallValue
      rw [List.map_cons, opening_succ_cons]
      by_cases hvalue : i.opcode = Opcode.callValue
      · rw [if_pos hvalue, hvalue, if_neg (by decide)]
        simp
      · rw [if_neg hvalue]
        by_cases hends : endsBlock i.opcode = true
        · rw [if_pos (endsBlock_iff.1 hends), if_pos hends]
          simp
        · rw [if_neg (mt endsBlock_iff.2 hends), if_neg hends, List.mem_cons]
          cases left with
          | zero => simp [opening, Ne.symm hvalue]
          | succ left => rw [ih, or_iff_right (Ne.symm hvalue)]

/-- The opcodes of a function that starts behind a place, whatever the place is in the code. -/
def entryAt (code : Bytes) (place : Nat) : List UInt8 :=
  (disassemble (code.drop (place + 1))).map Instruction.opcode

/-- Nothing checks the call value for all functions, and the first opcodes of this one do not read
it. -/
structure TakesValue (code : Bytes) (table : DispatchTable) (selector : String) : Prop where
  unguarded : table.guarded = false
  entry : ∃ place, table.target? selector = some place ∧ code[place]? = some Opcode.jumpDest ∧
    Opcode.callValue ∉ opening (entryScan + 1) (entryAt code place)

variable {code : Bytes} {table : DispatchTable} {selector : String}

theorem entryGuarded?_eq_some_false_iff {place : Nat} : entryGuarded? code place = some false ↔
    code[place]? = some Opcode.jumpDest ∧
      Opcode.callValue ∉ opening (entryScan + 1) (entryAt code place) := by
  rw [entryAt, ← readsCallValue_iff, Bool.not_eq_true, entryGuarded?]
  split
  · simp [*]
  · simp [*]

theorem isPayable_iff : isPayable code table selector = true ↔ TakesValue code table selector := by
  have hentry : (table.target? selector).bind (entryGuarded? code) = some false ↔
      ∃ place, table.target? selector = some place ∧ code[place]? = some Opcode.jumpDest ∧
        Opcode.callValue ∉ opening (entryScan + 1) (entryAt code place) := by
    simp only [Option.bind_eq_some_iff, entryGuarded?_eq_some_false_iff]
  rw [isPayable]
  cases hguarded : table.guarded with
  | true =>
      refine ⟨fun h => absurd h (by simp), fun h => ?_⟩
      exact absurd (hguarded.symm.trans h.unguarded) (by decide)
  | false =>
      rw [if_neg (by decide), beq_iff_eq, hentry]
      exact ⟨fun h => ⟨hguarded, h⟩, fun h => h.entry⟩

/-- Where the place is that of an instruction, the entry is what stands behind it in the code. -/
theorem entryAt_of_split {front behind : List Instruction} {i : Instruction}
    (h : disassemble code = front ++ i :: behind) (hdest : i.opcode = Opcode.jumpDest) :
    code[i.pc]? = some Opcode.jumpDest ∧ entryAt code i.pc = behind.map Instruction.opcode := by
  obtain ⟨n, hpc, hop, hbehind⟩ := exists_of_disassembleFrom h
  obtain rfl : i.pc = n := by omega
  have hshift := disassembleFrom_add 0 (i.pc + 1) 0 (code.drop (i.pc + 1))
  rw [Nat.zero_add] at hshift
  rw [hdest] at hop hbehind
  refine ⟨hop, ?_⟩
  rw [hbehind, show Opcode.pushSize Opcode.jumpDest = 0 by decide, hshift, List.map_map]
  rfl

end Dispatcher

/-! ## Guesses -/

namespace Skeleton

open Dispatcher

theorem mutability_cases (code : Bytes) (table : DispatchTable) (x : String) :
    (mutability code table x = "payable" ∧ TakesValue code table x) ∨
      (mutability code table x = "nonpayable" ∧ ¬TakesValue code table x) := by
  rw [mutability, ← isPayable_iff]
  cases isPayable code table x with
  | true => exact .inl ⟨rfl, rfl⟩
  | false => exact .inr ⟨rfl, by decide⟩

/-- What a guess depends on: the guard of the table, the place in it, and at that place the byte and
so many opcodes behind it as are looked at. -/
theorem mutability_congr {code code' : Bytes} {table table' : DispatchTable} {x : String}
    (hguarded : table'.guarded = table.guarded) (htarget : table'.target? x = table.target? x)
    (hentry : ∀ place, table.target? x = some place → code'[place]? = code[place]? ∧
      (entryAt code' place).take (entryScan + 1) = (entryAt code place).take (entryScan + 1)) :
    mutability code' table' x = mutability code table x := by
  have hsame : TakesValue code' table' x ↔ TakesValue code table x := by
    constructor
    · rintro ⟨hnone, place, hplace, hbyte, hvalue⟩
      rw [htarget] at hplace
      obtain ⟨hbyte', htake⟩ := hentry place hplace
      rw [← opening_take, htake, opening_take] at hvalue
      exact ⟨hguarded ▸ hnone, place, hplace, hbyte' ▸ hbyte, hvalue⟩
    · rintro ⟨hnone, place, hplace, hbyte, hvalue⟩
      obtain ⟨hbyte', htake⟩ := hentry place hplace
      rw [← opening_take, ← htake, opening_take] at hvalue
      exact ⟨hguarded ▸ hnone, place, htarget ▸ hplace, hbyte' ▸ hbyte, hvalue⟩
  have hpayable : isPayable code' table' x = isPayable code table x :=
    Bool.eq_iff_iff.2 (isPayable_iff.trans (hsame.trans isPayable_iff.symm))
  rw [mutability, mutability, hpayable]

/-- A code gives one function for each of its selectors. It is payable if the call value is not
checked for all functions, the place of the selector is known and holds the byte of a jump
destination, and none of the first nine opcodes behind it reads the call value before the block
ends; all others are nonpayable. Where that byte is an instruction, those are the instructions
behind it in the code; where it belongs to a push, they are read as if it were none. Nothing else
matters to the guess. -/
theorem mutability_guess {code : Bytes} (hcode : code ≠ []) :
    let table := scan code defaultWindow
    (∃ functions, functionsOfValue (.bytes code) = .ok functions ∧
      functions.map FunctionEntry.selector = table.selectors ∧
      ∀ f ∈ functions,
        (f.mutability = .text "payable" ∧ TakesValue code table f.selector) ∨
        (f.mutability = .text "nonpayable" ∧ ¬TakesValue code table f.selector)) ∧
    (∀ front i behind, disassemble code = front ++ i :: behind → i.opcode = Opcode.jumpDest →
      ∀ x, table.target? x = some i.pc → (TakesValue code table x ↔ table.guarded = false ∧
        Opcode.callValue ∉ opening (entryScan + 1) (behind.map Instruction.opcode))) ∧
    ∀ code' table' x, table'.guarded = table.guarded → table'.target? x = table.target? x →
      (∀ place, table.target? x = some place → code'[place]? = code[place]? ∧
        (entryAt code' place).take (entryScan + 1) = (entryAt code place).take (entryScan + 1)) →
      mutability code' table' x = mutability code table x := by
  intro table
  refine ⟨⟨functions code, ?_, ?_, ?_⟩, ?_, fun _ _ _ => mutability_congr⟩
  · rw [functionsOfValue, Code.ofValue_bytes hcode]
    rfl
  · rw [functions, List.map_map]
    exact List.map_id _
  · intro f hf
    obtain ⟨x, -, rfl⟩ := List.mem_map.1 hf
    refine (mutability_cases code table x).imp ?_ ?_
    · exact And.imp_left (congrArg Value.text)
    · exact And.imp_left (congrArg Value.text)
  · intro front i behind hsplit hdest x hx
    obtain ⟨hbyte, hentry⟩ := entryAt_of_split hsplit hdest
    rw [← hentry]
    constructor
    · rintro ⟨hnone, place, hplace, -, hvalue⟩
      obtain rfl := Option.some.inj (hx.symm.trans hplace)
      exact ⟨hnone, hvalue⟩
    · rintro ⟨hnone, hvalue⟩
      exact ⟨hnone, i.pc, hx, hbyte, hvalue⟩

def lateReading (n : Nat) : Bytes :=
  [0x5f, 0x35, 0x63, 0x2d, 0xec, 0x55, 0xa6, 0x14, 0x60, 0x0c, 0x57, 0x00, 0x5b] ++
    List.replicate n 0x50 ++ [0x34, 0x00]

theorem mutability_guess_late :
    lateReading 9 ≠ [] ∧ ∃ functions, functionsOfValue (.bytes (lateReading 9)) = .ok functions ∧
      functions.map FunctionEntry.selector = ["0x2dec55a6"] ∧
      ∀ f ∈ functions, f.mutability = .text "payable" := by
  have hcode : lateReading 9 ≠ [] := by decide
  have hselectors : (scan (lateReading 9) defaultWindow).selectors = ["0x2dec55a6"] := by
    decide +kernel
  have htarget : (scan (lateReading 9) defaultWindow).target? "0x2dec55a6" = some 12 := by
    decide +kernel
  have hguarded : (scan (lateReading 9) defaultWindow).guarded = false := by decide +kernel
  have hsplit : disassemble (lateReading 9) = (disassemble (lateReading 9)).take 7 ++
      ⟨12, Opcode.jumpDest, []⟩ :: (disassemble (lateReading 9)).drop 8 := by decide
  obtain ⟨⟨functions, hfunctions, hnames, hguesses⟩, hentry, -⟩ := mutability_guess hcode
  have htakes : TakesValue (lateReading 9) (scan (lateReading 9) defaultWindow) "0x2dec55a6" :=
    (hentry _ _ _ hsplit rfl _ htarget).2 ⟨hguarded, by decide⟩
  rw [hselectors] at hnames
  refine ⟨hcode, functions, hfunctions, hnames, fun f hf => ?_⟩
  have hname : f.selector = "0x2dec55a6" := by
    have hmem := List.mem_map_of_mem (f := FunctionEntry.selector) hf
    rwa [hnames, List.mem_singleton] at hmem
  rcases hguesses f hf with ⟨hguess, -⟩ | ⟨-, hnot⟩
  · exact hguess
  · exact absurd (hname ▸ htakes) hnot

def buriedEntry : Bytes :=
  [0x5f, 0x35, 0x63, 0x2d, 0xec, 0x55, 0xa6, 0x14, 0x60, 0x0c, 0x57, 0x60, 0x5b, 0x00]

theorem functionsOfValue_of_scan {code : Bytes} {table : DispatchTable} (hcode : code ≠ [])
    (hscan : scan code defaultWindow = table) : functionsOfValue (.bytes code) =
      .ok (table.selectors.map fun x => .unresolved x (.text (mutability code table x))) := by
  rw [functionsOfValue, Code.ofValue_bytes hcode, ← hscan]
  rfl

/-- None of the eight instructions behind a jump destination reads the call value, and the function
is taken for nonpayable; no instruction starts at the place of another one, and it is taken for
payable. -/
theorem guesses_depart :
    (∃ front i behind, disassemble (lateReading 8) = front ++ i :: behind ∧
      i.opcode = Opcode.jumpDest ∧
      (scan (lateReading 8) defaultWindow).target? "0x2dec55a6" = some i.pc ∧
      (scan (lateReading 8) defaultWindow).guarded = false ∧
      Opcode.callValue ∉ opening entryScan (behind.map Instruction.opcode) ∧
      functionsOfValue (.bytes (lateReading 8)) =
        .ok [.unresolved "0x2dec55a6" (.text "nonpayable")]) ∧
    (scan buriedEntry defaultWindow).target? "0x2dec55a6" = some 12 ∧
    (∀ i ∈ disassemble buriedEntry, i.pc ≠ 12) ∧
    functionsOfValue (.bytes buriedEntry) = .ok [.unresolved "0x2dec55a6" (.text "payable")] := by
  refine ⟨⟨(disassemble (lateReading 8)).take 7, ⟨12, 0x5b, []⟩,
    (disassemble (lateReading 8)).drop 8, by decide, rfl, ?_, ?_, by decide, ?_⟩, ?_, by decide, ?_⟩
  · decide +kernel
  · decide +kernel
  · have hscan : scan (lateReading 8) defaultWindow =
        ⟨["0x2dec55a6"], [("0x2dec55a6", 12)], false⟩ := by decide +kernel
    rw [functionsOfValue_of_scan (by decide) hscan]
    rfl
  · decide +kernel
  · have hscan : scan buriedEntry defaultWindow =
        ⟨["0x2dec55a6"], [("0x2dec55a6", 12)], false⟩ := by decide +kernel
    rw [functionsOfValue_of_scan (by decide) hscan]
    rfl

end Skeleton

end ContractAbi
