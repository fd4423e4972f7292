import ContractAbi.Evm.Dispatcher
import ContractAbi.Proofs.Evm.OpcodeName
import ContractAbi.Proofs.Evm.Sequence

/-!
# The scan and the instructions

The scan for selectors reads the bytes of the code by itself: it tells an instruction by the name of
its opcode, and steps over the immediate of a push by the number in that name. It comes to the
places at which the listing of the code has its instructions, and to no others.

* `Scan.step`: what the scan does at an instruction, told by its opcode;
* `disassembleFrom_skip`: behind an immediate the next instruction starts;
* `scanFrom_eq_foldl` and `scan_eq_foldl`: the scan of the bytes is a pass over the instructions.
-/

namespace ContractAbi

theorem disassembleFrom_skip (pc skip : Nat) (code : Bytes) :
    disassembleFrom pc skip code = disassembleFrom (pc + skip) 0 (code.drop skip) := by
  induction code generalizing pc skip with
  | nil => rw [List.drop_nil, disassembleFrom, disassembleFrom]
  | cons op rest ih =>
      cases skip with
      | zero => rfl
      | succ skip =>
          rw [disassembleFrom, if_pos (Nat.succ_pos skip), List.drop_succ_cons, ih,
            Nat.add_sub_cancel, Nat.add_assoc, Nat.add_comm 1]

namespace Dispatcher

namespace Scan

variable {s : Scan} {i : Instruction} {name : String}

def onPush (s : Scan) (i : Instruction) : Scan :=
  s.push i.pc (Opcode.pushSize i.opcode) i.immediate

def onKnown (s : Scan) (i : Instruction) : Scan :=
  if 0 < Opcode.pushSize i.opcode then s.onPush i
  else if i.opcode = Opcode.callDataLoad then { s with loaded := true }
  else if i.opcode = Opcode.callValue then
    if !s.loaded && s.table.selectors.isEmpty then
      { s with table := { s.table with guarded := true } }
    else s
  else if i.opcode = Opcode.eq then
    { s with candidate := s.candidate.map fun c => { c with compared := true } }
  else if i.opcode = Opcode.jumpIf then
    match s.candidate with
    | some c => { s with table := s.record c, candidate := none }
    | none => s
  else s

def step (window : Int) (s : Scan) (i : Instruction) : Scan :=
  if Opcode.isKnown i.opcode then
    { (s.onKnown i).expire window i.next with pushed := Opcode.isPush i.opcode }
  else { s with pushed := false }

theorem enter_eq_onKnown (hname : Opcode.name? i.opcode = some name)
    (hsize : Opcode.pushSize i.opcode = 0) : s.enter name = s.onKnown i := by
  have hload : name = "CALLDATALOAD" ↔ i.opcode = Opcode.callDataLoad :=
    Opcode.name_eq_iff hname (by decide +kernel)
  have hvalue : name = "CALLVALUE" ↔ i.opcode = Opcode.callValue :=
    Opcode.name_eq_iff hname (by decide +kernel)
  have heq : name = "EQ" ↔ i.opcode = Opcode.eq := Opcode.name_eq_iff hname (by decide +kernel)
  have hjump : name = "JUMPI" ↔ i.opcode = Opcode.jumpIf :=
    Opcode.name_eq_iff hname (by decide +kernel)
  rw [onKnown, if_neg (by omega)]
  simp only [enter, hload, hvalue, heq, hjump]
  by_cases hopcode : i.opcode = Opcode.callValue
  · have hothers : Opcode.callValue ≠ Opcode.callDataLoad ∧ Opcode.callValue ≠ Opcode.eq ∧
        Opcode.callValue ≠ Opcode.jumpIf := by decide
    simp [hopcode, hothers]
  · obtain ⟨table, loaded, pushed, candidate⟩ := s
    cases candidate with
    | none => simp [hopcode]
    | some c => simp [hopcode]

end Scan

/-- The bytes from place `pc` on are scanned as the instructions are that start there. -/
theorem scanFrom_eq_foldl (window : Int) (pc : Nat) (s : Scan) (code : Bytes) :
    scanFrom window pc s code = (disassembleFrom pc 0 code).foldl (Scan.step window) s := by
  fun_induction scanFrom window pc s code with
  | case1 => rfl
  | case2 pc s op rest hname ih =>
      have hknown : Opcode.isKnown op = false := by
        rw [Opcode.isKnown_eq_isSome, hname, Option.isSome_none]
      rw [ih, disassembleFrom, if_neg (Nat.lt_irrefl 0), Opcode.pushSize_of_not_isKnown hknown,
        List.foldl_cons, Scan.step, if_neg (by simp [hknown])]
  | case3 pc s op rest name hname size hnamed next t ih =>
      have hknown : Opcode.isKnown op = true := by
        rw [Opcode.isKnown_eq_isSome, hname, Option.isSome_some]
      -- The number in the name is the size of the immediate.
      obtain ⟨hsize, rfl⟩ : 0 < Opcode.pushSize op ∧ Opcode.pushSize op = size := by
        simpa [Opcode.namedSize?_of_name? hname] using hnamed
      have hpush : Opcode.isPush op = true := by
        rw [← Opcode.namesPush_of_name? hname]
        exact Opcode.namesPush_of_namedSize? hnamed
      rw [ih, disassembleFrom, if_neg (Nat.lt_irrefl 0), List.foldl_cons,
        disassembleFrom_skip (pc + 1), Scan.step, if_pos hknown, Scan.onKnown, if_pos hsize, hpush]
      rfl
  | case4 pc s op rest name hname hnamed t ih =>
      have hknown : Opcode.isKnown op = true := by
        rw [Opcode.isKnown_eq_isSome, hname, Option.isSome_some]
      have hsize : Opcode.pushSize op = 0 := by
        simpa [Opcode.namedSize?_of_name? hname] using hnamed
      have henter : s.enter name = s.onKnown ⟨pc, op, rest.take 0⟩ :=
        Scan.enter_eq_onKnown hname hsize
      rw [ih, disassembleFrom, if_neg (Nat.lt_irrefl 0), List.foldl_cons, hsize, Scan.step,
        if_pos hknown, Opcode.namesPush_of_name? hname, ← henter, Instruction.next, hsize]

/-- Behind code that ends exactly, the scan goes on with what it knows of it. -/
theorem scanFrom_append {front : Bytes} (hexact : EndsExactly front) (window : Int) (s : Scan)
    (rest : Bytes) : scanFrom window 0 s (front ++ rest) =
      (disassembleFrom front.length 0 rest).foldl (Scan.step window)
        (scanFrom window 0 s front) := by
  have happend := disassemble_append hexact rest
  rw [disassemble, disassemble] at happend
  rw [scanFrom_eq_foldl, scanFrom_eq_foldl, happend, List.foldl_append]

theorem scan_eq_foldl (code : Bytes) (window : Int) :
    scan code window = ((disassemble code).foldl (Scan.step window) Scan.initial).table := by
  rw [scan, scanFrom_eq_foldl, disassemble]

end Dispatcher

end ContractAbi
