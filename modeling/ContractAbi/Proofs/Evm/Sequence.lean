import ContractAbi.Evm.Instruction
import Mathlib.Data.List.Chain

/-!
# Code behind code

Where the instructions of one code end, those of the code behind it start.

* `EndsExactly`: the last instruction of a code has the whole of its immediate;
* `disassembleFrom_append`: then nothing of what stands behind the code belongs to it;
* `disassembleFrom_append_cut` and `foldl_append`: else only its last push reads differently;
* `isChain_disassembleFrom`: each instruction starts where the one in front of it ends;
* `exists_of_disassembleFrom`: what is behind an instruction is the code behind it;
* `disassembleFrom_encode`: instructions that are written one after the other come back;
* `disassembleFrom_add`: where a code stands matters for the places only.
-/

namespace ContractAbi

def EndsExactly (code : Bytes) : Prop :=
  ∀ i ∈ (disassemble code).getLast?, i.next = code.length

instance (code : Bytes) : Decidable (EndsExactly code) :=
  inferInstanceAs (Decidable (∀ i ∈ (disassemble code).getLast?, _))

/-- How many bytes the last push of the code misses, where the first `skip` bytes belong to the push
before. -/
def missing : (skip : Nat) → Bytes → Nat
  | skip, [] => skip
  | skip, op :: rest =>
    if 0 < skip then missing (skip - 1) rest else missing (Opcode.pushSize op) rest

theorem skip_le_missing (skip : Nat) (code : Bytes) : skip ≤ code.length + missing skip code := by
  induction code generalizing skip with
  | nil => exact Nat.le_add_left _ _
  | cons op rest ih =>
      rw [missing, List.length_cons]
      by_cases hskip : 0 < skip
      · rw [if_pos hskip]
        have hrest := ih (skip - 1)
        omega
      · omega

/-- The end of the last instruction, or of the push before where no instruction starts. -/
theorem end_disassembleFrom (pc skip : Nat) (code : Bytes) :
    ((disassembleFrom pc skip code).getLast?.map Instruction.next).getD (pc + skip) =
      pc + code.length + missing skip code := by
  induction code generalizing pc skip with
  | nil => rfl
  | cons op rest ih =>
      rw [disassembleFrom, missing, List.length_cons]
      by_cases hskip : 0 < skip
      · rw [if_pos hskip, if_pos hskip]
        have hrest := ih (pc + 1) (skip - 1)
        rw [show pc + 1 + (skip - 1) = pc + skip by omega] at hrest
        omega
      · rw [if_neg hskip, if_neg hskip, List.getLast?_cons, Option.map_some, Option.getD_some]
        have hrest := ih (pc + 1) (Opcode.pushSize op)
        cases hlast : (disassembleFrom (pc + 1) (Opcode.pushSize op) rest).getLast? with
        | none =>
            rw [hlast, Option.map_none, Option.getD_none] at hrest
            rw [Option.getD_none]
            show pc + 1 + Opcode.pushSize op = _
            omega
        | some i =>
            rw [hlast, Option.map_some, Option.getD_some] at hrest
            rw [Option.getD_some]
            omega

theorem missing_of_endsExactly {code : Bytes} (h : EndsExactly code) : missing 0 code = 0 := by
  have hend := end_disassembleFrom 0 0 code
  unfold EndsExactly disassemble at h
  cases hlast : (disassembleFrom 0 0 code).getLast? with
  | none =>
      rw [hlast, Option.map_none, Option.getD_none] at hend
      omega
  | some i =>
      rw [hlast, Option.map_some, Option.getD_some, h i hlast] at hend
      omega

/-- Behind a code that misses nothing the next instruction starts. -/
theorem disassembleFrom_append {pc skip : Nat} {code : Bytes} (h : missing skip code = 0)
    (rest : Bytes) :
    disassembleFrom pc skip (code ++ rest) =
      disassembleFrom pc skip code ++ disassembleFrom (pc + code.length) 0 rest := by
  induction code generalizing pc skip with
  | nil =>
      obtain rfl : skip = 0 := h
      rfl
  | cons op tail ih =>
      rw [missing] at h
      rw [List.cons_append, disassembleFrom, disassembleFrom, List.length_cons,
        show pc + (tail.length + 1) = pc + 1 + tail.length by omega]
      by_cases hskip : 0 < skip
      · rw [if_pos hskip] at h
        rw [if_pos hskip, if_pos hskip]
        exact ih h
      · rw [if_neg hskip] at h
        rw [if_neg hskip, if_neg hskip, List.cons_append, ih h]
        -- Nothing is missing at the end, so no immediate reaches into `rest`.
        have hlong : Opcode.pushSize op ≤ tail.length := by
          have := skip_le_missing (Opcode.pushSize op) tail
          omega
        rw [List.take_append_of_le_length hlong]

theorem disassemble_append {code : Bytes} (h : EndsExactly code) (rest : Bytes) :
    disassemble (code ++ rest) = disassemble code ++ disassembleFrom code.length 0 rest := by
  have happend : disassembleFrom 0 0 (code ++ rest) =
      disassembleFrom 0 0 code ++ disassembleFrom (0 + code.length) 0 rest :=
    disassembleFrom_append (missing_of_endsExactly h) rest
  rwa [Nat.zero_add] at happend

/-! ## Pushes that are cut off -/

theorem disassembleFrom_of_length_le {pc skip : Nat} {code : Bytes} (h : code.length ≤ skip) :
    disassembleFrom pc skip code = [] := by
  induction code generalizing pc skip with
  | nil => rfl
  | cons op rest ih =>
      rw [List.length_cons] at h
      rw [disassembleFrom, if_pos (by omega)]
      exact ih (by omega)

/-- Instructions stay when bytes are appended, but for a last push that misses some of its own. -/
theorem disassembleFrom_append_cut (pc skip : Nat) (code rest : Bytes) :
    disassembleFrom pc skip code <+: disassembleFrom pc skip (code ++ rest) ∨
      ∃ front i, disassembleFrom pc skip code = front ++ [i] ∧ 0 < Opcode.pushSize i.opcode ∧
        front <+: disassembleFrom pc skip (code ++ rest) := by
  induction code generalizing pc skip with
  | nil => exact .inl List.nil_prefix
  | cons op tail ih =>
      rw [List.cons_append, disassembleFrom, disassembleFrom]
      by_cases hskip : 0 < skip
      · rw [if_pos hskip, if_pos hskip]
        exact ih _ _
      · rw [if_neg hskip, if_neg hskip]
        by_cases hlong : Opcode.pushSize op ≤ tail.length
        · rw [List.take_append_of_le_length hlong]
          rcases ih (pc + 1) (Opcode.pushSize op) with hkept | ⟨front, i, hcut, hsize, hkept⟩
          · exact .inl ((List.prefix_cons_inj _).2 hkept)
          · refine .inr ⟨_ :: front, i, ?_, hsize, (List.prefix_cons_inj _).2 hkept⟩
            rw [hcut, List.cons_append]
        · rw [disassembleFrom_of_length_le (Nat.le_of_not_le hlong)]
          refine .inr ⟨[], _, rfl, ?_, List.nil_prefix⟩
          dsimp only
          omega

/-- A relation that holds from each state to the next, and back over a push, holds from what a code
leaves to what a longer code leaves. -/
theorem foldl_append {σ : Type} {step : σ → Instruction → σ} {r : σ → σ → Prop}
    (hrefl : ∀ s, r s s) (htrans : ∀ {s t u}, r s t → r t u → r s u)
    (hstep : ∀ s i, r s (step s i)) (hpush : ∀ s i, 0 < Opcode.pushSize i.opcode → r (step s i) s)
    (s : σ) (code rest : Bytes) :
    r ((disassemble code).foldl step s) ((disassemble (code ++ rest)).foldl step s) := by
  have hgrows : ∀ (is : List Instruction) (s : σ), r s (is.foldl step s) :=
    fun is s => List.foldlRecOn is step (hrefl s) fun t ht i _ => htrans ht (hstep t i)
  have hfirst : ∀ {front is : List Instruction}, front <+: is →
      r (front.foldl step s) (is.foldl step s) := by
    rintro front _ ⟨more, rfl⟩
    rw [List.foldl_append]
    exact hgrows more _
  rcases disassembleFrom_append_cut 0 0 code rest with hkept | ⟨front, i, hcut, hsize, hkept⟩
  · exact hfirst hkept
  · rw [disassemble, hcut, List.foldl_concat]
    exact htrans (hpush _ i hsize) (hfirst hkept)

/-! ## Instructions one after the other -/

theorem pc_of_mem_head? {pc skip : Nat} {code : Bytes} {i : Instruction}
    (h : i ∈ (disassembleFrom pc skip code).head?) : i.pc = pc + skip := by
  induction code generalizing pc skip with
  | nil => exact absurd h (by simp [disassembleFrom])
  | cons op rest ih =>
      unfold disassembleFrom at h
      split at h
      · have hpc := ih h
        omega
      · rw [List.head?_cons, Option.mem_some_iff] at h
        rw [← h]
        dsimp only
        omega

theorem isChain_disassembleFrom (pc skip : Nat) (code : Bytes) :
    (disassembleFrom pc skip code).IsChain fun a b => a.next = b.pc := by
  induction code generalizing pc skip with
  | nil => exact .nil
  | cons op rest ih =>
      unfold disassembleFrom
      split
      · exact ih _ _
      · refine (ih _ _).cons fun i hi => ?_
        exact (pc_of_mem_head? hi).symm

/-- The instructions stand one after the other from a place on, each with the whole of its
immediate. -/
def InSequence : (pc : Nat) → List Instruction → Prop
  | _, [] => True
  | pc, i :: rest =>
    i.pc = pc ∧ i.immediate.length = Opcode.pushSize i.opcode ∧ InSequence i.next rest

theorem exists_of_disassembleFrom {pc skip : Nat} {code : Bytes} {front behind : List Instruction}
    {i : Instruction} (h : disassembleFrom pc skip code = front ++ i :: behind) :
    ∃ n, i.pc = pc + n ∧ code[n]? = some i.opcode ∧
      behind = disassembleFrom (i.pc + 1) (Opcode.pushSize i.opcode) (code.drop (n + 1)) := by
  induction code generalizing pc skip front with
  | nil => exact absurd h (by simp [disassembleFrom])
  | cons op rest ih =>
      have hrest : ∀ {skip front}, disassembleFrom (pc + 1) skip rest = front ++ i :: behind →
          ∃ n, i.pc = pc + n ∧ (op :: rest)[n]? = some i.opcode ∧ behind =
            disassembleFrom (i.pc + 1) (Opcode.pushSize i.opcode) ((op :: rest).drop (n + 1)) := by
        intro skip front h
        obtain ⟨n, hpc, hop, hbehind⟩ := ih h
        exact ⟨n + 1, by omega, hop, hbehind⟩
      rw [disassembleFrom] at h
      by_cases hskip : 0 < skip
      · rw [if_pos hskip] at h
        exact hrest h
      · rw [if_neg hskip] at h
        cases front with
        | nil =>
            obtain ⟨rfl, rfl⟩ := List.cons.inj h
            exact ⟨0, rfl, rfl, rfl⟩
        | cons f front => exact hrest (List.cons.inj h).2

theorem disassembleFrom_immediate (pc : Nat) (immediate rest : Bytes) :
    disassembleFrom pc immediate.length (immediate ++ rest) =
      disassembleFrom (pc + immediate.length) 0 rest := by
  induction immediate generalizing pc with
  | nil => rfl
  | cons b tail ih =>
      rw [List.cons_append, disassembleFrom, List.length_cons, if_pos (Nat.succ_pos _),
        Nat.add_sub_cancel, ih, show pc + 1 + tail.length = pc + (tail.length + 1) by omega]

theorem disassembleFrom_encode {pc : Nat} {is : List Instruction} (h : InSequence pc is)
    (rest : Bytes) :
    disassembleFrom pc 0 (is.flatMap Instruction.encode ++ rest) =
      is ++ disassembleFrom (pc + (is.flatMap Instruction.encode).length) 0 rest := by
  induction is generalizing pc with
  | nil => rfl
  | cons i tail ih =>
      obtain ⟨rfl, hlength, htail⟩ := h
      have hcode : (i :: tail).flatMap Instruction.encode ++ rest =
          i.opcode :: (i.immediate ++ (tail.flatMap Instruction.encode ++ rest)) := by
        simp [Instruction.encode]
      have hnext : i.pc + 1 + i.immediate.length = i.next := by
        rw [Instruction.next, hlength]
      rw [hcode, disassembleFrom, if_neg (Nat.lt_irrefl 0), ← hlength, List.take_left,
        disassembleFrom_immediate, hnext, ih htail, List.cons_append]
      congr 2
      simp only [List.flatMap_cons, Instruction.encode, List.length_append, List.length_cons]
      rw [← hnext]
      congr 1
      omega

/-! ## Places -/

namespace Instruction

def shift (i : Instruction) (n : Nat) : Instruction :=
  { i with pc := i.pc + n }

end Instruction

theorem disassembleFrom_add (pc n skip : Nat) (code : Bytes) :
    disassembleFrom (pc + n) skip code = (disassembleFrom pc skip code).map (·.shift n) := by
  induction code generalizing pc skip with
  | nil => rfl
  | cons op rest ih =>
      have hplace : pc + n + 1 = pc + 1 + n := by omega
      rw [disassembleFrom, disassembleFrom, hplace]
      by_cases hskip : 0 < skip
      · rw [if_pos hskip, if_pos hskip, ih]
      · rw [if_neg hskip, if_neg hskip, ih, List.map_cons, Instruction.shift]

end ContractAbi
