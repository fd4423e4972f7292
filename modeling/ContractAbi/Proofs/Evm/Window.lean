import ContractAbi.Proofs.Evm.Scan
import ContractAbi.Proofs.Evm.Sequence
import Mathlib.Data.List.DropRight

/-!
# The window of a comparison

A pushed value is given up when a known instruction ends too far behind its push. Opcodes outside of
the instruction set are passed over without that check, so a jump that stands behind some of them
may lie that much farther away.

* `pc_eq_add_idle`: where a jump stands behind the last known instruction;
* `Reports.mono`: a wider window loses no report;
* `reported_within`: how far a jump may lie from the push that it reports;
* `selectors_stretched`: the window alone is no bound.
-/

namespace ContractAbi

namespace Dispatcher

variable {is : List Instruction} {code : Bytes} {window : Int} {j p : Instruction}

/-! ## Distances -/

/-- How many opcodes outside of the instruction set stand directly in front of a place. -/
def idle (is : List Instruction) (j : Instruction) : Nat :=
  ((before is j).rtakeWhile fun q => !Opcode.isKnown q.opcode).length

theorem before_append_cons {front behind : List Instruction}
    (h : (front ++ j :: behind).Pairwise fun a b => a.next ≤ b.pc) :
    before (front ++ j :: behind) j = front := by
  obtain ⟨-, hbehind, hfront⟩ := List.pairwise_append.1 h
  obtain ⟨hbehind, -⟩ := List.pairwise_cons.1 hbehind
  have hkept : front.filter (fun q => decide (q.pc < j.pc)) = front :=
    List.filter_eq_self.2 fun q hq =>
      decide_eq_true (Instruction.pc_lt_of_next_le (hfront q hq j List.mem_cons_self))
  have hlost : (j :: behind).filter (fun q => decide (q.pc < j.pc)) = [] := by
    rw [List.filter_eq_nil_iff]
    intro q hq hlt
    have hlt := of_decide_eq_true hlt
    rcases List.mem_cons.1 hq with rfl | hq
    · exact Nat.lt_irrefl _ hlt
    · exact Nat.lt_asymm hlt (Instruction.pc_lt_of_next_le (hbehind q hq))
  rw [before, List.filter_append, hkept, hlost, List.append_nil]

/-- Instructions of one byte each take up as many bytes as they are. -/
theorem pc_of_isChain {k : Instruction} {ones : List Instruction}
    (h : (k :: (ones ++ [j])).IsChain fun a b => a.next = b.pc)
    (hones : ∀ q ∈ ones, q.next = q.pc + 1) : j.pc = k.next + ones.length := by
  induction ones generalizing k with
  | nil => exact (List.isChain_pair.1 h).symm
  | cons q ones ih =>
      obtain ⟨hkq, hrest⟩ := List.isChain_cons_cons.1 h
      have hj := ih hrest fun q hq => hones q (List.mem_cons_of_mem _ hq)
      have hq := hones q List.mem_cons_self
      rw [List.length_cons]
      omega

/-- A list that holds a known instruction: up to the last of them, and the idle opcodes behind. -/
theorem exists_last_known {front : List Instruction}
    (h : ∃ q ∈ front, Opcode.isKnown q.opcode = true) :
    ∃ init k, Opcode.isKnown k.opcode = true ∧
      front = init ++ k :: front.rtakeWhile fun q => !Opcode.isKnown q.opcode := by
  have hparts : front.rdropWhile (fun q => !Opcode.isKnown q.opcode) ++
      front.rtakeWhile (fun q => !Opcode.isKnown q.opcode) = front :=
    List.rdropWhile_append_rtakeWhile
  have hne : front.rdropWhile (fun q => !Opcode.isKnown q.opcode) ≠ [] := by
    intro hnil
    obtain ⟨q, hq, hknown⟩ := h
    have hidle := List.rdropWhile_eq_nil_iff.1 hnil q hq
    rw [hknown] at hidle
    exact absurd hidle (by decide)
  have hlast := List.rdropWhile_last_not _ _ hne
  generalize front.rdropWhile (fun q => !Opcode.isKnown q.opcode) = known at hparts hne hlast
  have hknown : Opcode.isKnown (known.getLast hne).opcode = true := by simpa using hlast
  refine ⟨known.dropLast, known.getLast hne, hknown, ?_⟩
  rw [List.append_cons, List.dropLast_append_getLast hne, hparts]

/-- The code around a place: the last known instruction in front of it, and the idle opcodes that
stand between. -/
theorem exists_split_idle (hj : j ∈ disassemble code) (hp : p ∈ disassemble code)
    (hbefore : p.pc < j.pc) (hknown : Opcode.isKnown p.opcode = true) :
    ∃ init k ones behind, disassemble code = init ++ (k :: (ones ++ [j])) ++ behind ∧
      p ∈ init ++ k :: ones ∧ Opcode.isKnown k.opcode = true ∧
      (∀ q ∈ ones, Opcode.isKnown q.opcode = false) ∧
      idle (disassemble code) j = ones.length := by
  obtain ⟨front, behind, hsplit⟩ := List.append_of_mem hj
  have hfront : before (disassemble code) j = front := by
    have hpairs : (disassemble code).Pairwise fun a b => a.next ≤ b.pc :=
      pairwise_disassembleFrom 0 0 code
    rw [hsplit] at hpairs ⊢
    exact before_append_cons hpairs
  have hpfront : p ∈ front := hfront ▸ List.mem_filter.2 ⟨hp, decide_eq_true hbefore⟩
  obtain ⟨init, k, hk, hlast⟩ := exists_last_known ⟨p, hpfront, hknown⟩
  refine ⟨init, k, front.rtakeWhile fun q => !Opcode.isKnown q.opcode, behind, ?_, hlast ▸ hpfront,
    hk, fun q hq => by simpa using List.mem_rtakeWhile_imp hq, by rw [idle, hfront]⟩
  rw [hsplit, List.append_assoc, List.cons_append, List.append_assoc, List.singleton_append,
    ← List.cons_append, ← List.append_assoc, ← hlast]

/-- The idle opcodes fill the bytes between the last known instruction and the place. -/
theorem pc_eq_add_idle (hj : j ∈ disassemble code) (hp : p ∈ disassemble code)
    (hbefore : p.pc < j.pc) (hknown : Opcode.isKnown p.opcode = true) :
    ∃ k ∈ disassemble code, Opcode.isKnown k.opcode = true ∧ p.pc ≤ k.pc ∧ k.pc < j.pc ∧
      j.pc = k.next + idle (disassemble code) j := by
  obtain ⟨init, k, ones, behind, hall, hpfront, hk, hunknown, hidle⟩ :=
    exists_split_idle hj hp hbefore hknown
  have hnext : ∀ q ∈ ones, q.next = q.pc + 1 := by
    intro q hq
    rw [Instruction.next, Opcode.pushSize_of_not_isKnown (hunknown q hq), Nat.add_zero]
  have hchain : (disassemble code).IsChain fun a b => a.next = b.pc :=
    isChain_disassembleFrom 0 0 code
  have hpart : (k :: (ones ++ [j])).IsChain fun a b => a.next = b.pc :=
    List.IsChain.infix hchain ⟨init, behind, hall.symm⟩
  have hplace : j.pc = k.next + ones.length := pc_of_isChain hpart hnext
  refine ⟨k, by simp [hall], hk, ?_, ?_, by rw [hidle, hplace]⟩
  · rcases List.mem_append.1 hpfront with hpinit | hprest
    · have hpairs : (disassemble code).Pairwise fun a b => a.next ≤ b.pc :=
        pairwise_disassembleFrom 0 0 code
      rw [hall, List.append_assoc] at hpairs
      have hle := (List.pairwise_append.1 hpairs).2.2 p hpinit k (by simp)
      exact Nat.le_of_lt (Instruction.pc_lt_of_next_le hle)
    · rcases List.mem_cons.1 hprest with rfl | hpones
      · exact Nat.le_refl _
      · -- `p` is known, so it is not one of the idle opcodes
        exact absurd (hunknown p hpones) (by rw [hknown]; decide)
  · rw [hplace, Instruction.next]
    omega

/-! ## Reports -/

theorem Reports.mono {window' : Int} (h : Reports is window p j) (hwindow : window ≤ window') :
    Reports is window' p j :=
  { h with near := fun q hq hpq hqj hknown => Int.le_trans (h.near q hq hpq hqj hknown) hwindow }

theorem selectors_subset {window' : Int} (hwindow : window ≤ window') :
    (scan code window).selectors ⊆ (scan code window').selectors := by
  intro x hx
  obtain ⟨p, hp, j, hj, hreports, hpx⟩ := mem_selectors_iff.1 hx
  exact mem_selectors_iff.2 ⟨p, hp, j, hj, hreports.mono hwindow, hpx⟩

theorem Reports.isKnown (h : Reports is window p j) : Opcode.isKnown p.opcode = true := by
  refine Opcode.isKnown_of_pushSize ?_
  rcases h.carries.1 with hsize | hsize
  · omega
  · omega

/-- The jump lies in the window but for the idle opcodes in front of it. -/
theorem Reports.distance_le (hp : p ∈ disassemble code) (hj : j ∈ disassemble code)
    (h : Reports (disassemble code) window p j) :
    (j.pc : Int) - p.pc ≤ window + idle (disassemble code) j := by
  obtain ⟨k, hk, hknown, hpk, hkj, hplace⟩ := pc_eq_add_idle hj hp h.before h.isKnown
  have hnear := h.near k hk hpk hkj hknown
  omega

theorem next_le_of_pc_lt (his : is.Pairwise fun a b => a.next ≤ b.pc) (hp : p ∈ is) (hj : j ∈ is)
    (h : p.pc < j.pc) : p.next ≤ j.pc := by
  obtain ⟨front, behind, rfl⟩ := List.append_of_mem hj
  have hfront : p ∈ before (front ++ j :: behind) j := List.mem_filter.2 ⟨hp, decide_eq_true h⟩
  rw [before_append_cons his] at hfront
  exact (List.pairwise_append.1 his).2.2 p hfront j List.mem_cons_self

/-- Nothing is idle in front of a place where a known instruction ends. -/
theorem idle_eq_zero (hj : j ∈ disassemble code) (hp : p ∈ disassemble code)
    (hknown : Opcode.isKnown p.opcode = true) (hnext : p.next = j.pc) :
    idle (disassemble code) j = 0 := by
  have hpairs : (disassemble code).Pairwise fun a b => a.next ≤ b.pc :=
    pairwise_disassembleFrom 0 0 code
  have hbefore : p.pc < j.pc := Instruction.pc_lt_of_next_le (Nat.le_of_eq hnext)
  obtain ⟨k, hk, -, hpk, hkj, hplace⟩ := pc_eq_add_idle hj hp hbefore hknown
  have hsame : p = k := by
    rcases Nat.eq_or_lt_of_le hpk with heq | hlt
    · exact eq_of_pc_eq hpairs hp hk heq
    · have hle := next_le_of_pc_lt hpairs hp hk hlt
      omega
  rw [← hsame] at hplace
  omega

/-! ## Jumps behind the window -/

def stretched (n : Nat) : Bytes :=
  [0x5f, 0x35, 0x63, 0x2d, 0xec, 0x55, 0xa6, 0x14, 0x61, 0x00, 0x10] ++
    (List.replicate n 0x0c ++ [Opcode.jumpIf])

theorem disassembleFrom_replicate (pc n : Nat) :
    disassembleFrom pc 0 (List.replicate n 0x0c ++ [Opcode.jumpIf]) =
      (List.range' pc n).map (fun q => ⟨q, 0x0c, []⟩) ++ [⟨pc + n, Opcode.jumpIf, []⟩] := by
  induction n generalizing pc with
  | zero => rfl
  | succ n ih =>
      have hsize : Opcode.pushSize 0x0c = 0 := by decide
      rw [List.replicate_succ, List.cons_append, disassembleFrom, if_neg (Nat.lt_irrefl 0), hsize,
        ih, List.take_zero, List.range'_succ, List.map_cons, List.cons_append,
        show pc + 1 + n = pc + (n + 1) by omega]

theorem disassemble_stretched (n : Nat) :
    disassemble (stretched n) =
      [⟨0, 0x5f, []⟩, ⟨1, Opcode.callDataLoad, []⟩, ⟨2, 0x63, [0x2d, 0xec, 0x55, 0xa6]⟩,
        ⟨7, Opcode.eq, []⟩, ⟨8, 0x61, [0x00, 0x10]⟩] ++
      ((List.range' 11 n).map (fun q => ⟨q, 0x0c, []⟩) ++ [⟨11 + n, Opcode.jumpIf, []⟩]) := by
  have hexact : EndsExactly [0x5f, 0x35, 0x63, 0x2d, 0xec, 0x55, 0xa6, 0x14, 0x61, 0x00, 0x10] := by
    decide
  rw [stretched, disassemble_append hexact]
  exact congrArg _ (disassembleFrom_replicate 11 n)

/-- The instructions between the push of the selector and the jump. -/
theorem between_stretched {n : Nat} {q : Instruction} (hq : q ∈ disassemble (stretched n))
    (hpush : 2 < q.pc) (hjump : q.pc < 11 + n) :
    q = ⟨7, Opcode.eq, []⟩ ∨ q = ⟨8, 0x61, [0x00, 0x10]⟩ ∨ q.opcode = 0x0c := by
  simp only [disassemble_stretched, List.mem_append, List.mem_cons, List.mem_map, List.not_mem_nil,
    or_false] at hq
  rcases hq with (rfl | rfl | rfl | rfl | rfl) | ⟨pc, -, rfl⟩ | rfl
  · exact absurd hpush (by decide)
  · exact absurd hpush (by decide)
  · exact absurd hpush (by decide)
  · exact .inl rfl
  · exact .inr (.inl rfl)
  · exact .inr (.inr rfl)
  · exact absurd hjump (Nat.lt_irrefl _)

/-- The jump reports the push however many opcodes are idle in front of it. -/
theorem reports_stretched (hwindow : 9 ≤ window) (n : Nat) :
    Reports (disassemble (stretched n)) window ⟨2, 0x63, [0x2d, 0xec, 0x55, 0xa6]⟩
      ⟨11 + n, Opcode.jumpIf, []⟩ where
  jump := rfl
  carries :=
    ⟨by decide, ⟨1, Opcode.callDataLoad, []⟩, by simp [disassemble_stretched], rfl, by decide⟩
  before := by
    dsimp only
    omega
  last := by
    rintro q hq hpush hjump ⟨hsize, -⟩
    rcases between_stretched hq hpush hjump with rfl | rfl | hop
    · exact absurd hsize (by decide)
    · exact absurd hsize (by decide)
    · rw [hop] at hsize
      exact absurd hsize (by decide)
  alone := by
    intro q hq hpush hjump
    rcases between_stretched hq hpush hjump with rfl | rfl | hop
    · decide
    · decide
    · rw [hop]
      decide
  compared :=
    ⟨⟨7, Opcode.eq, []⟩, by simp [disassemble_stretched], by decide, by dsimp only; omega, rfl⟩
  near := by
    intro q hq hpush hjump hknown
    rcases Nat.eq_or_lt_of_le hpush with heq | hlt
    · obtain rfl := eq_of_pc_eq (pairwise_disassembleFrom 0 0 (stretched n))
        (by rw [← disassemble, disassemble_stretched]; simp) hq heq
      exact Int.le_trans (by decide) hwindow
    · rcases between_stretched hq hlt hjump with rfl | rfl | hop
      · exact Int.le_trans (by decide) hwindow
      · exact Int.le_trans (by decide) hwindow
      · rw [hop] at hknown
        exact absurd hknown (by decide)
  value := by decide

/-- However wide the window is, as long as it holds a comparison at all, the jump of one that is
found may lie as far away as one likes. -/
theorem selectors_stretched (hwindow : 9 ≤ window) (n : Nat) :
    "0x2dec55a6" ∈ (scan (stretched n) window).selectors ∧
      ∀ p ∈ disassemble (stretched n), ∀ j ∈ disassemble (stretched n),
        pushed p = "0x2dec55a6" → j.opcode = Opcode.jumpIf → j.pc = p.pc + 9 + n := by
  constructor
  · refine mem_selectors_iff.2 ⟨_, ?_, _, ?_, reports_stretched hwindow n, by decide⟩
    · simp [disassemble_stretched]
    · simp [disassemble_stretched]
  · intro p hp j hj hpushed hjump
    simp only [disassemble_stretched, List.mem_append, List.mem_cons, List.mem_map,
      List.not_mem_nil, or_false] at hp hj
    have hplace : j.pc = 11 + n := by
      rcases hj with (rfl | rfl | rfl | rfl | rfl) | ⟨pc, -, rfl⟩ | rfl
      iterate 5 exact absurd hjump (by decide)
      · exact absurd hjump (show (0x0c : UInt8) ≠ Opcode.jumpIf by decide)
      · rfl
    have hpush : p.pc = 2 := by
      rcases hp with (rfl | rfl | rfl | rfl | rfl) | ⟨pc, -, rfl⟩ | rfl
      · exact absurd hpushed (by decide)
      · exact absurd hpushed (by decide)
      · rfl
      · exact absurd hpushed (by decide)
      · exact absurd hpushed (by decide)
      · exact absurd (show pushed ⟨0, 0x0c, []⟩ = "0x2dec55a6" from hpushed) (by decide)
      · exact absurd (show pushed ⟨0, Opcode.jumpIf, []⟩ = "0x2dec55a6" from hpushed) (by decide)
    omega

/-! ## Selectors that are found -/

/-- Each selector that is found has a push, a comparison behind it and a conditional jump behind
that. All known instructions from the push up to the jump end within the window, so the jump lies
within it too, but for the opcodes outside of the instruction set directly in front of it; where a
known instruction stands there, the jump lies within the window. -/
theorem reported_within {code : Bytes} {window : Int} {selector : String}
    (h : selector ∈ (scan code window).selectors) :
    ∃ p ∈ disassemble code, ∃ e ∈ disassemble code, ∃ j ∈ disassemble code,
      (Opcode.pushSize p.opcode = 3 ∨ Opcode.pushSize p.opcode = 4) ∧ pushed p = selector ∧
      e.opcode = Opcode.eq ∧ j.opcode = Opcode.jumpIf ∧ p.pc < e.pc ∧ e.pc < j.pc ∧
      (∀ q ∈ disassemble code, p.pc ≤ q.pc → q.pc < j.pc → Opcode.isKnown q.opcode = true →
        (q.next : Int) - p.pc ≤ window) ∧
      (j.pc : Int) - p.pc ≤ window + idle (disassemble code) j ∧
      ((∃ q ∈ disassemble code, Opcode.isKnown q.opcode = true ∧ q.next = j.pc) →
        (j.pc : Int) - p.pc ≤ window) := by
  obtain ⟨p, hp, j, hj, hreports, hselector⟩ := mem_selectors_iff.1 h
  obtain ⟨e, he, hpe, hej, hcompares⟩ := hreports.compared
  have hdistance := hreports.distance_le hp hj
  refine ⟨p, hp, e, he, j, hj, hreports.carries.1, hselector, hcompares, hreports.jump, hpe, hej,
    hreports.near, hdistance, ?_⟩
  rintro ⟨q, hq, hknown, hnext⟩
  have hidle := idle_eq_zero hj hq hknown hnext
  omega

theorem reported_within_stretched :
    "0x2dec55a6" ∈ (scan (stretched 12) 9).selectors ∧
      ∃ p ∈ disassemble (stretched 12), ∃ j ∈ disassemble (stretched 12),
        pushed p = "0x2dec55a6" ∧ j.opcode = Opcode.jumpIf ∧
        (j.pc : Int) - p.pc ≤ 9 + idle (disassemble (stretched 12)) j := by
  have hfound := (selectors_stretched (Int.le_refl 9) 12).1
  obtain ⟨p, hp, -, -, j, hj, -, hselector, -, hjump, -, -, -, hdistance, -⟩ :=
    reported_within hfound
  exact ⟨hfound, p, hp, j, hj, hselector, hjump, hdistance⟩

/-- A selector is found although its only jump lies behind the window. -/
theorem reported_beyond_window :
    "0x2dec55a6" ∈ (scan (stretched 12) defaultWindow).selectors ∧
      ¬∃ p ∈ disassemble (stretched 12), ∃ e ∈ disassemble (stretched 12),
        ∃ j ∈ disassemble (stretched 12),
          (Opcode.pushSize p.opcode = 3 ∨ Opcode.pushSize p.opcode = 4) ∧
          pushed p = "0x2dec55a6" ∧ e.opcode = Opcode.eq ∧ j.opcode = Opcode.jumpIf ∧
          p.pc < e.pc ∧ e.pc < j.pc ∧ (j.pc : Int) - p.pc ≤ defaultWindow := by
  obtain ⟨hfound, hplaces⟩ := selectors_stretched (show 9 ≤ defaultWindow by decide) 12
  refine ⟨hfound, ?_⟩
  rintro ⟨p, hp, -, -, j, hj, -, hselector, -, hjump, -, -, hdistance⟩
  have hplace := hplaces p hp j hj hselector hjump
  unfold defaultWindow at hdistance
  omega

end Dispatcher

end ContractAbi
