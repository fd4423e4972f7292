import ContractAbi.Proofs.Evm.BranchCode
import ContractAbi.Proofs.Evm.TableGrowth

/-!
# The branches of a dispatcher

A dispatcher tests the selector of a call against one value after the other and goes to a place
where a test holds. Code may stand in front of the tests, and it may leave the scan in the middle of
a comparison.

* `Scan.foldl_branch`: behind a branch, all that the scan keeps is in the table;
* `selectors_foldl_enter`, `target?_foldl_enter`: what a list of branches enters into the table;
* `selectors_behind`: what other code adds to it;
* `scan_branches`: the table of code with branches in the middle of it.
-/

namespace ContractAbi

namespace Dispatcher

variable {window : Int} {i : Instruction} {s : Scan}

/-! ## The scan of a branch -/

namespace Scan

theorem step_of_known {op : UInt8} (h : Opcode.isKnown op = true) (pc : Nat) (immediate : Bytes) :
    s.step window ⟨pc, op, immediate⟩ =
      { (s.onKnown ⟨pc, op, immediate⟩).expire window (pc + 1 + Opcode.pushSize op) with
        pushed := Opcode.isPush op } := by
  rw [step, if_pos h, Instruction.next]

theorem expire_of_near {t : DispatchTable} {pushed : Bool} {c : Candidate} {place : Nat}
    (h : (place : Int) - c.pc ≤ window) :
    (⟨t, true, pushed, some c⟩ : Scan).expire window place = ⟨t, true, pushed, some c⟩ := by
  rw [expire, Option.filter_some, if_pos (decide_eq_true h)]

/-- The scan remembers the value of a branch whatever it remembered before. -/
theorem step_value (hloaded : s.loaded = true) (b : Branch) (hwindow : 9 ≤ window) (pc : Nat) :
    s.step window ⟨pc, UInt8.ofNat (0x5f + b.value.length), b.value⟩ =
      ⟨s.table, true, true, some ⟨pc, Bytes.padLeft 4 b.value, false, none⟩⟩ := by
  have hsize := b.pushSize_value
  have hwide := b.wide
  have hpush : 0 < Opcode.pushSize (UInt8.ofNat (0x5f + b.value.length)) := by omega
  have hisPush : Opcode.isPush (UInt8.ofNat (0x5f + b.value.length)) = true :=
    Opcode.isPush_of_pushSize hpush
  have honPush : s.onPush ⟨pc, UInt8.ofNat (0x5f + b.value.length), b.value⟩ =
      ⟨s.table, true, s.pushed, some ⟨pc, Bytes.padLeft 4 b.value, false, none⟩⟩ := by
    rw [onPush, push]
    simp only [hsize, hwide, hloaded, and_self, if_true]
  rw [step_of_known (Opcode.isKnown_of_pushSize hpush), onKnown_of_push hpush, honPush,
    expire_of_near, hisPush]
  rw [hsize]
  dsimp only
  omega

theorem step_test (t : DispatchTable) (value : Bytes) (test : Test) {pc place : Nat}
    (hnear : (place : Int) + 1 - pc ≤ window) :
    (⟨t, true, true, some ⟨pc, value, false, none⟩⟩ : Scan).step window ⟨place, test.opcode, []⟩ =
      ⟨t, true, false, some ⟨pc, value, test.compares, none⟩⟩ := by
  have hknown : Opcode.isKnown test.opcode = true := by cases test <;> decide
  have hisPush : Opcode.isPush test.opcode = false := by cases test <;> decide
  have honKnown : (⟨t, true, true, some ⟨pc, value, false, none⟩⟩ : Scan).onKnown
      ⟨place, test.opcode, []⟩ = ⟨t, true, true, some ⟨pc, value, test.compares, none⟩⟩ := by
    cases test with
    | equal => exact onKnown_of_eq rfl
    | above =>
        have hother : Opcode.pushSize 0x11 = 0 ∧ (0x11 : UInt8) ≠ Opcode.callDataLoad ∧
            (0x11 : UInt8) ≠ Opcode.callValue ∧ (0x11 : UInt8) ≠ Opcode.eq ∧
            (0x11 : UInt8) ≠ Opcode.jumpIf := by decide
        obtain ⟨hsize, hload, hvalue, heq, hjump⟩ := hother
        exact onKnown_of_other hsize hload hvalue heq hjump
  rw [step_of_known hknown, honKnown, expire_of_near, hisPush]
  rw [Branch.pushSize_test]
  dsimp only
  omega

theorem step_place (t : DispatchTable) (c : Candidate) (n : UInt16) {place : Nat}
    (hnear : (place : Int) + 3 - c.pc ≤ window) :
    (⟨t, true, false, some c⟩ : Scan).step window ⟨place, 0x61, Bytes.ofNat 2 n.toNat⟩ =
      ⟨t, true, true, some { c with target := some n.toNat }⟩ := by
  have hknown : Opcode.isKnown 0x61 = true := by decide
  have hsize : Opcode.pushSize 0x61 = 2 := by decide
  have hisPush : Opcode.isPush 0x61 = true := by decide
  have hpush : 0 < Opcode.pushSize 0x61 := by decide
  have hnat : Bytes.toNat (Bytes.ofNat 2 n.toNat) = n.toNat := Bytes.toNat_ofNat n.toNat_lt
  have hfull : (Bytes.ofNat 2 n.toNat).isEmpty = false := by simp [Bytes.ofNat]
  have honPush : (⟨t, true, false, some c⟩ : Scan).onPush ⟨place, 0x61, Bytes.ofNat 2 n.toNat⟩ =
      ⟨t, true, false, some { c with target := some n.toNat }⟩ := by
    rw [onPush, push]
    simp [hsize, hnat, hfull]
  rw [step_of_known hknown, onKnown_of_push hpush, honPush, expire_of_near, hisPush]
  rw [hsize]
  dsimp only
  omega

theorem step_jump (t : DispatchTable) (c : Candidate) (place : Nat) :
    (⟨t, true, true, some c⟩ : Scan).step window ⟨place, Opcode.jumpIf, []⟩ =
      between (record ⟨t, true, true, some c⟩ c) := by
  have hknown : Opcode.isKnown Opcode.jumpIf = true := by decide
  rw [step_of_known hknown, onKnown_of_jump rfl]
  rfl

theorem record_branch (t : DispatchTable) (b : Branch) (pc : Nat) (candidate : Option Candidate) :
    record ⟨t, true, true, candidate⟩
      ⟨pc, Bytes.padLeft 4 b.value, b.test.compares, some b.place.toNat⟩ = b.enter t := by
  unfold record Branch.enter Branch.compared?
  cases b.test with
  | above => rfl
  | equal =>
      have hcompares : Test.equal.compares = true := rfl
      by_cases hmask : Bytes.padLeft 4 b.value = mask
      · simp [hmask]
      · by_cases hknown : Hex.encode0x (Bytes.padLeft 4 b.value) ∈ t.selectors
        · simp [hmask, hknown]
        · simp [hmask, hknown, hcompares]

/-- Behind a branch, nothing of what stood in front of it matters but the table. -/
theorem foldl_branch (hloaded : s.loaded = true) (hwindow : 9 ≤ window) (b : Branch) (pc : Nat) :
    (b.instructions pc).foldl (step window) s = between (b.enter s.table) := by
  have hwide := b.wide
  have hcopy : (⟨pc, 0x80, []⟩ : Instruction).opcode = 0x80 := rfl
  have hfirst : (s.step window ⟨pc, 0x80, []⟩).loaded = true := by
    rw [loaded_step, loaded_onKnown, hloaded, Bool.true_or]
  have htable : (s.step window ⟨pc, 0x80, []⟩).table = s.table := by
    rw [table_step, onKnown_of_other (by rw [hcopy]; decide) (by rw [hcopy]; decide)
      (by rw [hcopy]; decide) (by rw [hcopy]; decide) (by rw [hcopy]; decide)]
  have htest : ((pc + 2 + b.value.length : Nat) : Int) + 1 - ((pc + 1 : Nat) : Int) ≤ window := by
    omega
  have hplace : ((pc + 3 + b.value.length : Nat) : Int) + 3 - ((pc + 1 : Nat) : Int) ≤ window := by
    omega
  have hpush : UInt8.ofNat (0x5f + (Bytes.ofNat 2 b.place.toNat).length) = 0x61 := by
    simp [Bytes.ofNat]
  simp only [Branch.instructions, testInstructions, hpush, List.foldl_cons, List.foldl_nil]
  rw [step_value hfirst b hwindow, htable, step_test _ _ _ htest, step_place _ _ _ hplace,
    step_jump, record_branch]

end Scan

/-! ## Lists of branches -/

section Lists

variable {t : DispatchTable} {branches : List Branch}

/-- A branch enters its selector behind the others, if it is new. -/
theorem selectors_enter (b : Branch) :
    (b.enter t).selectors =
      match b.compared? with
      | some x => if x ∈ t.selectors then t.selectors else t.selectors ++ [x]
      | none => t.selectors := by
  unfold Branch.enter
  cases b.compared? with
  | none => rfl
  | some x =>
      dsimp only
      by_cases hx : x ∈ t.selectors
      · rw [if_pos hx, if_pos hx]
      · rw [if_neg hx, if_neg hx]

theorem selectors_foldl_enter (h : t.selectors.Nodup) :
    (branches.foldl Branch.enter t).selectors =
      (t.selectors ++ branches.filterMap Branch.compared?).eraseDups := by
  induction branches using List.reverseRecOn with
  | nil => rw [List.filterMap_nil, List.append_nil, eraseDups_of_nodup h, List.foldl_nil]
  | append_singleton branches b ih =>
      rw [List.foldl_concat, selectors_enter, List.filterMap_append, ih]
      cases hb : b.compared? with
      | none => simp [hb]
      | some x =>
          rw [List.filterMap_cons_some hb, List.filterMap_nil, ← List.append_assoc,
            eraseDups_concat]
          simp only [List.mem_eraseDups]

theorem table_grows_enter (t : DispatchTable) (b : Branch) :
    t.Extends (b.enter t) ∧ (Scan.Keyed t → Scan.Keyed (b.enter t)) := by
  have h := Scan.table_grows_foldl defaultWindow (Scan.between t) (b.instructions 0)
  rwa [Scan.foldl_branch rfl (by decide)] at h

theorem table_grows_foldl_enter (t : DispatchTable) (branches : List Branch) :
    t.Extends (branches.foldl Branch.enter t) ∧
      (Scan.Keyed t → Scan.Keyed (branches.foldl Branch.enter t)) := by
  induction branches generalizing t with
  | nil => exact ⟨.refl _, id⟩
  | cons b rest ih =>
      obtain ⟨henter, hkeyed⟩ := table_grows_enter t b
      obtain ⟨hrest, hkeyed'⟩ := ih (b.enter t)
      exact ⟨henter.trans hrest, fun h => hkeyed' (hkeyed h)⟩

theorem target?_enter (h : Scan.Keyed t) {b : Branch} {x : String} (hx : b.compared? = some x)
    (hnew : x ∉ t.selectors) : (b.enter t).target? x = some b.place.toNat := by
  have hnone : t.targets.find? (fun e => e.1 == x) = none := by
    rw [List.find?_eq_none]
    intro e he hkey
    exact hnew (beq_iff_eq.1 hkey ▸ h e he)
  unfold Branch.enter DispatchTable.target?
  rw [hx]
  dsimp only
  rw [if_neg hnew, List.find?_append, hnone]
  simp

/-- The place of a selector is the place of the branch that compares it first. -/
theorem target?_foldl_enter (hnodup : t.selectors.Nodup) (h : Scan.Keyed t)
    {earlier later : List Branch} {b : Branch} {x : String} (hx : b.compared? = some x)
    (hknown : x ∉ t.selectors) (hearlier : x ∉ earlier.filterMap Branch.compared?) :
    ((earlier ++ b :: later).foldl Branch.enter t).target? x = some b.place.toNat := by
  have hnew : x ∉ (earlier.foldl Branch.enter t).selectors := by
    rw [selectors_foldl_enter hnodup, List.mem_eraseDups, List.mem_append]
    exact not_or.2 ⟨hknown, hearlier⟩
  have hkeyed := (table_grows_foldl_enter t earlier).2 h
  rw [List.foldl_append, List.foldl_cons]
  exact (table_grows_foldl_enter _ later).1.target?_eq_some (target?_enter hkeyed hx hnew)

end Lists

/-! ## Code with branches in it -/

theorem foldl_cons_branch (hloaded : s.loaded = true) (hwindow : 9 ≤ window) (b : Branch) (pc : Nat)
    (rest : Bytes) :
    (disassembleFrom pc 0 (b.encode ++ rest)).foldl (Scan.step window) s =
      (disassembleFrom (pc + b.encode.length) 0 rest).foldl (Scan.step window)
        (Scan.between (b.enter s.table)) := by
  rw [b.disassembleFrom_branch, List.foldl_append, Scan.foldl_branch hloaded hwindow]

theorem foldl_branches_between (hwindow : 9 ≤ window) (branches : List Branch) (t : DispatchTable)
    (pc : Nat) (rest : Bytes) :
    (disassembleFrom pc 0 (branches.flatMap Branch.encode ++ rest)).foldl (Scan.step window)
        (Scan.between t) =
      (disassembleFrom (pc + (branches.flatMap Branch.encode).length) 0 rest).foldl
        (Scan.step window) (Scan.between (branches.foldl Branch.enter t)) := by
  induction branches generalizing t pc with
  | nil => rfl
  | cons b tail ih =>
      have hplace : pc + ((b :: tail).flatMap Branch.encode).length =
          pc + b.encode.length + (tail.flatMap Branch.encode).length := by
        rw [List.flatMap_cons, List.length_append]
        omega
      rw [hplace, List.flatMap_cons, List.append_assoc, foldl_cons_branch rfl hwindow, ih]
      rfl

/-- A first branch is enough for the scan to forget what it was in the middle of. -/
theorem foldl_branches (hloaded : s.loaded = true) (hwindow : 9 ≤ window) {branches : List Branch}
    (hbranches : branches ≠ []) (pc : Nat) (rest : Bytes) :
    (disassembleFrom pc 0 (branches.flatMap Branch.encode ++ rest)).foldl (Scan.step window) s =
      (disassembleFrom (pc + (branches.flatMap Branch.encode).length) 0 rest).foldl
        (Scan.step window) (Scan.between (branches.foldl Branch.enter s.table)) := by
  obtain ⟨b, tail, hcons⟩ := List.exists_cons_of_ne_nil hbranches
  have hbetween := foldl_branches_between hwindow branches s.table pc rest
  rw [hcons, List.flatMap_cons, List.append_assoc, foldl_cons_branch rfl hwindow] at hbetween
  rw [hcons, List.flatMap_cons, List.append_assoc, foldl_cons_branch hloaded hwindow]
  exact hbetween

theorem keyed_scan (code : Bytes) (window : Int) : Scan.Keyed (scan code window) := by
  rw [scan_eq_foldl]
  exact (Scan.table_grows_foldl window Scan.initial _).2 fun _ he => absurd he List.not_mem_nil

theorem nodup_selectors_scan (code : Bytes) (window : Int) :
    (scan code window).selectors.Nodup := by
  have hselectors : (scan code window).selectors =
      (reported (disassemble code) window).eraseDups := (tracks_scan code window).selectors
  rw [hselectors]
  exact nodup_eraseDups _

/-- The scan behind a code that has loaded call data, and behind branches behind that code. -/
theorem exists_scan_branches {front : Bytes} (hexact : EndsExactly front)
    (hload : ∃ l ∈ disassemble front, l.opcode = Opcode.callDataLoad) (hwindow : 9 ≤ window)
    (branches : List Branch) :
    ∃ s : Scan, s.table = branches.foldl Branch.enter (scan front window) ∧
      (branches ≠ [] → s = Scan.between s.table) ∧
      ∀ rest, scan (front ++ branches.flatMap Branch.encode ++ rest) window =
        ((disassembleFrom (front ++ branches.flatMap Branch.encode).length 0 rest).foldl
          (Scan.step window) s).table := by
  have hloaded := (tracks_scan front window).loaded.2 hload
  have hscan : ∀ rest, scan (front ++ branches.flatMap Branch.encode ++ rest) window =
      ((disassembleFrom front.length 0 (branches.flatMap Branch.encode ++ rest)).foldl
        (Scan.step window) (scanFrom window 0 Scan.initial front)).table := by
    intro rest
    rw [scan, List.append_assoc, scanFrom_append hexact]
  -- Without a branch, the scan may still be in the middle of a comparison of the code in front.
  by_cases hbranches : branches = []
  · refine ⟨scanFrom window 0 Scan.initial front, ?_, fun h => absurd hbranches h,
      fun rest => ?_⟩
    · rw [hbranches]
      rfl
    · rw [hscan, hbranches, List.flatMap_nil, List.nil_append, List.append_nil]
  · refine ⟨Scan.between (branches.foldl Branch.enter (scan front window)), rfl, fun _ => rfl,
      fun rest => ?_⟩
    rw [hscan, foldl_branches hloaded hwindow hbranches, List.length_append]
    rfl

theorem exists_pushed_of_mem {pc : Nat} {code : Bytes} {p : Instruction}
    (hp : p ∈ disassembleFrom pc 0 code) : ∃ q ∈ disassemble code, pushed q = pushed p := by
  have hshift := disassembleFrom_add 0 pc 0 code
  rw [Nat.zero_add] at hshift
  rw [hshift] at hp
  obtain ⟨q, hq, hqp⟩ := List.mem_map.1 hp
  exact ⟨q, hq, hqp ▸ rfl⟩

/-- Behind branches, code adds no selectors but those that it pushes itself. -/
theorem selectors_behind (window : Int) (t : DispatchTable) (pc : Nat) (rest : Bytes) :
    ∃ more, ((disassembleFrom pc 0 rest).foldl (Scan.step window)
        (Scan.between t)).table.selectors = t.selectors ++ more ∧
      ∀ x ∈ more, ∃ p ∈ disassemble rest, pushed p = x := by
  have hstems : Scan.Stems (disassembleFrom pc 0 rest) t
      ((disassembleFrom pc 0 rest).foldl (Scan.step window) (Scan.between t)) :=
    (Scan.stems_between _ t).foldl (List.Subset.refl _)
  obtain ⟨more, hmore, hpushed⟩ := hstems.selectors
  refine ⟨more, hmore, fun x hx => ?_⟩
  obtain ⟨p, hp, hpx⟩ := hpushed x hx
  obtain ⟨q, hq, hqp⟩ := exists_pushed_of_mem hp
  exact ⟨q, hq, hqp.trans hpx⟩

/-- Code that ends exactly and has loaded call data may leave the scan in any state: all branches
behind it are found. The selectors that they compare follow those of the code in front, each where
it is compared first and at the place of that branch. Values that the selector is only ordered by
add nothing; what comes behind is pushed by the code behind. -/
theorem scan_branches {front : Bytes} (hexact : EndsExactly front)
    (hload : ∃ l ∈ disassemble front, l.opcode = Opcode.callDataLoad) (branches : List Branch)
    (rest : Bytes) :
    let known := (scan front defaultWindow).selectors
    let table := scan (front ++ branches.flatMap Branch.encode ++ rest) defaultWindow
    (∃ more,
      table.selectors = (known ++ branches.filterMap Branch.compared?).eraseDups ++ more ∧
      (rest = [] → more = []) ∧
      (branches ≠ [] → ∀ x ∈ more, ∃ p ∈ disassemble rest, pushed p = x)) ∧
    ∀ earlier b later x, branches = earlier ++ b :: later → b.compared? = some x → x ∉ known →
      x ∉ earlier.filterMap Branch.compared? → table.target? x = some b.place.toNat := by
  intro known table
  have hnodup := nodup_selectors_scan front defaultWindow
  obtain ⟨s, htable, hbetween, hscan⟩ :=
    exists_scan_branches hexact hload (show 9 ≤ defaultWindow by decide) branches
  have hselectors : s.table.selectors =
      (known ++ branches.filterMap Branch.compared?).eraseDups := by
    rw [htable, selectors_foldl_enter hnodup]
  have hgrows := (Scan.table_grows_foldl defaultWindow s
    (disassembleFrom (front ++ branches.flatMap Branch.encode).length 0 rest)).1
  rw [← hscan rest] at hgrows
  constructor
  · obtain ⟨more, hmore⟩ := hgrows.selectors
    rw [hselectors] at hmore
    refine ⟨more, hmore.symm, ?_, ?_⟩
    · intro hrest
      -- Nothing is scanned behind the branches.
      have hsame : table.selectors = s.table.selectors := by
        rw [show table = _ from hscan rest, hrest]
        rfl
      rw [hselectors, ← hmore] at hsame
      exact List.append_right_eq_self.1 hsame
    · intro hbranches x hx
      obtain ⟨more', hmore', hpushed⟩ := selectors_behind defaultWindow s.table
        (front ++ branches.flatMap Branch.encode).length rest
      rw [← hbetween hbranches, ← hscan rest, hselectors, ← hmore] at hmore'
      exact hpushed x (List.append_cancel_left hmore' ▸ hx)
  · intro earlier b later x hsplit hx hknown hearlier
    have htarget : s.table.target? x = some b.place.toNat := by
      rw [htable, hsplit]
      exact target?_foldl_enter hnodup (keyed_scan front defaultWindow) hx hknown hearlier
    exact hgrows.target?_eq_some htarget

/-- Call data is loaded, and the jump of a first comparison is missing. -/
def halfOpen : Bytes :=
  [0x5f, 0x35, 0x63, 0xaa, 0xbb, 0xcc, 0xdd, 0x14, 0x61, 0x00, 0x42]

def halfTree : List Branch :=
  [⟨.above, [0x80, 0, 0, 0], .inr rfl, 0x50⟩, ⟨.equal, [0x2d, 0xec, 0x55, 0xa6], .inr rfl, 0x60⟩,
    ⟨.equal, [0xff, 0xff, 0xff, 0xff], .inr rfl, 0x70⟩, ⟨.equal, [1, 2, 3], .inl rfl, 0x80⟩,
    ⟨.equal, [0x2d, 0xec, 0x55, 0xa6], .inr rfl, 0x90⟩]

theorem scan_branches_halfOpen :
    EndsExactly halfOpen ∧ (∃ l ∈ disassemble halfOpen, l.opcode = Opcode.callDataLoad) ∧
      (∃ more, (scan (halfOpen ++ halfTree.flatMap Branch.encode ++ [0x63, 0x57])
        defaultWindow).selectors = ["0x2dec55a6", "0x00010203"] ++ more) ∧
      (scan (halfOpen ++ halfTree.flatMap Branch.encode ++ [0x63, 0x57])
        defaultWindow).target? "0x2dec55a6" = some 0x60 := by
  have hexact : EndsExactly halfOpen := by decide
  have hload : ∃ l ∈ disassemble halfOpen, l.opcode = Opcode.callDataLoad := by decide
  have hselectors : ((scan halfOpen defaultWindow).selectors ++
      halfTree.filterMap Branch.compared?).eraseDups = ["0x2dec55a6", "0x00010203"] := by
    decide +kernel
  obtain ⟨⟨more, hmore, -, -⟩, htarget⟩ := scan_branches hexact hload halfTree [0x63, 0x57]
  rw [hselectors] at hmore
  refine ⟨hexact, hload, ⟨more, hmore⟩, ?_⟩
  exact htarget [⟨.above, [0x80, 0, 0, 0], .inr rfl, 0x50⟩]
    ⟨.equal, [0x2d, 0xec, 0x55, 0xa6], .inr rfl, 0x60⟩ _ "0x2dec55a6" rfl (by decide +kernel)
    (by decide +kernel) (by decide +kernel)

end Dispatcher

end ContractAbi
