import ContractAbi.Proofs.Evm.Branches

/-!
# Places of three bytes

Behind a load of call data a push of three bytes is taken for a selector. So a comparison whose
place is pushed with three bytes loses the value that it compares, and no such place is ever entered
into the table.

* `exists_foldl_wideBranches`: what comparisons with places of three bytes leave behind;
* `Scan.Placed`: which places the scan can know, kept by each step;
* `scan_wideBranches`: the table of code with such comparisons in it.
-/

namespace ContractAbi

namespace Dispatcher

variable {window : Int} {i : Instruction} {s : Scan} {is : List Instruction}

/-- A comparison of the selector with a pushed value of three or four bytes, and a place of three
bytes to go to. -/
structure WideBranch where
  value : Bytes
  wide : value.length = 3 ∨ value.length = 4
  place : Bytes
  far : place.length = 3

namespace WideBranch

def encode (b : WideBranch) : Bytes :=
  [0x80, UInt8.ofNat (0x5f + b.value.length)] ++ b.value ++ [Opcode.eq, 0x62] ++ b.place ++
    [Opcode.jumpIf]

def instructions (b : WideBranch) (pc : Nat) : List Instruction :=
  testInstructions b.value Opcode.eq b.place pc

variable (b : WideBranch)

theorem length_value_le : b.value.length ≤ 32 := by
  have hwide := b.wide
  omega

theorem disassembleFrom_wideBranch (pc : Nat) (rest : Bytes) :
    disassembleFrom pc 0 (b.encode ++ rest) =
      b.instructions pc ++ disassembleFrom (pc + b.encode.length) 0 rest := by
  have hplace : b.place.length ≤ 32 := b.far.trans_le (by decide)
  have htest : Opcode.pushSize Opcode.eq = 0 := by decide
  have h := disassembleFrom_testCode b.length_value_le hplace htest pc rest
  rwa [testCode, b.far] at h

end WideBranch

/-! ## The scan of a comparison -/

namespace Scan

/-- Conditional jumps and reads of the call value aside, an instruction leaves the table alone. -/
theorem step_of_ne (window : Int) (hloaded : s.loaded = true) (pc : Nat) (op : UInt8)
    (immediate : Bytes) (hjump : op ≠ Opcode.jumpIf) (hvalue : op ≠ Opcode.callValue) :
    (s.step window ⟨pc, op, immediate⟩).loaded = true ∧
      (s.step window ⟨pc, op, immediate⟩).table = s.table := by
  have hguarded : (s.onKnown ⟨pc, op, immediate⟩).table.guarded = s.table.guarded := by
    simp [guarded_onKnown, hvalue]
  constructor
  · rw [loaded_step, loaded_onKnown, hloaded, Bool.true_or]
  · rw [table_step, table_onKnown hjump, hguarded]

/-- A jump reports nothing with which nothing has been compared. -/
theorem step_jump_of_uncompared (hloaded : s.loaded = true)
    (h : ∀ c, s.candidate = some c → c.compared = false) (pc : Nat) :
    s.step window ⟨pc, Opcode.jumpIf, []⟩ = between s.table := by
  have htable : (s.candidate.map s.record).getD s.table = s.table := by
    cases hcandidate : s.candidate with
    | none => rfl
    | some c =>
        rw [Option.map_some, Option.getD_some, record, h c hcandidate]
        rfl
  rw [step_of_known (by decide), onKnown_of_jump rfl, htable, hloaded]
  rfl

/-- A place of three bytes is taken for the next value to compare. -/
theorem compared_step_widePlace (hloaded : s.loaded = true) (pc : Nat) (place : Bytes)
    (c : Candidate) (h : (s.step window ⟨pc, 0x62, place⟩).candidate = some c) :
    c.compared = false := by
  have hcarries : (Opcode.pushSize 0x62 = 3 ∨ Opcode.pushSize 0x62 = 4) ∧ s.loaded = true :=
    ⟨.inl (by decide), hloaded⟩
  obtain ⟨target, hcandidate⟩ := @candidate_onKnown ⟨pc, 0x62, place⟩ s
  rw [candidate_step, hcandidate, if_pos hcarries] at h
  obtain rfl := Option.some.inj (Option.eq_some_of_filter_eq_some h)
  rfl

/-- Whatever the scan knows in front of a comparison with a place of three bytes, behind it nothing
is left but the table. -/
theorem foldl_wideBranch (hloaded : s.loaded = true) (b : WideBranch) (pc : Nat) :
    (b.instructions pc).foldl (step window) s = between s.table := by
  have hvalue : 0 < Opcode.pushSize (UInt8.ofNat (0x5f + b.value.length)) := by
    have hwide := b.wide
    rw [Opcode.pushSize_ofNat b.length_value_le]
    omega
  obtain ⟨hcopied, hcopy⟩ := step_of_ne window hloaded pc 0x80 [] (by decide) (by decide)
  obtain ⟨hpushed, hpush⟩ := step_of_ne window hcopied (pc + 1) _ b.value
    (ne_of_pushSize hvalue (by decide)) (ne_of_pushSize hvalue (by decide))
  obtain ⟨htested, htest⟩ := step_of_ne window hpushed (pc + 2 + b.value.length) Opcode.eq []
    (by decide) (by decide)
  obtain ⟨hplaced, hplace⟩ := step_of_ne window htested (pc + 3 + b.value.length) 0x62 b.place
    (by decide) (by decide)
  have hpush3 : UInt8.ofNat (0x5f + 3) = 0x62 := by decide
  simp only [WideBranch.instructions, testInstructions, b.far, hpush3, List.foldl_cons,
    List.foldl_nil]
  rw [step_jump_of_uncompared hplaced (compared_step_widePlace htested _ _), hplace, htest, hpush,
    hcopy]

end Scan

theorem exists_foldl_wideBranches (window : Int) (hloaded : s.loaded = true)
    (wide : List WideBranch) (pc : Nat) (rest : Bytes) :
    ∃ t : Scan, t.loaded = true ∧ t.table = s.table ∧
      (disassembleFrom pc 0 (wide.flatMap WideBranch.encode ++ rest)).foldl (Scan.step window) s =
        (disassembleFrom (pc + (wide.flatMap WideBranch.encode).length) 0 rest).foldl
          (Scan.step window) t := by
  induction wide generalizing s pc with
  | nil => exact ⟨s, hloaded, rfl, rfl⟩
  | cons b tail ih =>
      obtain ⟨t, ht, htable, hfold⟩ := ih (s := Scan.between s.table) rfl (pc + b.encode.length)
      refine ⟨t, ht, htable, ?_⟩
      rw [List.flatMap_cons, List.append_assoc, b.disassembleFrom_wideBranch, List.foldl_append,
        Scan.foldl_wideBranch hloaded, hfold, List.length_append, Nat.add_assoc]

theorem table_foldl_branches (hloaded : s.loaded = true) (hwindow : 9 ≤ window)
    (branches : List Branch) (pc : Nat) :
    ((disassembleFrom pc 0 (branches.flatMap Branch.encode)).foldl (Scan.step window) s).table =
      branches.foldl Branch.enter s.table := by
  by_cases hbranches : branches = []
  · rw [hbranches]
    rfl
  · have hfold := foldl_branches hloaded hwindow hbranches pc []
    rw [List.append_nil] at hfold
    rw [hfold]
    rfl

/-! ## Places that are known -/

def NearPlace (is : List Instruction) (place : Nat) : Prop :=
  ∃ p ∈ is, (Opcode.pushSize p.opcode = 1 ∨ Opcode.pushSize p.opcode = 2) ∧
    Bytes.toNat p.immediate = place

namespace Scan

/-- All places that the scan knows are pushed with one or two bytes. A candidate has been met only
behind a load of call data, where a push of three bytes is another candidate. -/
structure Placed (is : List Instruction) (s : Scan) : Prop where
  targets : ∀ e ∈ s.table.targets, NearPlace is e.2
  candidate : ∀ c place, s.candidate = some c → c.target = some place → NearPlace is place
  unloaded : s.loaded = false → s.candidate = none

theorem mem_targets_record {c : Candidate} {e : String × Nat} (h : e ∈ (s.record c).targets) :
    e ∈ s.table.targets ∨ c.target = some e.2 := by
  unfold record at h
  dsimp only at h
  split at h
  · exact .inl h
  · rcases List.mem_append.1 h with h | h
    · exact .inl h
    · split at h
      · rename_i htarget _
        rw [List.mem_singleton.1 h]
        exact .inr htarget
      · exact absurd h List.not_mem_nil

/-- Where the place comes from that a candidate is known to go to. -/
theorem target_onKnown (hunloaded : s.loaded = false → s.candidate = none) {c : Candidate}
    {place : Nat} (hc : (s.onKnown i).candidate = some c) (hplace : c.target = some place) :
    (∃ d, s.candidate = some d ∧ d.target = some place) ∨
      ((Opcode.pushSize i.opcode = 1 ∨ Opcode.pushSize i.opcode = 2) ∧
        Bytes.toNat i.immediate = place) := by
  cases kind i.opcode with
  | push h =>
      rw [onKnown_of_push h, onPush, push] at hc
      dsimp only at hc
      split at hc
      · obtain rfl := Option.some.inj hc
        exact absurd hplace (by simp)
      · rename_i hcarries
        split at hc
        · rename_i hsize
          obtain ⟨d, hd, rfl⟩ := Option.map_eq_some_iff.1 hc
          have hloaded : s.loaded = true := by
            by_contra hnot
            rw [hunloaded (Bool.eq_false_iff.2 hnot)] at hd
            exact absurd hd (by simp)
          have hthree : Opcode.pushSize i.opcode ≠ 3 := fun h => hcarries ⟨.inl h, hloaded⟩
          dsimp only at hplace
          split at hplace
          · exact absurd hplace (by simp)
          · exact .inr ⟨by omega, Option.some.inj hplace⟩
        · exact .inl ⟨c, hc, hplace⟩
  | load h =>
      rw [onKnown_of_load h] at hc
      exact .inl ⟨c, hc, hplace⟩
  | value h =>
      rw [onKnown_of_value h] at hc
      split at hc
      · exact .inl ⟨c, hc, hplace⟩
      · exact .inl ⟨c, hc, hplace⟩
  | eq h =>
      rw [onKnown_of_eq h] at hc
      obtain ⟨d, hd, rfl⟩ := Option.map_eq_some_iff.1 hc
      exact .inl ⟨d, hd, hplace⟩
  | jump h =>
      rw [onKnown_of_jump h] at hc
      exact absurd hc (by simp)
  | other hsize hload hvalue heq hjump =>
      rw [onKnown_of_other hsize hload hvalue heq hjump] at hc
      exact .inl ⟨c, hc, hplace⟩

theorem Placed.step (h : Placed is s) (hi : i ∈ is) : Placed is (s.step window i) where
  targets := by
    rw [table_step]
    by_cases hjump : i.opcode = Opcode.jumpIf
    · rw [onKnown_of_jump hjump]
      cases hcandidate : s.candidate with
      | none => exact h.targets
      | some c =>
          intro e he
          rcases mem_targets_record he with he | htarget
          · exact h.targets e he
          · exact h.candidate c e.2 hcandidate htarget
    · rw [targets_onKnown hjump]
      exact h.targets
  candidate := by
    intro c place hc hplace
    rw [candidate_step] at hc
    have hc := Option.eq_some_of_filter_eq_some hc
    rcases target_onKnown h.unloaded hc hplace with ⟨d, hd, hplace⟩ | ⟨hsize, himmediate⟩
    · exact h.candidate d place hd hplace
    · exact ⟨i, hi, hsize, himmediate⟩
  unloaded := by
    intro hloaded
    rw [loaded_step, loaded_onKnown, Bool.or_eq_false_iff] at hloaded
    obtain ⟨target, hcandidate⟩ := @candidate_onKnown i s
    rw [candidate_step, hcandidate, if_neg fun hcarries => by simp [hloaded.1] at hcarries,
      h.unloaded hloaded.1]
    split <;> rfl

theorem Placed.foldl {done : List Instruction} (h : Placed is s) (hdone : done ⊆ is) :
    Placed is (done.foldl (Scan.step window) s) :=
  List.foldlRecOn done _ h fun _ hs _ hi => hs.step (hdone hi)

end Scan

theorem nearPlace_of_mem_targets {code : Bytes} {e : String × Nat}
    (h : e ∈ (scan code window).targets) : NearPlace (disassemble code) e.2 := by
  have hinitial : Scan.Placed (disassemble code) Scan.initial :=
    ⟨by simp [Scan.initial], by simp [Scan.initial], fun _ => rfl⟩
  rw [scan_eq_foldl] at h
  exact (hinitial.foldl (List.Subset.refl _)).targets e h

/-- Behind code that ends exactly and has loaded call data, comparisons whose places are pushed with
three bytes tell nothing: the table is that of the code in front, and other branches behind them are
found as if they were not there. Whatever follows, a place that is known has been pushed with one or
two bytes. -/
theorem scan_wideBranches {front : Bytes} (hexact : EndsExactly front)
    (hload : ∃ l ∈ disassemble front, l.opcode = Opcode.callDataLoad) (wide : List WideBranch)
    (window : Int) :
    scan (front ++ wide.flatMap WideBranch.encode) window = scan front window ∧
    (9 ≤ window → ∀ branches : List Branch,
      scan (front ++ wide.flatMap WideBranch.encode ++ branches.flatMap Branch.encode) window =
        scan (front ++ branches.flatMap Branch.encode) window) ∧
    ∀ rest, ∀ e ∈ (scan (front ++ wide.flatMap WideBranch.encode ++ rest) window).targets,
      NearPlace (disassemble (front ++ wide.flatMap WideBranch.encode ++ rest)) e.2 := by
  have hloaded := (tracks_scan front window).loaded.2 hload
  have hfold : ∀ rest, ∃ t : Scan, t.loaded = true ∧ t.table = scan front window ∧
      scan (front ++ wide.flatMap WideBranch.encode ++ rest) window =
        ((disassembleFrom (front.length + (wide.flatMap WideBranch.encode).length) 0 rest).foldl
          (Scan.step window) t).table := by
    intro rest
    obtain ⟨t, ht, htable, hrest⟩ :=
      exists_foldl_wideBranches window hloaded wide front.length rest
    refine ⟨t, ht, htable, ?_⟩
    rw [scan, List.append_assoc, scanFrom_append hexact, hrest]
  refine ⟨?_, fun hwindow branches => ?_, fun rest e he => nearPlace_of_mem_targets he⟩
  · obtain ⟨t, -, htable, hscan⟩ := hfold []
    rw [List.append_nil] at hscan
    rw [hscan, ← htable]
    rfl
  · obtain ⟨t, ht, htable, hscan⟩ := hfold (branches.flatMap Branch.encode)
    have hnear : scan (front ++ branches.flatMap Branch.encode) window =
        branches.foldl Branch.enter (scan front window) := by
      rw [scan, scanFrom_append hexact, table_foldl_branches hloaded hwindow, scan]
    rw [hscan, hnear, table_foldl_branches ht hwindow, htable]

def farBranch : WideBranch :=
  ⟨[0xa9, 0x05, 0x9c, 0xbb], .inr rfl, [0x00, 0x00, 0x10], rfl⟩

theorem scan_wideBranches_far :
    EndsExactly [0x5f, 0x35] ∧ (∃ l ∈ disassemble [0x5f, 0x35], l.opcode = Opcode.callDataLoad) ∧
      scan ([0x5f, 0x35] ++ [farBranch, farBranch].flatMap WideBranch.encode) defaultWindow =
        scan [0x5f, 0x35] defaultWindow ∧
      (scan ([0x5f, 0x35] ++ [farBranch, farBranch].flatMap WideBranch.encode ++
        [⟨.equal, [0xa9, 0x05, 0x9c, 0xbb], .inr rfl, 0x60⟩].flatMap Branch.encode)
          defaultWindow).target? "0xa9059cbb" = some 0x60 := by
  have hexact : EndsExactly [0x5f, 0x35] := by decide
  have hload : ∃ l ∈ disassemble [0x5f, 0x35], l.opcode = Opcode.callDataLoad := by decide
  obtain ⟨hlost, hnear, -⟩ := scan_wideBranches hexact hload [farBranch, farBranch] defaultWindow
  refine ⟨hexact, hload, hlost, ?_⟩
  rw [hnear (by decide)]
  decide +kernel

/-- Behind a load of call data, a selector that is compared is not found. -/
theorem farBranch_lost :
    EndsExactly [0x5f, 0x35] ∧ (∃ l ∈ disassemble [0x5f, 0x35], l.opcode = Opcode.callDataLoad) ∧
      pushed ⟨0, 0x63, farBranch.value⟩ = "0xa9059cbb" ∧ farBranch.value ≠ Scan.mask ∧
      (scan [0x5f, 0x35] defaultWindow).selectors = [] ∧
      (scan ([0x5f, 0x35] ++ [farBranch].flatMap WideBranch.encode) defaultWindow).selectors = [] ∧
      (scan ([0x5f, 0x35] ++ [farBranch].flatMap WideBranch.encode) defaultWindow).target?
        "0xa9059cbb" = none := by
  decide +kernel

end Dispatcher

end ContractAbi
