import ContractAbi.Proofs.Distinct
import ContractAbi.Proofs.Evm.Comparisons
import ContractAbi.Proofs.Evm.Dispatcher

/-!
# The scan for selectors

The scan goes over the instructions once and remembers one push at a time. It finds the selectors
that the code reports and no others, each where it is first reported.

* `Scan.loaded_onKnown`, `Scan.guarded_onKnown`, `Scan.table_onKnown`, `Scan.selectors_record` and
  `Scan.candidate_onKnown`: what an instruction adds to each part of what is known;
* `Tracks`: what the scan knows of the instructions behind it, kept by each step;
* `mem_selectors_iff`: a selector is found where a jump reports it;
* `scan_comparisons`: the table of a whole code.
-/

namespace ContractAbi

namespace Dispatcher

variable {is done : List Instruction} {window : Int} {i j p q : Instruction}

/-! ## Steps of the scan -/

/-- What the scan looks at an instruction for. -/
inductive Kind (op : UInt8) : Prop
  | push (h : 0 < Opcode.pushSize op)
  | load (h : op = Opcode.callDataLoad)
  | value (h : op = Opcode.callValue)
  | eq (h : op = Opcode.eq)
  | jump (h : op = Opcode.jumpIf)
  | other (hsize : Opcode.pushSize op = 0) (hload : op ≠ Opcode.callDataLoad)
      (hvalue : op ≠ Opcode.callValue) (heq : op ≠ Opcode.eq) (hjump : op ≠ Opcode.jumpIf)

theorem kind (op : UInt8) : Kind op := by
  by_cases hsize : 0 < Opcode.pushSize op
  · exact .push hsize
  · by_cases hload : op = Opcode.callDataLoad
    · exact .load hload
    · by_cases hvalue : op = Opcode.callValue
      · exact .value hvalue
      · by_cases heq : op = Opcode.eq
        · exact .eq heq
        · by_cases hjump : op = Opcode.jumpIf
          · exact .jump hjump
          · exact .other (by omega) hload hvalue heq hjump

theorem ne_of_pushSize {op other : UInt8} (h : 0 < Opcode.pushSize op)
    (hother : Opcode.pushSize other = 0) : op ≠ other := by
  rintro rfl
  omega

namespace Scan

variable {s : Scan}

theorem onKnown_of_push (h : 0 < Opcode.pushSize i.opcode) : s.onKnown i = s.onPush i := by
  rw [onKnown, if_pos h]

theorem onKnown_of_load (h : i.opcode = Opcode.callDataLoad) :
    s.onKnown i = { s with loaded := true } := by
  rw [onKnown, h]
  rfl

theorem onKnown_of_value (h : i.opcode = Opcode.callValue) :
    s.onKnown i = if !s.loaded && s.table.selectors.isEmpty then
      { s with table := { s.table with guarded := true } } else s := by
  rw [onKnown, h]
  rfl

theorem onKnown_of_eq (h : i.opcode = Opcode.eq) :
    s.onKnown i =
      { s with candidate := s.candidate.map fun c => { c with compared := true } } := by
  rw [onKnown, h]
  rfl

theorem onKnown_of_jump (h : i.opcode = Opcode.jumpIf) :
    s.onKnown i =
      { s with table := (s.candidate.map s.record).getD s.table, candidate := none } := by
  rw [onKnown, h, if_neg (by decide), if_neg (by decide), if_neg (by decide), if_neg (by decide),
    if_pos rfl]
  cases hs : s.candidate with
  | none =>
      obtain ⟨table, loaded, pushed, candidate⟩ := s
      obtain rfl : candidate = none := hs
      rfl
  | some c => rfl

theorem onKnown_of_other (hsize : Opcode.pushSize i.opcode = 0)
    (hload : i.opcode ≠ Opcode.callDataLoad) (hvalue : i.opcode ≠ Opcode.callValue)
    (heq : i.opcode ≠ Opcode.eq) (hjump : i.opcode ≠ Opcode.jumpIf) : s.onKnown i = s := by
  rw [onKnown, if_neg (by omega), if_neg hload, if_neg hvalue, if_neg heq, if_neg hjump]

/-! What a step does to each part of what the scan knows. -/

theorem loaded_onKnown : (s.onKnown i).loaded = (s.loaded || i.opcode == Opcode.callDataLoad) := by
  cases kind i.opcode with
  | push h =>
      have hne : i.opcode ≠ Opcode.callDataLoad := ne_of_pushSize h (by decide)
      rw [onKnown_of_push h, onPush, push]
      split
      · simp [hne]
      · split <;> simp [hne]
  | load h => simp [onKnown_of_load h, h]
  | value h =>
      rw [onKnown_of_value h, h]
      split <;> simp [(by decide : Opcode.callValue ≠ Opcode.callDataLoad)]
  | eq h =>
      rw [onKnown_of_eq h, h]
      simp [(by decide : Opcode.eq ≠ Opcode.callDataLoad)]
  | jump h =>
      rw [onKnown_of_jump h, h]
      simp [(by decide : Opcode.jumpIf ≠ Opcode.callDataLoad)]
  | other hsize hload hvalue heq hjump =>
      simp [onKnown_of_other hsize hload hvalue heq hjump, hload]

theorem guarded_record (c : Candidate) : (s.record c).guarded = s.table.guarded := by
  unfold record
  dsimp only
  split <;> rfl

theorem selectors_record (c : Candidate) :
    (s.record c).selectors =
      if c.compared = true ∧ c.value ≠ mask ∧ Hex.encode0x c.value ∉ s.table.selectors then
        s.table.selectors ++ [Hex.encode0x c.value]
      else s.table.selectors := by
  have hcond : (!c.compared || c.value == mask ||
      s.table.selectors.contains (Hex.encode0x c.value)) = true ↔
      ¬(c.compared = true ∧ c.value ≠ mask ∧ Hex.encode0x c.value ∉ s.table.selectors) := by
    simp only [Bool.or_eq_true, Bool.not_eq_true', beq_iff_eq, List.contains_iff_mem]
    cases c.compared
    · simp
    · simp
      tauto
  unfold record
  dsimp only
  by_cases h : c.compared = true ∧ c.value ≠ mask ∧ Hex.encode0x c.value ∉ s.table.selectors
  · rw [if_pos h, if_neg fun hnot => hcond.1 hnot h]
  · rw [if_neg h, if_pos (hcond.2 h)]

theorem guarded_onKnown :
    (s.onKnown i).table.guarded = (s.table.guarded ||
      (i.opcode == Opcode.callValue && (!s.loaded && s.table.selectors.isEmpty))) := by
  cases kind i.opcode with
  | push h =>
      have hne : i.opcode ≠ Opcode.callValue := ne_of_pushSize h (by decide)
      rw [onKnown_of_push h, onPush, push]
      split
      · simp [hne]
      · split <;> simp [hne]
  | load h =>
      rw [onKnown_of_load h, h]
      simp [(by decide : Opcode.callDataLoad ≠ Opcode.callValue)]
  | value h =>
      rw [onKnown_of_value h, h]
      split <;> simp [*]
  | eq h =>
      rw [onKnown_of_eq h, h]
      simp [(by decide : Opcode.eq ≠ Opcode.callValue)]
  | jump h =>
      rw [onKnown_of_jump h, h]
      cases s.candidate with
      | none => simp [(by decide : Opcode.jumpIf ≠ Opcode.callValue)]
      | some c => simp [guarded_record, (by decide : Opcode.jumpIf ≠ Opcode.callValue)]
  | other hsize hload hvalue heq hjump =>
      simp [onKnown_of_other hsize hload hvalue heq hjump, hvalue]

/-- Only a conditional jump changes more of the table than the guard. -/
theorem table_onKnown (h : i.opcode ≠ Opcode.jumpIf) :
    (s.onKnown i).table = { s.table with guarded := (s.onKnown i).table.guarded } := by
  cases kind i.opcode with
  | push hsize =>
      rw [onKnown_of_push hsize, onPush, push]
      split
      · rfl
      · split <;> rfl
  | load hload => rw [onKnown_of_load hload]
  | value hvalue =>
      rw [onKnown_of_value hvalue]
      split <;> rfl
  | eq heq => rw [onKnown_of_eq heq]
  | jump hjump => exact absurd hjump h
  | other hsize hload hvalue heq hjump => rw [onKnown_of_other hsize hload hvalue heq hjump]

theorem selectors_onKnown (h : i.opcode ≠ Opcode.jumpIf) :
    (s.onKnown i).table.selectors = s.table.selectors := by
  rw [table_onKnown h]

theorem targets_onKnown (h : i.opcode ≠ Opcode.jumpIf) :
    (s.onKnown i).table.targets = s.table.targets := by
  rw [table_onKnown h]

/-- The candidate behind an instruction. Where its target is does not matter here. -/
theorem candidate_onKnown : ∃ target : Candidate → Option Nat,
    (s.onKnown i).candidate =
      if (Opcode.pushSize i.opcode = 3 ∨ Opcode.pushSize i.opcode = 4) ∧ s.loaded = true then
        some ⟨i.pc, Bytes.padLeft 4 i.immediate, false, none⟩
      else if i.opcode = Opcode.jumpIf then none
      else s.candidate.map fun c =>
        ⟨c.pc, c.value, c.compared || i.opcode == Opcode.eq, target c⟩ := by
  -- an instruction that is passed over leaves the candidate as it is
  have hkept : (s.onKnown i).candidate = s.candidate →
      Opcode.pushSize i.opcode = 0 → i.opcode ≠ Opcode.jumpIf → i.opcode ≠ Opcode.eq →
      (s.onKnown i).candidate =
        if (Opcode.pushSize i.opcode = 3 ∨ Opcode.pushSize i.opcode = 4) ∧ s.loaded = true then
          some ⟨i.pc, Bytes.padLeft 4 i.immediate, false, none⟩
        else if i.opcode = Opcode.jumpIf then none
        else s.candidate.map fun c =>
          ⟨c.pc, c.value, c.compared || i.opcode == Opcode.eq, c.target⟩ := by
    intro hkept hsize hjump heq
    rw [hkept, hsize, if_neg (by simp), if_neg hjump, beq_false_of_ne heq]
    simp
  cases kind i.opcode with
  | push h =>
      have hjump : i.opcode ≠ Opcode.jumpIf := ne_of_pushSize h (by decide)
      have heq : i.opcode ≠ Opcode.eq := ne_of_pushSize h (by decide)
      rw [onKnown_of_push h, onPush, push]
      split
      · exact ⟨fun c => c.target, rfl⟩
      · rw [beq_false_of_ne heq]
        split
        · exact ⟨fun _ => if i.immediate.isEmpty then none else some (Bytes.toNat i.immediate),
            by simp⟩
        · exact ⟨fun c => c.target, by simp⟩
  | load h =>
      refine ⟨fun c => c.target, hkept ?_ ?_ ?_ ?_⟩
      · rw [onKnown_of_load h]
      all_goals rw [h]; decide
  | value h =>
      refine ⟨fun c => c.target, hkept ?_ ?_ ?_ ?_⟩
      · rw [onKnown_of_value h]
        split <;> rfl
      all_goals rw [h]; decide
  | eq h =>
      refine ⟨fun c => c.target, ?_⟩
      rw [onKnown_of_eq h, h, if_neg fun hsize => absurd hsize.1 (by decide), if_neg (by decide)]
      simp
  | jump h =>
      refine ⟨fun c => c.target, ?_⟩
      rw [onKnown_of_jump h, h, if_neg fun hsize => absurd hsize.1 (by decide), if_pos rfl]
  | other hsize hload hvalue heq hjump =>
      refine ⟨fun c => c.target, hkept ?_ hsize hjump heq⟩
      rw [onKnown_of_other hsize hload hvalue heq hjump]

theorem onKnown_of_unknown (h : Opcode.isKnown i.opcode = false) : s.onKnown i = s := by
  cases kind i.opcode with
  | push hsize => exact absurd h (by simp [Opcode.isKnown_of_pushSize hsize])
  | load hload => exact absurd h (by rw [hload]; decide)
  | value hvalue => exact absurd h (by rw [hvalue]; decide)
  | eq heq => exact absurd h (by rw [heq]; decide)
  | jump hjump => exact absurd h (by rw [hjump]; decide)
  | other hsize hload hvalue heq hjump => exact onKnown_of_other hsize hload hvalue heq hjump

theorem table_step : (s.step window i).table = (s.onKnown i).table := by
  unfold step
  cases h : Opcode.isKnown i.opcode with
  | true => rfl
  | false =>
      rw [onKnown_of_unknown h]
      rfl

theorem loaded_step : (s.step window i).loaded = (s.onKnown i).loaded := by
  unfold step
  cases h : Opcode.isKnown i.opcode with
  | true => rfl
  | false =>
      rw [onKnown_of_unknown h]
      rfl

theorem candidate_step :
    (s.step window i).candidate =
      (s.onKnown i).candidate.filter fun c =>
        decide (Opcode.isKnown i.opcode = true → (i.next : Int) - c.pc ≤ window) := by
  unfold step
  cases h : Opcode.isKnown i.opcode with
  | true => simp [expire]
  | false =>
      rw [onKnown_of_unknown h]
      simp only [Bool.false_eq_true, false_implies, decide_true]
      cases s.candidate <;> rfl

end Scan

/-! ## What the scan knows -/

structure Tracks (window : Int) (done : List Instruction) (s : Scan) : Prop where
  loaded : s.loaded = true ↔ ∃ l ∈ done, l.opcode = Opcode.callDataLoad
  opened : ∀ c, s.candidate = some c → ∃ p ∈ done, Open done window p ∧ c.pc = p.pc ∧
    c.value = Bytes.padLeft 4 p.immediate ∧ (c.compared = true ↔ Compared done p)
  closed : s.candidate = none → ∀ p ∈ done, ¬Open done window p
  selectors : s.table.selectors = (reported done window).eraseDups
  guarded : s.table.guarded = true ↔ Guarded done

theorem tracks_initial (window : Int) : Tracks window [] Scan.initial :=
  ⟨by simp [Scan.initial], by simp [Scan.initial], by simp, rfl,
    by simp [Scan.initial, Guarded]⟩

theorem mem_of_pc_lt (hp : p ∈ done ++ [i]) (hlt : p.pc < i.pc) : p ∈ done := by
  rcases List.mem_append.1 hp with hp | hp
  · exact hp
  · obtain rfl := List.mem_singleton.1 hp
    exact absurd hlt (Nat.lt_irrefl _)

namespace Tracks

variable {s : Scan}

theorem carries_iff (h : Tracks window done s) (hdone : Precede done i) :
    Carries done i ↔
      (Opcode.pushSize i.opcode = 3 ∨ Opcode.pushSize i.opcode = 4) ∧ s.loaded = true := by
  unfold Carries
  rw [h.loaded]
  refine and_congr_right fun _ => ⟨?_, ?_⟩
  · rintro ⟨l, hl, hload, -⟩
    exact ⟨l, hl, hload⟩
  · rintro ⟨l, hl, hload⟩
    exact ⟨l, hl, hload, hdone.pc_lt hl⟩

theorem loaded_step (h : Tracks window done s) :
    (s.step window i).loaded = true ↔ ∃ l ∈ done ++ [i], l.opcode = Opcode.callDataLoad := by
  rw [Scan.loaded_step, Scan.loaded_onKnown, Bool.or_eq_true, beq_iff_eq, h.loaded]
  simp [or_and_right, exists_or]

theorem opened_step (h : Tracks window done s) (hdone : Precede done i) :
    ∀ c, (s.step window i).candidate = some c → ∃ p ∈ done ++ [i],
      Open (done ++ [i]) window p ∧ c.pc = p.pc ∧ c.value = Bytes.padLeft 4 p.immediate ∧
        (c.compared = true ↔ Compared (done ++ [i]) p) := by
  intro c hc
  rw [Scan.candidate_step] at hc
  obtain ⟨hc, hnear⟩ := Option.filter_eq_some_iff.1 hc
  have hnear := of_decide_eq_true hnear
  obtain ⟨target, hcandidate⟩ := @Scan.candidate_onKnown i s
  rw [hcandidate] at hc
  split at hc
  · rename_i hsize
    have hcarries := (h.carries_iff hdone).2 hsize
    obtain rfl := Option.some.inj hc
    refine ⟨i, by simp, (open_self_iff hdone).2 ⟨hcarries, hnear⟩, rfl, rfl, ?_⟩
    simpa using not_compared_self hdone
  · rename_i hsize
    have hcarries := mt (h.carries_iff hdone).1 hsize
    split at hc
    · exact absurd hc (by simp)
    · rename_i hjump
      obtain ⟨d, hd, rfl⟩ := Option.map_eq_some_iff.1 hc
      obtain ⟨p, hp, hopen, hpc, hvalue, hcompared⟩ := h.opened d hd
      refine ⟨p, List.mem_append_left _ hp, ?_, hpc, hvalue, ?_⟩
      · exact (open_concat_iff hdone hp).2 ⟨hopen, hcarries, hjump, by rwa [← hpc]⟩
      · rw [compared_concat_iff (hdone.pc_lt hp), Bool.or_eq_true, beq_iff_eq, hcompared]

theorem closed_step (h : Tracks window done s) (hdone : Precede done i) :
    (s.step window i).candidate = none → ∀ p ∈ done ++ [i], ¬Open (done ++ [i]) window p := by
  intro hnone
  rw [Scan.candidate_step] at hnone
  obtain ⟨target, hcandidate⟩ := @Scan.candidate_onKnown i s
  rw [hcandidate] at hnone
  refine forall_mem_concat.2 ⟨fun p hp hopen => ?_, fun hopen => ?_⟩
  · obtain ⟨hopen, hcarries, hjump, hnear⟩ := (open_concat_iff hdone hp).1 hopen
    rw [if_neg (mt (h.carries_iff hdone).2 hcarries), if_neg hjump] at hnone
    cases hs : s.candidate with
    | none => exact h.closed hs p hp hopen
    | some d =>
        obtain ⟨q, hq, hopen', hpc, -⟩ := h.opened d hs
        have hsame := hopen.unique hp hq hopen'
        rw [hs, Option.map_some, Option.filter_some] at hnone
        split at hnone
        · exact absurd hnone (by simp)
        · rename_i hfar
          exact hfar (decide_eq_true (by rwa [hpc, ← hsame]))
  · obtain ⟨hcarries, hnear⟩ := (open_self_iff hdone).1 hopen
    rw [if_pos ((h.carries_iff hdone).1 hcarries), Option.filter_some,
      if_pos (decide_eq_true hnear)] at hnone
    exact absurd hnone (by simp)

theorem guarded_step (h : Tracks window done s) (hdone : Precede done i) :
    (s.step window i).table.guarded = true ↔ Guarded (done ++ [i]) := by
  have hloaded : s.loaded = false ↔ ∀ l ∈ done, l.opcode ≠ Opcode.callDataLoad := by
    rw [← Bool.not_eq_true, h.loaded]
    simp
  -- where nothing has been loaded, no push carries a selector
  have hnone : s.loaded = false → s.table.selectors.isEmpty = true := by
    intro hs
    have hempty : reported done window = [] := by
      apply List.filterMap_eq_nil_iff.2
      intro j hj
      cases hreported : reported? done window j with
      | none => rfl
      | some x =>
          obtain ⟨p, -, hreports, -⟩ := exists_of_reported? hreported
          obtain ⟨l, hl, hload, -⟩ := hreports.carries.2
          exact absurd hload (hloaded.1 hs l hl)
    rw [h.selectors, hempty]
    rfl
  rw [Scan.table_step, Scan.guarded_onKnown, guarded_concat_iff hdone, Bool.or_eq_true,
    h.guarded, ← hloaded]
  refine or_congr_right ?_
  rw [Bool.and_eq_true, Bool.and_eq_true, beq_iff_eq, Bool.not_eq_true']
  exact and_congr_right fun _ => and_iff_left_of_imp hnone

/-- What the scan records at a conditional jump is what the jump reports, if it is new. -/
theorem selectors_record (h : Tracks window done s) (hdone : Precede done i)
    (hpairs : (done ++ [i]).Pairwise fun a b => a.next ≤ b.pc) (hjump : i.opcode = Opcode.jumpIf)
    {c : Candidate} (hs : s.candidate = some c) :
    (s.record c).selectors =
      (reported done window ++ (reported? (done ++ [i]) window i).toList).eraseDups := by
  obtain ⟨p, hp, hopen, -, hvalue, hcompared⟩ := h.opened c hs
  have hreports : ∀ q ∈ done, Reports (done ++ [i]) window q i ↔ i.opcode = Opcode.jumpIf ∧
      Open done window q ∧ Compared done q ∧
        Bytes.padLeft 4 q.immediate ≠ Scan.mask := fun q hq => by
    rw [reports_iff (hdone.pc_lt hq), before_self hdone]
  have hpushed : Hex.encode0x c.value = pushed p := by rw [pushed, hvalue]
  rw [Scan.selectors_record, h.selectors, hpushed]
  by_cases hfits : Compared done p ∧ Bytes.padLeft 4 p.immediate ≠ Scan.mask
  · have hreported : reported? (done ++ [i]) window i = some (pushed p) :=
      (reported?_eq_some_iff hpairs).2 ⟨p, List.mem_append_left _ hp,
        (hreports p hp).2 ⟨hjump, hopen, hfits⟩, rfl⟩
    rw [hreported, Option.toList_some, eraseDups_concat]
    by_cases hknown : pushed p ∈ reported done window
    · rw [if_pos hknown, if_neg fun hcond => hcond.2.2 (List.mem_eraseDups.2 hknown)]
    · have hnew : pushed p ∉ (reported done window).eraseDups := mt List.mem_eraseDups.1 hknown
      rw [if_neg hknown, if_pos ⟨hcompared.2 hfits.1, hvalue ▸ hfits.2, hnew⟩]
  · have hreported : reported? (done ++ [i]) window i = none := by
      refine reported?_eq_none fun q hq hqi => ?_
      have hq := mem_of_pc_lt hq hqi.before
      obtain ⟨-, hopen', hfits'⟩ := (hreports q hq).1 hqi
      obtain rfl : p = q := eq_of_pc_eq (List.pairwise_append.1 hpairs).1 hp hq
        (hopen.unique hp hq hopen')
      exact hfits hfits'
    have hstays : ¬(c.compared = true ∧ c.value ≠ Scan.mask ∧
        pushed p ∉ (reported done window).eraseDups) :=
      fun hcond => hfits ⟨hcompared.1 hcond.1, hvalue ▸ hcond.2.1⟩
    rw [hreported, Option.toList_none, List.append_nil, if_neg hstays]

theorem selectors_step (h : Tracks window done s) (hdone : Precede done i)
    (hpairs : (done ++ [i]).Pairwise fun a b => a.next ≤ b.pc) :
    (s.step window i).table.selectors = (reported (done ++ [i]) window).eraseDups := by
  rw [Scan.table_step, reported_concat hpairs hdone]
  by_cases hjump : i.opcode = Opcode.jumpIf
  · rw [Scan.onKnown_of_jump hjump]
    dsimp only
    cases hs : s.candidate with
    | none =>
        have hreported : reported? (done ++ [i]) window i = none := by
          refine reported?_eq_none fun p hp hreports => ?_
          have hopen := ((reports_iff hreports.before).1 hreports).2.1
          rw [before_self hdone] at hopen
          exact h.closed hs p (mem_of_pc_lt hp hreports.before) hopen
        rw [hreported, Option.toList_none, List.append_nil]
        exact h.selectors
    | some c => exact h.selectors_record hdone hpairs hjump hs
  · have hreported : reported? (done ++ [i]) window i = none :=
      reported?_eq_none fun p _ hreports => hjump hreports.jump
    rw [hreported, Option.toList_none, List.append_nil, Scan.selectors_onKnown hjump, h.selectors]

theorem step (h : Tracks window done s) (hdone : Precede done i)
    (hpairs : (done ++ [i]).Pairwise fun a b => a.next ≤ b.pc) :
    Tracks window (done ++ [i]) (s.step window i) :=
  ⟨h.loaded_step, h.opened_step hdone, h.closed_step hdone, h.selectors_step hdone hpairs,
    h.guarded_step hdone⟩

end Tracks

theorem tracks_foldl (his : is.Pairwise fun a b => a.next ≤ b.pc) :
    Tracks window is (is.foldl (Scan.step window) Scan.initial) := by
  induction is using List.reverseRecOn with
  | nil => exact tracks_initial window
  | append_singleton done i ih =>
      obtain ⟨hdone, -, hlast⟩ := List.pairwise_append.1 his
      rw [List.foldl_concat]
      exact (ih hdone).step (fun q hq => hlast q hq i (List.mem_singleton_self i)) his

theorem tracks_scan (code : Bytes) (window : Int) :
    Tracks window (disassemble code) (scanFrom window 0 Scan.initial code) := by
  rw [scanFrom_eq_foldl]
  exact tracks_foldl (pairwise_disassembleFrom 0 0 code)

theorem mem_selectors_iff {code : Bytes} {window : Int} {x : String} :
    x ∈ (scan code window).selectors ↔ ∃ p ∈ disassemble code, ∃ j ∈ disassemble code,
      Reports (disassemble code) window p j ∧ pushed p = x := by
  have hselectors : (scan code window).selectors =
      (reported (disassemble code) window).eraseDups := (tracks_scan code window).selectors
  have hreported : ∀ j, reported? (disassemble code) window j = some x ↔
      ∃ p ∈ disassemble code, Reports (disassemble code) window p j ∧ pushed p = x :=
    fun j => reported?_eq_some_iff (pairwise_disassembleFrom 0 0 code)
  rw [hselectors, List.mem_eraseDups, reported, List.mem_filterMap]
  constructor
  · rintro ⟨j, hj, hx⟩
    obtain ⟨p, hp, hreports⟩ := (hreported j).1 hx
    exact ⟨p, hp, j, hj, hreports⟩
  · rintro ⟨p, hp, j, hj, hreports⟩
    exact ⟨j, hj, (hreported j).2 ⟨p, hp, hreports⟩⟩

/-- The instructions of a code stand in the order of their places. The selectors that the scan finds
are those that the jumps among them report, each where it is first reported and written with eight
lower-case digits, and the call value is guarded if it is read before any call data is. -/
theorem scan_comparisons (code : Bytes) (window : Int) :
    ((disassemble code).Pairwise fun a b => a.pc < b.pc) ∧
    (scan code window).selectors = (reported (disassemble code) window).eraseDups ∧
    (∀ selector ∈ (scan code window).selectors, ∃ digits : List Char,
      selector = "0x" ++ String.ofList digits ∧ digits.length = 8 ∧
        ∀ d ∈ digits, d ∈ "0123456789abcdef".toList) ∧
    ((scan code window).guarded = true ↔ Guarded (disassemble code)) := by
  have hpairs : (disassemble code).Pairwise fun a b => a.next ≤ b.pc :=
    pairwise_disassembleFrom 0 0 code
  have htracks : Tracks window (disassemble code) (scanFrom window 0 Scan.initial code) :=
    tracks_scan code window
  refine ⟨hpairs.imp Instruction.pc_lt_of_next_le, htracks.selectors, fun selector hselector => ?_,
    htracks.guarded⟩
  obtain ⟨bytes, hlength, rfl⟩ := mem_selectors hselector
  refine ⟨Hex.ofBytes bytes, rfl, ?_, fun d hd => Hex.mem_digits_of_mem_ofBytes hd⟩
  rw [Hex.length_ofBytes, hlength]

/-- Call data is loaded, a selector pushed and compared, and a place to go to pushed. -/
example : reported (disassemble
    [0x60, 0x00, 0x35, 0x63, 0x2d, 0xec, 0x55, 0xa6, 0x14, 0x61, 0x00, 0x10, 0x57, 0x00]) 20 =
    ["0x2dec55a6"] := by decide +kernel

end Dispatcher

end ContractAbi
