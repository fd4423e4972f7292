import ContractAbi.Evm.Dispatcher
import Mathlib.Data.List.Nodup
import Mathlib.Data.List.Pairwise

/-!
# The comparisons of a dispatcher

Which jumps of a code report a selector, said of all its instructions at once and without a scan:
only their places and opcodes count.

* `Reports`: a conditional jump reports the value that a push in front of it leaves;
* `reported`: the selectors that a code reports;
* `reports_iff`: a jump reports what is open in front of it;
* `open_concat_iff`, `reported_concat` and `guarded_concat_iff`: what a last instruction changes.
-/

namespace ContractAbi

/-! ## Places -/

theorem pc_le_of_mem {pc skip : Nat} {code : Bytes} {i : Instruction}
    (h : i ∈ disassembleFrom pc skip code) : pc + skip ≤ i.pc := by
  induction code generalizing pc skip with
  | nil => exact absurd h List.not_mem_nil
  | cons op rest ih =>
      unfold disassembleFrom at h
      split at h
      · have hnext := ih h
        omega
      · rcases List.mem_cons.1 h with rfl | h
        · dsimp only
          omega
        · have hnext := ih h
          omega

theorem Instruction.pc_lt_of_next_le {a b : Instruction} (h : a.next ≤ b.pc) : a.pc < b.pc := by
  unfold Instruction.next at h
  omega

theorem pairwise_disassembleFrom (pc skip : Nat) (code : Bytes) :
    (disassembleFrom pc skip code).Pairwise fun a b => a.next ≤ b.pc := by
  induction code generalizing pc skip with
  | nil => exact .nil
  | cons op rest ih =>
      unfold disassembleFrom
      split
      · exact ih _ _
      · refine .cons (fun i hi => ?_) (ih _ _)
        exact pc_le_of_mem hi

namespace Dispatcher

/-! ## What a dispatcher compares -/

/-- A push of three or four bytes behind a load of call data. -/
def Carries (is : List Instruction) (p : Instruction) : Prop :=
  (Opcode.pushSize p.opcode = 3 ∨ Opcode.pushSize p.opcode = 4) ∧
    ∃ l ∈ is, l.opcode = Opcode.callDataLoad ∧ l.pc < p.pc

/-- The conditional jump `j` reports the value that `p` pushes: of the pushes that may carry a
selector `p` is the last one in front of `j`, no other conditional jump stands between the two but a
comparison does, every known instruction from `p` up to `j` ends within the window, and the value is
not the mask. -/
structure Reports (is : List Instruction) (window : Int) (p j : Instruction) : Prop where
  jump : j.opcode = Opcode.jumpIf
  carries : Carries is p
  before : p.pc < j.pc
  last : ∀ q ∈ is, p.pc < q.pc → q.pc < j.pc → ¬Carries is q
  alone : ∀ q ∈ is, p.pc < q.pc → q.pc < j.pc → q.opcode ≠ Opcode.jumpIf
  compared : ∃ q ∈ is, p.pc < q.pc ∧ q.pc < j.pc ∧ q.opcode = Opcode.eq
  near : ∀ q ∈ is, p.pc ≤ q.pc → q.pc < j.pc → Opcode.isKnown q.opcode = true →
    (q.next : Int) - p.pc ≤ window
  value : Bytes.padLeft 4 p.immediate ≠ Scan.mask

instance (is : List Instruction) (p : Instruction) : Decidable (Carries is p) :=
  inferInstanceAs (Decidable (_ ∧ _))

instance (is : List Instruction) (window : Int) (p j : Instruction) :
    Decidable (Reports is window p j) :=
  decidable_of_iff
    (j.opcode = Opcode.jumpIf ∧ Carries is p ∧ p.pc < j.pc ∧
      (∀ q ∈ is, p.pc < q.pc → q.pc < j.pc → ¬Carries is q) ∧
      (∀ q ∈ is, p.pc < q.pc → q.pc < j.pc → q.opcode ≠ Opcode.jumpIf) ∧
      (∃ q ∈ is, p.pc < q.pc ∧ q.pc < j.pc ∧ q.opcode = Opcode.eq) ∧
      (∀ q ∈ is, p.pc ≤ q.pc → q.pc < j.pc → Opcode.isKnown q.opcode = true →
        (q.next : Int) - p.pc ≤ window) ∧
      Bytes.padLeft 4 p.immediate ≠ Scan.mask)
    ⟨fun ⟨h₁, h₂, h₃, h₄, h₅, h₆, h₇, h₈⟩ => ⟨h₁, h₂, h₃, h₄, h₅, h₆, h₇, h₈⟩,
      fun h => ⟨h.jump, h.carries, h.before, h.last, h.alone, h.compared, h.near, h.value⟩⟩

def pushed (p : Instruction) : String :=
  Hex.encode0x (Bytes.padLeft 4 p.immediate)

def reported? (is : List Instruction) (window : Int) (j : Instruction) : Option String :=
  (is.find? fun p => decide (Reports is window p j)).map pushed

def reported (is : List Instruction) (window : Int) : List String :=
  is.filterMap (reported? is window)

/-- The call value is read before any call data is. -/
def Guarded (is : List Instruction) : Prop :=
  ∃ v ∈ is, v.opcode = Opcode.callValue ∧ ∀ l ∈ is, l.opcode = Opcode.callDataLoad → v.pc < l.pc

variable {is done : List Instruction} {window : Int} {i j p q : Instruction}

theorem eq_of_pc_eq (his : is.Pairwise fun a b => a.next ≤ b.pc) (hp : p ∈ is) (hq : q ∈ is)
    (h : p.pc = q.pc) : p = q := by
  have hnodup : (is.map Instruction.pc).Nodup :=
    List.pairwise_map.2 (his.imp fun hab => Nat.ne_of_lt (Instruction.pc_lt_of_next_le hab))
  exact List.inj_on_of_nodup_map hnodup hp hq h

theorem Reports.unique (his : is.Pairwise fun a b => a.next ≤ b.pc) (hp : p ∈ is) (hq : q ∈ is)
    (h : Reports is window p j) (h' : Reports is window q j) : p = q := by
  apply eq_of_pc_eq his hp hq
  rcases Nat.lt_trichotomy p.pc q.pc with hlt | heq | hlt
  · exact absurd h'.carries (h.last q hq hlt h'.before)
  · exact heq
  · exact absurd h.carries (h'.last p hp hlt h.before)

theorem exists_of_reported? {x : String} (h : reported? is window j = some x) :
    ∃ p ∈ is, Reports is window p j ∧ pushed p = x := by
  obtain ⟨p, hp, hx⟩ := Option.map_eq_some_iff.1 h
  have hreports : decide (Reports is window p j) = true := by simpa using List.find?_some hp
  exact ⟨p, List.mem_of_find?_eq_some hp, of_decide_eq_true hreports, hx⟩

theorem reported?_eq_none (h : ∀ p ∈ is, ¬Reports is window p j) :
    reported? is window j = none := by
  rw [Option.eq_none_iff_forall_ne_some]
  intro x hx
  obtain ⟨p, hp, hreports, -⟩ := exists_of_reported? hx
  exact h p hp hreports

theorem reported?_eq_some_iff (his : is.Pairwise fun a b => a.next ≤ b.pc) {x : String} :
    reported? is window j = some x ↔ ∃ p ∈ is, Reports is window p j ∧ pushed p = x := by
  constructor
  · exact exists_of_reported?
  · rintro ⟨p, hp, hreports, hx⟩
    unfold reported?
    rw [Option.map_eq_some_iff]
    cases hfind : is.find? fun p => decide (Reports is window p j) with
    | none => exact absurd (decide_eq_true hreports) (List.find?_eq_none.1 hfind p hp)
    | some q =>
        have hq : decide (Reports is window q j) = true := by simpa using List.find?_some hfind
        obtain rfl :=
          hreports.unique his hp (List.mem_of_find?_eq_some hfind) (of_decide_eq_true hq)
        exact ⟨p, rfl, hx⟩

/-! ## One instruction more

All instructions in front of the new one end before it starts, so nothing changes for them. -/

/-- What is awaited behind a push that carries a selector: neither another such push nor a
conditional jump has come, and the window has not been left. -/
structure Open (is : List Instruction) (window : Int) (p : Instruction) : Prop where
  carries : Carries is p
  last : ∀ q ∈ is, p.pc < q.pc → ¬Carries is q
  alone : ∀ q ∈ is, p.pc < q.pc → q.opcode ≠ Opcode.jumpIf
  near : ∀ q ∈ is, p.pc ≤ q.pc → Opcode.isKnown q.opcode = true → (q.next : Int) - p.pc ≤ window

def Compared (is : List Instruction) (p : Instruction) : Prop :=
  ∃ q ∈ is, p.pc < q.pc ∧ q.opcode = Opcode.eq

theorem Open.unique (hp : p ∈ is) (hq : q ∈ is) (h : Open is window p) (h' : Open is window q) :
    p.pc = q.pc := by
  rcases Nat.lt_trichotomy p.pc q.pc with hlt | heq | hlt
  · exact absurd h'.carries (h.last q hq hlt)
  · exact heq
  · exact absurd h.carries (h'.last p hp hlt)

theorem carries_concat_iff (hp : p.pc ≤ i.pc) : Carries (done ++ [i]) p ↔ Carries done p := by
  unfold Carries
  refine and_congr_right fun _ => ⟨?_, ?_⟩
  · rintro ⟨l, hl, hload, hlt⟩
    rcases List.mem_append.1 hl with hl | hl
    · exact ⟨l, hl, hload, hlt⟩
    · obtain rfl := List.mem_singleton.1 hl
      omega
  · rintro ⟨l, hl, hload, hlt⟩
    exact ⟨l, List.mem_append_left _ hl, hload, hlt⟩

def Precede (done : List Instruction) (i : Instruction) : Prop :=
  ∀ q ∈ done, q.next ≤ i.pc

theorem Precede.pc_lt (h : Precede done i) (hq : q ∈ done) : q.pc < i.pc :=
  Instruction.pc_lt_of_next_le (h q hq)

theorem forall_mem_concat {r : Instruction → Prop} :
    (∀ q ∈ done ++ [i], r q) ↔ (∀ q ∈ done, r q) ∧ r i := by
  rw [List.forall_mem_append, List.forall_mem_singleton]

theorem open_concat_iff (hdone : Precede done i) (hp : p ∈ done) :
    Open (done ++ [i]) window p ↔ Open done window p ∧ ¬Carries done i ∧
      i.opcode ≠ Opcode.jumpIf ∧
      (Opcode.isKnown i.opcode = true → (i.next : Int) - p.pc ≤ window) := by
  have hlt := hdone.pc_lt hp
  have hcarries : ∀ q ∈ done, (Carries (done ++ [i]) q ↔ Carries done q) :=
    fun q hq => carries_concat_iff (Nat.le_of_lt (hdone.pc_lt hq))
  constructor
  · intro h
    obtain ⟨hlast, hlast'⟩ := forall_mem_concat.1 h.last
    obtain ⟨halone, halone'⟩ := forall_mem_concat.1 h.alone
    obtain ⟨hnear, hnear'⟩ := forall_mem_concat.1 h.near
    refine ⟨⟨(hcarries p hp).1 h.carries, fun q hq hpq hq' => ?_, halone, hnear⟩, ?_,
      halone' hlt, hnear' (Nat.le_of_lt hlt)⟩
    · exact hlast q hq hpq ((hcarries q hq).2 hq')
    · exact fun hi => hlast' hlt ((carries_concat_iff (Nat.le_refl _)).2 hi)
  · rintro ⟨h, hnone, hjump, hnear⟩
    refine ⟨(hcarries p hp).2 h.carries, ?_, ?_, ?_⟩
    · refine forall_mem_concat.2 ⟨fun q hq hpq hq' => ?_, fun _ hi => ?_⟩
      · exact h.last q hq hpq ((hcarries q hq).1 hq')
      · exact hnone ((carries_concat_iff (Nat.le_refl _)).1 hi)
    · exact forall_mem_concat.2 ⟨h.alone, fun _ => hjump⟩
    · exact forall_mem_concat.2 ⟨h.near, fun _ => hnear⟩

theorem open_self_iff (hdone : Precede done i) :
    Open (done ++ [i]) window i ↔ Carries done i ∧
      (Opcode.isKnown i.opcode = true → (i.next : Int) - i.pc ≤ window) := by
  have hnone : ∀ {r : Instruction → Prop}, ∀ q ∈ done, i.pc < q.pc → r q := by
    intro r q hq hlt
    exact absurd (hdone.pc_lt hq) (by omega)
  constructor
  · intro h
    exact ⟨(carries_concat_iff (Nat.le_refl _)).1 h.carries,
      (forall_mem_concat.1 h.near).2 (Nat.le_refl _)⟩
  · rintro ⟨hcarries, hnear⟩
    refine ⟨(carries_concat_iff (Nat.le_refl _)).2 hcarries, ?_, ?_, ?_⟩
    · exact forall_mem_concat.2 ⟨hnone, fun hlt => absurd hlt (Nat.lt_irrefl _)⟩
    · exact forall_mem_concat.2 ⟨hnone, fun hlt => absurd hlt (Nat.lt_irrefl _)⟩
    · refine forall_mem_concat.2 ⟨fun q hq hle => ?_, fun _ => hnear⟩
      exact absurd (hdone.pc_lt hq) (by omega)

theorem compared_concat_iff (hp : p.pc < i.pc) :
    Compared (done ++ [i]) p ↔ Compared done p ∨ i.opcode = Opcode.eq := by
  unfold Compared
  simp only [List.mem_append, List.mem_singleton]
  constructor
  · rintro ⟨q, hq | rfl, hlt, heq⟩
    · exact .inl ⟨q, hq, hlt, heq⟩
    · exact .inr heq
  · rintro (⟨q, hq, hlt, heq⟩ | heq)
    · exact ⟨q, .inl hq, hlt, heq⟩
    · exact ⟨i, .inr rfl, hp, heq⟩

theorem not_compared_self (hdone : Precede done i) : ¬Compared (done ++ [i]) i := by
  rintro ⟨q, hq, hlt, -⟩
  rcases List.mem_append.1 hq with hq | hq
  · have := hdone.pc_lt hq
    omega
  · obtain rfl := List.mem_singleton.1 hq
    omega

def before (is : List Instruction) (j : Instruction) : List Instruction :=
  is.filter fun q => decide (q.pc < j.pc)

theorem forall_mem_before {r : Instruction → Prop} :
    (∀ q ∈ before is j, r q) ↔ ∀ q ∈ is, q.pc < j.pc → r q := by
  simp [before, List.mem_filter]

theorem before_self (hdone : Precede done i) : before (done ++ [i]) i = done := by
  unfold before
  rw [List.filter_append, List.filter_singleton, List.filter_eq_self.2]
  · simp
  · exact fun q hq => decide_eq_true (hdone.pc_lt hq)

theorem before_concat (hj : j.pc ≤ i.pc) : before (done ++ [i]) j = before done j := by
  unfold before
  rw [List.filter_append, List.filter_singleton, decide_eq_false (Nat.not_lt.2 hj)]
  exact List.append_nil _

theorem carries_before_iff (hp : p.pc ≤ j.pc) : Carries (before is j) p ↔ Carries is p := by
  unfold Carries before
  refine and_congr_right fun _ => ⟨?_, ?_⟩
  · rintro ⟨l, hl, hload, hlt⟩
    exact ⟨l, List.mem_of_mem_filter hl, hload, hlt⟩
  · rintro ⟨l, hl, hload, hlt⟩
    exact ⟨l, List.mem_filter.2 ⟨hl, decide_eq_true (by omega)⟩, hload, hlt⟩

theorem reports_iff (hp : p.pc < j.pc) :
    Reports is window p j ↔ j.opcode = Opcode.jumpIf ∧ Open (before is j) window p ∧
      Compared (before is j) p ∧ Bytes.padLeft 4 p.immediate ≠ Scan.mask := by
  have hcarries : ∀ q : Instruction, q.pc < j.pc → (Carries (before is j) q ↔ Carries is q) :=
    fun q hq => carries_before_iff (Nat.le_of_lt hq)
  constructor
  · intro h
    refine ⟨h.jump, ⟨(hcarries p hp).2 h.carries, ?_, ?_, ?_⟩, ?_, h.value⟩
    · refine forall_mem_before.2 fun q hq hqj hpq hq' => ?_
      exact h.last q hq hpq hqj ((hcarries q hqj).1 hq')
    · exact forall_mem_before.2 fun q hq hqj hpq => h.alone q hq hpq hqj
    · exact forall_mem_before.2 fun q hq hqj hpq => h.near q hq hpq hqj
    · obtain ⟨q, hq, hpq, hqj, heq⟩ := h.compared
      exact ⟨q, List.mem_filter.2 ⟨hq, decide_eq_true hqj⟩, hpq, heq⟩
  · rintro ⟨hjump, hopen, ⟨q, hq, hpq, heq⟩, hvalue⟩
    obtain ⟨hmem, hqj⟩ := List.mem_filter.1 hq
    refine ⟨hjump, (hcarries p hp).1 hopen.carries, hp, fun q hq hpq hqj hq' => ?_,
      fun q hq hpq hqj => ?_, ⟨q, hmem, hpq, of_decide_eq_true hqj, heq⟩,
      fun q hq hpq hqj => ?_, hvalue⟩
    · exact forall_mem_before.1 hopen.last q hq hqj hpq ((hcarries q hqj).2 hq')
    · exact forall_mem_before.1 hopen.alone q hq hqj hpq
    · exact forall_mem_before.1 hopen.near q hq hqj hpq

/-- What a last instruction reports; the jumps in front of it report what they did. -/
theorem reported_concat (hpairs : (done ++ [i]).Pairwise fun a b => a.next ≤ b.pc)
    (hdone : Precede done i) :
    reported (done ++ [i]) window =
      reported done window ++ (reported? (done ++ [i]) window i).toList := by
  have hpairs' : done.Pairwise fun a b => a.next ≤ b.pc := (List.pairwise_append.1 hpairs).1
  have hsame : ∀ j ∈ done, reported? (done ++ [i]) window j = reported? done window j := by
    intro j hj
    have hreports : ∀ p : Instruction, p.pc < j.pc →
        (Reports (done ++ [i]) window p j ↔ Reports done window p j) := fun p hp => by
      rw [reports_iff hp, reports_iff hp, before_concat (Nat.le_of_lt (hdone.pc_lt hj))]
    ext x
    rw [reported?_eq_some_iff hpairs, reported?_eq_some_iff hpairs']
    constructor
    · rintro ⟨p, hp, hpj, hx⟩
      refine ⟨p, ?_, (hreports p hpj.before).1 hpj, hx⟩
      rcases List.mem_append.1 hp with hp | hp
      · exact hp
      · obtain rfl := List.mem_singleton.1 hp
        exact absurd hpj.before (Nat.lt_asymm (hdone.pc_lt hj))
    · rintro ⟨p, hp, hpj, hx⟩
      exact ⟨p, List.mem_append_left _ hp, (hreports p hpj.before).2 hpj, hx⟩
  unfold reported
  rw [List.filterMap_append, List.filterMap_congr hsame]
  cases h : reported? (done ++ [i]) window i <;> simp [h]

theorem guarded_concat_iff (hdone : Precede done i) :
    Guarded (done ++ [i]) ↔ Guarded done ∨
      (i.opcode = Opcode.callValue ∧ ∀ l ∈ done, l.opcode ≠ Opcode.callDataLoad) := by
  constructor
  · rintro ⟨v, hv, hvalue, hbefore⟩
    rcases List.mem_append.1 hv with hv | hv
    · exact .inl ⟨v, hv, hvalue, fun l hl => hbefore l (List.mem_append_left _ hl)⟩
    · obtain rfl := List.mem_singleton.1 hv
      refine .inr ⟨hvalue, fun l hl hload => ?_⟩
      exact absurd (hbefore l (List.mem_append_left _ hl) hload) (Nat.lt_asymm (hdone.pc_lt hl))
  · rintro (⟨v, hv, hvalue, hbefore⟩ | ⟨hvalue, hnone⟩)
    · exact ⟨v, List.mem_append_left _ hv, hvalue,
        forall_mem_concat.2 ⟨hbefore, fun _ => hdone.pc_lt hv⟩⟩
    · refine ⟨i, by simp, hvalue, forall_mem_concat.2 ⟨fun l hl hload => ?_, fun hload => ?_⟩⟩
      · exact absurd hload (hnone l hl)
      · exact absurd (hvalue.symm.trans hload) (by decide)

end Dispatcher

end ContractAbi
