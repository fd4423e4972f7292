import ContractAbi.Proofs.Evm.Scan

/-!
# Tables that grow

What a scan has entered into its table stays there, and what other code adds is pushed by it.

* `DispatchTable.Extends`: one table is the first part of another;
* `Scan.table_grows_foldl`: the table of a scan that goes on;
* `Scan.Stems`: where the selectors that are added come from, kept by each step.
-/

namespace ContractAbi

namespace DispatchTable

/-- The selectors and places of one table are the first ones of another. -/
structure Extends (t t' : DispatchTable) : Prop where
  selectors : t.selectors <+: t'.selectors
  targets : t.targets <+: t'.targets

theorem Extends.refl (t : DispatchTable) : t.Extends t :=
  ⟨List.prefix_refl _, List.prefix_refl _⟩

theorem Extends.trans {t t' t'' : DispatchTable} (h : t.Extends t') (h' : t'.Extends t'') :
    t.Extends t'' :=
  ⟨h.selectors.trans h'.selectors, h.targets.trans h'.targets⟩

theorem Extends.target?_eq_some {t t' : DispatchTable} (h : t.Extends t') {x : String} {n : Nat}
    (hx : t.target? x = some n) : t'.target? x = some n := by
  obtain ⟨more, hmore⟩ := h.targets
  obtain ⟨e, he, rfl⟩ := Option.map_eq_some_iff.1 hx
  have hfind : t'.targets.find? (fun e => e.1 == x) = some e := by
    rw [← hmore, List.find?_append, he, Option.some_or]
  rw [target?, hfind, Option.map_some]

end DispatchTable

namespace Dispatcher

variable {window : Int} {i : Instruction} {s : Scan}

namespace Scan

def Keyed (t : DispatchTable) : Prop :=
  ∀ e ∈ t.targets, e.1 ∈ t.selectors

theorem keyed_record (h : Keyed s.table) (c : Candidate) : Keyed (s.record c) := by
  unfold record
  dsimp only
  split
  · exact h
  · intro e he
    rw [List.mem_append] at he
    obtain he | he := he
    · exact List.mem_append_left _ (h e he)
    · apply List.mem_append_right
      split at he
      · rw [List.mem_singleton] at he
        rw [he, List.mem_singleton]
      · exact absurd he List.not_mem_nil

theorem extends_record (c : Candidate) : s.table.Extends (s.record c) := by
  unfold record
  dsimp only
  split
  · exact .refl _
  · exact ⟨List.prefix_append _ _, List.prefix_append _ _⟩

/-- A step keeps what is in the table, and it gives places to found selectors only. -/
theorem table_grows_step (window : Int) (s : Scan) (i : Instruction) :
    s.table.Extends (s.step window i).table ∧ (Keyed s.table → Keyed (s.step window i).table) := by
  rw [table_step]
  by_cases hjump : i.opcode = Opcode.jumpIf
  · rw [onKnown_of_jump hjump]
    cases hcandidate : s.candidate with
    | none => exact ⟨.refl _, id⟩
    | some c => exact ⟨extends_record c, fun h => keyed_record h c⟩
  · constructor
    · constructor
      · exact selectors_onKnown hjump ▸ List.prefix_refl _
      · exact targets_onKnown hjump ▸ List.prefix_refl _
    · intro h
      unfold Keyed
      rw [selectors_onKnown hjump, targets_onKnown hjump]
      exact h

theorem table_grows_foldl (window : Int) (s : Scan) (is : List Instruction) :
    s.table.Extends (is.foldl (step window) s).table ∧
      (Keyed s.table → Keyed (is.foldl (step window) s).table) := by
  refine List.foldlRecOn (motive := fun t : Scan =>
    s.table.Extends t.table ∧ (Keyed s.table → Keyed t.table)) is _ ⟨.refl _, id⟩ ?_
  intro t ht i _
  obtain ⟨hstep, hkeyed⟩ := table_grows_step window t i
  exact ⟨ht.1.trans hstep, fun h => hkeyed (ht.2 h)⟩

structure Stems (is : List Instruction) (t : DispatchTable) (s : Scan) : Prop where
  selectors : ∃ more, s.table.selectors = t.selectors ++ more ∧
    ∀ x ∈ more, ∃ p ∈ is, Dispatcher.pushed p = x
  candidate : ∀ c, s.candidate = some c → ∃ p ∈ is, Dispatcher.pushed p = Hex.encode0x c.value

def between (t : DispatchTable) : Scan :=
  ⟨t, true, false, none⟩

theorem stems_between (is : List Instruction) (t : DispatchTable) : Stems is t (between t) := by
  constructor
  · exact ⟨[], (List.append_nil _).symm, by simp⟩
  · intro c hc
    exact absurd hc (by simp [between])

theorem Stems.step {is : List Instruction} {t : DispatchTable} (h : Stems is t s) (hi : i ∈ is) :
    Stems is t (s.step window i) := by
  constructor
  · rw [table_step]
    by_cases hjump : i.opcode = Opcode.jumpIf
    · rw [onKnown_of_jump hjump]
      cases hcandidate : s.candidate with
      | none => exact h.selectors
      | some c =>
          obtain ⟨more, hmore, hstems⟩ := h.selectors
          rw [Option.map_some, Option.getD_some, selectors_record]
          split
          · refine ⟨more ++ [Hex.encode0x c.value], by rw [hmore, List.append_assoc], ?_⟩
            intro x hx
            rw [List.mem_append, List.mem_singleton] at hx
            obtain hx | hx := hx
            · exact hstems x hx
            · rw [hx]
              exact h.candidate c hcandidate
          · exact ⟨more, hmore, hstems⟩
    · rw [selectors_onKnown hjump]
      exact h.selectors
  · intro c hc
    rw [candidate_step] at hc
    have hopen := Option.eq_some_of_filter_eq_some hc
    obtain ⟨target, hcandidate⟩ := @candidate_onKnown i s
    rw [hcandidate] at hopen
    split at hopen
    · cases hopen
      exact ⟨i, hi, rfl⟩
    · split at hopen
      · exact absurd hopen (by simp)
      · obtain ⟨d, hd, hdc⟩ := Option.map_eq_some_iff.1 hopen
        rw [← hdc]
        exact h.candidate d hd

theorem Stems.foldl {is done : List Instruction} {t : DispatchTable} (h : Stems is t s)
    (hdone : done ⊆ is) : Stems is t (done.foldl (Scan.step window) s) :=
  List.foldlRecOn done _ h fun _ hs _ hi => hs.step (hdone hi)

end Scan

end Dispatcher

end ContractAbi
