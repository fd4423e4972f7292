import ContractAbi.Proofs.Evm.ByteWalk
import ContractAbi.Proofs.Selector

/-!
# Selectors of dispatchers

* `Dispatcher.mem_selectors`: every selector of a code is written from four bytes;
* `Dispatcher.normalize_of_mem_selectors`: it is in the one spelling of selectors.
-/

namespace ContractAbi

theorem length_immediate_of_mem {pc skip : Nat} {code : Bytes} {i : Instruction}
    (h : i ∈ disassembleFrom pc skip code) : i.immediate.length ≤ Opcode.pushSize i.opcode := by
  induction code generalizing pc skip with
  | nil => exact absurd h List.not_mem_nil
  | cons op rest ih =>
      unfold disassembleFrom at h
      split at h
      · exact ih h
      · rcases List.mem_cons.1 h with rfl | h
        · exact List.length_take_le _ _
        · exact ih h

namespace Dispatcher

namespace Scan

structure Wide (s : Scan) : Prop where
  selectors : ∀ x ∈ s.table.selectors, Hex.Spells 4 x
  candidate : ∀ c, s.candidate = some c → c.value.length = 4

theorem wide_initial : Wide initial :=
  ⟨by simp [initial], by simp [initial]⟩

theorem Wide.record {s : Scan} (h : s.Wide) {c : Candidate} (hc : c.value.length = 4) :
    ∀ x ∈ (s.record c).selectors, Hex.Spells 4 x := by
  unfold Scan.record
  dsimp only
  split
  · exact h.selectors
  · intro x hx
    rcases List.mem_append.1 hx with hx | hx
    · exact h.selectors x hx
    · exact ⟨c.value, hc, List.mem_singleton.1 hx⟩

theorem Wide.onPush {s : Scan} (h : s.Wide) {i : Instruction}
    (hi : i.immediate.length ≤ Opcode.pushSize i.opcode) : (s.onPush i).Wide := by
  unfold Scan.onPush Scan.push
  split
  · refine ⟨h.selectors, fun c hc => ?_⟩
    obtain rfl := Option.some.inj hc
    rw [Bytes.padLeft, List.length_append, List.length_replicate]
    omega
  · split
    · refine ⟨h.selectors, fun c hc => ?_⟩
      obtain ⟨d, hd, rfl⟩ := Option.map_eq_some_iff.1 hc
      exact h.candidate d hd
    · exact h

theorem Wide.onKnown {s : Scan} (h : s.Wide) {i : Instruction}
    (hi : i.immediate.length ≤ Opcode.pushSize i.opcode) : (s.onKnown i).Wide := by
  unfold Scan.onKnown
  split
  · exact h.onPush hi
  · split
    · exact ⟨h.selectors, h.candidate⟩
    · split
      · split
        · exact ⟨h.selectors, h.candidate⟩
        · exact h
      · split
        · refine ⟨h.selectors, fun c hc => ?_⟩
          obtain ⟨d, hd, rfl⟩ := Option.map_eq_some_iff.1 hc
          exact h.candidate d hd
        · split
          · cases hcandidate : s.candidate with
            | none => exact h
            | some c => exact ⟨h.record (h.candidate c hcandidate), by simp⟩
          · exact h

theorem Wide.step {s : Scan} (h : s.Wide) (window : Int) {i : Instruction}
    (hi : i.immediate.length ≤ Opcode.pushSize i.opcode) : (s.step window i).Wide := by
  unfold Scan.step
  split
  · have hknown := h.onKnown hi
    refine ⟨hknown.selectors, fun c hc => ?_⟩
    exact hknown.candidate c (Option.eq_some_of_filter_eq_some hc)
  · exact ⟨h.selectors, h.candidate⟩

theorem Wide.foldl {s : Scan} (h : s.Wide) (window : Int) {is : List Instruction}
    (his : ∀ i ∈ is, i.immediate.length ≤ Opcode.pushSize i.opcode) :
    (is.foldl (Scan.step window) s).Wide :=
  List.foldlRecOn is _ h fun _ hs i hi => hs.step window (his i hi)

end Scan

theorem mem_selectors {code : Bytes} {window : Int} {selector : String}
    (h : selector ∈ (scan code window).selectors) : Hex.Spells 4 selector := by
  rw [scan_eq_foldl] at h
  exact (Scan.wide_initial.foldl window fun _ => length_immediate_of_mem).selectors selector h

theorem normalize_of_mem_selectors {code : Bytes} {window : Int} {selector : String}
    (h : selector ∈ (scan code window).selectors) :
    Selector.normalize (.text selector) = .ok selector :=
  Selector.normalize_of_spells (mem_selectors h)

end Dispatcher

end ContractAbi
