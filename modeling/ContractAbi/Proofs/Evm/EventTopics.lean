import ContractAbi.Evm.EventTopics
import ContractAbi.Proofs.Selector

/-!
# Topics of code

* `EventTopics.mem_scan`: every topic of a code is a whole word of 32 bytes;
* `EventTopics.normalize_of_mem_scan`: it is in the one spelling of topics.
-/

namespace ContractAbi.EventTopics

theorem topics_step {s : Scan} {i : Instruction} (htopics : ∀ t ∈ s.topics, Hex.Spells 32 t)
    (hpending : ∀ word, s.pending = some word → word.length = 32) :
    ∀ t ∈ (step s i).topics, Hex.Spells 32 t := by
  unfold step
  by_cases hdest : i.opcode = Opcode.jumpDest
  · rwa [if_pos hdest]
  · rw [if_neg hdest]
    by_cases hpush : i.opcode = Opcode.push32
    · rwa [if_pos hpush]
    · rw [if_neg hpush]
      by_cases hlog : Opcode.isTopicLog i.opcode = true
      · rw [if_pos hlog]
        cases hp : s.pending with
        | none => exact htopics
        | some word =>
            dsimp only
            split
            · exact htopics
            · intro t ht
              rw [List.mem_append, List.mem_singleton] at ht
              rcases ht with ht | rfl
              · exact htopics t ht
              · exact ⟨word, hpending word hp, rfl⟩
      · rwa [if_neg hlog]

/-- The constant that waits for a log is the one before, or the immediate of this instruction. -/
theorem pending_step {s : Scan} {i : Instruction} {word : Bytes}
    (h : (step s i).pending = some word) :
    s.pending = some word ∨ (i.opcode = Opcode.push32 ∧ i.immediate = word) := by
  unfold step at h
  split at h
  · exact absurd h (by simp)
  · split at h
    · exact .inr ⟨‹_›, Option.some.inj h⟩
    · split at h
      · split at h
        · dsimp only at h
          split at h
          · exact absurd h (by simp)
          · exact absurd h (by simp)
        · exact .inl h
      · exact .inl h

/-- Only the last instruction of a code can miss bytes of its immediate, and no log follows it. -/
theorem topics_foldl {code : Bytes} {pc skip : Nat} {s : Scan}
    (htopics : ∀ t ∈ s.topics, Hex.Spells 32 t)
    (hpending : ∀ word, s.pending = some word → word.length = 32 ∨ code.length ≤ skip) :
    ∀ t ∈ ((disassembleFrom pc skip code).foldl step s).topics, Hex.Spells 32 t := by
  induction code generalizing pc skip s with
  | nil => exact htopics
  | cons op rest ih =>
      unfold disassembleFrom
      by_cases hskip : 0 < skip
      · rw [if_pos hskip]
        refine ih htopics fun word hword => ?_
        have hbefore := hpending word hword
        rw [List.length_cons] at hbefore
        omega
      · rw [if_neg hskip, List.foldl_cons]
        have hwhole : ∀ word, s.pending = some word → word.length = 32 := by
          intro word hword
          have hbefore := hpending word hword
          rw [List.length_cons] at hbefore
          omega
        refine ih (topics_step htopics hwhole) fun word hword => ?_
        rcases pending_step hword with hbefore | ⟨hop, himmediate⟩
        · exact .inl (hwhole word hbefore)
        · have hop : op = Opcode.push32 := hop
          have hsize : Opcode.pushSize op = 32 := by
            rw [hop]
            decide
          rw [← himmediate, hsize, List.length_take]
          omega

theorem mem_scan {code : Bytes} {topic : String} (h : topic ∈ scan code) : Hex.Spells 32 topic :=
  topics_foldl (by simp) (by simp) topic h

theorem normalize_of_mem_scan {code : Bytes} {topic : String} (h : topic ∈ scan code) :
    Topic.normalize (.text topic) = .ok topic :=
  Topic.normalize_of_spells (mem_scan h)

end ContractAbi.EventTopics
