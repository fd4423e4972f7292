import Mathlib.Data.List.Induction
import Mathlib.Data.List.Nodup

/-!
# First occurrences

A list without its repetitions, one item at a time from its end.

* `eraseDups_concat`: a last item stays if it is new;
* `nodup_eraseDups` and `eraseDups_of_nodup`: nothing is left to take away;
* `eraseDups_filter`: repetitions may be taken away before or after a filter.
-/

namespace ContractAbi

variable {α : Type} [BEq α] [LawfulBEq α]

theorem eraseDups_concat (ks : List α) (k : α) :
    (ks ++ [k]).eraseDups = if k ∈ ks then ks.eraseDups else ks.eraseDups ++ [k] := by
  rw [List.eraseDups_append]
  by_cases h : k ∈ ks
  · simp [h, List.removeAll]
  · simp [h, List.removeAll, List.eraseDups_cons]

theorem nodup_eraseDups (ks : List α) : ks.eraseDups.Nodup := by
  induction ks using List.reverseRecOn with
  | nil => exact List.nodup_nil
  | append_singleton ks k ih =>
      rw [eraseDups_concat]
      by_cases h : k ∈ ks
      · rwa [if_pos h]
      · rw [if_neg h, List.nodup_append]
        refine ⟨ih, List.nodup_singleton k, ?_⟩
        intro a ha b hb
        rw [List.mem_eraseDups] at ha
        rw [List.mem_singleton] at hb
        rintro rfl
        exact h (hb ▸ ha)

theorem eraseDups_of_nodup {ks : List α} (h : ks.Nodup) : ks.eraseDups = ks := by
  induction ks using List.reverseRecOn with
  | nil => rfl
  | append_singleton ks k ih =>
      rw [List.nodup_append] at h
      obtain ⟨hks, _, hdisjoint⟩ := h
      have hk : k ∉ ks := fun hmem => hdisjoint k hmem k (by simp) rfl
      rw [eraseDups_concat, if_neg hk, ih hks]

theorem eraseDups_filter (p : α → Bool) (ks : List α) :
    (ks.filter p).eraseDups = ks.eraseDups.filter p := by
  induction ks using List.reverseRecOn with
  | nil => rfl
  | append_singleton ks k ih =>
      rw [List.filter_append, List.eraseDups_append, List.eraseDups_append, ih,
        List.filter_append]
      congr 1
      by_cases hp : p k <;> by_cases hk : k ∈ ks <;>
        simp [hp, hk, List.removeAll, List.eraseDups_cons]

end ContractAbi
