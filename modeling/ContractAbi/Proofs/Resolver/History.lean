import ContractAbi.Proofs.Resolver.Memory
import ContractAbi.Proofs.Resolver.Query
import Mathlib.Data.List.Induction

/-!
# The history of a resolver

Lookups and clearings that complete one after the other. Every lookup has sources of its own, so
that what a source answers may change between any two of them.

* `known?_perform`: what one lookup leaves of any key;
* `exists_of_known?`: what is remembered comes from a search since the last clearing;
* `known?_append`: it stays until the next one;
* `known?_append_eq_none`: what no search has settled is searched for again.
-/

namespace ContractAbi.Resolver

variable {kind : LookupKind} {key : String} {r : Option Signature} {m : Memory}

/-! ## Lookups -/

/-- A lookup of a key in its one spelling, with the sources as they answer at that time. -/
structure Probe where
  sources : List SignatureSource
  kind : LookupKind
  key : String

namespace Probe

def perform (p : Probe) : Session Memory (Option Signature) :=
  within p.kind (resolve p.sources p.kind p.key)

def Is (p : Probe) (kind : LookupKind) (key : String) : Prop :=
  p.kind = kind ∧ p.key = key

instance (p : Probe) (kind : LookupKind) (key : String) : Decidable (p.Is kind key) :=
  inferInstanceAs (Decidable (p.kind = kind ∧ p.key = key))

def learnt? (p : Probe) : Option (Option Signature) :=
  Resolver.learnt? p.kind p.key p.sources

end Probe

def Memory.known? (m : Memory) (kind : LookupKind) (key : String) : Option (Option Signature) :=
  (m.memo kind).known? key

@[simp] theorem known?_empty : Memory.empty.known? kind key = none := by
  cases kind <;> rfl

theorem fst_within {α : Type} (kind : LookupKind) (x : Session Memo α) (m : Memory) :
    (within kind x m).1 = (x (m.memo kind)).1 := by
  cases kind <;> rfl

theorem snd_within_eq_self {α : Type} {x : Session Memo α}
    (h : (x (m.memo kind)).2 = m.memo kind) : (within kind x m).2 = m := by
  cases kind with
  | function => exact congrArg (fun memo => { m with functions := memo }) h
  | event => exact congrArg (fun memo => { m with events := memo }) h

/-- What is remembered is answered, nobody is asked, and nothing changes. -/
theorem perform_known {p : Probe} (h : m.known? p.kind p.key = some r) :
    p.perform m = (.answer r, m) := by
  have hresolve : resolve p.sources p.kind p.key (m.memo p.kind) = _ := resolve_known h
  refine Prod.ext ((fst_within _ _ _).trans (congrArg Prod.fst hresolve)) ?_
  exact snd_within_eq_self (congrArg Prod.snd hresolve)

/-- What is not remembered is searched for, from the first source on. -/
theorem perform_unknown {p : Probe} (h : m.known? p.kind p.key = none) :
    (p.perform m).1 = Lookup.signature <$> search p.kind p.key p.sources :=
  (fst_within _ _ _).trans (congrArg Prod.fst (resolve_unknown h))

/-- A lookup leaves what it has learnt of its key, if nothing was known of it, and all else as it
was. -/
theorem known?_perform (p : Probe) (m : Memory) (kind : LookupKind) (key : String) :
    (p.perform m).2.known? kind key =
      (m.known? kind key).or (if p.Is kind key then p.learnt? else none) := by
  unfold Memory.known? Probe.perform
  rw [memo_within]
  by_cases hkind : p.kind = kind
  · subst hkind
    rw [if_pos rfl, known?_resolve]
    by_cases hkey : p.key = key
    · rw [if_pos hkey, if_pos (show p.Is p.kind key from ⟨rfl, hkey⟩)]
      rfl
    · rw [if_neg hkey, if_neg fun h : p.Is p.kind key => hkey h.2]
  · rw [if_neg hkind, if_neg fun h : p.Is kind key => hkind h.1, Option.or_none]

theorem memo_perform_of_ne (p : Probe) (m : Memory) {other : LookupKind} (h : p.kind ≠ other) :
    (p.perform m).2.memo other = m.memo other := by
  unfold Probe.perform
  rw [memo_within, if_neg h]

/-! ## Histories -/

inductive Step where
  | probe (p : Probe)
  | clear

def Step.after (m : Memory) : Step → Memory
  | probe p => (p.perform m).2
  | clear => .empty

def memoryAfter (history : List Step) : Memory :=
  history.foldl Step.after .empty

theorem memoryAfter_append (history more : List Step) :
    memoryAfter (history ++ more) = more.foldl Step.after (memoryAfter history) :=
  List.foldl_append

theorem memoryAfter_concat (history : List Step) (s : Step) :
    memoryAfter (history ++ [s]) = s.after (memoryAfter history) :=
  memoryAfter_append history [s]

variable {history more : List Step}

/-- What is remembered comes from a search since the last clearing, for a key that nothing was known
of at that time. -/
theorem exists_of_known? (h : (memoryAfter history).known? kind key = some r) :
    ∃ earlier p later, history = earlier ++ .probe p :: later ∧ .clear ∉ later ∧ p.Is kind key ∧
      (memoryAfter earlier).known? kind key = none ∧ p.learnt? = some r := by
  induction history using List.reverseRecOn with
  | nil => exact absurd h (by simp [memoryAfter])
  | append_singleton before s ih =>
      rw [memoryAfter_concat] at h
      cases s with
      | clear => exact absurd h (by simp [Step.after])
      | probe p =>
          rw [Step.after, known?_perform] at h
          cases hknown : (memoryAfter before).known? kind key with
          | some r' =>
              rw [hknown, Option.some_or] at h
              obtain ⟨earlier, q, later, hsplit, hlater, hq⟩ := ih (hknown.trans h)
              refine ⟨earlier, q, later ++ [.probe p], ?_, ?_, hq⟩
              · rw [hsplit, List.append_assoc, List.cons_append]
              · simp [hlater]
          | none =>
              rw [hknown, Option.none_or] at h
              split at h
              · rename_i hp
                exact ⟨before, p, [], rfl, List.not_mem_nil, hp, hknown, h⟩
              · exact absurd h (by simp)

theorem known?_append (h : (memoryAfter history).known? kind key = some r) (hmore : .clear ∉ more) :
    (memoryAfter (history ++ more)).known? kind key = some r := by
  induction more using List.reverseRecOn with
  | nil => rwa [List.append_nil]
  | append_singleton before s ih =>
      rw [List.mem_append, not_or] at hmore
      rw [← List.append_assoc, memoryAfter_concat]
      cases s with
      | clear => exact absurd (List.mem_singleton.2 rfl) hmore.2
      | probe p => rw [Step.after, known?_perform, ih hmore.1, Option.some_or]

theorem known?_append_eq_none (h : (memoryAfter history).known? kind key = none)
    (hmore : ∀ p, .probe p ∈ more → ¬p.Is kind key) :
    (memoryAfter (history ++ more)).known? kind key = none := by
  induction more using List.reverseRecOn with
  | nil => rwa [List.append_nil]
  | append_singleton before s ih =>
      have hbefore := ih fun p hp => hmore p (List.mem_append_left _ hp)
      rw [← List.append_assoc, memoryAfter_concat]
      cases s with
      | clear => exact known?_empty
      | probe p =>
          rw [Step.after, known?_perform, hbefore, Option.none_or,
            if_neg (hmore p (List.mem_append_right _ List.mem_cons_self))]

end ContractAbi.Resolver
