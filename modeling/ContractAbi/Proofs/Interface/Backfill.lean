import ContractAbi.Interface.Fragment
import ContractAbi.Proofs.Interface.Entry
import ContractAbi.Proofs.Interface.Merge
import ContractAbi.Proofs.Interface.Param

/-!
# Filling in outputs

A function without outputs gets those of the well-known function that has its name and its input
types. What tells entries apart stays as it is, so entries may be filled in before or after they are
merged.

* `Fragment.for?_eq_some_iff`: the well-known function that is found for a function;
* `FunctionEntry.backfill_cases`: a function stays as it is, or is filled in from one of them;
* `Entry.backfill_laws`: what becomes of the entries of an interface.
-/

namespace ContractAbi

/-! ## Well-known functions -/

namespace Fragment

variable {f : FunctionEntry} {k : Fragment}

structure Describes (k : Fragment) (f : FunctionEntry) : Prop where
  name : f.name = .text k.name
  inputs : Param.canonicalTypes f.inputs = .ok (k.inputs.map TypeText.canonical)

theorem nodup_names : (known.map name).Nodup := by decide

theorem outputParams_ne_nil (hk : k ∈ known) : k.outputParams ≠ [] := by
  have houtputs : ∀ k ∈ known, k.outputs ≠ [] := by decide
  unfold outputParams
  simpa using houtputs k hk

theorem name_ne_placeholder (hk : k ∈ known) (selector : String) :
    k.name ≠ Selector.placeholder selector := by
  have hnames : ∀ k ∈ known, "func_".toList.isPrefixOf k.name.toList = false := by decide
  intro heq
  have hstart := hnames k hk
  rw [heq, Selector.placeholder, String.toList_append] at hstart
  simp at hstart

theorem resolved_of_describes (hk : k ∈ known) (h : k.Describes f) : f.resolved = true := by
  unfold FunctionEntry.resolved
  rw [h.name]
  simpa using name_ne_placeholder hk f.selector

/-- A well-known function is found just for the functions that it describes. -/
theorem for?_eq_some_iff : for? f = some k ↔ k ∈ known ∧ k.Describes f := by
  unfold for?
  constructor
  · intro h
    split at h
    · split at h
      · rename_i types htypes
        have hfound := List.find?_some h
        rw [Bool.and_eq_true, beq_iff_eq, beq_iff_eq] at hfound
        exact ⟨List.mem_of_find?_eq_some h, hfound.1, htypes.trans (congrArg _ hfound.2.symm)⟩
      · exact absurd h (by simp)
    · exact absurd h (by simp)
  · rintro ⟨hk, h⟩
    rw [if_pos (resolved_of_describes hk h), h.inputs]
    dsimp only
    cases hfind : known.find? fun l =>
        f.name == .text l.name && l.inputs.map TypeText.canonical ==
          k.inputs.map TypeText.canonical with
    | none =>
        have hnot := List.find?_eq_none.1 hfind k hk
        exact absurd (by simp [h.name]) hnot
    | some l =>
        -- the names of well-known functions differ, so what is found is the one at hand
        have hboth := List.find?_some hfind
        rw [Bool.and_eq_true, beq_iff_eq, h.name] at hboth
        have hname : k.name = l.name := Value.text.inj hboth.1
        rw [List.inj_on_of_nodup_map nodup_names hk (List.mem_of_find?_eq_some hfind) hname]

end Fragment

/-! ## Functions -/

namespace FunctionEntry

open Fragment

variable {f : FunctionEntry} {k : Fragment}

def filledFrom (f : FunctionEntry) (k : Fragment) : FunctionEntry :=
  { f with outputs := k.outputParams, mutability := .text k.mutability }

theorem backfill_eq_filledFrom (houtputs : f.outputs = []) (hk : k ∈ known) (h : k.Describes f) :
    f.backfill = f.filledFrom k := by
  unfold backfill
  rw [houtputs, for?_eq_some_iff.2 ⟨hk, h⟩]
  rfl

theorem backfill_eq_self (h : f.outputs = [] → ∀ k ∈ known, ¬k.Describes f) : f.backfill = f := by
  unfold backfill
  split
  · rename_i hempty
    cases hfound : for? f with
    | none => rfl
    | some k =>
        obtain ⟨hk, hdescribes⟩ := for?_eq_some_iff.1 hfound
        exact absurd hdescribes (h (List.isEmpty_iff.1 hempty) k hk)
  · rfl

theorem backfill_cases (f : FunctionEntry) :
    f.backfill = f ∨ ∃ k ∈ known, f.outputs = [] ∧ k.Describes f ∧ f.backfill = f.filledFrom k := by
  by_cases h : f.outputs = [] ∧ ∃ k ∈ known, k.Describes f
  · obtain ⟨houtputs, k, hk, hdescribes⟩ := h
    exact .inr ⟨k, hk, houtputs, hdescribes, backfill_eq_filledFrom houtputs hk hdescribes⟩
  · apply Or.inl
    apply backfill_eq_self
    intro houtputs k hk hdescribes
    exact h ⟨houtputs, k, hk, hdescribes⟩

@[simp] theorem name_backfill (f : FunctionEntry) : f.backfill.name = f.name := by
  rcases backfill_cases f with h | ⟨k, -, -, -, h⟩
  · rw [h]
  · rw [h, filledFrom]

@[simp] theorem inputs_backfill (f : FunctionEntry) : f.backfill.inputs = f.inputs := by
  rcases backfill_cases f with h | ⟨k, -, -, -, h⟩
  · rw [h]
  · rw [h, filledFrom]

theorem backfill_backfill (f : FunctionEntry) : f.backfill.backfill = f.backfill := by
  rcases backfill_cases f with h | ⟨k, hk, -, -, h⟩
  · rw [h, h]
  · apply backfill_eq_self
    intro houtputs
    rw [h] at houtputs
    exact absurd houtputs (outputParams_ne_nil hk)

/-- The outputs of a well-known function are the parameters that are built from their types. -/
theorem ofTypes_outputs (hk : k ∈ known) :
    Param.ofTypes "output" k.outputs = .ok k.outputParams := by
  have hplain : ∀ k ∈ known, ∀ t ∈ k.outputs,
      (TypeText.canonicalChars t.toList).head? ≠ some '(' := by decide +kernel
  apply Except.mapM_eq_ok_map
  intro x hx
  exact Param.ofTypeNested_plain (hplain k hk x.1 (List.fst_mem_of_mem_zipIdx hx))

/-- To make the function anew, out of its own parts and the outputs of a well-known function, gives
the same. -/
theorem make_eq_ok_filledFrom (hf : f.Spelt) (hk : k ∈ known) (h : k.Describes f) :
    make (.text f.selector) f.name f.inputs k.outputParams (.text k.mutability) =
      .ok (f.filledFrom k) := by
  have hnames : ∀ k ∈ known, (Value.text k.name).holds = true := by decide
  unfold make
  rw [hf, Except.ok_bind, h.name, if_pos (hnames k hk), ← h.name]
  rfl

end FunctionEntry

/-! ## Entries -/

namespace Entry

def filled : Entry → Entry
  | function f => .function f.backfill
  | e => e

def name? : Entry → Option Value
  | function f => some f.name
  | event e => some e.name
  | error e => some e.name
  | other _ => none

def inputs : Entry → List Param
  | function f => f.inputs
  | event e => e.inputs
  | error e => e.inputs
  | other o => o.inputs

theorem backfill_eq_map (entries : List Entry) : backfill entries = entries.map filled := by
  apply List.map_congr_left
  intro e _
  cases e <;> rfl

theorem key_filled (e : Entry) : e.filled.key = e.key := by
  cases e with
  | function f => simp [filled, key, kind, keyName]
  | event e => rfl
  | error e => rfl
  | other o => rfl

theorem filled_filled (e : Entry) : e.filled.filled = e.filled := by
  cases e with
  | function f => exact congrArg Entry.function (FunctionEntry.backfill_backfill f)
  | event e => rfl
  | error e => rfl
  | other o => rfl

structure Backfilled (e e' : Entry) : Prop where
  key : e'.key = e.key
  name : e'.name? = e.name?
  inputs : e'.inputs = e.inputs
  /-- Only functions are filled in. -/
  other : e.function? = none → e' = e
  unresolved : ∀ f, e = .function f → f.resolved = false → e' = e
  /-- Outputs that are there stay. -/
  stated : ∀ f, e = .function f → f.outputs ≠ [] → e' = e
  /-- What changes is a function without outputs, and one well-known function describes it. -/
  changed : e' ≠ e → ∃ f, e = .function f ∧ f.outputs = [] ∧
    ∃ k ∈ Fragment.known, k.Describes f ∧ e' = .function (f.filledFrom k)
  /-- A function without outputs that a well-known function describes is made anew, out of its own
  parts and the outputs of the other. -/
  made : ∀ f, e = .function f → f.outputs = [] → f.Spelt →
    ∀ k ∈ Fragment.known, k.Describes f → ∃ outputs f',
      Param.ofTypes "output" k.outputs = .ok outputs ∧
      FunctionEntry.make (.text f.selector) f.name f.inputs outputs (.text k.mutability) = .ok f' ∧
      e' = .function f'

theorem backfilled_self {e : Entry} (h : e.function? = none) : e.Backfilled e where
  key := rfl
  name := rfl
  inputs := rfl
  other _ := rfl
  unresolved _ _ _ := rfl
  stated _ _ _ := rfl
  changed hne := absurd rfl hne
  made f hf := by
    rw [hf] at h
    exact absurd h (by simp [function?])

theorem backfilled_function (f : FunctionEntry) :
    (function f).Backfilled (.function f.backfill) where
  key := key_filled (.function f)
  name := congrArg some f.name_backfill
  inputs := f.inputs_backfill
  other h := absurd h (by simp [function?])
  unresolved g hg hunresolved := by
    obtain rfl := Entry.function.inj hg
    apply congrArg Entry.function
    apply FunctionEntry.backfill_eq_self
    intro _ k hk hdescribes
    rw [Fragment.resolved_of_describes hk hdescribes] at hunresolved
    exact absurd hunresolved (by simp)
  stated g hg hstated := by
    obtain rfl := Entry.function.inj hg
    apply congrArg Entry.function
    apply FunctionEntry.backfill_eq_self
    intro hnone
    exact absurd hnone hstated
  changed hne := by
    rcases f.backfill_cases with h | ⟨k, hk, houtputs, hdescribes, h⟩
    · exact absurd (congrArg Entry.function h) hne
    · exact ⟨f, rfl, houtputs, k, hk, hdescribes, congrArg Entry.function h⟩
  made g hg houtputs hspelt k hk hdescribes := by
    obtain rfl := Entry.function.inj hg
    have hfilled := FunctionEntry.backfill_eq_filledFrom houtputs hk hdescribes
    exact ⟨k.outputParams, f.filledFrom k, FunctionEntry.ofTypes_outputs hk,
      FunctionEntry.make_eq_ok_filledFrom hspelt hk hdescribes, congrArg Entry.function hfilled⟩

theorem backfilled_filled (e : Entry) : e.Backfilled e.filled := by
  cases e with
  | function f => exact backfilled_function f
  | event e => exact backfilled_self rfl
  | error e => exact backfilled_self rfl
  | other o => exact backfilled_self rfl

/-- Outputs are filled in entry by entry. To do so twice is to do so once, and it makes no
difference whether the parts of a merge are filled in or their merge. -/
theorem backfill_laws (a b : List Entry) (delegates : List (List Entry)) :
    List.Forall₂ Backfilled a (backfill a) ∧
      backfill (a ++ b) = backfill a ++ backfill b ∧
      backfill (backfill a) = backfill a ∧
      backfill (merge a delegates) = merge (backfill a) (delegates.map backfill) := by
  have hmap : backfill = List.map filled := funext backfill_eq_map
  rw [hmap]
  refine ⟨?_, List.map_append, ?_, (merge_map key_filled a delegates).symm⟩
  · rw [List.forall₂_map_right_iff, List.forall₂_same]
    exact fun e _ => backfilled_filled e
  · rw [List.map_map]
    apply List.map_congr_left
    intro e _
    exact filled_filled e

/-- The number of decimals of a token, with its output. -/
example :
    (backfill [.function ⟨"0x313ce567", .text "decimals", [], [], .text "payable"⟩]).map toItem =
    [.object [("type", .text "function"), ("name", .text "decimals"),
      ("selector", .text "0x313ce567"), ("inputs", .list []),
      ("outputs", .list [.object [("name", .text "output0"), ("type", .text "uint8")]]),
      ("stateMutability", .text "view")]] := by
  decide

end Entry

end ContractAbi
