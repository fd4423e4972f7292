import ContractAbi.Proofs.Value.Keys

/-!
# Paths of names

A path of names never fails, and what it gives, where that holds, stands in objects in objects.

* `part`: the field of an object, absent where there is none;
* `Leads` and `leads_iff`: objects in objects, and the names as keys;
* `exists_atPath`: where a path of names ends.
-/

namespace ContractAbi.Value

variable {fields : List (String × Value)} {name : String} {names : List String} {v w : Value}

def part (name : String) : Value → Value
  | .object fields => (lookup name fields).getD .null
  | _ => .null

/-- Objects in objects lead by the names of their fields to a value. -/
inductive Leads : Value → List String → Value → Prop
  | here (v : Value) : Leads v [] v
  | field {fields : List (String × Value)} {name : String} {names : List String} {v w : Value}
      (hfield : lookup name fields = some v) (h : Leads v names w) :
      Leads (.object fields) (name :: names) w

theorem part_object (name : String) (fields : List (String × Value)) :
    (object fields).part name = (lookup name fields).getD .null := rfl

theorem part_of_lookup (h : lookup name fields = some v) : (object fields).part name = v := by
  rw [part_object, h]
  rfl

theorem find?_name_eq_some_iff :
    v.spread.find? (.name name) = some w ↔
      ∃ fields, v = .object fields ∧ lookup name fields = some w := by
  cases v <;> simp [spread, find?]

theorem leads_iff : v.Leads names w ↔ v.follow? spread (names.map .name) = some w := by
  constructor
  · intro h
    induction h with
    | here v => rfl
    | field hfield _ ih =>
        exact Option.bind_eq_some_iff.2 ⟨_, find?_name_eq_some_iff.2 ⟨_, rfl, hfield⟩, ih⟩
  · intro h
    induction names generalizing v with
    | nil =>
        rw [Option.some.inj h]
        exact .here w
    | cons name names ih =>
        obtain ⟨u, hfind, hrest⟩ := Option.bind_eq_some_iff.1 h
        obtain ⟨fields, rfl, hfield⟩ := find?_name_eq_some_iff.1 hfind
        exact .field hfield (ih hrest)

theorem not_countsIn_names : ¬v.CountsIn (names.map .name) w := by
  rintro ⟨done, n, rest, hpath, -⟩
  have hplace : Key.place n ∈ names.map .name := by simp [hpath]
  obtain ⟨name, -, h⟩ := List.mem_map.1 hplace
  cases h

/-- The value at the end is the one that objects lead to; where none do, it does not hold. -/
theorem exists_atPath (v : Value) (name : String) (names : List String) :
    ∃ w, v.atPath (.text name) (names.map .text) = .ok w ∧
      (w.holds = true → v.Leads (name :: names) w) ∧
      ∀ u, v.Leads (name :: names) u → w = u := by
  have hkeys : v.atPath (.text name) (names.map .text) =
      v.atKeys (.name name) (names.map .name) := by
    rw [atKeys, List.map_map]
    rfl
  rw [hkeys]
  simp only [leads_iff, List.map_cons]
  rcases v.atKeys_cases (.name name) (names.map .name) with
    ⟨w, hfollow, hat⟩ | ⟨hnone, ⟨w, hstops, hat⟩ | ⟨w, hcounts⟩ | hat⟩
  · refine ⟨w, hat, fun _ => hfollow, fun u hu => ?_⟩
    exact Option.some.inj (hfollow.symm.trans hu)
  · refine ⟨w, hat, fun hholds => ?_, fun u hu => ?_⟩
    · cases hholds.symm.trans hstops.not_holds
    · cases hnone.symm.trans hu
  · have hnames : ¬v.CountsIn ((name :: names).map .name) w := not_countsIn_names
    exact absurd hcounts hnames
  · refine ⟨.null, hat, fun hholds => ?_, fun u hu => ?_⟩
    · cases hholds
    · cases hnone.symm.trans hu

end ContractAbi.Value
