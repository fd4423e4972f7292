import ContractAbi.Interface.Fragment
import ContractAbi.Proofs.Interface.Merge
import ContractAbi.Proofs.Selector
import ContractAbi.Proofs.Session.Except

/-!
# Selectors of entries

Whatever a function is made from, its selector is in its one spelling: the spelling that selectors
are looked up and compared by.

* `FunctionEntry.spelt_make`: the functions that are made;
* `Entry.exists_read_of_ofAbi`: the items that the entries of a published interface are read from;
* `Entry.spelt_of_ofAbi`: the functions of a published interface.
-/

namespace ContractAbi

def FunctionEntry.Spelt (f : FunctionEntry) : Prop :=
  Selector.normalize (.text f.selector) = .ok f.selector

theorem FunctionEntry.normalize_of_make {selector name mutability : Value}
    {inputs outputs : List Param} {f : FunctionEntry}
    (h : make selector name inputs outputs mutability = .ok f) :
    Selector.normalize selector = .ok f.selector := by
  unfold make at h
  obtain ⟨spelling, hspelling, h⟩ := Except.bind_eq_ok_iff.1 h
  obtain rfl := Except.ok.inj h
  exact hspelling

theorem FunctionEntry.spelt_make {selector name mutability : Value} {inputs outputs : List Param}
    {f : FunctionEntry} (h : make selector name inputs outputs mutability = .ok f) : f.Spelt :=
  Selector.normalize_normalize (normalize_of_make h)

@[simp] theorem FunctionEntry.selector_backfill (f : FunctionEntry) :
    f.backfill.selector = f.selector := by
  unfold backfill
  split
  · split <;> rfl
  · rfl

namespace Entry

def Spelt (e : Entry) : Prop :=
  ∀ f, e = .function f → f.Spelt

/-- An item that needs a name gives an entry only if it has one. -/
theorem named_eq_entry {item : Value} {make : Value → Except Fault Reading} {e : Entry}
    (h : named item make = .ok (.entry e)) : ∃ name, make name = .ok (.entry e) := by
  unfold named at h
  obtain ⟨name, -, h⟩ := Except.bind_eq_ok_iff.1 h
  split at h
  · exact ⟨name, h⟩
  · exact absurd (Except.ok.inj h) (by simp)

theorem readFunction_of_read {item : Value} {f : FunctionEntry}
    (h : read item = .ok (.entry (.function f))) :
    ∃ inputs name, readFunction item inputs name = .ok (.entry (.function f)) := by
  unfold read at h
  obtain ⟨kind, -, h⟩ := Except.bind_eq_ok_iff.1 h
  obtain ⟨field, -, h⟩ := Except.bind_eq_ok_iff.1 h
  obtain ⟨inputs, -, h⟩ := Except.bind_eq_ok_iff.1 h
  split at h
  · obtain ⟨name, h⟩ := named_eq_entry h
    exact ⟨inputs, name, h⟩
  · obtain ⟨name, h⟩ := named_eq_entry h
    unfold readEvent at h
    obtain ⟨anonymous, -, h⟩ := Except.bind_eq_ok_iff.1 h
    obtain ⟨made, -, h⟩ := Except.bind_eq_ok_iff.1 h
    exact absurd (Except.ok.inj h) (by simp)
  · obtain ⟨name, h⟩ := named_eq_entry h
    have h := Except.ok.inj h
    unfold readError at h
    split at h <;> exact absurd h (by simp)
  · obtain ⟨mutability, -, h⟩ := Except.bind_eq_ok_iff.1 h
    exact absurd (Except.ok.inj h) (by simp)

theorem selectorOf_eq_ok {item selector : Value} {signature : String}
    (h : selectorOf item signature = .ok selector) :
    ∃ given, item.field "selector" = .ok given ∧
      selector = if given.holds then given else .text (Selector.ofSignature signature) := by
  unfold selectorOf at h
  obtain ⟨given, hgiven, h⟩ := Except.bind_eq_ok_iff.1 h
  refine ⟨given, hgiven, ?_⟩
  split at h
  · rename_i hholds
    rw [if_pos hholds]
    exact (Except.ok.inj h).symm
  · rename_i hholds
    obtain ⟨computed, hcomputed, rfl⟩ := Except.map_eq_ok_iff.1 h
    rw [if_neg hholds, (Selector.hashed_eq_ok_iff.1 hcomputed).2]

/-- A function is made with the selector that is given, if there is one, else with that of its
signature. -/
theorem make_of_readFunction {item name : Value} {inputs : List Param} {f : FunctionEntry}
    (h : readFunction item inputs name = .ok (.entry (.function f))) :
    ∃ signature given outputs mutability, item.field "selector" = .ok given ∧
      FunctionEntry.make (if given.holds then given else .text (Selector.ofSignature signature))
        name inputs outputs mutability = .ok f := by
  unfold readFunction at h
  obtain ⟨signature, -, h⟩ := Except.bind_eq_ok_iff.1 h
  obtain ⟨selector, hselector, h⟩ := Except.bind_eq_ok_iff.1 h
  obtain ⟨given, hgiven, rfl⟩ := selectorOf_eq_ok hselector
  obtain ⟨items, -, h⟩ := Except.bind_eq_ok_iff.1 h
  obtain ⟨outputs, -, h⟩ := Except.bind_eq_ok_iff.1 h
  obtain ⟨mutability, -, h⟩ := Except.bind_eq_ok_iff.1 h
  obtain ⟨made, hmade, h⟩ := Except.bind_eq_ok_iff.1 h
  obtain rfl := Entry.function.inj (Reading.entry.inj (Except.ok.inj h))
  exact ⟨signature, given, outputs, mutability, hgiven, hmade⟩

theorem spelt_of_read {item : Value} {e : Entry} (h : read item = .ok (.entry e)) : e.Spelt := by
  intro f hf
  rw [hf] at h
  obtain ⟨inputs, name, hread⟩ := readFunction_of_read h
  obtain ⟨signature, given, outputs, mutability, -, hmade⟩ := make_of_readFunction hread
  exact FunctionEntry.spelt_make hmade

theorem mem_ofReadings {readings : List Reading} {entries : List Entry}
    (h : ofReadings readings = .ok entries) {e : Entry} (he : e ∈ entries) :
    Reading.entry e ∈ readings := by
  induction readings generalizing entries with
  | nil =>
      obtain rfl := Except.ok.inj h
      exact absurd he List.not_mem_nil
  | cons reading rest ih =>
      cases reading with
      | nameless => exact List.mem_cons_of_mem _ (ih h he)
      | keyless f => exact absurd h (by simp [ofReadings])
      | entry first =>
          unfold ofReadings at h
          obtain ⟨_, -, h⟩ := Except.bind_eq_ok_iff.1 h
          obtain ⟨others, hothers, h⟩ := Except.bind_eq_ok_iff.1 h
          obtain rfl := Except.ok.inj h
          rcases List.mem_cons.1 he with rfl | he
          · exact List.mem_cons_self
          · exact List.mem_cons_of_mem _ (ih hothers he)

theorem mem_of_mem_dedupe {entries : List Entry} {e : Entry} (h : e ∈ dedupe entries) :
    e ∈ entries := by
  have hlast := lastOf?_of_mem_of_nodup h (nodup_keys_dedupe entries)
  rw [lastOf?_dedupe] at hlast
  exact mem_of_lastOf? hlast

theorem mem_of_mem_merge {own : List Entry} {others : List (List Entry)} {e : Entry}
    (h : e ∈ merge own others) : e ∈ own ∨ ∃ other ∈ others, e ∈ other := by
  have hmem := mem_of_mem_dedupe h
  rwa [List.mem_append, List.mem_flatten] at hmem

/-- Each entry of a published interface is read from one of its items. -/
theorem exists_read_of_ofAbi {abi : Value} {entries : List Entry} (h : ofAbi abi = .ok entries)
    {e : Entry} (he : e ∈ entries) :
    ∃ items item, abi.toItems = .ok items ∧ item ∈ items ∧ read item = .ok (.entry e) := by
  unfold ofAbi at h
  obtain ⟨items, hitems, h⟩ := Except.bind_eq_ok_iff.1 h
  obtain ⟨readings, hreadings, h⟩ := Except.bind_eq_ok_iff.1 h
  obtain ⟨all, hall, h⟩ := Except.bind_eq_ok_iff.1 h
  obtain rfl := Except.ok.inj h
  have hreading := mem_ofReadings hall (mem_of_mem_dedupe he)
  obtain ⟨item, hitem, hread⟩ := Except.exists_of_mem_mapM hreadings hreading
  exact ⟨items, item, hitems, hitem, hread⟩

theorem spelt_of_ofAbi {abi : Value} {entries : List Entry} (h : ofAbi abi = .ok entries) :
    ∀ e ∈ entries, e.Spelt := by
  intro e he
  obtain ⟨items, item, -, -, hread⟩ := exists_read_of_ofAbi h he
  exact spelt_of_read hread

end Entry

end ContractAbi
