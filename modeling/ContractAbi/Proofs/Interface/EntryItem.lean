import ContractAbi.Proofs.Interface.Entry
import ContractAbi.Proofs.Interface.ParamItem

/-!
# Entries as published items

Items do not hold the topics of events or the selectors of errors. An entry that is read from its
item gets them back because they are the hash of its signature.

* `Regular`: entries with what their items need, and with the keys that reading gives them;
* `regular_of_read`: entries that are read are regular;
* `read_toItem`: a regular entry is read from its item;
* `ofAbi_toAbi`: so are the entries of an interface, in their order.
-/

namespace ContractAbi

open Value

/-! ## Regular entries -/

structure FunctionEntry.Regular (f : FunctionEntry) : Prop where
  spelt : f.Spelt
  name : f.name.holds = true
  mutability : f.mutability.holds = true
  inputs : ∀ p ∈ f.inputs, p.Named
  outputs : ∀ p ∈ f.outputs, p.Named
  signature : ∃ s, f.signature = .ok s

structure EventEntry.Regular (e : EventEntry) : Prop where
  name : e.name.holds = true
  inputs : ∀ p ∈ e.inputs, p.Named
  signature : ∃ s, e.signature = .ok s ∧ Topic.hashed s = .ok e.topic

structure ErrorEntry.Regular (e : ErrorEntry) : Prop where
  name : e.name.holds = true
  inputs : ∀ p ∈ e.inputs, p.Named
  signature : ∃ s, e.signature = .ok s ∧ Selector.hashed s = .ok e.selector

def IsOtherType (type : Value) : Prop :=
  type.text? ≠ some "function" ∧ type.text? ≠ some "event" ∧ type.text? ≠ some "error"

structure OtherEntry.Regular (o : OtherEntry) : Prop where
  type : IsOtherType o.type
  key : ∃ v, o.type.asKey = .ok v
  mutability : o.mutability.holds = true
  inputs : ∀ p ∈ o.inputs, p.Named

namespace Entry

def Regular : Entry → Prop
  | function f => f.Regular
  | event e => e.Regular
  | error e => e.Regular
  | other o => o.Regular

theorem Regular.asKey {e : Entry} (h : e.Regular) : ∃ v, e.keyName.asKey = .ok v := by
  cases e with
  | function f => exact ⟨_, rfl⟩
  | event e => exact ⟨_, rfl⟩
  | error e => exact ⟨_, rfl⟩
  | other o => exact OtherEntry.Regular.key h

structure Restores (e e' : Entry) : Prop where
  kind : e'.kind = e.kind
  keyName : e'.keyName = e.keyName
  toItem : e'.toItem = e.toItem

/-! ## Entries that are read -/

theorem holds_mutabilityOf {item mutability : Value} (h : mutabilityOf item = .ok mutability) :
    mutability.holds = true := by
  unfold mutabilityOf at h
  obtain ⟨stated, -, h⟩ := Except.bind_eq_ok_iff.1 h
  split at h
  · obtain rfl := Except.ok.inj h
    assumption
  · obtain ⟨_, -, h⟩ := Except.bind_eq_ok_iff.1 h
    split at h
    · obtain rfl := Except.ok.inj h
      rfl
    · obtain ⟨_, -, h⟩ := Except.bind_eq_ok_iff.1 h
      split at h <;> obtain rfl := Except.ok.inj h <;> rfl

theorem regular_of_readFunction {item name : Value} {inputs : List Param} {e : Entry}
    (hinputs : ∀ p ∈ inputs, p.Named) (hname : name.holds = true)
    (h : readFunction item inputs name = .ok (.entry e)) : e.Regular := by
  unfold readFunction at h
  obtain ⟨signature, hsignature, h⟩ := Except.bind_eq_ok_iff.1 h
  obtain ⟨given, -, h⟩ := Except.bind_eq_ok_iff.1 h
  obtain ⟨items, -, h⟩ := Except.bind_eq_ok_iff.1 h
  obtain ⟨outputs, houtputs, h⟩ := Except.bind_eq_ok_iff.1 h
  obtain ⟨mutability, hmutability, h⟩ := Except.bind_eq_ok_iff.1 h
  obtain ⟨f, hf, h⟩ := Except.bind_eq_ok_iff.1 h
  obtain rfl := Reading.entry.inj (Except.ok.inj h)
  have hspelt := FunctionEntry.spelt_make hf
  unfold FunctionEntry.make at hf
  obtain ⟨selector, -, hf⟩ := Except.bind_eq_ok_iff.1 hf
  obtain rfl := Except.ok.inj hf
  simp only [hname, if_true] at hspelt ⊢
  exact {
    spelt := hspelt
    name := hname
    mutability := holds_mutabilityOf hmutability
    inputs := hinputs
    outputs := Param.named_ofItems houtputs
    signature := ⟨signature, hsignature⟩ }

theorem regular_of_readEvent {item name : Value} {inputs : List Param} {e : Entry}
    (hinputs : ∀ p ∈ inputs, p.Named) (hname : name.holds = true)
    (h : readEvent item inputs name = .ok (.entry e)) : e.Regular := by
  unfold readEvent at h
  obtain ⟨anonymous, -, h⟩ := Except.bind_eq_ok_iff.1 h
  obtain ⟨made, hmade, h⟩ := Except.bind_eq_ok_iff.1 h
  obtain rfl := Reading.entry.inj (Except.ok.inj h)
  unfold EventEntry.make at hmade
  rw [if_neg (by simp [holds])] at hmade
  obtain ⟨signature, hsignature, hmade⟩ := Except.bind_eq_ok_iff.1 hmade
  obtain ⟨topic, htopic, hmade⟩ := Except.bind_eq_ok_iff.1 hmade
  obtain rfl := Except.ok.inj hmade
  exact ⟨hname, hinputs, signature, hsignature, htopic⟩

theorem regular_of_readError {name : Value} {inputs : List Param} {e : Entry}
    (hinputs : ∀ p ∈ inputs, p.Named) (hname : name.holds = true)
    (h : readError inputs name = .entry e) : e.Regular := by
  unfold readError at h
  split at h
  · rename_i made hmade
    obtain rfl := Reading.entry.inj h
    unfold ErrorEntry.make at hmade
    obtain ⟨signature, hsignature, hmade⟩ := Except.bind_eq_ok_iff.1 hmade
    obtain ⟨selector, hselector, hmade⟩ := Except.bind_eq_ok_iff.1 hmade
    obtain rfl := Except.ok.inj hmade
    exact ⟨hname, hinputs, signature, hsignature, hselector⟩
  · exact absurd h (by simp)

/-- An item that needs a name gives an entry only with a name that holds. -/
theorem holds_of_named {item : Value} {make : Value → Except Fault Reading} {e : Entry}
    (h : named item make = .ok (.entry e)) :
    ∃ name, item.field "name" = .ok name ∧ name.holds = true ∧ make name = .ok (.entry e) := by
  unfold named at h
  obtain ⟨name, hname, h⟩ := Except.bind_eq_ok_iff.1 h
  split at h
  · exact ⟨name, hname, ‹_›, h⟩
  · exact absurd (Except.ok.inj h) (by simp)

/-- Entries that are read are regular, if they have a key to be told apart by. -/
theorem regular_of_read {item : Value} {e : Entry} (h : read item = .ok (.entry e))
    (hkey : ∃ v, e.keyName.asKey = .ok v) : e.Regular := by
  unfold read at h
  obtain ⟨kind, -, h⟩ := Except.bind_eq_ok_iff.1 h
  obtain ⟨field, -, h⟩ := Except.bind_eq_ok_iff.1 h
  obtain ⟨inputs, hinputs, h⟩ := Except.bind_eq_ok_iff.1 h
  have hnamed := Param.named_ofItems hinputs
  split at h
  · obtain ⟨name, -, hname, h⟩ := holds_of_named h
    exact regular_of_readFunction hnamed hname h
  · obtain ⟨name, -, hname, h⟩ := holds_of_named h
    exact regular_of_readEvent hnamed hname h
  · obtain ⟨name, -, hname, h⟩ := holds_of_named h
    exact regular_of_readError hnamed hname (Except.ok.inj h)
  · rename_i hfunction hevent herror
    obtain ⟨mutability, hmutability, h⟩ := Except.bind_eq_ok_iff.1 h
    obtain rfl := Reading.entry.inj (Except.ok.inj h)
    exact ⟨⟨hfunction, hevent, herror⟩, hkey, holds_mutabilityOf hmutability, hnamed⟩

/-! ## Reading entries again -/

theorem mutabilityOf_object {fields : List (String × Value)} {mutability : Value}
    (hfield : lookup "stateMutability" fields = some mutability)
    (hholds : mutability.holds = true) : mutabilityOf (.object fields) = .ok mutability := by
  unfold mutabilityOf field
  simp only [hfield, Option.getD_some, Except.ok_bind, hholds, if_true, Except.pure_eq_ok]

/-- A signature only looks at the types of the inputs as signatures spell them. -/
theorem signature_congr {name : Value} {ps qs : List Param}
    (h : Param.canonicalTypes qs = Param.canonicalTypes ps) :
    Param.signature name qs = Param.signature name ps := by
  rw [Param.signature, Param.signature, h]

theorem named_of_field {item name : Value} {make : Value → Except Fault Reading}
    (hfield : item.field "name" = .ok name) (hname : name.holds = true) :
    named item make = make name := by
  rw [named, hfield, Except.ok_bind, if_pos hname]

theorem exists_read_function {f : FunctionEntry} (h : f.Regular) :
    ∃ e', read f.toItem = .ok (.entry e') ∧ Restores (function f) e' := by
  obtain ⟨inputs, hinputs, hinputItems, htypes, -⟩ := Param.ofItems_toItems h.inputs
  obtain ⟨outputs, houtputs, houtputItems, -, -⟩ := Param.ofItems_toItems h.outputs
  obtain ⟨signature, hsignature⟩ := h.signature
  have hsignature : Param.signature f.name inputs = .ok signature :=
    (signature_congr htypes).trans hsignature
  have hgiven : (Value.text f.selector).holds = true := Selector.holds_of_normalize h.spelt
  have hmutability : mutabilityOf f.toItem = .ok f.mutability :=
    mutabilityOf_object rfl h.mutability
  have hmade : FunctionEntry.make (.text f.selector) f.name inputs outputs f.mutability =
      .ok { f with inputs := inputs, outputs := outputs } := by
    unfold FunctionEntry.make
    rw [h.spelt, Except.ok_bind, if_pos h.name]
    rfl
  have hselector : selectorOf f.toItem signature = .ok (.text f.selector) := by
    have hfield : f.toItem.field "selector" = .ok (.text f.selector) := rfl
    rw [selectorOf, hfield, Except.ok_bind, if_pos hgiven]
    rfl
  have hfunction : readFunction f.toItem inputs f.name =
      .ok (.entry (function { f with inputs := inputs, outputs := outputs })) := by
    have houtput : f.toItem.field "outputs" = .ok (Param.toItems f.outputs) := rfl
    unfold readFunction
    rw [hsignature, Except.ok_bind, hselector, Except.ok_bind, houtput, Except.ok_bind, houtputs,
      Except.ok_bind, hmutability, Except.ok_bind, hmade]
    rfl
  refine ⟨function { f with inputs := inputs, outputs := outputs }, ?_, rfl, rfl, ?_⟩
  · have hkind : f.toItem.fieldOr "type" (.text "function") = .ok (.text "function") := rfl
    have hinput : f.toItem.field "inputs" = .ok (Param.toItems f.inputs) := rfl
    have hnamed : named f.toItem (readFunction f.toItem inputs) = _ := named_of_field rfl h.name
    unfold read
    rw [hkind, Except.ok_bind, hinput, Except.ok_bind, hinputs]
    exact hnamed.trans hfunction
  · simp only [toItem, FunctionEntry.toItem, hinputItems, houtputItems]

theorem exists_read_event {e : EventEntry} (h : e.Regular) :
    ∃ e', read e.toItem = .ok (.entry e') ∧ Restores (event e) e' := by
  obtain ⟨inputs, hinputs, hinputItems, htypes, -⟩ := Param.ofItems_toItems h.inputs
  obtain ⟨signature, hsignature, htopic⟩ := h.signature
  have hsignature : Param.signature e.name inputs = .ok signature :=
    (signature_congr htypes).trans hsignature
  have hevent : readEvent e.toItem inputs e.name =
      .ok (.entry (event { e with inputs := inputs })) := by
    have hanonymous : e.toItem.field "anonymous" = .ok (.bool e.anonymous) := rfl
    have hmade : EventEntry.make e.name inputs e.anonymous .null =
        .ok { e with inputs := inputs } := by
      rw [EventEntry.make, if_neg (by simp [holds]), hsignature, Except.ok_bind, htopic]
      rfl
    rw [readEvent, hanonymous, Except.ok_bind]
    exact congrArg (· >>= fun made => pure (Reading.entry (event made))) hmade
  refine ⟨event { e with inputs := inputs }, ?_, rfl, rfl, ?_⟩
  · have hkind : e.toItem.fieldOr "type" (.text "function") = .ok (.text "event") := rfl
    have hinput : e.toItem.field "inputs" = .ok (Param.toItems e.inputs) := rfl
    have hnamed : named e.toItem (readEvent e.toItem inputs) = _ := named_of_field rfl h.name
    unfold read
    rw [hkind, Except.ok_bind, hinput, Except.ok_bind, hinputs]
    exact hnamed.trans hevent
  · simp only [toItem, EventEntry.toItem, hinputItems]

theorem exists_read_error {e : ErrorEntry} (h : e.Regular) :
    ∃ e', read e.toItem = .ok (.entry e') ∧ Restores (error e) e' := by
  obtain ⟨inputs, hinputs, hinputItems, htypes, -⟩ := Param.ofItems_toItems h.inputs
  obtain ⟨signature, hsignature, hselector⟩ := h.signature
  have hsignature : Param.signature e.name inputs = .ok signature :=
    (signature_congr htypes).trans hsignature
  have herror : readError inputs e.name = .entry (error { e with inputs := inputs }) := by
    have hmade : ErrorEntry.make e.name inputs = .ok { e with inputs := inputs } := by
      rw [ErrorEntry.make, hsignature, Except.ok_bind, hselector]
      rfl
    rw [readError, hmade]
  refine ⟨error { e with inputs := inputs }, ?_, rfl, rfl, ?_⟩
  · have hkind : e.toItem.fieldOr "type" (.text "function") = .ok (.text "error") := rfl
    have hinput : e.toItem.field "inputs" = .ok (Param.toItems e.inputs) := rfl
    have hnamed : named e.toItem (fun name => return readError inputs name) = _ :=
      named_of_field rfl h.name
    unfold read
    rw [hkind, Except.ok_bind, hinput, Except.ok_bind, hinputs]
    exact hnamed.trans (congrArg Except.ok herror)
  · simp only [toItem, ErrorEntry.toItem, hinputItems]

theorem exists_read_other {o : OtherEntry} (h : o.Regular) :
    ∃ e', read o.toItem = .ok (.entry e') ∧ Restores (other o) e' := by
  have hmutability : mutabilityOf o.toItem = .ok o.mutability :=
    mutabilityOf_object rfl h.mutability
  have hread : ∀ {item : Value} {inputs : List Param},
      o.toItem.field "inputs" = .ok item → Param.ofItems item = .ok inputs →
      read o.toItem = .ok (.entry (other { o with inputs := inputs })) := by
    intro item inputs hitem hinputs
    have hkind : o.toItem.fieldOr "type" (.text "function") = .ok o.type := rfl
    unfold read
    rw [hkind, Except.ok_bind, hitem, Except.ok_bind, hinputs, Except.ok_bind, hmutability]
    obtain ⟨hfunction, hevent, herror⟩ := h.type
    split
    · exact absurd ‹_› hfunction
    · exact absurd ‹_› hevent
    · exact absurd ‹_› herror
    · rfl
  by_cases hconstructor : o.type.text? = some "constructor"
  · obtain ⟨inputs, hinputs, hinputItems, -, -⟩ := Param.ofItems_toItems h.inputs
    have hitem : o.toItem.field "inputs" = .ok (Param.toItems o.inputs) := by
      rw [OtherEntry.toItem, if_pos hconstructor]
      rfl
    refine ⟨_, hread hitem hinputs, rfl, rfl, ?_⟩
    simp only [toItem, OtherEntry.toItem, hinputItems]
  · have hitem : o.toItem.field "inputs" = .ok .null := by
      rw [OtherEntry.toItem, if_neg hconstructor]
      rfl
    have hnone : Param.ofItems .null = .ok [] := rfl
    refine ⟨_, hread hitem hnone, rfl, rfl, ?_⟩
    simp only [toItem, OtherEntry.toItem, hconstructor, if_false]

theorem read_toItem {e : Entry} (h : e.Regular) :
    ∃ e', read e.toItem = .ok (.entry e') ∧ Restores e e' := by
  cases e with
  | function f => exact exists_read_function h
  | event e => exact exists_read_event h
  | error e => exact exists_read_error h
  | other o => exact exists_read_other h

/-! ## Interfaces -/

theorem Restores.key_eq {e e' : Entry} (h : Restores e e') : e'.key = e.key := by
  unfold Entry.key
  rw [h.kind, h.keyName]

theorem asKey_of_mem_ofReadings {readings : List Reading} {entries : List Entry}
    (h : ofReadings readings = .ok entries) {e : Entry} (he : e ∈ entries) :
    ∃ v, e.keyName.asKey = .ok v := by
  induction readings generalizing entries with
  | nil =>
      obtain rfl := Except.ok.inj h
      exact absurd he List.not_mem_nil
  | cons reading rest ih =>
      cases reading with
      | nameless => exact ih h he
      | keyless f => exact absurd h (by simp [ofReadings])
      | entry first =>
          unfold ofReadings at h
          obtain ⟨v, hv, h⟩ := Except.bind_eq_ok_iff.1 h
          obtain ⟨others, hothers, h⟩ := Except.bind_eq_ok_iff.1 h
          obtain rfl := Except.ok.inj h
          rcases List.mem_cons.1 he with rfl | he
          · exact ⟨v, hv⟩
          · exact ih hothers he

theorem regular_of_ofAbi {abi : Value} {entries : List Entry} (h : ofAbi abi = .ok entries) :
    ∀ e ∈ entries, e.Regular := by
  intro e he
  unfold ofAbi at h
  obtain ⟨items, -, h⟩ := Except.bind_eq_ok_iff.1 h
  obtain ⟨readings, hreadings, h⟩ := Except.bind_eq_ok_iff.1 h
  obtain ⟨all, hall, h⟩ := Except.bind_eq_ok_iff.1 h
  obtain rfl := Except.ok.inj h
  have hmem := mem_of_mem_dedupe he
  obtain ⟨item, -, hread⟩ := Except.exists_of_mem_mapM hreadings (mem_ofReadings hall hmem)
  exact regular_of_read hread (asKey_of_mem_ofReadings hall hmem)

theorem nodup_keys_ofAbi {abi : Value} {entries : List Entry} (h : ofAbi abi = .ok entries) :
    (keys entries).Nodup := by
  unfold ofAbi at h
  obtain ⟨items, -, h⟩ := Except.bind_eq_ok_iff.1 h
  obtain ⟨readings, -, h⟩ := Except.bind_eq_ok_iff.1 h
  obtain ⟨all, -, h⟩ := Except.bind_eq_ok_iff.1 h
  obtain rfl := Except.ok.inj h
  exact nodup_keys_dedupe all

/-- Regular entries that are told apart by their keys are read from the list of their items. -/
theorem ofAbi_toAbi {entries : List Entry} (hregular : ∀ e ∈ entries, e.Regular)
    (hnodup : (keys entries).Nodup) :
    ∃ entries', ofAbi (toAbi entries) = .ok entries' ∧ keys entries' = keys entries ∧
      toAbi entries' = toAbi entries := by
  -- reading item by item, the entries correspond
  obtain ⟨again, hreadings, hall, hkeys, hitems⟩ : ∃ again : List Entry,
      (entries.map toItem).mapM read = .ok (again.map Reading.entry) ∧
      ofReadings (again.map Reading.entry) = .ok again ∧ keys again = keys entries ∧
      again.map toItem = entries.map toItem := by
    clear hnodup
    induction entries with
    | nil => exact ⟨[], rfl, rfl, rfl, rfl⟩
    | cons e rest ih =>
        obtain ⟨again, hreadings, hall, hkeys, hitems⟩ :=
          ih fun d hd => hregular d (by simp [hd])
        obtain ⟨e', hread, hrestores⟩ := read_toItem (hregular e (by simp))
        obtain ⟨v, hv⟩ := (hregular e (by simp)).asKey
        refine ⟨e' :: again, ?_, ?_, ?_, ?_⟩
        · rw [List.map_cons, List.mapM_cons, hread, Except.ok_bind, hreadings]
          rfl
        · rw [List.map_cons, ofReadings, hrestores.keyName, hv, Except.ok_bind, hall]
          rfl
        · exact congrArg₂ List.cons hrestores.key_eq hkeys
        · exact congrArg₂ List.cons hrestores.toItem hitems
  refine ⟨again, ?_, hkeys, congrArg Value.list hitems⟩
  have hkept : dedupe again = again := dedupe_of_nodup (hkeys ▸ hnodup)
  unfold ofAbi
  have hlist : (toAbi entries).toItems = .ok (entries.map toItem) := rfl
  rw [hlist, Except.ok_bind, hreadings, Except.ok_bind, hall, Except.ok_bind, hkept]
  rfl

end Entry

end ContractAbi
