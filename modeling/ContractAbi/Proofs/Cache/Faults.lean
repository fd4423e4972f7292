import ContractAbi.Cache
import ContractAbi.Proofs.Value.JsonFault

/-!
# Faults of cache files

What can be wrong with a file is either a fault of its content, which makes it unreadable, or one of
a few failures that nobody looks out for.

* `Fault.Escapes`: those failures;
* `Legible`: an answer, or a fault of one of the two sorts;
* `Entry.legible_ofAbi` and `Reconstruction.legible_ofItem`: interfaces and results are legible;
* `ResultCache.legible_content`: so are files.
-/

namespace ContractAbi

/-- The failures of reading a file that nobody looks out for: a value that is no object is asked for
a field, a number is infinite or beyond all doubles, or the document is nested too deeply. -/
inductive Fault.Escapes : Fault → Prop
  | noFields (v field) : Escapes (.noFields v field)
  | infiniteWhole : Escapes .infiniteWhole
  | overlargeWhole : Escapes .overlargeWhole
  | tooDeep (inside) : Escapes (.tooDeep inside)

def Fault.OfFile (e : Fault) : Prop :=
  ResultCache.spoilsFile e = true ∨ e.Escapes

variable {α β : Type}

abbrev Legible (x : Except Fault α) : Prop :=
  Except.Meets (fun _ => True) Fault.OfFile x

theorem Legible.ok {a : α} : Legible (.ok a : Except Fault α) :=
  Except.Meets.ok trivial

theorem Legible.spoilt {e : Fault} (h : ResultCache.spoilsFile e = true) :
    Legible (.error e : Except Fault α) :=
  Except.Meets.error (.inl h)

theorem Legible.escaping {e : Fault} (h : e.Escapes) : Legible (.error e : Except Fault α) :=
  Except.Meets.error (.inr h)

theorem Legible.bind {x : Except Fault α} {f : α → Except Fault β} (hx : Legible x)
    (hf : ∀ a, Legible (f a)) : Legible (x >>= f) :=
  Except.Meets.bind hx fun a _ => hf a

theorem Legible.map {x : Except Fault α} (hx : Legible x) (f : α → β) : Legible (x.map f) := by
  cases hx with
  | ok _ => exact .ok
  | error h => exact .error h

theorem Legible.mapM {f : α → Except Fault β} {xs : List α} (h : ∀ x ∈ xs, Legible (f x)) :
    Legible (xs.mapM f) :=
  Except.Meets.mono (Except.Meets.mapM h) (fun _ _ => trivial) fun _ h => h

/-! ## Values -/

namespace Value

variable (v : Value) (name : String)

theorem legible_field : Legible (v.field name) := by
  cases v with
  | object fields => exact .ok
  | _ => exact .escaping (.noFields _ _)

theorem legible_fieldOr (absent : Value) : Legible (v.fieldOr name absent) := by
  cases v with
  | object fields => exact .ok
  | _ => exact .escaping (.noFields _ _)

theorem legible_require : Legible (v.require name) := by
  cases v with
  | object fields =>
      unfold require
      dsimp only
      split
      · exact .ok
      · exact .spoilt rfl
  | _ => exact .spoilt rfl

theorem legible_toItems : Legible v.toItems := by
  unfold toItems
  split
  · exact .ok
  · exact .ok
  · exact .ok
  · exact .ok
  · exact .spoilt rfl

theorem legible_toItemsIfHeld : Legible v.toItemsIfHeld := by
  unfold toItemsIfHeld
  split
  · exact legible_toItems v
  · exact .ok

theorem legible_asKey : Legible v.asKey := by
  unfold asKey
  split
  · exact .spoilt rfl
  · exact .spoilt rfl
  · exact .ok

theorem legible_wholeOfText (s : String) : Legible (wholeOfText v s) := by
  unfold wholeOfText
  split
  · exact .ok
  · split
    · exact .spoilt rfl
    · exact .spoilt rfl

theorem legible_toWhole : Legible v.toWhole := by
  cases v with
  | int n => exact .ok
  | bool b => exact .ok
  | text s => exact legible_wholeOfText _ s
  | float x =>
      cases x with
      | nan => exact .spoilt rfl
      | infinite negative => exact .escaping .infiniteWhole
      | finite negative m e => exact .ok
  | bytes bs =>
      unfold toWhole
      dsimp only
      split
      · exact legible_wholeOfText _ _
      · exact .spoilt rfl
  | _ => exact .spoilt rfl

theorem legible_toDouble : Legible v.toDouble := by
  cases v with
  | float x => exact .ok
  | bool b => exact .ok
  | int n =>
      unfold toDouble
      dsimp only
      split
      · exact .escaping .overlargeWhole
      · exact .ok
  | text s =>
      unfold toDouble
      dsimp only
      split
      · exact .ok
      · exact .spoilt rfl
  | bytes bs =>
      unfold toDouble
      dsimp only
      split
      · exact .ok
      · exact .spoilt rfl
  | _ => exact .spoilt rfl

end Value

/-! ## Parameters -/

namespace Param

mutual

theorem legible_ofItem : ∀ v : Value, Legible (ofItem v)
  | .object fields => by
      unfold ofItem
      exact (legible_componentsOf fields).bind fun _ => .ok
  | .null | .bool _ | .int _ | .float _ | .text _ | .bytes _ | .list _ => by
      unfold ofItem
      exact .escaping (.noFields _ _)
termination_by structural v => v

theorem legible_componentsOf : ∀ fields : List (String × Value), Legible (componentsOf fields)
  | [] => .ok
  | f :: fs => by
      unfold componentsOf
      refine (legible_componentsOfField f).bind fun found => ?_
      cases found with
      | none => exact legible_componentsOf fs
      | some found => exact .ok
termination_by structural fields => fields

theorem legible_componentsOfField : ∀ f : String × Value, Legible (componentsOfField f)
  | (k, v) => by
      unfold componentsOfField
      split
      · exact (legible_componentsOfValue v).map some
      · exact .ok
termination_by structural f => f

theorem legible_componentsOfValue : ∀ v : Value, Legible (componentsOfValue v)
  | .null => .ok
  | .list items => (legible_ofItemList items).map some
  | .text s => by
      unfold componentsOfValue
      split
      · exact .ok
      · exact .escaping (.noFields _ _)
  | .object fields => by
      unfold componentsOfValue
      split
      · exact .ok
      · exact .escaping (.noFields _ _)
  | .bytes bs => by
      unfold componentsOfValue
      split
      · exact .ok
      · exact .escaping (.noFields _ _)
  | .bool _ | .int _ | .float _ => by
      unfold componentsOfValue
      exact .spoilt rfl
termination_by structural v => v

theorem legible_ofItemList : ∀ vs : List Value, Legible (ofItemList vs)
  | [] => .ok
  | v :: vs => by
      unfold ofItemList
      refine (legible_ofItem v).bind fun p => ?_
      exact (legible_ofItemList vs).bind fun ps => .ok
termination_by structural vs => vs

end

theorem legible_ofItems (v : Value) : Legible (ofItems v) :=
  v.legible_toItemsIfHeld.bind legible_ofItemList

mutual

theorem legible_canonicalType : ∀ p : Param, Legible p.canonicalType
  | mk name type components indexed internalType => by
      unfold canonicalType
      split
      · split
        · exact (legible_canonicalComponents components).bind fun _ => .ok
        · exact .ok
      · split
        · exact .escaping (.noFields _ _)
        · exact .spoilt rfl
termination_by structural p => p

theorem legible_canonicalComponents : ∀ components : Option (List Param),
    Legible (canonicalComponents components)
  | none => .ok
  | some ps => legible_canonicalTypes ps
termination_by structural components => components

theorem legible_canonicalTypes : ∀ ps : List Param, Legible (canonicalTypes ps)
  | [] => .ok
  | p :: ps => by
      unfold canonicalTypes
      refine (legible_canonicalType p).bind fun t => ?_
      exact (legible_canonicalTypes ps).bind fun ts => .ok
termination_by structural ps => ps

end

theorem legible_signature (name : Value) (ps : List Param) : Legible (signature name ps) :=
  (legible_canonicalTypes ps).bind fun _ => .ok

end Param

/-! ## Entries -/

theorem Text.legible_hashable (s : String) : Legible (hashable s) := by
  unfold hashable
  split
  · exact .spoilt rfl
  · exact .ok

theorem Selector.legible_normalize (v : Value) : Legible (normalize v) := by
  unfold normalize
  split
  · split
    · exact .ok
    · exact .spoilt rfl
  · exact .spoilt rfl

namespace Entry

def Reading.Sound (reading : Reading) : Prop :=
  ∀ e, reading = .keyless e → e.OfFile

abbrev LegibleItem (x : Except Fault Reading) : Prop :=
  Except.Meets Reading.Sound Fault.OfFile x

theorem sound_entry (e : Entry) : (Reading.entry e).Sound :=
  nofun

theorem legible_mutabilityOf (item : Value) : Legible (mutabilityOf item) := by
  unfold mutabilityOf
  refine (item.legible_field _).bind fun stated => ?_
  split
  · exact .ok
  · refine (item.legible_field _).bind fun constant => ?_
    split
    · exact .ok
    · refine (item.legible_field _).bind fun payable => ?_
      split
      · exact .ok
      · exact .ok

theorem legibleItem_named {item : Value} {make : Value → Except Fault Reading}
    (h : ∀ name, LegibleItem (make name)) : LegibleItem (named item make) := by
  unfold named
  refine Except.Meets.bind (item.legible_field _) fun name _ => ?_
  split
  · exact h name
  · exact .ok nofun

theorem legible_selectorOf (item : Value) (signature : String) :
    Legible (selectorOf item signature) := by
  refine (item.legible_field _).bind fun given => ?_
  split
  · exact .ok
  · exact ((Text.legible_hashable signature).map _).map Value.text

theorem legibleItem_readFunction (item : Value) (inputs : List Param) (name : Value) :
    LegibleItem (readFunction item inputs name) := by
  unfold readFunction
  refine Except.Meets.bind (Param.legible_signature name inputs) fun signature _ => ?_
  refine Except.Meets.bind (legible_selectorOf item signature) fun selector _ => ?_
  refine Except.Meets.bind (item.legible_field _) fun items _ => ?_
  refine Except.Meets.bind (Param.legible_ofItems items) fun outputs _ => ?_
  refine Except.Meets.bind (legible_mutabilityOf item) fun mutability _ => ?_
  have hmade : ∀ selector, Legible (FunctionEntry.make selector name inputs outputs mutability) :=
    fun selector => (Selector.legible_normalize selector).bind fun _ => .ok
  exact Except.Meets.bind ((hmade _)) fun f _ => .ok (sound_entry _)

theorem legibleItem_readEvent (item : Value) (inputs : List Param) (name : Value) :
    LegibleItem (readEvent item inputs name) := by
  unfold readEvent
  refine Except.Meets.bind (item.legible_field _) fun anonymous _ => ?_
  have hmade : Legible (EventEntry.make name inputs anonymous.holds .null) :=
    (Param.legible_signature name inputs).bind fun _ =>
      ((Text.legible_hashable _).map _).bind fun _ => .ok
  exact Except.Meets.bind (hmade) fun e _ => .ok (sound_entry _)

theorem sound_readError (inputs : List Param) (name : Value) : (readError inputs name).Sound := by
  have hmade : Legible (ErrorEntry.make name inputs) :=
    (Param.legible_signature name inputs).bind fun _ =>
      ((Text.legible_hashable _).map _).bind fun _ => .ok
  unfold readError
  cases h : ErrorEntry.make name inputs with
  | ok made => exact sound_entry _
  | error e =>
      intro e' he'
      rw [← Reading.keyless.inj he']
      exact hmade.of_error h

theorem legibleItem_read (item : Value) : LegibleItem (read item) := by
  unfold read
  refine Except.Meets.bind (item.legible_fieldOr _ _) fun kind _ => ?_
  refine Except.Meets.bind (item.legible_field _) fun field _ => ?_
  refine Except.Meets.bind (Param.legible_ofItems field) fun inputs _ => ?_
  split
  · exact legibleItem_named (legibleItem_readFunction item inputs)
  · exact legibleItem_named (legibleItem_readEvent item inputs)
  · exact legibleItem_named fun name => .ok (sound_readError inputs name)
  · exact Except.Meets.bind (legible_mutabilityOf item) fun mutability _ => .ok (sound_entry _)

theorem legible_ofReadings {readings : List Reading} (h : ∀ reading ∈ readings, reading.Sound) :
    Legible (ofReadings readings) := by
  induction readings with
  | nil => exact .ok
  | cons reading rest ih =>
      obtain ⟨hfirst, hrest⟩ := List.forall_mem_cons.1 h
      cases reading with
      | nameless => exact ih hrest
      | keyless e => exact .error (hfirst e rfl)
      | entry e =>
          unfold ofReadings
          refine e.keyName.legible_asKey.bind fun _ => ?_
          exact (ih hrest).bind fun _ => .ok

theorem legible_ofAbi (abi : Value) : Legible (ofAbi abi) := by
  unfold ofAbi
  refine abi.legible_toItems.bind fun items => ?_
  refine (Except.Meets.mapM fun item _ => legibleItem_read item).bind fun readings hreadings => ?_
  exact (legible_ofReadings hreadings).bind fun _ => .ok

end Entry

/-! ## Results and records -/

theorem ProxyInfo.legible_ofItem (v : Value) : Legible (ofItem v) := by
  unfold ofItem
  refine (v.legible_field _).bind fun implementation => ?_
  refine (v.legible_fieldOr _ _).bind fun kind => ?_
  refine (v.legible_field _).bind fun facets => ?_
  exact facets.legible_toItemsIfHeld.bind fun _ => .ok

theorem Reconstruction.legible_ofItem (v : Value) : Legible (ofItem v) := by
  unfold ofItem
  refine (v.legible_require _).bind fun address => ?_
  refine (v.legible_require _).bind fun id => ?_
  refine id.legible_toWhole.bind fun chain => ?_
  refine (v.legible_field _).bind fun abi => ?_
  refine (Entry.legible_ofAbi _).bind fun entries => ?_
  refine (v.legible_require _).bind fun source => ?_
  refine (v.legible_field _).bind fun info => ?_
  have hselectors : ∀ proxy : Option ProxyInfo, Legible (do
      let selectors ← (← v.field "selectors").toItemsIfHeld
      return (⟨address, .int chain, entries, source, proxy, selectors⟩ : Reconstruction)) :=
    fun proxy => (v.legible_field _).bind fun items => items.legible_toItemsIfHeld.bind fun _ => .ok
  split
  · exact ((ProxyInfo.legible_ofItem info).map some).bind hselectors
  · exact hselectors none

theorem CacheRecord.legible_ofItem (v : Value) : Legible (ofItem v) := by
  unfold ofItem
  refine (v.legible_require _).bind fun address => ?_
  refine (v.legible_require _).bind fun id => ?_
  refine id.legible_toWhole.bind fun chain => ?_
  refine (v.legible_require _).bind fun item => ?_
  refine (Reconstruction.legible_ofItem item).bind fun result => ?_
  refine (v.legible_require _).bind fun stamp => ?_
  refine stamp.legible_toDouble.bind fun timestamp => ?_
  exact (v.legible_require _).bind fun verified => .ok

namespace ResultCache

theorem legible_ofJson [JsonReader.Stack] (s : String) : Legible (Value.ofJson s) := by
  refine (Value.meets_ofJson s).mono (fun _ => id) fun f hf => ?_
  cases hf with
  | malformed h =>
      refine .inl ?_
      cases f with
      | malformed cause => rfl
      | invalidText text => rfl
      | _ => cases h
  | tooDeep inside => exact .inr (.tooDeep inside)

theorem legible_valueOfFile [JsonReader.Stack] (content : Bytes) :
    Legible (valueOfFile content) := by
  unfold valueOfFile
  split
  · exact .spoilt rfl
  · exact legible_ofJson _

theorem legible_recordsOfValue (v : Value) : Legible (recordsOfValue v) := by
  unfold recordsOfValue
  refine (v.legible_fieldOr _ _).bind fun field => ?_
  refine field.legible_toItems.bind fun items => ?_
  exact .mapM fun item _ => CacheRecord.legible_ofItem item

/-- Whatever a file holds, its records are read, or there is a fault of a file. -/
theorem legible_content [JsonReader.Stack] (content : Bytes) :
    Legible ((valueOfFile content).bind recordsOfValue) :=
  (legible_valueOfFile content).bind legible_recordsOfValue

end ResultCache

end ContractAbi
