import ContractAbi.Interface.Param

/-!
# Interface entries

Functions, events, errors and the other items of a contract's interface, each with the key that
tells it from the others: a selector, a topic, or the type of the item. Entries of one key are kept
once, the last of them in the place of the first.
-/

namespace ContractAbi

/-- Functions that say nothing else may change state and take no value. -/
def defaultMutability : Value := .text "nonpayable"

structure FunctionEntry where
  selector : String
  name : Value
  inputs : List Param
  outputs : List Param
  mutability : Value

structure EventEntry where
  name : Value
  inputs : List Param
  anonymous : Bool
  topic : String

structure ErrorEntry where
  name : Value
  inputs : List Param
  selector : String

/-- Constructors, fallbacks and the like. -/
structure OtherEntry where
  type : Value
  inputs : List Param
  mutability : Value

inductive Entry where
  | function (f : FunctionEntry)
  | event (e : EventEntry)
  | error (e : ErrorEntry)
  | other (o : OtherEntry)

inductive EntryKind where
  | function
  | event
  | error
  | other
  deriving Repr, DecidableEq

namespace EntryKind

def text : EntryKind → String
  | function => "function"
  | event => "event"
  | error => "error"
  | other => "other"

end EntryKind

/-- What tells an entry from the others of an interface. -/
structure EntryKey where
  kind : EntryKind
  name : Value
  deriving Repr, DecidableEq

namespace FunctionEntry

/-- A function without a name gets one from its selector. -/
def make (selector name : Value) (inputs outputs : List Param) (mutability : Value) :
    Except Fault FunctionEntry := do
  let selector ← Selector.normalize selector
  let name := if name.holds then name else .text (Selector.placeholder selector)
  return ⟨selector, name, inputs, outputs, mutability⟩

/-- A function of which only the selector is known. -/
def unresolved (selector : String) (mutability : Value) : FunctionEntry :=
  ⟨selector, .text (Selector.placeholder selector), [], [], mutability⟩

/-- Whether more than the selector is known. -/
def resolved (f : FunctionEntry) : Bool :=
  f.name ≠ .text (Selector.placeholder f.selector)

def signature (f : FunctionEntry) : Except Fault String :=
  Param.signature f.name f.inputs

def toItem (f : FunctionEntry) : Value :=
  .object [("type", .text "function"), ("name", f.name), ("selector", .text f.selector),
    ("inputs", Param.toItems f.inputs), ("outputs", Param.toItems f.outputs),
    ("stateMutability", f.mutability)]

end FunctionEntry

namespace EventEntry

/-- The topic of an event is the hash of its signature, unless it is given. -/
def make (name : Value) (inputs : List Param) (anonymous : Bool) (topic : Value) :
    Except Fault EventEntry := do
  if topic.holds then return ⟨name, inputs, anonymous, ← Topic.normalize topic⟩
  else return ⟨name, inputs, anonymous, ← Topic.hashed (← Param.signature name inputs)⟩

def signature (e : EventEntry) : Except Fault String :=
  Param.signature e.name e.inputs

def toItem (e : EventEntry) : Value :=
  .object [("type", .text "event"), ("name", e.name), ("inputs", Param.toItems e.inputs),
    ("anonymous", .bool e.anonymous)]

end EventEntry

namespace ErrorEntry

def make (name : Value) (inputs : List Param) : Except Fault ErrorEntry := do
  return ⟨name, inputs, ← Selector.hashed (← Param.signature name inputs)⟩

def signature (e : ErrorEntry) : Except Fault String :=
  Param.signature e.name e.inputs

def toItem (e : ErrorEntry) : Value :=
  .object [("type", .text "error"), ("name", e.name), ("inputs", Param.toItems e.inputs)]

end ErrorEntry

namespace OtherEntry

def toItem (o : OtherEntry) : Value :=
  .object ([("type", o.type), ("stateMutability", o.mutability)] ++
    (if o.type.text? = some "constructor" then [("inputs", Param.toItems o.inputs)] else []))

end OtherEntry

namespace Entry

def kind : Entry → EntryKind
  | function _ => .function
  | event _ => .event
  | error _ => .error
  | other _ => .other

def keyName : Entry → Value
  | function f => .text f.selector
  | event e => .text e.topic
  | error e => .text e.selector
  | other o => o.type

def key (e : Entry) : EntryKey :=
  ⟨e.kind, e.keyName.unified⟩

def toItem : Entry → Value
  | function f => f.toItem
  | event e => e.toItem
  | error e => e.toItem
  | other o => o.toItem

def function? : Entry → Option FunctionEntry
  | function f => some f
  | _ => none

def event? : Entry → Option EventEntry
  | event e => some e
  | _ => none

/-! ## One entry for each key -/

def put (entries : List Entry) (e : Entry) : List Entry :=
  if entries.any fun d => d.key == e.key then
    entries.map fun d => if d.key == e.key then e else d
  else entries ++ [e]

/-- The last entry of each key, in the place of the first. -/
def dedupe (entries : List Entry) : List Entry :=
  entries.foldl put []

/-- The entries of a contract, then those of the contracts that it delegates to. Of one key the
entry of the last contract counts, since calls end up there. -/
def merge (own : List Entry) (delegates : List (List Entry)) : List Entry :=
  dedupe (own ++ delegates.flatten)

/-! ## From published interfaces -/

/-- The mutability that a published item states. Old items have flags in its place. -/
def mutabilityOf (item : Value) : Except Fault Value := do
  let stated ← item.field "stateMutability"
  if stated.holds then return stated
  if (← item.field "constant").holds then return .text "view"
  if (← item.field "payable").holds then return .text "payable"
  return defaultMutability

/-- What a published item gives: an entry, no entry where a name is missing, or an entry that has
no key because its types cannot be spelt. -/
inductive Reading where
  | entry (e : Entry)
  | nameless
  | keyless (f : Fault)

def named (item : Value) (make : Value → Except Fault Reading) : Except Fault Reading := do
  let name ← item.field "name"
  if name.holds then make name else return .nameless

/-- The selector that an item states, else the hash of its signature. -/
def selectorOf (item : Value) (signature : String) : Except Fault Value := do
  let given ← item.field "selector"
  if given.holds then return given else (Selector.hashed signature).map .text

def readFunction (item : Value) (inputs : List Param) (name : Value) : Except Fault Reading := do
  let signature ← Param.signature name inputs
  let selector ← selectorOf item signature
  let outputs ← Param.ofItems (← item.field "outputs")
  return .entry (.function (← FunctionEntry.make selector name inputs outputs
    (← mutabilityOf item)))

def readEvent (item : Value) (inputs : List Param) (name : Value) : Except Fault Reading := do
  let anonymous ← item.field "anonymous"
  return .entry (.event (← EventEntry.make name inputs anonymous.holds .null))

def readError (inputs : List Param) (name : Value) : Reading :=
  match ErrorEntry.make name inputs with
  | .ok e => .entry (.error e)
  | .error f => .keyless f

/-- The entry of a published item. An item without a type is a function. -/
def read (item : Value) : Except Fault Reading := do
  let kind ← item.fieldOr "type" (.text "function")
  let inputs ← Param.ofItems (← item.field "inputs")
  match kind.text? with
  | some "function" => named item (readFunction item inputs)
  | some "event" => named item (readEvent item inputs)
  | some "error" => named item fun name => return readError inputs name
  | _ => return .entry (.other ⟨kind, inputs, ← mutabilityOf item⟩)

/-- The entries of the readings, each with a key that entries can be told apart by. -/
def ofReadings : List Reading → Except Fault (List Entry)
  | [] => .ok []
  | .nameless :: rest => ofReadings rest
  | .keyless f :: _ => .error f
  | .entry e :: rest => do
    let _ ← e.keyName.asKey
    return e :: (← ofReadings rest)

def ofAbi (abi : Value) : Except Fault (List Entry) := do
  let readings ← (← abi.toItems).mapM read
  return dedupe (← ofReadings readings)

def toAbi (entries : List Entry) : Value :=
  .list (entries.map toItem)

end Entry

end ContractAbi
