import ContractAbi.Session
import ContractAbi.Signature

/-!
# Signature sources

Databases that know signatures by their selectors and topics. A source answers with candidates in
the order of its trust; what it answers is not trusted before it is checked.
-/

namespace ContractAbi

inductive LookupKind where
  | function
  | event
  deriving Repr, DecidableEq

namespace LookupKind

/-- The hash by which signatures of the kind are looked up. -/
def hash : LookupKind → Signature → String
  | function => Signature.selector
  | event => Signature.topic

def hashed : LookupKind → Signature → Except Fault String
  | function, s => Selector.hashed s.text
  | event, s => Topic.hashed s.text

def normalize : LookupKind → Value → Except Fault String
  | function => Selector.normalize
  | event => Topic.normalize

end LookupKind

structure SignatureSource where
  name : String
  /-- The candidates for a key, or the absent value. -/
  candidates : LookupKind → String → Traced Value

/-! ## Tables -/

structure SignatureTable where
  functions : List (String × List Value)
  events : List (String × List Value)

namespace SignatureTable

/-- The candidates of an object with keys in any spelling. -/
def readKeys (kind : LookupKind) (v : Value) : Except Fault (List (String × List Value)) :=
  if v.holds then
    match v with
    | .object fields =>
      fields.mapM fun (key, candidates) => do
        let key ← kind.normalize (.text key)
        return (key, ← candidates.toItems)
    | v => .error (.noFields v "items")
  else .ok []

/-- A table from an object of functions and one of events. -/
def ofValues (functions events : Value) : Except Fault SignatureTable := do
  return ⟨← readKeys .function functions, ← readKeys .event events⟩

def append (key : String) (candidate : Value) (table : List (String × List Value)) :
    List (String × List Value) :=
  if table.any fun e => e.1 == key then
    table.map fun e => if e.1 == key then (key, e.2 ++ [candidate]) else e
  else table ++ [(key, [candidate])]

def hashed (kind : LookupKind) (signatures : List Value) :
    Except Fault (List (String × List Value)) :=
  signatures.foldlM (fun table s => do
    return append (← kind.hashed (← Signature.ofValue s)) s table) []

def ofSignatures (functions events : List Value) : Except Fault SignatureTable := do
  return ⟨← hashed .function functions, ← hashed .event events⟩

/-- The candidates for a key; of keys given twice the later one counts. -/
def candidates (t : SignatureTable) (kind : LookupKind) (key : String) : List Value :=
  let entries := match kind with
    | .function => t.functions
    | .event => t.events
  ((entries.reverse.find? fun e => e.1 == key).map Prod.snd).getD []

def source (t : SignatureTable) : SignatureSource where
  name := "static"
  candidates kind key := .answer (.list (t.candidates kind key))

end SignatureTable

end ContractAbi
