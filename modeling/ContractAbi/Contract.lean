import ContractAbi.Calldata.Decode
import ContractAbi.Calldata.Encode
import ContractAbi.Chain.Reader
import ContractAbi.Interface.Result
import ContractAbi.Signature

/-!
# Calling contracts

Choosing a function of a reconstructed interface, encoding calls of it, and reading what calls
return.
-/

namespace ContractAbi

namespace Contract

def origin : String := "contract"

/-- How a caller names a function, with the arguments of the call. -/
structure Selection where
  name : Value
  signature : Value
  selector : Value
  args : Value

/-- The number of parts of a value that holds; none for one that does not. -/
def partCount (v : Value) : Except Fault Nat :=
  if v.holds then
    match v with
    | .list items => .ok items.length
    | .text s => .ok (Text.size s)
    | .object fields => .ok fields.length
    | .bytes bs => .ok bs.length
    | v => .error (.misfit (.unsized v))
  else .ok 0

def withSignature (text : String) : List FunctionEntry → Except Fault (List FunctionEntry)
  | [] => .ok []
  | f :: rest => do
    let here := (← f.signature) == text
    let found ← withSignature text rest
    return if here then f :: found else found

def firstOf (wanted : String) : List FunctionEntry → Except Fault FunctionEntry
  | [] => .error (.functionNotFound wanted)
  | f :: _ => .ok f

/-- The function of a name. Of several the one that takes as many arguments as are given. -/
def byName (functions : List FunctionEntry) (name args : Value) : Except Fault FunctionEntry := do
  let found := functions.filter fun f => f.name.same name
  if found.length ≤ 1 then firstOf name.plain found
  else
    let count ← partCount args
    match found.filter fun f => f.inputs.length == count with
    | [f] => return f
    | _ => throw (.ambiguous name.plain (← found.mapM FunctionEntry.signature))

/-- The function that a caller names: by its selector, else its signature, else its name. -/
def find (r : Reconstruction) (s : Selection) : Except Fault FunctionEntry := do
  if s.selector.holds then
    let selector ← Selector.normalize s.selector
    firstOf selector (r.functions.filter fun f => f.selector == selector)
  else if s.signature.holds then
    let sig ← Signature.ofValue s.signature
    firstOf s.signature.plain (← withSignature sig.text r.functions)
  else if s.name.holds then byName r.functions s.name s.args
  else throw (.malformed .noSelection)

variable [AddressLibrary]

def encodeCall (f : FunctionEntry) (args : Value) : Except Fault Bytes := do
  let args ← args.toItemsIfHeld
  let types ← Param.canonicalTypes f.inputs
  if args.length ≠ types.length then
    throw (.malformed (.argumentCount (← f.signature) types.length args.length))
  let selector ← Value.bytesOfText f.selector
  return selector ++ (← AbiType.encodeAll types args)

/-! ## Values for JSON -/

mutual

def readable : Value → Value
  | .bytes bs => .text (Hex.encode0x bs)
  | .list items => .list (readableItems items)
  | .object fields => .object (readableFields fields)
  | v => v
termination_by structural v => v

def readableItems : List Value → List Value
  | [] => []
  | v :: vs => readable v :: readableItems vs
termination_by structural vs => vs

def readableFields : List (String × Value) → List (String × Value)
  | [] => []
  | f :: fs => readableField f :: readableFields fs
termination_by structural fs => fs

def readableField : String × Value → String × Value
  | (k, v) => (k, readable v)
termination_by structural f => f

end

/-- What a call returns: one value, or a list of them. -/
def unwrap : List Value → Value
  | [v] => v
  | vs => .list vs

/-- Calls a function and decodes what it returns. Where the outputs are unknown, the return data
is given in hex. -/
def read (reader : ChainReader) (r : Reconstruction) (s : Selection) : Traced Value := do
  let f ← .ofExcept (find r s)
  let data ← .ofExcept (encodeCall f s.args)
  let raw ← reader.call r.address.plain data
  if f.outputs.isEmpty then
    let signature ← .ofExcept f.signature
    .note .debug origin (signature ++ " has no known outputs, returning raw data")
    return readable raw
  else
    let types ← .ofExcept (Param.canonicalTypes f.outputs)
    return unwrap (← .ofExcept (AbiType.decodeReturn types raw))

/-- A transaction for a call that changes state. Nothing is sent. -/
def prepareWrite (r : Reconstruction) (s : Selection) : Except Fault Value := do
  let f ← find r s
  if f.mutability.text? = some "view" ∨ f.mutability.text? = some "pure" then
    throw (.readOnly (← f.signature))
  let args ← s.args.toItemsIfHeld
  let data ← encodeCall f s.args
  return .object [("address", r.address), ("abi", .list [f.toItem]), ("function_name", f.name),
    ("args", .list args), ("data", .text (Hex.encode0x data)),
    ("payable", .bool (f.mutability.text? == some "payable"))]

/-! ## Listings -/

def listParam (name : Value) (p : Param) : Except Fault Value := do
  return .object [("name", name), ("type", .text (← p.canonicalType))]

def listOutput (p : Param) (place : Nat) : Except Fault Value :=
  listParam (if p.name.holds then p.name else .text ("output" ++ Integer.render place)) p

def listFunction (f : FunctionEntry) : Except Fault Value := do
  let signature ← f.signature
  let inputs ← f.inputs.mapM fun p => listParam p.name p
  let outputs ← f.outputs.zipIdx.mapM fun (p, i) => listOutput p i
  return .object [("name", f.name), ("signature", .text signature),
    ("selector", .text f.selector), ("inputs", .list inputs), ("outputs", .list outputs),
    ("stateMutability", f.mutability)]

def listFunctions (r : Reconstruction) : Except Fault (List Value) :=
  r.functions.mapM listFunction

def listEvents (r : Reconstruction) : List Value :=
  r.events.map EventEntry.name

def hasFunction (r : Reconstruction) (name : Value) : Bool :=
  r.functions.any fun f => f.name.same name

end Contract

end ContractAbi
