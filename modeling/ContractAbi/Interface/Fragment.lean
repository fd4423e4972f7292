import ContractAbi.Interface.Entry

/-!
# Well-known functions

Functions of common token interfaces, by name and input types. They give a function its outputs
where signatures tell none.
-/

namespace ContractAbi

/-- A function whose outputs are known from its name and inputs. -/
structure Fragment where
  name : String
  inputs : List String
  outputs : List String
  mutability : String

namespace Fragment

def known : List Fragment :=
  [⟨"name", [], ["string"], "view"⟩,
    ⟨"symbol", [], ["string"], "view"⟩,
    ⟨"decimals", [], ["uint8"], "view"⟩,
    ⟨"totalSupply", [], ["uint256"], "view"⟩,
    ⟨"balanceOf", ["address"], ["uint256"], "view"⟩,
    ⟨"allowance", ["address", "address"], ["uint256"], "view"⟩,
    ⟨"approve", ["address", "uint256"], ["bool"], "nonpayable"⟩,
    ⟨"transfer", ["address", "uint256"], ["bool"], "nonpayable"⟩,
    ⟨"transferFrom", ["address", "address", "uint256"], ["bool"], "nonpayable"⟩]

def outputParams (f : Fragment) : List Param :=
  f.outputs.zipIdx.map fun (t, i) =>
    .mk (.text ("output" ++ Integer.render i)) (.text (TypeText.canonical t)) none .null .null

/-- The known function with the name and exactly the input types of a resolved one. -/
def for? (f : FunctionEntry) : Option Fragment :=
  if f.resolved then
    match Param.canonicalTypes f.inputs with
    | .ok types =>
      known.find? fun k =>
        f.name == .text k.name && k.inputs.map TypeText.canonical == types
    | .error _ => none
  else none

end Fragment

namespace FunctionEntry

/-- Outputs and mutability of the known function of that name and inputs, where outputs are
missing. -/
def backfill (f : FunctionEntry) : FunctionEntry :=
  if f.outputs.isEmpty then
    match Fragment.for? f with
    | some k => { f with outputs := k.outputParams, mutability := .text k.mutability }
    | none => f
  else f

end FunctionEntry

namespace Entry

/-- Fills in missing outputs, entry by entry. -/
def backfill : List Entry → List Entry :=
  List.map fun
    | .function f => .function f.backfill
    | e => e

end Entry

end ContractAbi
