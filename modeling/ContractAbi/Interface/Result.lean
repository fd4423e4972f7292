import ContractAbi.Interface.Fragment

/-!
# Reconstructed interfaces

The interface of one contract with where it came from, and its form as a JSON object.
-/

namespace ContractAbi

structure ProxyInfo where
  implementation : Value
  kind : Value
  facets : List Value

namespace ProxyInfo

def toItem (p : ProxyInfo) : Value :=
  .object [("implementationAddress", p.implementation), ("kind", p.kind),
    ("facets", .list p.facets)]

def ofItem (v : Value) : Except Fault ProxyInfo := do
  let implementation ← v.field "implementationAddress"
  let kind ← v.fieldOr "kind" (.text "")
  return ⟨implementation, kind, ← (← v.field "facets").toItemsIfHeld⟩

end ProxyInfo

/-- The interface was published by the contract's author. -/
def verifiedSource : Value := .text "verified"

def codeSource : Value := .text "bytecode-analysis"

structure Reconstruction where
  address : Value
  chainId : Value
  entries : List Entry
  sourceKind : Value
  proxy : Option ProxyInfo
  selectors : List Value

namespace Reconstruction

/-- Whether the contract's own entries were published by its author. -/
def verified (r : Reconstruction) : Bool :=
  r.sourceKind.text? == verifiedSource.text?

def functions (r : Reconstruction) : List FunctionEntry :=
  r.entries.filterMap Entry.function?

def events (r : Reconstruction) : List EventEntry :=
  r.entries.filterMap Entry.event?

def unresolved (r : Reconstruction) : List FunctionEntry :=
  r.functions.filter fun f => !f.resolved

def functionBySelector? (r : Reconstruction) (selector : Value) :
    Except Fault (Option FunctionEntry) :=
  (Selector.normalize selector).map fun s => r.functions.find? fun f => f.selector == s

def toItem (r : Reconstruction) : Value :=
  .object [("address", r.address), ("chainId", r.chainId), ("sourceKind", r.sourceKind),
    ("proxyInfo", (r.proxy.map ProxyInfo.toItem).getD .null), ("selectors", .list r.selectors),
    ("abi", Entry.toAbi r.entries)]

def ofItem (v : Value) : Except Fault Reconstruction := do
  let address ← v.require "address"
  let chain ← (← v.require "chainId").toWhole
  let abi ← v.field "abi"
  let entries ← Entry.ofAbi (if abi.holds then abi else .list [])
  let source ← v.require "sourceKind"
  let info ← v.field "proxyInfo"
  let proxy ← if info.holds then (ProxyInfo.ofItem info).map some else pure none
  let selectors ← (← v.field "selectors").toItemsIfHeld
  return ⟨address, .int chain, entries, source, proxy, selectors⟩

end Reconstruction

end ContractAbi
