import ContractAbi.Interface.Result
import ContractAbi.Value.Layout
import ContractAbi.Value.Printer

/-!
# Output formats

A reconstructed interface as a JSON document, and as a constant of Python source code.
-/

namespace ContractAbi

namespace Render

inductive Format where
  | json
  | python
  deriving Repr, DecidableEq

def formats : List (String × Format) :=
  [("json", .json), ("python", .python)]

def json (r : Reconstruction) : String :=
  (Entry.toAbi r.entries).toJson

def constantName (address : String) : String :=
  let cs := address.toList
  let short := if "0x".toList.isPrefixOf cs then (cs.take 8).drop 2 else cs.take 6
  "CONTRACT_" ++ String.ofList ((short.filter Char.isAlphanum).map Char.toUpper) ++ "_ABI"

def pythonLines (r : Reconstruction) (name : String) : List String :=
  let address := r.address.plain
  ["# ABI for contract at " ++ address ++ " (chain " ++ r.chainId.plain ++ ", " ++
      r.sourceKind.plain ++ ")"] ++
    (match r.proxy with
      | some p =>
        if p.implementation.holds then
          ["# Proxy for implementation " ++ p.implementation.plain]
        else []
      | none => []) ++
    [name ++ " = " ++ (Entry.toAbi r.entries).toSource, "", "# Example with web3.py:",
      "# from web3 import Web3", "# w3 = Web3(Web3.HTTPProvider(RPC_URL))",
      "# contract = w3.eth.contract(address='" ++ address ++ "', abi=" ++ name ++ ")", ""]

/-- The interface as a constant of Python source code. -/
def python (r : Reconstruction) : Except Fault String :=
  match r.address with
  | .text address => .ok ("\n".intercalate (pythonLines r (constantName address)))
  | v => .error (.noFields v "startswith")

def render (format : Format) (r : Reconstruction) : Except Fault String :=
  match format with
  | .json => .ok (json r)
  | .python => python r

end Render

end ContractAbi
