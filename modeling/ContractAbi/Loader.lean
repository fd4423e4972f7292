import ContractAbi.Source.Http
import ContractAbi.Address

/-!
# Loaders of published interfaces

Registries that keep the interfaces that authors publish for their contracts. All of them are
asked, and the first one in order that has an interface is believed.
-/

namespace ContractAbi

structure AbiLoader where
  name : String
  /-- The interface for an address on a chain, or the absent value. -/
  fetch : (address chain : Value) → Traced Value

namespace AbiLoader

def origin : String := "verified"

/-- An item of a published interface is an object whose type is a text. -/
def isItem (v : Value) : Bool :=
  match v with
  | .object _ => (v.fieldOr "type" (.text "function")).toOption.any Value.isText
  | _ => false

/-- A list of items as it is; the absent value for an empty one. -/
def checked (source : String) (abi : Value) : Except Fault Value :=
  match abi with
  | .null => .ok .null
  | .list items =>
    match items.find? fun v => !isItem v with
    | some v => .error (.unavailable source ("malformed ABI item: " ++ v.literalCut 80))
    | none => .ok (if items.isEmpty then .null else abi)
  | _ => .error (.unavailable source "malformed response: abi is not a list")

variable [AddressLibrary]

/-! ## Registries on the web -/

namespace Repository

def name : String := "sourcify"

def defaultBase : String := "https://sourcify.dev/server"

def interface (s : JsonService) (document : Value) : Except Fault Value :=
  match document with
  | .object fields => checked s.name ((Value.lookup "abi" fields).getD .null)
  | _ => .ok .null

/-- The interface that the repository has for an address, where it has one. -/
def fetch [JsonReader.Stack] (s : JsonService) (web : Web) (address chain : Value) :
    Traced Value := do
  let address ← .ofExcept (Address.checksum address)
  let document ← s.getJson web ("/v2/contract/" ++ chain.plain ++ "/" ++ address)
    (some [("fields", .text "abi")]) true
  .ofExcept (interface s document)

end Repository

namespace Explorer

def name : String := "etherscan"

def defaultBase : String := "https://api.etherscan.io"

def interface [JsonReader.Stack] (s : JsonService) (document : Value) : Except Fault Value :=
  match document with
  | .object fields =>
    if ((Value.lookup "status" fields).getD .null).plain ≠ "1" then .ok .null
    else do
      let result ←
        match (Value.lookup "result" fields).getD .null with
        | .text body =>
          match Value.ofJson body with
          | .ok v => pure v
          | .error f =>
            throw (if f.isMalformed then s.unavailable ("malformed ABI: " ++ f.message) else f)
        | v => pure v
      match result with
      | .list _ => checked s.name result
      | _ => return .null
  | _ => .ok .null

/-- The interface that the explorer has for an address. Without a key nothing is asked. -/
def fetch [JsonReader.Stack] (s : JsonService) (web : Web) (key : String) (address chain : Value) :
    Traced Value := do
  if key = "" then
    .note .debug origin "No Etherscan API key configured, skipping"
    return .null
  else
    let address ← .ofExcept (Address.checksum address)
    let document ← s.getJson web "/v2/api"
      (some [("chainid", chain), ("module", .text "contract"), ("action", .text "getabi"),
        ("address", .text address), ("apikey", .text key)]) false
    .ofExcept (interface s document)

end Explorer

/-! ## All loaders -/

/-- What a loader gives, none where it fails. Failures are noted. -/
def tryFetch (loader : AbiLoader) (address chain : Value) : Traced Value := do
  let place := address.plain ++ " on chain " ++ chain.plain
  match ← (loader.fetch address chain).attempt with
  | .ok v => return v
  | .error (.timeout _) =>
    .note .warning origin (loader.name ++ " timed out for " ++ place)
    return .null
  | .error f@(.unavailable _ _) =>
    .note .warning origin f.message
    return .null
  | .error f =>
    .note .warning origin (loader.name ++ " failed for " ++ place ++ ": " ++ f.logged)
    return .null

def firstHeld : List (AbiLoader × Value) → Option (String × Value)
  | [] => none
  | (loader, abi) :: rest => if abi.holds then some (loader.name, abi) else firstHeld rest

def loadVerified (loaders : List AbiLoader) (address chain : Value) : Traced (Option Value) := do
  let answers ← loaders.mapM fun loader => tryFetch loader address chain
  match firstHeld (loaders.zip answers) with
  | some (name, abi) =>
    .note .info origin ("Verified ABI for " ++ address.plain ++ " found on " ++ name)
    return some abi
  | none => return none

end AbiLoader

end ContractAbi
