import ContractAbi.Calldata.Decode
import ContractAbi.Chain.Reader
import ContractAbi.Evm.Code
import ContractAbi.Interface.Result

/-!
# Delegation

Finding the contract that a contract delegates its calls to: from code that is a clone, from the
storage slots in which proxies keep an address, and from a diamond's list of facets. An address
counts only if there is code at it.
-/

namespace ContractAbi

/-- A storage slot in which proxies keep an address. -/
structure ProxySlot where
  kind : Value
  slot : Value
  /-- The address is that of a beacon, which is asked for the implementation. -/
  beacon : Bool
  /-- Other contracts use the slot for other things. -/
  naive : Bool

namespace Proxy

def origin : String := "proxy"

def slots : List ProxySlot :=
  [⟨.text "eip1967",
      .text "0x360894a13ba1a3210667c828492db98dca3e2076cc3735a920a3ca505d382bbc", false, false⟩,
    ⟨.text "eip1967-beacon",
      .text "0xa3f0ad74e5423aebfd80d3ef4346578335a9a72aeaee59ff6cb3582b35133d50", true, false⟩,
    ⟨.text "zeppelinos",
      .text "0x7050c9e0f4ca769c69bd3a8ef740bc37934f8e2c036e5a723fd8ee048ed3f8c3", false, false⟩,
    ⟨.text "eip1822",
      .text "0xc5f16f0fcc639fa48a6947836d9850f504798523bf8c9a3a87d5876cf622bcf7", false, false⟩,
    ⟨.text "slot0",
      .text "0x0000000000000000000000000000000000000000000000000000000000000000", false, true⟩]

def managementSignatures : List String :=
  ["implementation()", "getImplementation()", "upgradeTo(address)",
    "upgradeToAndCall(address,bytes)", "changeAdmin(address)", "admin()", "proxiableUUID()",
    "masterCopy()", "facets()", "facetAddresses()",
    "diamondCut((address,uint8,bytes4[])[],address,bytes)"]

def managementSelectors : List String :=
  managementSignatures.map Selector.ofSignature

def implementationCall : Bytes :=
  (Keccak.hashText "implementation()").take 4

def facetsCall : Bytes :=
  (Keccak.hashText "facetAddresses()").take 4

def facetsSelector : String :=
  Selector.ofSignature "facetAddresses()"

def looksLikeProxy (management : List String) : List Value → Except Fault Bool
  | [] => .ok false
  | s :: rest => do
    if management.contains (← Selector.normalize s) then return true
    else looksLikeProxy management rest

def isProxyLike (selectors : List Value) : Except Fault Bool :=
  looksLikeProxy managementSelectors selectors

/-! ## One slot -/

/-- Whether there is code at an address. A failed question counts as no. -/
def hasCode (reader : ChainReader) (address : String) : Traced Bool := do
  match ← (reader.code address).attempt with
  | .ok code => return code.holds
  | .error f =>
    .note .warning origin
      ("Could not read code of candidate " ++ address ++ ": " ++ f.message)
    return false

/-- The word in a slot. A failed question counts as an empty word. -/
def readWord (reader : ChainReader) (address : String) (slot : ProxySlot) : Traced Value := do
  match ← (reader.storage address slot.slot).attempt with
  | .ok word => return word
  | .error f =>
    .note .warning origin
      ("Reading " ++ slot.kind.plain ++ " slot of " ++ address ++ " failed: " ++ f.message)
    return .null

/-- What a beacon answers. A failed question counts as an empty answer. -/
def askBeacon (reader : ChainReader) (beacon : String) : Traced Value := do
  match ← (reader.call beacon implementationCall).attempt with
  | .ok word => return word
  | .error f =>
    .note .warning origin
      ("Beacon " ++ beacon ++ " did not answer implementation(): " ++ f.message)
    return .null

variable [AddressLibrary]

/-- A candidate counts if it is another contract and has code. -/
def confirm (reader : ChainReader) (address : String) (slot : ProxySlot) (candidate : String) :
    Traced (Option String) := do
  if Address.fold candidate = Address.fold address then return none
  else if ← hasCode reader candidate then return some candidate
  else
    .note .debug origin (slot.kind.plain ++ " slot of " ++ address ++ " holds " ++ candidate ++
      " which has no code")
    return none

/-! ## All slots -/

/-- How far a slot has come: to a word of a beacon, or to its end. -/
inductive Stage where
  | beacon (answer : Value)
  | done (candidate : Option String)

def afterWord (reader : ChainReader) (address : String) (slot : ProxySlot) (word : Value) :
    Traced Stage := do
  match ← .ofExcept (Address.ofWordValue word) with
  | none => return .done none
  | some candidate =>
    if !Address.isValid (.text candidate) then return .done none
    else if slot.beacon then
      .note .debug origin (address ++ " points to beacon " ++ candidate)
      return .beacon (← askBeacon reader candidate)
    else return .done (← confirm reader address slot candidate)

def afterBeacon (reader : ChainReader) (address : String) (slot : ProxySlot) :
    Stage → Traced (Option String)
  | .done candidate => .answer candidate
  | .beacon answer => do
    match ← .ofExcept (Address.ofWordValue answer) with
    | none => return none
    | some candidate => confirm reader address slot candidate

/-- Takes all to the next stage. One that fails does not keep the others from asking, but then all
fail with the first. -/
def together (steps : List (Traced α)) : Traced (List α) :=
  ⟨(steps.map Traced.result).mapM id, (steps.map Traced.events).flatten⟩

def probe (reader : ChainReader) (address : String) (slots : List ProxySlot) :
    Traced (List (Option String)) := do
  let words ← slots.mapM (readWord reader address)
  let stages ← together
    ((slots.zip words).map fun (slot, word) => afterWord reader address slot word)
  together ((slots.zip stages).map fun (slot, stage) => afterBeacon reader address slot stage)

def firstFound : List (ProxySlot × Option String) → Option (ProxySlot × String)
  | [] => none
  | (slot, some candidate) :: _ => some (slot, candidate)
  | (_, none) :: rest => firstFound rest

structure Settings where
  slots : List ProxySlot
  /-- Naive slots are left out where selectors are known and none is for managing a proxy. -/
  guardNaive : Bool

def Settings.default : Settings := ⟨Proxy.slots, false⟩

def cloneTarget (reader : ChainReader) (code : Value) : Traced (Option String) := do
  if code.holds then
    match ← .ofExcept (MinimalProxy.targetOfValue? code) with
    | some target => if ← hasCode reader target then return some target else return none
    | none => return none
  else return none

/-- What the contract at a checksummed address delegates to, if it can be confirmed. -/
def detectAt (settings : Settings) (reader : ChainReader) (address : String)
    (selectors : List Value) (code : Value) : Traced (Option ProxyInfo) := do
  match ← cloneTarget reader code with
  | some target =>
    .note .info origin (address ++ " is an EIP-1167 clone of " ++ target)
    return some ⟨.text target, .text "eip1167", []⟩
  | none =>
    let proxyLike ← .ofExcept (isProxyLike selectors)
    if proxyLike then .note .debug origin (address ++ " has proxy management selectors")
    let slots :=
      if settings.guardNaive && !selectors.isEmpty && !proxyLike then
        settings.slots.filter fun s => !s.naive
      else settings.slots
    let found ← probe reader address slots
    match firstFound (slots.zip found) with
    | some (slot, candidate) =>
      .note .info origin
        (address ++ " delegates to " ++ candidate ++ " (" ++ slot.kind.plain ++ ")")
      return some ⟨.text candidate, slot.kind, []⟩
    | none =>
      if proxyLike then
        .note .info origin
          (address ++ " looks like a proxy but no implementation could be confirmed")
      return none

def detect (settings : Settings) (reader : ChainReader) (address : Value)
    (selectors : List Value) (code : Value) : Traced (Option ProxyInfo) := do
  let address ← .ofExcept (Address.checksum address)
  detectAt settings reader address selectors code

/-! ## Diamonds -/

def facetsOfReturn (raw : Value) : Except Fault (List Value) := do
  match ← AbiType.decodeReturn ["address[]"] raw with
  | [.list facets] => return facets
  | _ => throw .undecodable

/-- Adds a facet behind the others, unless it is there, is the diamond itself, or is zero. -/
def addFacet (address : String) (facets : List String) (facet : String) : List String :=
  if Address.fold facet = Address.fold address ∨ facets.contains facet ∨
      Address.fold facet = Address.zero then facets
  else facets ++ [facet]

/-- The facets of a diamond; other contracts have none. -/
def detectFacets (reader : ChainReader) (address : String) (selectors : List Value) :
    Traced (List String) := do
  let selectors ← .ofExcept (selectors.mapM Selector.normalize)
  if !selectors.contains facetsSelector then return []
  else
    let raw ← (reader.call address facetsCall).attempt
    match raw.bind facetsOfReturn with
    | .ok facets =>
      let facets ← .ofExcept (facets.mapM Address.checksumAny)
      return facets.foldl (addFacet address) []
    | .error f =>
      .note .warning origin ("facetAddresses() on " ++ address ++ " failed: " ++ f.message)
      return []

end Proxy

end ContractAbi
