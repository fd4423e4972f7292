import ContractAbi.Cache
import ContractAbi.Chain.Proxy
import ContractAbi.Interface.Skeleton
import ContractAbi.Loader
import ContractAbi.Resolver

/-!
# Assembling interfaces

The interface of a contract from whatever there is: the one its author published, else what its
code tells and signature databases know, and the interfaces of the contracts that it delegates to.
-/

namespace ContractAbi

namespace Assembler

def origin : String := "assembler"

/-- The services that an assembly asks, and the time at which it does. -/
structure Services where
  reader : ChainReader
  sources : List SignatureSource
  loaders : List AbiLoader
  now : Binary64

structure Options where
  followProxies : Bool
  resolveEvents : Bool
  /-- How many delegations below the first address are followed. -/
  maxDepth : Int
  concurrency : Int
  proxy : Proxy.Settings

def defaultDepth : Int := 2

def Options.default : Options :=
  ⟨true, true, defaultDepth, Resolver.defaultLimit, Proxy.Settings.default⟩

structure State where
  /-- The chain that addresses are taken to be on, or the absent value. -/
  chain : Value
  cache : ResultCache
  memory : Resolver.Memory

structure Walk where
  memory : Resolver.Memory
  /-- The lower-case addresses that have been entered. -/
  visited : List String

/-! ## One contract -/

def isBlankCode (code : Value) : Bool :=
  !code.holds ||
    (match code with
      | .text s => s == "0x"
      | .bytes bs => bs == [0x30, 0x78]
      | _ => false)

def getCode (reader : ChainReader) (address : String) (chain : Value) : Traced Bytes := do
  match ← (reader.code address).attempt with
  | .ok code =>
    if isBlankCode code then .fail (.noContract address (some chain) none)
    else .ofExcept (Code.ofValue code)
  | .error (.timeout _) =>
    .fail (.noContract address (some chain) (some "bytecode request timed out"))
  | .error f@(.noContract ..) => .fail f
  | .error f =>
    .fail (.noContract address (some chain) (some ("bytecode unavailable: " ++ f.message)))

/-- What code tells, with what the sources know of its selectors and topics. -/
def fromCode (services : Services) (options : Options) (address : String) (code : Bytes) :
    Session Resolver.Memory (List Entry) := do
  let skeleton := Skeleton.functions code
  if skeleton.isEmpty then
    .note .warning origin
      ("No dispatcher recognised in bytecode of " ++ address ++ ", no interface recoverable")
  let functions ← Resolver.enrich services.sources options.concurrency skeleton
  let topics := if options.resolveEvents then EventTopics.scan code else []
  let events ←
    if topics.isEmpty then pure []
    else Resolver.resolveEvents services.sources options.concurrency (topics.map .text)
  return functions.map .function ++ events.map .event

/-- A contract's own entries, and its code where they were read off the code. -/
structure Own where
  entries : List Entry
  code : Option Bytes

namespace Own

def sourceKind (o : Own) : Value :=
  if o.code.isSome then codeSource else verifiedSource

def codeValue (o : Own) : Value :=
  (o.code.map Value.bytes).getD .null

def selectors (o : Own) : List String :=
  (o.entries.filterMap Entry.function?).map FunctionEntry.selector

/-- Published outputs are never filled in. -/
def completed (o : Own) : List Entry :=
  if o.code.isSome then Entry.backfill o.entries else o.entries

end Own

def published (services : Services) (address : String) (chain : Value) :
    Traced (Option (List Entry)) := do
  match ← AbiLoader.loadVerified services.loaders (.text address) chain with
  | none => return none
  | some abi =>
    match Entry.ofAbi abi with
    | .ok entries => return some entries
    | .error f =>
      .note .warning origin
        ("Unusable verified ABI for " ++ address ++ ", falling back to bytecode: " ++ f.message)
      return none

def ownEntries (services : Services) (options : Options) (address : String) (chain : Value) :
    Session Resolver.Memory Own := do
  match ← .lift (published services address chain) with
  | some entries => return ⟨entries, none⟩
  | none =>
    let code ← .lift (getCode services.reader address chain)
    return ⟨← fromCode services options address code, some code⟩

/-! ## Delegation -/

/-- The interface of a contract that is delegated to. One that has been entered before, and one
without code, is left out. -/
def delegate (assemble : String → Session Walk Reconstruction) (address : String) :
    Session Walk (Option Reconstruction) := do
  let walk ← .get
  if walk.visited.contains (Address.fold address) then
    .note .info origin ("Proxy cycle through " ++ address ++ " ignored")
    return none
  else
    match ← (assemble address).attempt with
    | .ok r => return some r
    | .error f@(.noContract ..) =>
      .note .warning origin ("Delegate " ++ address ++ " skipped: " ++ f.message)
      return none
    | .error f => .fail f

def delegates (assemble : String → Session Walk Reconstruction) :
    List String → Session Walk (List Reconstruction)
  | [] => pure []
  | address :: rest => do
    let found ← delegate assemble address
    return found.toList ++ (← delegates assemble rest)

variable [AddressLibrary]

/-- The implementation and the facets that a contract delegates to, with their interfaces. -/
def followDelegation (services : Services) (options : Options)
    (assemble : String → Session Walk Reconstruction) (address : String) (own : Own) :
    Session Walk (Option ProxyInfo × List Reconstruction) := do
  let selectors := own.selectors.map Value.text
  let info ← .lift
    (Proxy.detect options.proxy services.reader (.text address) selectors own.codeValue)
  let implementation ← delegates assemble (info.bind fun i => i.implementation.text?).toList
  let facets ← .lift (Proxy.detectFacets services.reader address selectors)
  if facets.isEmpty then return (info, implementation)
  else
    .note .info origin
      (address ++ " is a diamond with " ++ Integer.render facets.length ++ " facets")
    let diamond := info.getD ⟨.null, .text "diamond", []⟩
    let others ← delegates assemble facets
    return (some { diamond with facets := facets.map .text }, implementation ++ others)

/-- The interface of a contract and of all that it delegates to. The fuel is the number of
delegations that may still be followed. -/
def assembleAt (services : Services) (options : Options) (chain : Value) :
    (fuel depth : Nat) → String → Session Walk Reconstruction
  | fuel, depth, address => do
    .lift ⟨.ok (), [.entered address depth]⟩
    .modify fun w => { w with visited := Address.fold address :: w.visited }
    let own ← .focus Walk.memory (fun m w => { w with memory := m })
      (ownEntries services options address chain)
    let (proxy, found) ←
      match fuel with
      | 0 => pure (none, [])
      | fuel + 1 =>
        followDelegation services options (assembleAt services options chain fuel (depth + 1))
          address own
    return ⟨.text address, chain, Entry.merge own.completed (found.map Reconstruction.entries),
      own.sourceKind, proxy, own.selectors.map .text⟩

/-! ## Assemblies -/

/-- Moves to a chain. Results for another chain are dropped. -/
def setChain (chain : Value) : Session State Unit := do
  let chain ← .ofExcept chain.toWhole
  let s ← .get
  if !s.chain.isNull && !s.chain.same (.int chain) then
    .note .info origin ("Chain ID updated from " ++ s.chain.plain ++ " to " ++
      Integer.render chain ++ ", clearing cache")
    .modify fun s => { s with cache := s.cache.clear }
  .modify fun s => { s with chain := .int chain }

/-- Takes another reader, which comes with the services from then on, and moves to its chain where
that is given. -/
def changeReader (chain : Value) : Session State Unit :=
  if chain.isNull then pure () else setChain chain

def readChain (reader : ChainReader) (address : String) : Traced Value := do
  match (← reader.chainId.attempt).bind Value.toWhole with
  | .ok chain => return .int chain
  | .error (.timeout _) =>
    .fail (.noContract address none (some "chain id request timed out"))
  | .error f => .fail (.noContract address none (some ("chain id unavailable: " ++ f.message)))

def clear : Session State Unit :=
  .modify fun s => { s with cache := s.cache.clear, memory := .empty }

def Options.fuel (o : Options) : Nat :=
  if o.followProxies then o.maxDepth.toNat else 0

/-- The interface of the contract at an address. The chain is the one given, else the assembler's,
else the reader's. -/
def assemble (services : Services) (options : Options) (address chain : Value) :
    Session State Reconstruction := do
  let address ← .ofExcept (Address.checksum address)
  let s ← .get
  let chain ←
    if !chain.isNull then pure chain
    else if !s.chain.isNull then pure s.chain
    else .lift (readChain services.reader address)
  setChain chain
  let s ← .get
  match ← .lift (s.cache.get? services.now (.text address) chain) with
  | some r =>
    .note .info origin ("Using cached result for " ++ address ++ " on chain " ++ chain.plain)
    return r
  | none =>
    let r ← .focus (fun s => ⟨s.memory, []⟩) (fun (w : Walk) s => { s with memory := w.memory })
      (assembleAt services options chain options.fuel 0 address)
    let cache ← .ofExcept (s.cache.put services.now (.text address) chain r r.verified)
    .modify fun s => { s with cache := cache }
    .lift ⟨.ok (), [.stored]⟩
    return r

end Assembler

end ContractAbi
