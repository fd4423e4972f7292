import ContractAbi.Program
import ContractAbi.Assembler
import ContractAbi.CommandLine.Arguments
import ContractAbi.Source.Directory

/-!
# The command line program

What the program prints and how it ends, for a command line, the services around it and the files
that it finds.
-/

namespace ContractAbi.CommandLine

structure Environment where
  /-- A chain's node, by its address. -/
  connect : String → ChainReader
  web : Web
  now : Binary64

abbrev Files := List (String × Bytes)

namespace Files

def content? (files : Files) (path : String) : Option Bytes :=
  (files.find? fun f => f.1 == path).map Prod.snd

def write (files : Files) (path : String) (content : Bytes) : Files :=
  if files.any fun f => f.1 == path then
    files.map fun f => if f.1 == path then (path, content) else f
  else files ++ [(path, content)]

end Files

inductive Ending where
  | printed (text : String)
  /-- The arguments ask for nothing, or cannot be read. -/
  | help
  | usage
  /-- A failure that is shown in one line. -/
  | failed (message : String)

namespace Ending

def exitCode : Ending → Nat
  | printed _ => 0
  | help => 1
  | usage | failed _ => 2

end Ending

/-! ## Services on the web -/

def signatureLimit : Value := .float (.ofInt 3)

def registryLimit : Value := .float (.ofInt 8)

def service (name base : String) (limit : Value) : JsonService :=
  ⟨name, JsonService.baseOf "" base, limit, defaultAgent⟩

def defaultSources (web : Web) : List SignatureSource :=
  [directorySource NumberedDirectory.name (NumberedDirectory.lookup
      (service NumberedDirectory.name NumberedDirectory.defaultBase signatureLimit) web),
    directorySource ListedDirectory.name (ListedDirectory.lookup
      (service ListedDirectory.name ListedDirectory.defaultBase signatureLimit) web)]

def defaultLoaders (web : Web) (key : String) : List AbiLoader :=
  [⟨AbiLoader.Repository.name, AbiLoader.Repository.fetch
      (service AbiLoader.Repository.name AbiLoader.Repository.defaultBase registryLimit) web⟩,
    ⟨AbiLoader.Explorer.name, AbiLoader.Explorer.fetch
      (service AbiLoader.Explorer.name AbiLoader.Explorer.defaultBase registryLimit) web key⟩]

/-! ## Commands -/

def hasStored (events : List Event) : Bool :=
  events.any fun
    | .stored => true
    | _ => false

def openCache (files : Files) (request : AbiRequest) : Traced ResultCache :=
  if request.cache = "" then .answer (.empty ResultCache.defaultMaxAge)
  else ResultCache.openFile request.cache ResultCache.defaultMaxAge (files.content? request.cache)

def saveCache (request : AbiRequest) (cache : ResultCache) (files : Files) : Files :=
  if request.cache = "" then files
  else files.write request.cache cache.content

def reconstruct (env : Environment) (request : AbiRequest) : Session Files String := do
  .lift (.ask (.connect request.rpc))
  let files ← .get
  let cache ← .lift (openCache files request)
  let services : Assembler.Services :=
    { reader := env.connect request.rpc
      sources := defaultSources env.web
      loaders := defaultLoaders env.web request.explorerKey
      now := env.now }
  let options := { Assembler.Options.default with followProxies := request.followProxies }
  let start : Assembler.State := ⟨(request.chain.map Value.int).getD .null, cache, .empty⟩
  let assembly := Assembler.assemble services options (.text request.address) .null
  let (found, state) := assembly.run start
  if hasStored found.events then .modify (saveCache request state.cache)
  let r ← .lift found
  .ofExcept (Render.render request.format r)

def linesText (lines : List String) : String :=
  String.join (lines.map (· ++ "\n"))

def runCommand (env : Environment) : Command → Session Files String
  | .abi request => do return (← reconstruct env request) ++ "\n"
  | .selectors data => .ofExcept ((Skeleton.selectorsOfValue (.text data)).map linesText)
  | .listing data => .ofExcept ((listing data).map linesText)

/-- Failures that the program shows in one line and ends with. -/
def isShown : Fault → Bool
  | .invalidAddress _ | .noContract .. | .unavailable .. | .ambiguous .. | .functionNotFound _
  | .readOnly _ => true
  | _ => false

def runInvocation (env : Environment) (i : Invocation) : Session Files Ending := do
  match i.command with
  | none => return .help
  | some command =>
    match ← (runCommand env command).attempt with
    | .ok text => return .printed text
    | .error f => if isShown f then return .failed f.message else .fail f

def run (env : Environment) (args : List String) : Session Files Ending :=
  match readInvocation 0 args with
  | some i => runInvocation env i
  | none => pure .usage

/-! ## Messages -/

def shownRank (verbosity : Nat) : Nat :=
  2 - verbosity

def messageLine? (verbosity : Nat) : Event → Option String
  | .notice level origin text =>
    if shownRank verbosity ≤ level.rank then
      some (level.text ++ " abi_reconstructor." ++ origin ++ ": " ++ text)
    else none
  | _ => none

def verbosity (args : List String) : Nat :=
  ((readInvocation 0 args).map Invocation.verbosity).getD 0

def errorLines (args : List String) (events : List Event) (ending : Ending) : List String :=
  events.filterMap (messageLine? (verbosity args)) ++
    (match ending with
      | .failed message => ["error: " ++ message]
      | _ => [])

end ContractAbi.CommandLine
