import ContractAbi.Render

/-!
# Command line arguments

What a command line asks for. Options may be cut short as long as one option is meant, and take
their value from behind an equals sign or from the next argument.
-/

namespace ContractAbi.CommandLine

structure OptionSpec where
  name : String
  takesValue : Bool

/-- The options and the value that an argument list gives, behind the name of a command. -/
structure Given where
  value : Option String
  options : List (String × String)
  flags : List String

namespace Given

def empty : Given := ⟨none, [], []⟩

def option? (g : Given) (name : String) : Option String :=
  (g.options.reverse.find? fun o => o.1 == name).map Prod.snd

end Given

inductive ArgumentKind where
  | value
  | option (spec : OptionSpec) (attached : Option String)
  | unknown
  | ambiguous

/-- A text such as `-5` or `-.5`, which is a value and no option. -/
def isNegativeNumber (s : String) : Bool :=
  match s.toList with
  | '-' :: cs =>
    let rest := cs.dropWhile Char.isDigit
    match rest with
    | [] => !cs.isEmpty
    | '.' :: ds => !ds.isEmpty && ds.all Char.isDigit
    | _ => false
  | _ => false

def splitAttached (s : String) : String × Option String :=
  let cs := s.toList
  let name := String.ofList (cs.takeWhile (· ≠ '='))
  match cs.dropWhile (· ≠ '=') with
  | _ :: rest => (name, some (String.ofList rest))
  | [] => (name, none)

def startsWith (start s : String) : Bool :=
  start.toList.isPrefixOf s.toList

/-- How an argument reads where some options are known. -/
def classify (specs : List OptionSpec) (s : String) : ArgumentKind :=
  if !startsWith "-" s || s.length = 1 then .value
  else
    let (name, attached) := splitAttached s
    match specs.find? fun o => o.name == name with
    | some spec => .option spec attached
    | none =>
      match if startsWith "--" s then specs.filter fun o => startsWith name o.name else [] with
      | [spec] => .option spec attached
      | _ :: _ :: _ => .ambiguous
      | [] =>
        if isNegativeNumber s || s.toList.contains ' ' then .value else .unknown

def takeValue (g : Given) (s : String) : Option Given :=
  if g.value.isNone then some { g with value := some s } else none

def readValues (g : Given) : List String → Option Given
  | [] => some g
  | s :: rest => (takeValue g s).bind fun g => readValues g rest

/-- Reads the arguments of a command. `behindValue` tells whether the argument before was the
command's value. -/
def readGiven (specs : List OptionSpec) (behindValue : Bool) (g : Given) :
    List String → Option Given
  | [] => some g
  | s :: rest =>
    if s = "--" then
      if g.value.isNone || behindValue then readValues g rest else none
    else
      match classify specs s with
      | .value => (takeValue g s).bind fun g => readGiven specs true g rest
      | .option spec attached =>
        if spec.takesValue then
          match attached with
          | some v => readGiven specs false { g with options := g.options ++ [(spec.name, v)] } rest
          | none =>
            match rest with
            | v :: rest =>
              match v == "--", classify specs v with
              | false, .value =>
                readGiven specs false { g with options := g.options ++ [(spec.name, v)] } rest
              | _, _ => none
            | [] => none
        else if attached.isSome then none
        else readGiven specs false { g with flags := g.flags ++ [spec.name] } rest
      | _ => none

/-! ## Commands -/

def defaultRpc : String := "http://localhost:8545"

/-- What is asked of the command that reconstructs an interface. -/
structure AbiRequest where
  address : String
  rpc : String
  chain : Option Int
  format : Render.Format
  cache : String
  explorerKey : String
  followProxies : Bool

inductive Command where
  | abi (request : AbiRequest)
  | selectors (data : String)
  | listing (data : String)

/-- What a command line asks for. Without a command it asks for nothing. -/
structure Invocation where
  verbosity : Nat
  command : Option Command

def abiOptions : List OptionSpec :=
  [⟨"--rpc", true⟩, ⟨"--chain-id", true⟩, ⟨"--format", true⟩, ⟨"--cache", true⟩,
    ⟨"--etherscan-key", true⟩, ⟨"--no-proxies", false⟩]

/-- The value of an option that has to be readable wherever it is given. -/
def readOption (g : Given) (name : String) (read : String → Option α) : Option (Option α) :=
  if g.options.all fun o => o.1 != name || (read o.2).isSome then
    some ((g.option? name).bind read)
  else none

def readAbi (args : List String) : Option Command := do
  let g ← readGiven abiOptions false .empty args
  let address ← g.value
  let chain ← readOption g "--chain-id" (Integer.read? 10)
  let format ← readOption g "--format" fun s => (Render.formats.find? fun f => f.1 == s)
  return .abi
    { address := address
      rpc := (g.option? "--rpc").getD defaultRpc
      chain := chain
      format := (format.map Prod.snd).getD .json
      cache := (g.option? "--cache").getD ""
      explorerKey := (g.option? "--etherscan-key").getD ""
      followProxies := !g.flags.contains "--no-proxies" }

def readPlain (make : String → Command) (args : List String) : Option Command := do
  let g ← readGiven [] false .empty args
  return make (← g.value)

def readCommand (name : String) (args : List String) : Option Command :=
  if name = "abi" then readAbi args
  else if name = "selectors" then readPlain .selectors args
  else if name = "decode_binary" ∨ name = "dp" then readPlain .listing args
  else none

/-- How often an argument asks for more messages: `-v`, `-vv` and so on, or the long option, which
may be cut short. -/
def verbosityOf (s : String) : Option Nat :=
  match s.toList with
  | '-' :: 'v' :: more => if more.all (· == 'v') then some (more.length + 1) else none
  | '-' :: '-' :: _ => if s.length > 2 ∧ startsWith s "--verbose" then some 1 else none
  | _ => none

/-- Reads a command line; one that has no meaning gives nothing. -/
def readInvocation (verbosity : Nat) : List String → Option Invocation
  | [] => some ⟨verbosity, none⟩
  | s :: rest =>
    match verbosityOf s with
    | some n => readInvocation (verbosity + n) rest
    | none => (readCommand s rest).map fun c => ⟨verbosity, some c⟩

end ContractAbi.CommandLine
