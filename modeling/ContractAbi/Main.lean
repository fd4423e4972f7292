import ContractAbi.CommandLine
import Std.Time.DateTime.Timestamp

/-!
# The program

Runs the command line of its arguments against the files of the machine. This build has no
transport to chains and web services, so every question to one of them fails; results that a cache
file holds are found there.
-/

namespace ContractAbi.Program

open CommandLine

/-- The failure of every question to a service. -/
def offline : Fault :=
  .transport "ConnectError" "no transport"

def reader : ChainReader :=
  ⟨fun _ => .fail offline, fun _ _ => .fail offline, fun _ _ => .fail offline, .fail offline⟩

def environment (now : Binary64) : Environment :=
  ⟨fun _ => reader, fun _ => .error offline, now⟩

def cachePath? (args : List String) : Option String := do
  match (← readInvocation 0 args).command with
  | some (.abi request) => if request.cache = "" then none else some request.cache
  | _ => none

def readFiles (args : List String) : IO Files := do
  match cachePath? args with
  | none => return []
  | some path =>
    try
      return [(path, (← IO.FS.readBinFile path).toList)]
    catch _ => return []

def usage : String :=
  "usage: abi-reconstructor [-v] \x7babi,selectors,decode_binary,dp\x7d ..."

/-- Runs a command line, writes the files that it leaves and prints what it says. -/
def run (args : List String) : IO UInt32 := do
  let now ← Std.Time.Timestamp.now
  let files ← readFiles args
  let (found, left) := (CommandLine.run (environment (.ofInt now.toSecondsSinceUnixEpoch.val))
    args).run files
  for (path, content) in left do
    IO.FS.writeBinFile path content.toByteArray
  let ending :=
    match found.result with
    | .ok ending => ending
    | .error f => Ending.failed f.message
  for line in errorLines args found.events ending do
    IO.eprintln line
  match ending with
  | .printed text => IO.print text
  | .help | .usage => IO.println usage
  | .failed _ => pure ()
  return UInt32.ofNat ending.exitCode

end ContractAbi.Program

def main (args : List String) : IO UInt32 :=
  ContractAbi.Program.run args
