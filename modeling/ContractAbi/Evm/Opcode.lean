import ContractAbi.Text.Hex

/-!
# Opcodes

The instruction set: names, and the number of bytes that a push takes from the code behind it.
-/

namespace ContractAbi.Opcode

def stop : UInt8 := 0x00
def eq : UInt8 := 0x14
def callValue : UInt8 := 0x34
def callDataLoad : UInt8 := 0x35
def jump : UInt8 := 0x56
def jumpIf : UInt8 := 0x57
def jumpDest : UInt8 := 0x5b
def push32 : UInt8 := 0x7f
def halt : UInt8 := 0xf3
def revert : UInt8 := 0xfd
def invalid : UInt8 := 0xfe
def selfDestruct : UInt8 := 0xff

/-- Names of opcodes in runs, each from its first opcode on. -/
def nameRuns : List (Nat × List String) :=
  [(0x00, ["STOP", "ADD", "MUL", "SUB", "DIV", "SDIV", "MOD", "SMOD", "ADDMOD", "MULMOD", "EXP",
      "SIGNEXTEND"]),
    (0x10, ["LT", "GT", "SLT", "SGT", "EQ", "ISZERO", "AND", "OR", "XOR", "NOT", "BYTE", "SHL",
      "SHR", "SAR"]),
    (0x20, ["SHA3"]),
    (0x30, ["ADDRESS", "BALANCE", "ORIGIN", "CALLER", "CALLVALUE", "CALLDATALOAD", "CALLDATASIZE",
      "CALLDATACOPY", "CODESIZE", "CODECOPY", "GASPRICE", "EXTCODESIZE", "EXTCODECOPY",
      "RETURNDATASIZE", "RETURNDATACOPY", "EXTCODEHASH", "BLOCKHASH", "COINBASE", "TIMESTAMP",
      "NUMBER", "PREVRANDAO", "GASLIMIT", "CHAINID", "SELFBALANCE", "BASEFEE", "BLOBHASH",
      "BLOBBASEFEE"]),
    (0x50, ["POP", "MLOAD", "MSTORE", "MSTORE8", "SLOAD", "SSTORE", "JUMP", "JUMPI", "PC", "MSIZE",
      "GAS", "JUMPDEST", "TLOAD", "TSTORE", "MCOPY", "PUSH0"]),
    (0xf0, ["CREATE", "CALL", "CALLCODE", "RETURN", "DELEGATECALL", "CREATE2"]),
    (0xfa, ["STATICCALL"]),
    (0xfd, ["REVERT", "INVALID", "SELFDESTRUCT"])]

/-- Families of opcodes with a number behind their name: first opcode, name, first number and
count. -/
def families : List (Nat × String × Nat × Nat) :=
  [(0x60, "PUSH", 1, 32), (0x80, "DUP", 1, 16), (0x90, "SWAP", 1, 16), (0xa0, "LOG", 0, 5)]

def familyName? (op : Nat) : Option String :=
  families.findSome? fun (first, name, number, count) =>
    if first ≤ op ∧ op < first + count then
      some (name ++ String.ofList (Nat.toDigits 10 (number + (op - first))))
    else none

def runName? (op : Nat) : Option String :=
  nameRuns.findSome? fun (first, names) => if first ≤ op then names[op - first]? else none

def name? (op : UInt8) : Option String :=
  (familyName? op.toNat).orElse fun _ => runName? op.toNat

def isKnown (op : UInt8) : Bool :=
  let n := op.toNat
  n ≤ 0x0b || (0x10 ≤ n && n ≤ 0x1d) || n == 0x20 || (0x30 ≤ n && n ≤ 0x4a) ||
    (0x50 ≤ n && n ≤ 0xa4) || (0xf0 ≤ n && n ≤ 0xf5) || n == 0xfa || 0xfd ≤ n

/-- The name of an opcode; one outside the instruction set is named by its number. -/
def name (op : UInt8) : String :=
  (name? op).getD ("UNKNOWN_" ++ Hex.encode0x [op])

/-- The number of immediate bytes behind an opcode; none behind a number that is no opcode. -/
def pushSizeOf (n : Int) : Int :=
  if 0x60 ≤ n ∧ n ≤ 0x7f then n - 0x5f else 0

def pushSize (op : UInt8) : Nat :=
  (pushSizeOf op.toNat).toNat

/-- The characters that the names of all pushes start with. -/
def pushMark : List Char :=
  ['P', 'U', 'S', 'H']

def namesPush (name : String) : Bool :=
  pushMark.isPrefixOf name.toList

/-- The number of immediate bytes that stands behind the mark in the name of a push. The push of
zero has none, and its name is passed over as those of other instructions are. -/
def namedSize? (name : String) : Option Nat :=
  if namesPush name ∧ name ≠ "PUSH0" then
    some (Nat.ofDigitChars 10 (name.toList.drop pushMark.length) 0)
  else none

/-- An opcode that pushes a constant, zero among them. -/
def isPush (op : UInt8) : Bool :=
  0x5f ≤ op.toNat && op.toNat ≤ 0x7f

def isTopicLog (op : UInt8) : Bool :=
  0xa1 ≤ op.toNat && op.toNat ≤ 0xa4

/-- Execution never goes on behind these. -/
def isHalting (op : UInt8) : Bool :=
  [stop, jump, halt, revert, invalid, selfDestruct].contains op

end ContractAbi.Opcode
