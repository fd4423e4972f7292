import ContractAbi.Evm.Instruction

/-!
# Dispatchers

Code starts by comparing the selector of a call with the selectors that it knows: a push of the
selector, a comparison, a push of the place to go to, and a conditional jump. This module finds
those comparisons.
-/

namespace ContractAbi

structure DispatchTable where
  /-- In the order in which they are first compared. -/
  selectors : List String
  /-- The place of a function's code, where it could be told. -/
  targets : List (String × Nat)
  /-- The call value is checked once for all functions. -/
  guarded : Bool
  deriving Repr, DecidableEq

namespace DispatchTable

def target? (t : DispatchTable) (selector : String) : Option Nat :=
  (t.targets.find? fun e => e.1 == selector).map Prod.snd

end DispatchTable

namespace Dispatcher

/-- A pushed value that may be a selector, from its push to the jump that uses it. -/
structure Candidate where
  pc : Nat
  value : Bytes
  compared : Bool
  target : Option Nat
  deriving Repr, DecidableEq

/-- What the scan has seen so far. -/
structure Scan where
  table : DispatchTable
  /-- Call data has been loaded. -/
  loaded : Bool
  /-- The instruction before was a push. -/
  pushed : Bool
  candidate : Option Candidate
  deriving Repr, DecidableEq

namespace Scan

def initial : Scan :=
  ⟨⟨[], [], false⟩, false, false, none⟩

def mask : Bytes :=
  [0xff, 0xff, 0xff, 0xff]

/-- The table with a compared selector in it, unless it is there already. -/
def record (s : Scan) (c : Candidate) : DispatchTable :=
  let selector := Hex.encode0x c.value
  if !c.compared || c.value == mask || s.table.selectors.contains selector then s.table
  else
    { s.table with
      selectors := s.table.selectors ++ [selector]
      targets := s.table.targets ++
        (match c.target, s.pushed with
          | some t, true => [(selector, t)]
          | _, _ => []) }

/-- A push of three or four bytes behind a load of call data starts a candidate; a push of one to
three bytes may be the place that an open candidate jumps to. -/
def push (s : Scan) (pc size : Nat) (data : Bytes) : Scan :=
  if (size = 3 ∨ size = 4) ∧ s.loaded then
    { s with candidate := some ⟨pc, Bytes.padLeft 4 data, false, none⟩ }
  else if 1 ≤ size ∧ size ≤ 3 then
    let target := if data.isEmpty then none else some (Bytes.toNat data)
    { s with candidate := s.candidate.map fun c => { c with target := target } }
  else s

/-- What an instruction without an immediate adds, by its name. -/
def enter (s : Scan) (name : String) : Scan :=
  if name = "CALLDATALOAD" then { s with loaded := true }
  else if name = "CALLVALUE" ∧ !s.loaded ∧ s.table.selectors.isEmpty then
    { s with table := { s.table with guarded := true } }
  else if name = "EQ" then
    { s with candidate := s.candidate.map fun c => { c with compared := true } }
  else if name = "JUMPI" then
    match s.candidate with
    | some c => { s with table := s.record c, candidate := none }
    | none => s
  else s

/-- A candidate is given up when the scan, which has come to place `i`, is more than `window` bytes
behind its push. -/
def expire (window : Int) (i : Nat) (s : Scan) : Scan :=
  { s with candidate := s.candidate.filter fun c => decide ((i : Int) - c.pc ≤ window) }

end Scan

/-- How many bytes a comparison may take up, from the push of the selector on. -/
def defaultWindow : Int := 20

/-- The scan of the bytes that stand at place `i` and behind it. It takes the immediate of a push by
itself, and goes on behind it; bytes that are no opcodes are passed over one by one. -/
def scanFrom (window : Int) (i : Nat) (s : Scan) : Bytes → Scan
  | [] => s
  | op :: rest =>
    match Opcode.name? op with
    | none => scanFrom window (i + 1) { s with pushed := false } rest
    | some name =>
      match Opcode.namedSize? name with
      | some size =>
        let next := i + 1 + size
        let s := (s.push i size (rest.take size)).expire window next
        scanFrom window next { s with pushed := true } (rest.drop size)
      | none =>
        let s := (s.enter name).expire window (i + 1)
        scanFrom window (i + 1) { s with pushed := Opcode.namesPush name } rest
termination_by code => code.length
decreasing_by all_goals simp only [List.length_cons, List.length_drop]; omega

def scan (code : Bytes) (window : Int) : DispatchTable :=
  (scanFrom window 0 Scan.initial code).table

/-! ## Mutability -/

def entryScan : Nat := 8

/-- Whether one of the first instructions reads the call value, before control leaves them. -/
def readsCallValue : (left : Nat) → List Instruction → Bool
  | _, [] => false
  | left, i :: rest =>
    if i.opcode = Opcode.callValue then true
    else if Opcode.isHalting i.opcode ∨ i.opcode = Opcode.jumpIf ∨ i.opcode = Opcode.jumpDest then
      false
    else
      match left with
      | 0 => false
      | left + 1 => readsCallValue left rest

/-- Whether the function at a place checks the call value, where a function can start there. -/
def entryGuarded? (code : Bytes) (target : Nat) : Option Bool :=
  if code[target]? = some Opcode.jumpDest then
    some (readsCallValue entryScan (disassemble (code.drop (target + 1))))
  else none

/-- A function takes value if its entry can be found and nothing checks the call value. -/
def isPayable (code : Bytes) (table : DispatchTable) (selector : String) : Bool :=
  if table.guarded then false
  else (table.target? selector).bind (entryGuarded? code) == some false

end Dispatcher

end ContractAbi
