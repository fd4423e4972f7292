import ContractAbi.Interface.Entry

/-!
# Signatures

The text form of a function or event: a name, the types of its inputs and, at will, the types of its
outputs behind the word `returns` or by themselves.
-/

namespace ContractAbi

open Text

structure Signature where
  name : String
  inputs : List String
  /-- Absent where the text says nothing of outputs. -/
  outputs : Option (List String)
  deriving Repr, DecidableEq

namespace Signature

def text (s : Signature) : String :=
  TypeText.signature s.name s.inputs

def selector (s : Signature) : String :=
  Selector.ofSignature s.text

def topic (s : Signature) : String :=
  Topic.ofSignature s.text

/-! ## Reading -/

def isNameStart (c : Char) : Bool :=
  c.isAlpha || c == '_' || c == '$'

def isNameChar (c : Char) : Bool :=
  c.isAlphanum || c == '_' || c == '$'

/-- A letter, underscore or dollar sign, and more of these and digits behind it. -/
def isName : List Char → Bool
  | [] => false
  | c :: cs => isNameStart c && cs.all isNameChar

def fail (cause : SignatureFault) (text : List Char) : Except Fault α :=
  .error (.malformed (.signature cause (String.ofList text)))

/-- What stands between the outer brackets of `cs`, of which the last is at `stop`. -/
def between (cs : List Char) (start stop : Nat) : List Char :=
  (cs.take stop).drop (start + 1)

/-- The text behind `word`, without blanks in front, if the text starts with `word`. -/
def behindWord? (word : String) (cs : List Char) : Option (List Char) :=
  if word.toList.isPrefixOf cs then some (trim (cs.drop word.length)) else none

/-- The output types that follow the inputs, if anything follows. `text` is the whole signature. -/
def parseOutputs (text rest : List Char) : Except Fault (Option (List String)) := do
  let clause ←
    match behindWord? "returns" rest with
    | some clause =>
      if clause.head? = some '(' then .ok clause else fail .malformedReturns text
    | none => .ok rest
  if clause.isEmpty then return none
  if clause.head? ≠ some '(' then fail .trailing text
  else
    match TypeText.closing? clause 0 with
    | some stop =>
      if stop + 1 = clause.length then
        return some ((← TypeText.splitChars (between clause 0 stop)).map String.ofList)
      else fail .malformedOutputs text
    | none => fail .malformedOutputs text

/-- Reads a signature from text without blanks around it. -/
def parseChars (cs : List Char) : Except Fault Signature := do
  let start := cs.idxOf '('
  if start = 0 ∨ cs.length ≤ start then fail .notFunction cs
  else
    let name := trim (cs.take start)
    if !isName name then fail .invalidName cs
    else
      match TypeText.closing? cs start with
      | none => fail .unbalanced cs
      | some stop =>
        let inputs ← TypeText.splitChars (between cs start stop)
        let outputs ← parseOutputs cs (trim (cs.drop (stop + 1)))
        return ⟨String.ofList name, inputs.map String.ofList, outputs⟩

def parse (s : String) : Except Fault Signature :=
  parseChars (trim s.toList)

def ofValue : Value → Except Fault Signature
  | .text s => parse s
  | v => .error (.noFields v "strip")

/-! ## Entries from signatures -/

/-- The function with what a signature says of it. A signature that states outputs is taken to
belong to a function that only reads. -/
def applyTo (s : Signature) (f : FunctionEntry) : Except Fault FunctionEntry := do
  let (outputs, mutability) ←
    match s.outputs with
    | some types => pure (← Param.ofTypes "output" types, Value.text "view")
    | none => pure (f.outputs, f.mutability)
  FunctionEntry.make (.text f.selector) (.text s.name) (← Param.ofTypes "param" s.inputs) outputs
    mutability

def toEvent (s : Signature) (topic : Value) : Except Fault EventEntry := do
  EventEntry.make (.text s.name) (← Param.ofTypes "param" s.inputs) false topic

end Signature

end ContractAbi
