import ContractAbi.Evm.Code
import ContractAbi.Evm.Dispatcher
import ContractAbi.Evm.EventTopics
import ContractAbi.Interface.Entry

/-!
# Interfaces from code

What the code of a contract alone tells about its interface: a nameless function for each selector,
and the topics of its events.
-/

namespace ContractAbi.Skeleton

def selectors (code : Bytes) : List String :=
  (Dispatcher.scan code Dispatcher.defaultWindow).selectors

/-- What is guessed of a function from the start of its code. -/
def mutability (code : Bytes) (table : DispatchTable) (selector : String) : String :=
  if Dispatcher.isPayable code table selector then "payable" else "nonpayable"

def functions (code : Bytes) : List FunctionEntry :=
  let table := Dispatcher.scan code Dispatcher.defaultWindow
  table.selectors.map fun s => .unresolved s (.text (mutability code table s))

def selectorsOfValue (code : Value) : Except Fault (List String) :=
  (Code.ofValue code).map selectors

def functionsOfValue (code : Value) : Except Fault (List FunctionEntry) :=
  (Code.ofValue code).map functions

def topicsOfValue (code : Value) : Except Fault (List String) :=
  (Code.ofValue code).map EventTopics.scan

/-- The selectors in code, without `0x` and whatever their order. Code that is absent, empty or
only `0x` has none. -/
def selectorDigits (code : Value) (window : Int) : Except Fault (List String) :=
  if !code.holds || code.text? == some "0x" || code.text? == some "0X" then .ok []
  else (Code.ofValue code).map fun c =>
    (Dispatcher.scan c window).selectors.map Selector.digits

end ContractAbi.Skeleton
