import ContractAbi.Value.Literal

/-!
# Failures

Why an operation did not give an answer, and the message that says so. Failures of this library
carry their cause; a failure that a service reports carries the words it came with.
-/

namespace ContractAbi

inductive SignatureFault where
  | notFunction
  | invalidName
  | unbalanced
  | malformedReturns
  | trailing
  | malformedOutputs
  deriving Repr, DecidableEq

namespace SignatureFault

def message : SignatureFault → String
  | notFunction => "Not a function signature: "
  | invalidName => "Invalid function name in signature: "
  | unbalanced => "Unbalanced parentheses in signature: "
  | malformedReturns => "Malformed returns clause: "
  | trailing => "Unexpected trailing text in signature: "
  | malformedOutputs => "Malformed output clause: "

end SignatureFault

structure JsonFault where
  reason : String
  line : Nat
  column : Nat
  offset : Nat
  deriving Repr, DecidableEq

namespace JsonFault

def message (f : JsonFault) : String :=
  f.reason ++ ": line " ++ Integer.render f.line ++ " column " ++ Integer.render f.column ++
    " (char " ++ Integer.render f.offset ++ ")"

end JsonFault

/-- Why a text is no address on the web. -/
inductive UrlFault where
  | tooLong
  | partTooLong (part : String)
  | control (c : Char) (position : Nat)
  | port (text : String)
  | fourPartHost (host : String)
  | bracketedHost (host : String)
  | internationalHost (host : String)
  | doubleSlash
  | colon
  deriving Repr, DecidableEq

namespace UrlFault

def message : UrlFault → String
  | tooLong => "URL too long"
  | partTooLong part => "URL component '" ++ part ++ "' too long"
  | control c i =>
    "Invalid non-printable ASCII character in URL, " ++ Quoted.text (String.singleton c) ++
      " at position " ++ Integer.render i ++ "."
  | port text => "Invalid port: " ++ Quoted.text text
  | fourPartHost host => "Invalid IPv4 address: " ++ Quoted.text host
  | bracketedHost host => "Invalid IPv6 address: " ++ Quoted.text host
  | internationalHost host => "Invalid IDNA hostname: " ++ Quoted.text host
  | doubleSlash => "Relative URLs cannot have a path starting with '//'"
  | colon => "Relative URLs cannot have a path starting with ':'"

end UrlFault

/-- Why a text is no label of an international host name. Positions count from one. -/
inductive LabelFault where
  | empty
  | tooLong
  | nameTooLong
  | noCode
  | codeEndsWithHyphen
  | unreadableCode
  | notComposed
  | hyphensInside
  | hyphenAtEdge
  | startsWithMark
  | forbidden (c : Char) (position : Nat) (label : String)
  | strayJoiner (c : Char) (position : Nat) (label : String)
  | outOfContext (c : Char) (position : Nat) (label : String)
  | startWithoutDirection (label : String)
  | direction (position : Nat) (rightToLeft : Bool)
  | mixedNumerals
  | endWithoutDirection
  deriving Repr, DecidableEq

namespace LabelFault

def codeText (c : Char) : String :=
  "U+" ++ (Hex.ofNatPadded 4 c.toNat).toUpper

def message : LabelFault → String
  | empty => "Empty Label"
  | tooLong => "Label too long"
  | nameTooLong => "Domain too long"
  | noCode => "Malformed A-label, no Punycode eligible content found"
  | codeEndsWithHyphen => "A-label must not end with a hyphen"
  | unreadableCode => "Invalid A-label"
  | notComposed => "Label must be in Normalization Form C"
  | hyphensInside => "Label has disallowed hyphens in 3rd and 4th position"
  | hyphenAtEdge => "Label must not start or end with a hyphen"
  | startsWithMark => "Label begins with an illegal combining character"
  | forbidden c i label =>
    "Codepoint " ++ codeText c ++ " at position " ++ Integer.render i ++ " of " ++
      Quoted.text label ++ " not allowed"
  | strayJoiner c i label =>
    "Unknown codepoint adjacent to joiner " ++ codeText c ++ " at position " ++
      Integer.render i ++ " in " ++ Quoted.text label
  | outOfContext c i label =>
    "Codepoint " ++ codeText c ++ " not allowed at position " ++ Integer.render i ++ " in " ++
      Quoted.text label
  | startWithoutDirection label =>
    "First codepoint in label " ++ Quoted.text label ++ " must be directionality L, R or AL"
  | direction i rightToLeft =>
    "Invalid direction for codepoint at position " ++ Integer.render i ++ " in a " ++
      (if rightToLeft then "right-to-left" else "left-to-right") ++ " label"
  | mixedNumerals => "Can not mix numeral types in a right-to-left label"
  | endWithoutDirection => "Label ends with illegal codepoint directionality"

end LabelFault

/-- A text, or a choice of arguments, that has no meaning where it stands. -/
inductive Malformed where
  | selector (given : Value)
  | topic (given : Value)
  | hex (position : Nat)
  | unbalancedParameters (text : String)
  | emptyParameter (text : String)
  | unbalancedTuple (text : String)
  | signature (cause : SignatureFault) (text : String)
  | integer (base : Nat) (given : Value)
  /-- A whole number of more digits than can be read. -/
  | longInteger (digits : Nat)
  | number (given : Value)
  | wholeOfNaN
  | json (cause : JsonFault)
  /-- An address on the web without a scheme. -/
  | noScheme (url : String)
  | noSelection
  | argumentCount (signature : String) (expected given : Nat)
  | zeroSizedTuple
  | negativeConcurrency
  /-- A text that has no UTF-8 form. -/
  | loneHalves (found : Text.LoneHalves)
  deriving Repr

namespace Malformed

def message : Malformed → String
  | selector v => "Invalid function selector: " ++ v.literal
  | topic v => "Invalid event topic: " ++ v.literal
  | hex i =>
    "non-hexadecimal number found in fromhex() arg at position " ++ Integer.render i
  | unbalancedParameters s => "Unbalanced brackets in parameter list: " ++ s
  | emptyParameter s => "Empty type in parameter list: " ++ s
  | unbalancedTuple s => "Unbalanced tuple type: " ++ s
  | signature cause s => cause.message ++ Quoted.text s
  | integer base v =>
    "invalid literal for int() with base " ++ Integer.render base ++ ": " ++ v.literalCut 200
  | longInteger digits =>
    "Exceeds the limit (" ++ Integer.render Integer.maxDigits ++
      " digits) for integer string conversion: value has " ++ Integer.render digits ++
      " digits; use sys.set_int_max_str_digits() to increase the limit"
  | number v => "could not convert string to float: " ++ v.literal
  | wholeOfNaN => "cannot convert float NaN to integer"
  | json cause => cause.message
  | noScheme url => "unknown url type: " ++ Quoted.text url
  | noSelection => "One of name, signature or selector is required"
  | argumentCount s expected given =>
    s ++ " takes " ++ Integer.render expected ++ " arguments, " ++ Integer.render given ++ " given"
  | zeroSizedTuple => "Zero-sized tuple types \"()\" are not supported."
  | negativeConcurrency => "Semaphore initial value must be >= 0"
  | loneHalves found => found.message

end Malformed

/-- A value of a sort that the step at hand cannot use. -/
inductive Misfit where
  | notIterable (v : Value)
  | notSubscriptable (v : Value)
  | textKey
  | listKey
  | notWhole (v : Value)
  | notNumeric (v : Value)
  | notText (v : Value)
  | notJoinable (index : Nat) (v : Value)
  | unhashable (v : Value)
  | unsized (v : Value)
  | notBytes
  | noOrder
  deriving Repr

namespace Misfit

def message : Misfit → String
  | notIterable v => "'" ++ v.sort ++ "' object is not iterable"
  | notSubscriptable v => "'" ++ v.sort ++ "' object is not subscriptable"
  | textKey => "string indices must be integers, not 'str'"
  | listKey => "list indices must be integers or slices, not str"
  | notWhole v =>
    "int() argument must be a string, a bytes-like object or a real number, not '" ++ v.sort ++ "'"
  | notNumeric v => "float() argument must be a string or a real number, not '" ++ v.sort ++ "'"
  | notText v => "expected string or bytes-like object, got '" ++ v.sort ++ "'"
  | notJoinable i v =>
    "sequence item " ++ Integer.render i ++ ": expected str instance, " ++ v.sort ++ " found"
  | unhashable v => "unhashable type: '" ++ v.sort ++ "'"
  | unsized v => "object of type '" ++ v.sort ++ "' has no len()"
  | notBytes => "byte string expected"
  | noOrder => "values without an order"

end Misfit

inductive Fault where
  | invalidAddress (given : Value)
  | noContract (address : String) (chain : Option Value) (reason : Option String)
  | unavailable (source reason : String)
  | ambiguous (name : String) (candidates : List String)
  | functionNotFound (wanted : String)
  | readOnly (signature : String)
  /-- A service did not answer in time. -/
  | timeout (text : String)
  /-- The way to a service is broken, in the manner that `label` names. -/
  | transport (label text : String)
  /-- A service reports a failure of the kind `label`. A `foreseen` kind is shown by its text
  alone. -/
  | service (label text : String) (foreseen : Bool)
  | missingKey (key : String)
  | malformed (cause : Malformed)
  | misfit (cause : Misfit)
  | invalidUrl (cause : UrlFault)
  | invalidHost (cause : LabelFault)
  /-- A value that is no object was asked for a field. -/
  | noFields (v : Value) (field : String)
  | outOfRange
  | infiniteWhole
  /-- A whole number beyond all doubles. -/
  | overlargeWhole
  /-- A length that no machine can hold. -/
  | oversized
  /-- Bytes that are no text. -/
  | invalidText (text : String)
  /-- A document whose lists or objects, as `inside` says, are nested too deeply. -/
  | tooDeep (inside : String)
  | unencodable
  | undecodable
  | unusableType
  deriving Repr

namespace Fault

def message : Fault → String
  | invalidAddress v => "Invalid contract address: " ++ v.literal
  | noContract address chain reason =>
    "No contract found at address " ++ address ++
      (match chain with
        | some c => " on chain " ++ c.plain
        | none => "") ++
      (match reason with
        | some r => if r = "" then "" else ": " ++ r
        | none => "")
  | unavailable source reason => source ++ " unavailable: " ++ reason
  | ambiguous name candidates =>
    "Multiple functions named \"" ++ name ++ "\" found (" ++ ", ".intercalate candidates ++
      "). Please provide signature or selector to specify which one."
  | functionNotFound wanted => "Function " ++ wanted ++ " not found in contract ABI"
  | readOnly signature => "Function " ++ signature ++ " is read-only and cannot be written to"
  | timeout text => text
  | transport _ text => text
  | service _ text _ => text
  | missingKey key => Quoted.text key
  | malformed cause => cause.message
  | misfit cause => cause.message
  | invalidUrl cause => cause.message
  | invalidHost cause => cause.message
  | noFields v field => "'" ++ v.sort ++ "' object has no attribute '" ++ field ++ "'"
  | outOfRange => "list index out of range"
  | infiniteWhole => "cannot convert float infinity to integer"
  | overlargeWhole => "int too large to convert to float"
  | oversized => "cannot fit 'int' into an index-sized integer"
  | invalidText text => text
  | tooDeep inside =>
    "maximum recursion depth exceeded while decoding a JSON " ++ inside ++
      " from a unicode string"
  | unencodable => "value does not fit its type"
  | undecodable => "return data does not fit its types"
  | unusableType => "type cannot be used"

/-- Whether a failure is a fault of what was given, in the form in which it was given. -/
def isMalformed : Fault → Bool
  | malformed _ | invalidText _ => true
  | _ => false

/-- The message as a log shows it: a failure of a kind that was not foreseen names its kind. -/
def logged : Fault → String
  | service label text false => label ++ "(" ++ (if text = "" then "" else Quoted.text text) ++ ")"
  | invalidUrl cause => "InvalidURL(" ++ Quoted.text cause.message ++ ")"
  | f@(tooDeep _) => "RecursionError(" ++ Quoted.text f.message ++ ")"
  | f => f.message

end Fault

end ContractAbi
