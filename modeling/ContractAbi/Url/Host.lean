import ContractAbi.Text.LowerCase
import ContractAbi.Text.Percent
import ContractAbi.Url.Label

/-!
# Hosts of web addresses

The one spelling of a host. A host is four numbers, an address in brackets, a name in ASCII, or an
international name, which is written with the ASCII forms of its labels.
-/

namespace ContractAbi.Host

open Text

/-! ## Four numbers -/

/-- One or more digits, a separator of any kind, and the rest that `next` accepts. -/
def startsNumber (next : List Char → Bool) : List Char → Bool
  | c :: rest =>
    c.isDigit &&
      ((match rest with
        | _ :: behind => next behind
        | [] => false) || startsNumber next rest)
  | [] => false

/-- Whether a host has the form of four numbers with any characters between them. -/
def looksNumeric (cs : List Char) : Bool :=
  startsNumber (startsNumber (startsNumber fun last => !last.isEmpty && last.all Char.isDigit)) cs

def isOctet (cs : List Char) : Bool :=
  !cs.isEmpty && cs.all Char.isDigit && cs.length ≤ 3 && (cs.length = 1 || cs.head? ≠ some '0') &&
    (Integer.readMagnitude 10 cs).any (· ≤ 255)

/-- Whether a host is four numbers with points between them. -/
def isFourPart (cs : List Char) : Bool :=
  let parts := pieces (· == '.') cs
  parts.length = 4 && parts.all isOctet

/-! ## Addresses in brackets -/

def isGroup (cs : List Char) : Bool :=
  !cs.isEmpty && cs.length ≤ 4 && cs.all Hex.isDigit

/-- The groups between colons; four numbers at the end count as two groups. `none` where such an
end is wrong. -/
def groups? (cs : List Char) : Option (List (List Char)) :=
  let parts := pieces (· == ':') cs
  match parts.getLast? with
  | some last =>
    if last.contains '.' then
      if isFourPart last then some (parts.dropLast ++ [['0'], ['0']]) else none
    else some parts
  | none => some parts

/-- Whether groups are the eight of an address, where two colons in a row stand for missing ones:
that may be once, and at an end only for all groups up to it. -/
def areGroups (parts : List (List Char)) : Bool :=
  let inner := (parts.drop 1).dropLast
  match inner.findIdx? List.isEmpty with
  | none => parts.length = 8 && parts.all isGroup
  | some i =>
    let before := parts.take (i + 1)
    let after := parts.drop (i + 2)
    let before := if before == [[]] then [] else before
    let after := if after == [[]] then [] else after
    before.length + after.length < 8 && before.all isGroup && after.all isGroup

/-- The address in front of the mark of a zone, where there is one with a name. -/
def dropZone? (cs : List Char) : Option (List Char) :=
  match cs.dropWhile (· ≠ '%') with
  | [] => some cs
  | _ :: zone =>
    if zone.isEmpty || zone.contains '%' then none else some (cs.takeWhile (· ≠ '%'))

def isBracketed (cs : List Char) : Bool :=
  match (dropZone? cs).bind fun cs => (groups? cs).map fun parts => (cs, parts) with
  | none => false
  | some (cs, parts) => 3 ≤ (pieces (· == ':') cs).length && areGroups parts

/-! ## Hosts -/

/-- Characters that an ASCII name keeps. -/
def isKept (c : Char) : Bool :=
  Percent.isUnreserved c || "!$&'()*+,;=\"`\x7b\x7d%|\\".toList.contains c

def read (host : String) : Except UrlFault String :=
  let cs := host.toList
  if cs.isEmpty then .ok ""
  else if looksNumeric cs then
    if isFourPart cs then .ok host else .error (.fourPartHost host)
  else if cs.head? == some '[' && cs.getLast? == some ']' then
    let inside := (cs.drop 1).dropLast
    if isBracketed inside then .ok (String.ofList inside) else .error (.bracketedHost host)
  else if cs.all Punycode.isBasic then
    .ok (Percent.encode isKept (String.ofList (cs.map Char.toLower)))
  else
    match Label.nameToAscii (lower cs) with
    | .ok name => .ok (String.ofList name)
    | .error _ => .error (.internationalHost host)

/-- A host as it stands in an address: with brackets where it holds a colon. -/
def text (host : String) : String :=
  if host.contains ':' then "[" ++ host ++ "]" else host

end ContractAbi.Host
