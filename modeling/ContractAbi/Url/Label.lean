import ContractAbi.Fault
import ContractAbi.Text.Composition
import ContractAbi.Text.Pieces
import ContractAbi.Url.LabelTable
import ContractAbi.Url.Punycode

/-!
# Labels of host names

A host name is a row of labels with points between them. A label holds letters, marks, digits and
hyphens of any script, within rules that keep it readable; on the way to a server it is written in
ASCII letters, digits and hyphens.
-/

namespace ContractAbi.Label

open Text

/-! ## Characters -/

/-- Whether a label may hold the character anywhere. -/
def isPermitted (c : Char) : Bool :=
  permittedRows.any fun (first, last, step) =>
    first ≤ c.toNat && c.toNat ≤ last && (c.toNat - first) % step == 0

/-- The way in which text runs at a character. -/
inductive Direction where
  | left
  | right
  | europeanDigit
  | arabicDigit
  | nonspacing
  | neutral
  deriving Repr, DecidableEq

/-- Nonspacing marks that nevertheless run as letters do. -/
def directedMarks : List Nat :=
  [0xcbf, 0xcc6, 0x11a07, 0x11a08, 0x11c3f]

def Direction.ofChar (c : Char) : Direction :=
  if c.isDigit || isIn [(0x6f0, 0x6f9)] c then europeanDigit
  else if isIn [(0x660, 0x669), (0x10d30, 0x10d39)] c then arabicDigit
  else if isNonspacing c && !directedMarks.contains c.toNat then nonspacing
  else if isIn rightToLeftRows c then right
  else if isIn neutralRows c then neutral
  else left

/-- Characters that joining letters look past. -/
def isTransparent (c : Char) : Bool :=
  (isNonspacing c && c.toNat ≠ 0x1171e) || c.toNat = 0x1e94b

/-! ## Context -/

def isVirama (c : Char) : Bool :=
  combiningClass c = viramaClass

def joinsForward (c : Char) : Bool :=
  isIn forwardRows c || isIn bothSidesRows c

def joinsBackward (c : Char) : Bool :=
  isIn backwardRows c || isIn bothSidesRows c

/-- Whether a letter in front, the last one first, joins forward and one behind joins backward. -/
def joinsAcross (before after : List Char) : Bool :=
  (before.dropWhile isTransparent).head?.any joinsForward &&
    (after.dropWhile isTransparent).head?.any joinsBackward

def nonJoiner : Char := '\u200c'

def joiner : Char := '\u200d'

/-- Whether a joiner may stand between what is in front of it, last first, and behind it. -/
def mayJoin (c : Char) (before after : List Char) : Bool :=
  before.head?.any isVirama || (c = nonJoiner && joinsAcross before after)

def isArabicDigit (c : Char) : Bool :=
  isIn [(0x660, 0x669)] c

/-- Digits of the Arabic script as Persian and Urdu write them. -/
def isEasternDigit (c : Char) : Bool :=
  isIn [(0x6f0, 0x6f9)] c

/-- Whether a character that needs a context has it: between `before`, last first, and `after`;
`none` for other characters. -/
def hasContext? (c : Char) (before after : List Char) : Option Bool :=
  if c = '\u00b7' then some (before.head? == some 'l' && after.head? == some 'l')
  else if c = '\u0375' then some (after.head?.any (isIn greekRows))
  else if c = '\u05f3' ∨ c = '\u05f4' then some (before.head?.any (isIn hebrewRows))
  else if c = '\u30fb' then some ((before ++ after).any (isIn japaneseRows))
  else if isArabicDigit c then some (!(before ++ after).any isEasternDigit)
  else if isEasternDigit c then some (!(before ++ after).any isArabicDigit)
  else none

/-- Checks the characters of a label, `before` being those already checked, last first. -/
def checkCharacters (label : String) (before : List Char) : List Char → Except LabelFault Unit
  | [] => .ok ()
  | c :: rest =>
    let position := before.length + 1
    if isPermitted c then checkCharacters label (c :: before) rest
    else if c = nonJoiner ∨ c = joiner then
      if mayJoin c before rest then checkCharacters label (c :: before) rest
      else .error (.strayJoiner c position label)
    else
      match hasContext? c before rest with
      | some true => checkCharacters label (c :: before) rest
      | some false => .error (.outOfContext c position label)
      | none => .error (.forbidden c position label)

/-! ## Direction -/

def runsRight (d : Direction) : Bool :=
  d == .right || d == .arabicDigit

/-- What a label that starts with a letter from right to left may end with, marks aside. -/
def endsRight (d : Direction) : Bool :=
  d == .right || d == .europeanDigit || d == .arabicDigit

/-- Checks that the directions of a label go together: from right to left no letter runs the other
way and digits are of one sort; from left to right nothing else runs. -/
def checkRun (rightToLeft : Bool) (position : Nat) (digits : Option Direction) :
    List Direction → Except LabelFault Unit
  | [] => .ok ()
  | d :: rest =>
    if (if rightToLeft then d == .left else runsRight d) then
      .error (.direction position rightToLeft)
    else if rightToLeft && (d == .europeanDigit || d == .arabicDigit) then
      if digits.any (· ≠ d) then .error .mixedNumerals
      else checkRun rightToLeft (position + 1) (some d) rest
    else checkRun rightToLeft (position + 1) digits rest

/-- Checks the direction of a label that holds characters from right to left. -/
def checkDirection (label : List Char) : Except LabelFault Unit :=
  let directions := label.map Direction.ofChar
  if !directions.any runsRight then .ok ()
  else
    match directions with
    | .right :: _ => do
      checkRun true 1 none directions
      match directions.reverse.dropWhile (· == .nonspacing) with
      | d :: _ => if endsRight d then .ok () else .error .endWithoutDirection
      | [] => .error .endWithoutDirection
    | .left :: _ => checkRun false 1 none directions
    | _ => .error (.startWithoutDirection (String.ofList label))

/-! ## Labels -/

def check (label : List Char) : Except LabelFault Unit :=
  if label.isEmpty then .error .empty
  else if !isComposed label then .error .notComposed
  else if (label.drop 2).take 2 == ['-', '-'] then .error .hyphensInside
  else if label.head? == some '-' || label.getLast? == some '-' then .error .hyphenAtEdge
  else if label.head?.any isMark then .error .startsWithMark
  else do
    checkCharacters (String.ofList label) [] label
    checkDirection label

def mark : List Char := ['x', 'n', '-', '-']

def checkAscii (label : List Char) : Except LabelFault Unit :=
  if mark.isPrefixOf label then
    let code := label.drop mark.length
    if code.isEmpty then .error .noCode
    else if code.getLast? == some '-' then .error .codeEndsWithHyphen
    else
      match Punycode.decode? code with
      | some label => check label
      | none => .error .unreadableCode
  else check label

def maxLength : Nat := 63

def toAscii (label : List Char) : Except LabelFault (List Char) := do
  let ascii ←
    if label.all Punycode.isBasic then do
      checkAscii label
      pure label
    else do
      check label
      pure (mark ++ Punycode.encode label)
  if maxLength < ascii.length then .error .tooLong else .ok ascii

/-! ## Names -/

def isPoint (c : Char) : Bool :=
  ['.', '\u3002', '\uff0e', '\uff61'].contains c

/-- The labels of a name, and whether a point stands behind the last one. -/
def ofName (name : List Char) : List (List Char) × Bool :=
  let labels := pieces isPoint name
  if labels.getLast? == some [] then (labels.dropLast, true) else (labels, false)

def maxNameLength : Nat := 253

def nameToAscii (name : List Char) : Except LabelFault (List Char) := do
  let (labels, closed) := ofName name
  let labels ← labels.mapM toAscii
  let ascii := ['.'].intercalate (if closed then labels ++ [[]] else labels)
  if (if closed then maxNameLength + 1 else maxNameLength) < ascii.length then .error .nameTooLong
  else .ok ascii

def checkName (name : List Char) : Except LabelFault Unit :=
  if maxNameLength + 1 < name.length then .error .nameTooLong
  else (ofName name).1.forM checkAscii

end ContractAbi.Label
