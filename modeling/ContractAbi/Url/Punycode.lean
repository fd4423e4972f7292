/-!
# Text in letters, digits and hyphens

Text of any script written with ASCII letters, digits and hyphens: first the ASCII characters, then
numbers that say which characters go between them, and where. Reading and writing keep the same
account: the last character that was put in, the place behind it, and how long numbers tend to be.
-/

namespace ContractAbi.Punycode

/-! ## Numbers -/

/-- The digits are the letters and then the ten ASCII digits. -/
def digit (n : Nat) : Char :=
  if n < 26 then Char.ofNat (97 + n) else Char.ofNat (22 + n)

def digitValue? (c : Char) : Option Nat :=
  let n := c.toNat
  if 97 ≤ n ∧ n ≤ 122 then some (n - 97)
  else if 65 ≤ n ∧ n ≤ 90 then some (n - 65)
  else if 48 ≤ n ∧ n ≤ 57 then some (n - 22)
  else none

/-- A digit below the threshold ends its number. `place` counts the digits by thirty-six. -/
def threshold (bias place : Nat) : Nat :=
  min 26 (max 1 (place - bias))

/-- No number goes on behind a digit of zero. -/
theorem one_le_threshold (bias place : Nat) : 1 ≤ threshold bias place :=
  Nat.le_min.mpr ⟨by decide, Nat.le_max_left ..⟩

def numberDigits (bias place n : Nat) : List Char :=
  let t := threshold bias place
  if n < t then [digit n]
  else digit (t + (n - t) % (36 - t)) :: numberDigits bias (place + 36) ((n - t) / (36 - t))
termination_by n
decreasing_by
  have := one_le_threshold bias place
  exact Nat.lt_of_le_of_lt (Nat.div_le_self _ _) (by omega)

/-- A number from its digits, and the text behind it. `weight` is what the first digit counts. -/
def readNumber? (bias place weight : Nat) : List Char → Option (Nat × List Char)
  | [] => none
  | c :: rest =>
    match digitValue? c with
    | none => none
    | some d =>
      let t := threshold bias place
      if d < t then some (d * weight, rest)
      else
        (readNumber? bias (place + 36) (weight * (36 - t)) rest).map fun (n, rest) =>
          (d * weight + n, rest)

/-- Halves large numbers down to the size that the bias is made from, counting the steps. -/
def shrink (steps n : Nat) : Nat × Nat :=
  if 455 < n then shrink (steps + 36) (n / 35) else (steps, n)
termination_by n
decreasing_by exact Nat.div_lt_self (by omega) (by omega)

/-- The bias after a number, of which the first one counts less, for a text of `size` characters. -/
def adapted (isFirst : Bool) (size n : Nat) : Nat :=
  let n := if isFirst then n / 700 else n / 2
  let (steps, n) := shrink 0 (n + n / size)
  steps + 36 * n / (n + 38)

/-! ## The account -/

/-- Where reading and writing are: the next character that may be put in and the first place for
it, the bias of the next number, and whether that number is the first. -/
structure Account where
  code : Nat
  place : Nat
  bias : Nat
  isFirst : Bool

namespace Account

def start : Account := ⟨128, 0, 72, true⟩

/-- The number that says to put a character in, among `size` others. -/
def numberFor (a : Account) (size code place : Nat) : Nat :=
  (code - a.code) * (size + 1) + place - a.place

/-- The character and place that a number stands for. -/
def target (a : Account) (size n : Nat) : Nat × Nat :=
  (a.code + (a.place + n) / (size + 1), (a.place + n) % (size + 1))

/-- The account behind a number that put a character in. -/
def next (a : Account) (size n code place : Nat) : Account :=
  ⟨code, place + 1, adapted a.isFirst (size + 1) n, false⟩

end Account

/-! ## Writing -/

def isBasic (c : Char) : Bool :=
  c.toNat < 128

/-- The characters beyond ASCII in the order in which they are put in, each with the number of
characters that stand before it by then. -/
def insertions (cs : List Char) : List (Nat × Nat) :=
  ((cs.zipIdx.filter fun (c, _) => !isBasic c).mergeSort fun a b => a.1.toNat ≤ b.1.toNat).map
    fun (c, i) => (c.toNat, ((cs.take i).filter fun d => d.toNat ≤ c.toNat).length)

def insertionDigits (a : Account) (size : Nat) : List (Nat × Nat) → List Char
  | [] => []
  | (code, place) :: rest =>
    let n := a.numberFor size code place
    numberDigits a.bias 36 n ++ insertionDigits (a.next size n code place) (size + 1) rest

def encode (cs : List Char) : List Char :=
  let basic := cs.filter isBasic
  (if basic.isEmpty then [] else basic ++ ['-']) ++
    insertionDigits .start basic.length (insertions cs)

/-! ## Reading -/

/-- Puts the characters in that the numbers of a text say. The fuel bounds their count. -/
def insertAll (a : Account) (done : List Char) : (fuel : Nat) → List Char → Option (List Char)
  | _, [] => some done
  | 0, _ => none
  | fuel + 1, digits =>
    match readNumber? a.bias 36 1 digits with
    | none => none
    | some (n, rest) =>
      let (code, place) := a.target done.length n
      if code.isValidChar then
        let more := done.insertIdx place (Char.ofNat code)
        insertAll (a.next done.length n code place) more fuel rest
      else none

/-- The text of a written form, if it is one. The last hyphen parts the ASCII characters from the
numbers. -/
def decode? (cs : List Char) : Option (List Char) :=
  let digits := (cs.reverse.takeWhile (· ≠ '-')).reverse
  let basic := cs.take (cs.length - digits.length - 1)
  insertAll .start basic digits.length digits

end ContractAbi.Punycode
