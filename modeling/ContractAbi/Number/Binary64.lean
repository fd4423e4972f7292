import ContractAbi.Number.Integer

/-!
# Binary floating point numbers

Doubles as exact values: a sign, a whole significand and a power of two. Rounding goes to the
nearest double and a tie to the even significand; the text of a double has the fewest digits that
read back as the same double.
-/

namespace ContractAbi

/-- A double. A finite one is `± significand * 2 ^ exponent`, with the significand below `2 ^ 53`
and the exponent at least `-1074`. -/
inductive Binary64 where
  | nan
  | infinite (negative : Bool)
  | finite (negative : Bool) (significand : Nat) (exponent : Int)
  deriving Repr, DecidableEq, Inhabited

namespace Binary64

def zero : Binary64 := .finite false 0 (-1074)

/-- The quotient to the nearest whole number, a tie to the even one. -/
def divideRounding (num den : Nat) : Nat :=
  let q := num / den
  let r := num % den
  if 2 * r < den then q
  else if den < 2 * r then q + 1
  else q + q % 2

/-- `num * 2 ^ e / den` as a fraction of naturals. -/
def scaled (num den : Nat) (e : Int) : Nat × Nat :=
  if 0 ≤ e then (num * Nat.pow 2 e.toNat, den) else (num, den * Nat.pow 2 (-e).toNat)

/-- The power of two that leaves a 53-bit whole part of `num / den`, or the least there is. -/
def exponentFor (num den : Nat) : Int :=
  let guess : Int := (Nat.log2 num : Int) - Nat.log2 den - 52
  let (n, d) := scaled num den (-guess)
  let exact := if n / d < Nat.pow 2 52 then guess - 1 else guess
  max exact (-1074)

/-- The double nearest to `± num / den`. -/
def ofFraction (negative : Bool) (num den : Nat) : Binary64 :=
  if num = 0 then .finite negative 0 (-1074)
  else
    let e := exponentFor num den
    let (n, d) := scaled num den (-e)
    let m := divideRounding n d
    let (m, e) := if m = Nat.pow 2 53 then (Nat.pow 2 52, e + 1) else (m, e)
    if 971 < e then .infinite negative else .finite negative m e

def ofInt (n : Int) : Binary64 :=
  ofFraction (n < 0) n.natAbs 1

/-- The double nearest to `± digits * 10 ^ e`. -/
def ofDecimal (negative : Bool) (digits : Nat) (e : Int) : Binary64 :=
  if digits = 0 then .finite negative 0 (-1074)
  else
    let size : Int := (Nat.toDigits 10 digits).length + e
    if 310 < size then .infinite negative
    else if size < -330 then .finite negative 0 (-1074)
    else if 0 ≤ e then ofFraction negative (digits * Nat.pow 10 e.toNat) 1
    else ofFraction negative digits (Nat.pow 10 (-e).toNat)

/-- The signed numerator and the denominator of a finite double. -/
def toFraction (negative : Bool) (m : Nat) (e : Int) : Int × Nat :=
  let (n, d) := scaled m 1 e
  (if negative then -(n : Int) else n, d)

def neg : Binary64 → Binary64
  | nan => nan
  | infinite s => infinite (!s)
  | finite s m e => finite (!s) m e

def add : Binary64 → Binary64 → Binary64
  | nan, _ | _, nan => nan
  | infinite a, infinite b => if a = b then infinite a else nan
  | infinite a, finite .. => infinite a
  | finite .., infinite b => infinite b
  | finite s m e, finite t k f =>
    let (n, d) := toFraction s m e
    let (p, q) := toFraction t k f
    let sum := n * q + p * d
    if sum = 0 then finite (s && t) 0 (-1074) else ofFraction (sum < 0) sum.natAbs (d * q)

def sub (a b : Binary64) : Binary64 :=
  a.add b.neg

/-- The order of doubles; nothing is below or above a value that is no number. -/
def le : Binary64 → Binary64 → Bool
  | nan, _ | _, nan => false
  | infinite true, _ => true
  | _, infinite false => true
  | infinite false, _ => false
  | _, infinite true => false
  | finite s m e, finite t k f =>
    let (n, d) := toFraction s m e
    let (p, q) := toFraction t k f
    n * q ≤ p * d

def isZero : Binary64 → Bool
  | finite _ m _ => m = 0
  | _ => false

/-- The whole part, toward zero, of a finite double. -/
def truncate? : Binary64 → Option Int
  | finite s m e =>
    let (n, d) := scaled m 1 e
    some (if s then -((n / d : Nat) : Int) else (n / d : Nat))
  | _ => none

def whole? : Binary64 → Option Int
  | finite s m e =>
    let (n, d) := scaled m 1 e
    if n % d = 0 then some (if s then -((n / d : Nat) : Int) else (n / d : Nat)) else none
  | _ => none

/-! ## Text -/

def readsBack (m : Nat) (e : Int) (digits : Nat) (exp10 : Int) : Bool :=
  ofDecimal false digits exp10 == .finite false m e

/-- The number of decimal digits in front of the point, at most zero for a fraction that starts
with zeros. -/
def decimalSize (num den : Nat) : Int :=
  if den ≤ num then (Nat.toDigits 10 (num / den)).length
  else
    let inverse := (Nat.toDigits 10 ((den - 1) / num)).length
    let small : Int := -(inverse : Int)
    if den ≤ num * Nat.pow 10 inverse then small + 1 else small

/-- `num / den` in units of `10 ^ exp10`, as a fraction. -/
def onGrid (num den : Nat) (exp10 : Int) : Nat × Nat :=
  if 0 ≤ exp10 then (num, den * Nat.pow 10 exp10.toNat)
  else (num * Nat.pow 10 (-exp10).toNat, den)

/-- Of the two neighbours of the double on a decimal grid, the one that reads back; of two that
do, the nearer, and the even one of a tie. -/
def neighbour? (m : Nat) (e : Int) (num den : Nat) (exp10 : Int) : Option Nat :=
  let (n, d) := onGrid num den exp10
  let low := n / d
  match readsBack m e low exp10, readsBack m e (low + 1) exp10 with
  | true, true => some (divideRounding n d)
  | true, false => some low
  | false, true => some (low + 1)
  | false, false => none

/-- The first grid, from `count` digits on, with a neighbour that reads back. Seventeen digits
always have one. -/
def searchShortest (m : Nat) (e : Int) (num den : Nat) (size : Int) :
    (tries count : Nat) → Nat × Int
  | 0, count =>
    let exp10 := size - count
    let (n, d) := onGrid num den exp10
    (divideRounding n d, exp10)
  | tries + 1, count =>
    match neighbour? m e num den (size - count) with
    | some digits => (digits, size - count)
    | none => searchShortest m e num den size tries (count + 1)

/-- The fewest digits that read back as the double, and the place of the decimal point. -/
def shortest (m : Nat) (e : Int) : List Char × Int :=
  let (num, den) := scaled m 1 e
  let (digits, exp10) := searchShortest m e num den (decimalSize num den) 16 1
  let ds := Nat.toDigits 10 digits
  let point := exp10 + ds.length
  let kept := (ds.reverse.dropWhile (· == '0')).reverse
  (if kept.isEmpty then ['0'] else kept, point)

/-- Digits in positional form while the point falls within sixteen digits or at most four zeros
behind the point, else in exponent form. -/
def layOut (ds : List Char) (point : Int) : List Char :=
  if -4 < point ∧ point ≤ 16 then
    if point ≤ 0 then ['0', '.'] ++ List.replicate (-point).toNat '0' ++ ds
    else
      let n := point.toNat
      if ds.length ≤ n then ds ++ List.replicate (n - ds.length) '0' ++ ['.', '0']
      else ds.take n ++ ['.'] ++ ds.drop n
  else
    let e := point - 1
    let size := Nat.toDigits 10 e.natAbs
    let padded := if size.length < 2 then '0' :: size else size
    let fraction := if ds.length ≤ 1 then [] else '.' :: ds.drop 1
    ds.take 1 ++ fraction ++ ['e', if e < 0 then '-' else '+'] ++ padded

def renderFinite (negative : Bool) (m : Nat) (e : Int) : String :=
  let body := if m = 0 then ['0', '.', '0'] else
    let (ds, point) := shortest m e
    layOut ds point
  String.ofList (if negative then '-' :: body else body)

def render : Binary64 → String
  | nan => "nan"
  | infinite false => "inf"
  | infinite true => "-inf"
  | finite s m e => renderFinite s m e

/-! ## Reading -/

/-- Digits with single underscores between them, if there are any at all; what follows is left. -/
def spanDigits (cs : List Char) : List Char × List Char :=
  (cs.takeWhile Char.isDigit, cs.dropWhile Char.isDigit)

def digitsValue (cs : List Char) : Nat :=
  cs.foldl (fun n c => 10 * n + (c.toNat - 48)) 0

/-- The exponent part behind a decimal, zero if there is none. -/
def readExponent? : List Char → Option Int
  | [] => some 0
  | c :: rest =>
    if c = 'e' ∨ c = 'E' then
      let (negative, ds) := match rest with
        | '-' :: ds => (true, ds)
        | '+' :: ds => (false, ds)
        | ds => (false, ds)
      if ds.isEmpty || !ds.all Char.isDigit then none
      else some (if negative then -(digitsValue ds : Int) else digitsValue ds)
    else none

def readMagnitude? (negative : Bool) (cs : List Char) : Option Binary64 :=
  let (whole, rest) := spanDigits cs
  let (fraction, rest) := match rest with
    | '.' :: rest => spanDigits rest
    | rest => ([], rest)
  if whole.isEmpty && fraction.isEmpty then none
  else (readExponent? rest).map fun e =>
    ofDecimal negative (digitsValue (whole ++ fraction)) (e - fraction.length)

/-- Underscores stand only between two digits. -/
def underscoresPlaced : (before : Option Char) → List Char → Bool
  | _, [] => true
  | before, '_' :: rest =>
    (before.any Char.isDigit) && (rest.head?.any Char.isDigit) && underscoresPlaced (some '_') rest
  | _, c :: rest => underscoresPlaced (some c) rest

/-- The double that a text spells, if it spells one: a decimal, or a word for infinity or for a
value that is no number. -/
def read? (s : String) : Option Binary64 :=
  let cs := Text.trimBy Text.isAsciiBlank (Integer.simplify s.toList)
  let (negative, body) := match cs with
    | '-' :: rest => (true, rest)
    | '+' :: rest => (false, rest)
    | rest => (false, rest)
  let word := String.ofList (body.map Char.toLower)
  if word = "inf" ∨ word = "infinity" then some (.infinite negative)
  else if word = "nan" then some .nan
  else if underscoresPlaced none cs then
    readMagnitude? negative (body.filter (· ≠ '_'))
  else none

end Binary64

end ContractAbi
