/-!
# Blank characters

The characters that separate words in signatures, addresses and numbers, and how a text is
trimmed of them.
-/

namespace ContractAbi.Text

/-- White space of the Unicode standard, the four information separators included. -/
def isBlank (c : Char) : Bool :=
  let n := c.toNat
  (9 ≤ n && n ≤ 13) || (28 ≤ n && n ≤ 32) || n == 0x85 || n == 0xa0 || n == 0x1680 ||
    (0x2000 ≤ n && n ≤ 0x200a) || n == 0x2028 || n == 0x2029 || n == 0x202f ||
    n == 0x205f || n == 0x3000

/-- The six blank characters that may stand between pairs of hex digits. -/
def isAsciiBlank (c : Char) : Bool :=
  let n := c.toNat
  (9 ≤ n && n ≤ 13) || n == 32

def trimBy (p : Char → Bool) (cs : List Char) : List Char :=
  ((cs.dropWhile p).reverse.dropWhile p).reverse

def trim (cs : List Char) : List Char :=
  trimBy isBlank cs

def trimmed (s : String) : String :=
  String.ofList (trim s.toList)

def squeeze (cs : List Char) : List Char :=
  cs.filter fun c => !isBlank c

end ContractAbi.Text
