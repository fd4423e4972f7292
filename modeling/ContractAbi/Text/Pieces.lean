/-!
# Pieces of text

Text taken apart at the characters that part it.
-/

namespace ContractAbi.Text

/-- The pieces between the characters that satisfy `p`: one more than there are such characters. -/
def pieces (p : Char → Bool) : List Char → List (List Char)
  | [] => [[]]
  | c :: rest =>
    if p c then [] :: pieces p rest
    else
      match pieces p rest with
      | first :: others => (c :: first) :: others
      | [] => [[c]]

/-- What stands in front of the last character that satisfies `p` and what behind it, or nothing in
front where there is none. -/
def cutAtLast? (p : Char → Bool) (cs : List Char) : Option (List Char) × List Char :=
  let behind := (cs.reverse.takeWhile (!p ·)).reverse
  if behind.length < cs.length then (some (cs.take (cs.length - behind.length - 1)), behind)
  else (none, cs)

end ContractAbi.Text
