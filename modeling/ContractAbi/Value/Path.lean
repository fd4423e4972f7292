import ContractAbi.Value.Access

/-!
# Paths into values

Looking up a value inside nested objects and lists, key after key.
-/

namespace ContractAbi.Value

/-- The item at an index, counted from the end where the index is negative. An index past the end
finds nothing; one before the start is out of range. -/
def itemAt (items : List Value) (index : Int) : Except Fault Value :=
  if 0 ≤ index then .ok (items[index.toNat]?.getD .null)
  else
    let place := items.length + index
    if place < 0 then .error .outOfRange
    else .ok (items[place.toNat]?.getD .null)

/-- One step of a path: a field of an object, or a part of a list, text or byte string by number. A
key of another sort finds nothing in them. -/
def step (v key : Value) : Except Fault Value :=
  match v, key with
  | object fields, text name => .ok ((lookup name fields).getD .null)
  | object _, _ => .ok .null
  | list items, int i => itemAt items i
  | text s, int i => itemAt (pointTexts s) i
  | bytes bs, int i => itemAt (bs.map fun b => .int b.toNat) i
  | v, int _ => .error (.misfit (.unsized v))
  | _, _ => .ok .null

/-- The value at the end of a path of one key or more. The path stops at a value that does not
hold and gives that value. -/
def atPath (v key : Value) : List Value → Except Fault Value
  | [] => step v key
  | key' :: keys => do
    let next ← step v key
    if next.holds then atPath next key' keys else return next

end ContractAbi.Value
