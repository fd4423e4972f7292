import ContractAbi.Number.Binary64

/-!
# Values

What services answer and what published interfaces are made of: JSON values, with byte strings
beside them. The fields of an object keep their order and have different names.
-/

namespace ContractAbi

inductive Value where
  | null
  | bool (b : Bool)
  | int (n : Int)
  | float (x : Binary64)
  | text (s : String)
  | bytes (bs : Bytes)
  | list (items : List Value)
  | object (fields : List (String × Value))
  deriving Repr, Inhabited

namespace Value

/-- Absent, false, zero and empty values do not hold. -/
def holds : Value → Bool
  | null => false
  | bool b => b
  | int n => n ≠ 0
  | float x => !x.isZero
  | text s => s ≠ ""
  | bytes bs => !bs.isEmpty
  | list items => !items.isEmpty
  | object fields => !fields.isEmpty

def isNull : Value → Bool
  | null => true
  | _ => false

def isText : Value → Bool
  | text _ => true
  | _ => false

def text? : Value → Option String
  | text s => some s
  | _ => none

/-- A whole number; truth values count as one and zero. -/
def int? : Value → Option Int
  | int n => some n
  | bool b => some (if b then 1 else 0)
  | _ => none

def lookup (key : String) (fields : List (String × Value)) : Option Value :=
  (fields.find? fun f => f.1 == key).map Prod.snd

/-- Puts a field in its place: over the field of that name, or behind the others. -/
def insert (key : String) (value : Value) (fields : List (String × Value)) :
    List (String × Value) :=
  if fields.any fun f => f.1 == key then
    fields.map fun f => if f.1 == key then (key, value) else f
  else fields ++ [(key, value)]

/-- Fields with different names: of fields of one name the last value, in the first place. -/
def ofFields (fields : List (String × Value)) : List (String × Value) :=
  fields.foldl (fun acc f => insert f.1 f.2 acc) []

/-! ## Equality -/

mutual

def decEq : (a b : Value) → Decidable (a = b)
  | null, null => isTrue rfl
  | bool a, bool b => decidable_of_iff (a = b) (by simp)
  | int a, int b => decidable_of_iff (a = b) (by simp)
  | float a, float b => decidable_of_iff (a = b) (by simp)
  | text a, text b => decidable_of_iff (a = b) (by simp)
  | bytes a, bytes b => decidable_of_iff (a = b) (by simp)
  | list a, list b =>
    letI := decEqItems a b
    decidable_of_iff (a = b) (by simp)
  | object a, object b =>
    letI := decEqFields a b
    decidable_of_iff (a = b) (by simp)
  | null, bool _ | null, int _ | null, float _ | null, text _ | null, bytes _ | null, list _
  | null, object _ => isFalse (by simp)
  | bool _, null | bool _, int _ | bool _, float _ | bool _, text _ | bool _, bytes _
  | bool _, list _ | bool _, object _ => isFalse (by simp)
  | int _, null | int _, bool _ | int _, float _ | int _, text _ | int _, bytes _ | int _, list _
  | int _, object _ => isFalse (by simp)
  | float _, null | float _, bool _ | float _, int _ | float _, text _ | float _, bytes _
  | float _, list _ | float _, object _ => isFalse (by simp)
  | text _, null | text _, bool _ | text _, int _ | text _, float _ | text _, bytes _
  | text _, list _ | text _, object _ => isFalse (by simp)
  | bytes _, null | bytes _, bool _ | bytes _, int _ | bytes _, float _ | bytes _, text _
  | bytes _, list _ | bytes _, object _ => isFalse (by simp)
  | list _, null | list _, bool _ | list _, int _ | list _, float _ | list _, text _
  | list _, bytes _ | list _, object _ => isFalse (by simp)
  | object _, null | object _, bool _ | object _, int _ | object _, float _ | object _, text _
  | object _, bytes _ | object _, list _ => isFalse (by simp)
termination_by structural a => a

def decEqItems : (as bs : List Value) → Decidable (as = bs)
  | [], [] => isTrue rfl
  | [], _ :: _ => isFalse (by simp)
  | _ :: _, [] => isFalse (by simp)
  | a :: as, b :: bs =>
    letI := decEq a b
    letI := decEqItems as bs
    decidable_of_iff (a = b ∧ as = bs) (by simp)
termination_by structural as => as

def decEqFields : (fs gs : List (String × Value)) → Decidable (fs = gs)
  | [], [] => isTrue rfl
  | [], _ :: _ => isFalse (by simp)
  | _ :: _, [] => isFalse (by simp)
  | f :: fs, g :: gs =>
    letI := decEqField f g
    letI := decEqFields fs gs
    decidable_of_iff (f = g ∧ fs = gs) (by simp)
termination_by structural fs => fs

def decEqField : (f g : String × Value) → Decidable (f = g)
  | (k, a), (l, b) =>
    letI := decEq a b
    decidable_of_iff (k = l ∧ a = b) (by simp)
termination_by structural f => f

end

instance : DecidableEq Value :=
  decEq

/-- One value for all numbers that are equal: truth values count as one and zero, and doubles
without a fraction as whole numbers. -/
def unified : Value → Value
  | bool b => int (if b then 1 else 0)
  | float x =>
    match x.whole? with
    | some n => int n
    | none => float x
  | v => v

/-- Equality where numbers of different sorts may be equal. -/
def same (a b : Value) : Bool :=
  a.unified == b.unified

def sort : Value → String
  | null => "NoneType"
  | bool _ => "bool"
  | int _ => "int"
  | float _ => "float"
  | text _ => "str"
  | bytes _ => "bytes"
  | list _ => "list"
  | object _ => "dict"

end Value

end ContractAbi
