import ContractAbi.Interface.TypeText

/-!
# Parameters

Inputs and outputs of interface entries. A published parameter keeps the values of its fields as
they were published, whether or not they are texts. Tuples and components may be nested to any
depth: no stack bounds the recursion over them.
-/

namespace ContractAbi

/-- A parameter. The type of a tuple starts with the word `tuple`, and the types it is made of are
its components. -/
inductive Param where
  | mk (name type : Value) (components : Option (List Param)) (indexed internalType : Value)
  deriving Inhabited

namespace Param

def name : Param → Value
  | mk name _ _ _ _ => name

def type : Param → Value
  | mk _ type _ _ _ => type

def components : Param → Option (List Param)
  | mk _ _ components _ _ => components

def indexed : Param → Value
  | mk _ _ _ indexed _ => indexed

def tupleWord : List Char := "tuple".toList

/-! ## From signatures -/

/-- The parameter for a type of a signature. The fuel bounds the nesting of tuples. -/
def ofTypeNested : (fuel : Nat) → (name : Value) → (s : String) → (indexed : Value) →
    Except Fault Param
  | fuel, name, s, indexed =>
    let cs := TypeText.canonicalChars s.toList
    if cs.head? = some '(' then
      match fuel, TypeText.closing? cs 0 with
      | fuel + 1, some stop => do
        let types ← TypeText.splitChars ((cs.take stop).drop 1)
        let components ← types.mapM fun t =>
          ofTypeNested fuel (.text "") (String.ofList t) .null
        return mk name (.text (String.ofList (tupleWord ++ cs.drop (stop + 1)))) (some components)
          indexed .null
      | _, _ => .error (.malformed (.unbalancedTuple s))
    else .ok (mk name (.text (String.ofList cs)) none indexed .null)
termination_by structural fuel => fuel

/-- The parameter for a type of a signature such as `(address,uint256)[]`. -/
def ofType (name : Value) (s : String) (indexed : Value) : Except Fault Param :=
  ofTypeNested (s.length + 1) name s indexed

/-- Parameters named by a word and their place. -/
def ofTypes (word : String) (types : List String) : Except Fault (List Param) :=
  types.zipIdx.mapM fun (t, i) =>
    ofType (.text (word ++ Integer.render i)) t .null

/-! ## From published interfaces -/

mutual

def ofItem : Value → Except Fault Param
  | .object fields => do
    let components ← componentsOf fields
    let get name := (Value.lookup name fields).getD .null
    let name := get "name"
    return mk (if name.holds then name else .text "")
      ((Value.lookup "type" fields).getD (.text "")) components (get "indexed")
      (get "internalType")
  | v => .error (.noFields v "get")
termination_by structural v => v

/-- The components among the fields of a published parameter. -/
def componentsOf : List (String × Value) → Except Fault (Option (List Param))
  | [] => .ok none
  | f :: fs => do
    match ← componentsOfField f with
    | some found => return found
    | none => componentsOf fs
termination_by structural fs => fs

def componentsOfField : String × Value → Except Fault (Option (Option (List Param)))
  | (k, v) => if k = "components" then (componentsOfValue v).map some else .ok none
termination_by structural f => f

def componentsOfValue : Value → Except Fault (Option (List Param))
  | .null => .ok none
  | .list items => (ofItemList items).map some
  | .text s =>
    match Value.pointTexts s with
    | [] => .ok (some [])
    | p :: _ => .error (.noFields p "get")
  | .object fields =>
    match fields with
    | [] => .ok (some [])
    | f :: _ => .error (.noFields (.text f.1) "get")
  | .bytes bs =>
    match bs with
    | [] => .ok (some [])
    | b :: _ => .error (.noFields (.int b.toNat) "get")
  | v => .error (.misfit (.notIterable v))
termination_by structural v => v

def ofItemList : List Value → Except Fault (List Param)
  | [] => .ok []
  | v :: vs => do
    let p ← ofItem v
    let ps ← ofItemList vs
    return p :: ps
termination_by structural vs => vs

end

def ofItems (v : Value) : Except Fault (List Param) := do
  ofItemList (← v.toItemsIfHeld)

/-! ## Canonical types -/

mutual

def canonicalType : Param → Except Fault String
  | mk _ type components _ _ =>
    match type with
    | .text t =>
      if components.isSome && tupleWord.isPrefixOf t.toList then do
        let inner ← canonicalComponents components
        return "(" ++ ",".intercalate inner ++ ")" ++ String.ofList (t.toList.drop 5)
      else .ok (TypeText.canonical t)
    | v =>
      if components.isSome then .error (.noFields v "startswith")
      else .error (.misfit (.notText v))
termination_by structural p => p

def canonicalComponents : Option (List Param) → Except Fault (List String)
  | none => .ok []
  | some ps => canonicalTypes ps
termination_by structural ps => ps

def canonicalTypes : List Param → Except Fault (List String)
  | [] => .ok []
  | p :: ps => do
    let t ← canonicalType p
    let ts ← canonicalTypes ps
    return t :: ts
termination_by structural ps => ps

end

/-- A name and the types of its parameters, as hashes take it. -/
def signature (name : Value) (ps : List Param) : Except Fault String := do
  return TypeText.signature name.plain (← canonicalTypes ps)

/-! ## To published interfaces -/

mutual

def toItem : Param → Value
  | mk name type components indexed internalType =>
    .object ([("name", name), ("type", type)] ++
      (if internalType.holds then [("internalType", internalType)] else []) ++
      (match itemsOfComponents components with
        | some items => [("components", .list items)]
        | none => []) ++
      (if indexed.isNull then [] else [("indexed", indexed)]))
termination_by structural p => p

def itemsOfComponents : Option (List Param) → Option (List Value)
  | none => none
  | some ps => some (toItemList ps)
termination_by structural ps => ps

def toItemList : List Param → List Value
  | [] => []
  | p :: ps => toItem p :: toItemList ps
termination_by structural ps => ps

end

def toItems (ps : List Param) : Value :=
  .list (toItemList ps)

end Param

end ContractAbi
