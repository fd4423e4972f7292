import ContractAbi.Source.Basic

/-!
# Resolving selectors and topics

Sources are asked one after the other until one of them names a signature that hashes to the key.
Answers are remembered: a signature always, a miss only if every source gave an answer.
-/

namespace ContractAbi

namespace Resolver

def origin : String := "signatures"

abbrev Memo := List (String × Option Signature)

structure Lookup where
  signature : Option Signature
  /-- Every source that was asked gave an answer. -/
  answered : Bool
  /-- How many sources were asked. -/
  asked : Nat

/-- The candidates of a source, none where the source gives no answer. Failures are noted. -/
def query (source : SignatureSource) (kind : LookupKind) (key : String) :
    Traced (Option Value) := do
  match ← (source.candidates kind key).attempt with
  | .ok .null => return none
  | .ok v => return some v
  | .error (.timeout _) =>
    .note .warning origin (source.name ++ " timed out looking up " ++ key)
    return none
  | .error f@(.unavailable _ _) =>
    .note .warning origin f.message
    return none
  | .error f =>
    .note .warning origin (source.name ++ " failed looking up " ++ key ++ ": " ++ f.logged)
    return none

/-- The first candidate that is a signature and hashes to the key. A signature that cannot be hashed
ends the search. -/
def pick (source : String) (kind : LookupKind) (key : String) :
    List Value → Traced (Option Signature)
  | [] => .answer none
  | .text s :: rest => do
    match Signature.parse s with
    | .error f =>
      .note .debug origin ("Skipping unparsable signature from " ++ source ++ ": " ++ f.message)
      pick source kind key rest
    | .ok sig =>
      let computed ← .ofExcept (kind.hashed sig)
      if computed ≠ key then
        .note .warning origin ("Rejected " ++ Quoted.text s ++ " from " ++ source ++
          ": hashes to " ++ computed ++ ", expected " ++ key)
        pick source kind key rest
      else return some sig
  | v :: rest => do
    .note .debug origin ("Skipping non-text candidate from " ++ source ++ ": " ++ v.literalCut 80)
    pick source kind key rest

/-- Asks the sources in their order until one names a signature. -/
def search (kind : LookupKind) (key : String) : List SignatureSource → Traced Lookup
  | [] => .answer ⟨none, true, 0⟩
  | source :: rest => do
    match ← query source kind key with
    | none =>
      let found ← search kind key rest
      return { found with answered := false, asked := found.asked + 1 }
    | some candidates =>
      match ← pick source.name kind key (← .ofExcept candidates.toItems) with
      | some sig =>
        .note .debug origin (key ++ " resolved to " ++ sig.text ++ " by " ++ source.name)
        return ⟨some sig, true, 1⟩
      | none =>
        let found ← search kind key rest
        return { found with asked := found.asked + 1 }

namespace Memo

def known? (memo : Memo) (key : String) : Option (Option Signature) :=
  (memo.find? fun e => e.1 == key).map Prod.snd

def remember (memo : Memo) (key : String) (sig : Option Signature) : Memo :=
  if memo.any fun e => e.1 == key then
    memo.map fun e => if e.1 == key then (key, sig) else e
  else memo ++ [(key, sig)]

end Memo

/-- A signature is final, and a miss if every source gave an answer. -/
def Lookup.isFinal (l : Lookup) : Bool :=
  l.signature.isSome || l.answered

def resolve (sources : List SignatureSource) (kind : LookupKind) (key : String) :
    Session Memo (Option Signature) := do
  let memo ← .get
  match Memo.known? memo key with
  | some sig => return sig
  | none =>
    let found ← .lift (search kind key sources)
    if found.isFinal then .modify fun memo => Memo.remember memo key found.signature
    return found.signature

/-! ## Many keys at a time -/

/-- A lookup that is under way. -/
structure Flight where
  finish : Nat
  key : String
  found : Lookup

/-- Lookups under way and what those before them have left in the memo. Time counts the sources
that are asked, each for one step. -/
structure Schedule where
  now : Nat
  memo : Memo
  flights : List Flight

namespace Schedule

def land (memo : Memo) (f : Flight) : Memo :=
  if f.found.isFinal then Memo.remember memo f.key f.found.signature else memo

def advance (s : Schedule) (time : Nat) : Schedule :=
  let (done, left) := s.flights.partition fun f => f.finish ≤ time
  let done := done.mergeSort fun f g => f.finish ≤ g.finish
  ⟨time, done.foldl land s.memo, left⟩

def nextFinish (s : Schedule) : Nat :=
  (s.flights.map Flight.finish).foldl min ((s.flights.map Flight.finish).headD s.now)

/-- Waits until fewer than `limit` lookups are under way. -/
def makeRoom (limit : Nat) (s : Schedule) : Schedule :=
  if s.flights.length < limit then s else s.advance (max s.now s.nextFinish)

def finish (s : Schedule) : Memo :=
  (s.advance ((s.flights.map Flight.finish).foldl max s.now)).memo

end Schedule

/-- Looks keys up in their order, at most `limit` at a time. A lookup sees what the lookups that
ended before its start have left. All run to their end, also where one of them fails. -/
def schedule (sources : List SignatureSource) (kind : LookupKind) (limit : Nat) :
    List String → Session Schedule (List (Except Fault (Option Signature)))
  | [] => pure []
  | key :: rest => do
    .modify (Schedule.makeRoom limit)
    let s ← .get
    let sig ←
      match Memo.known? s.memo key with
      | some sig => pure (Except.ok sig)
      | none =>
        match ← .lift (search kind key sources).attempt with
        | .error f => pure (Except.error f)
        | .ok found =>
          let flight : Flight := ⟨s.now + found.asked, key, found⟩
          .modify fun s => { s with flights := s.flights ++ [flight] }
          pure (Except.ok found.signature)
    return sig :: (← schedule sources kind limit rest)

def resolveAll (sources : List SignatureSource) (kind : LookupKind) (limit : Int)
    (keys : List String) : Session Memo (List (Option Signature)) := do
  if limit < 0 then .fail (.malformed .negativeConcurrency)
  else
    let found ← fun memo =>
      let (t, s) := schedule sources kind limit.toNat keys ⟨0, memo, []⟩
      (t, s.finish)
    .ofExcept (found.mapM id)

def defaultLimit : Int := 8

structure Memory where
  functions : Memo
  events : Memo

def Memory.empty : Memory := ⟨[], []⟩

/-- A session over the memory of one kind of keys. -/
def within (kind : LookupKind) (x : Session Memo α) : Session Memory α :=
  match kind with
  | .function => .focus Memory.functions (fun memo m => { m with functions := memo }) x
  | .event => .focus Memory.events (fun memo m => { m with events := memo }) x

def resolveKey (sources : List SignatureSource) (kind : LookupKind) (key : Value) :
    Session Memory (Option Signature) := do
  let key ← .ofExcept (kind.normalize key)
  within kind (resolve sources kind key)

/-- The signatures of keys, beside the keys in their one spelling. -/
def resolveKeys (sources : List SignatureSource) (limit : Int) (kind : LookupKind)
    (keys : List Value) : Session Memory (List (String × Option Signature)) := do
  let keys ← .ofExcept (keys.mapM kind.normalize)
  return keys.zip (← within kind (resolveAll sources kind limit keys))

def applyFound (found : List (String × Option Signature)) (f : FunctionEntry) :
    Except Fault FunctionEntry :=
  match found.reverse.find? fun e => e.1 == f.selector with
  | some (_, some sig) => sig.applyTo f
  | _ => .ok f

/-- Names and types for functions of which only the selectors are known. Functions that no source
knows stay as they are. -/
def enrich (sources : List SignatureSource) (limit : Int) (functions : List FunctionEntry) :
    Session Memory (List FunctionEntry) := do
  let pending := (functions.filter fun f => !f.resolved).map fun f => Value.text f.selector
  let found ← resolveKeys sources limit .function pending
  let enriched ← .ofExcept (functions.mapM (applyFound found))
  let left := (enriched.filter fun f => !f.resolved).length
  if left ≠ 0 then
    .note .info origin (Integer.render left ++ " of " ++ Integer.render enriched.length ++
      " selectors left unresolved")
  return enriched

def resolveEvents (sources : List SignatureSource) (limit : Int) (topics : List Value) :
    Session Memory (List EventEntry) := do
  let found ← resolveKeys sources limit .event topics
  .ofExcept <| (found.filterMap fun (topic, sig) => sig.map fun s => (topic, s)).mapM
    fun (topic, sig) => sig.toEvent (.text topic)

end Resolver

end ContractAbi
