import ContractAbi.Proofs.Resolver.Schedule

/-!
# What a resolver says over its life

The memory of a resolver says something of every selector and every topic. Functions and events are
put together from what it says alone, and none of the resolver's operations changes that.

* `result_resolveKeys`, `result_enrich` and `result_resolveEvents`: answers, from what is said;
* `tells_resolveKeys`, `tells_enrich` and `tells_resolveEvents`: what is said stays as it was.
-/

namespace ContractAbi.Resolver

variable {sources : List SignatureSource}

def Memory.memo (m : Memory) : LookupKind → Memo
  | .function => m.functions
  | .event => m.events

def tells (sources : List SignatureSource) (m : Memory) (kind : LookupKind) (key : String) :
    Except Fault (Option Signature) :=
  view sources kind (m.memo kind) key

theorem result_within {α : Type} (kind : LookupKind) (x : Session Memo α) (m : Memory) :
    (within kind x m).1.result = (x (m.memo kind)).1.result := by
  cases kind <;> rfl

theorem memo_within {α : Type} (kind other : LookupKind) (x : Session Memo α) (m : Memory) :
    (within kind x m).2.memo other =
      if kind = other then (x (m.memo kind)).2 else m.memo other := by
  cases kind <;> cases other <;> rfl

theorem keeps_within {α : Type} {kind : LookupKind} {x : Session Memo α}
    (h : x.Keeps (view sources kind)) : (within kind x).Keeps (tells sources) := by
  intro m
  funext other key
  unfold tells
  rw [memo_within]
  by_cases hkind : kind = other
  · subst hkind
    rw [if_pos rfl, h]
  · rw [if_neg hkind]

/-! ## Keys -/

def signatures (say : LookupKind → String → Except Fault (Option Signature)) (limit : Int)
    (kind : LookupKind) (keys : List Value) : Except Fault (List (String × Option Signature)) := do
  let keys ← keys.mapM kind.normalize
  if limit < 0 then .error (.malformed .negativeConcurrency)
  else return keys.zip (← keys.mapM (say kind))

theorem result_resolveKeys (limit : Int) (kind : LookupKind) (keys : List Value) (m : Memory) :
    (resolveKeys sources limit kind keys m).1.result =
      signatures (tells sources m) limit kind keys := by
  unfold resolveKeys signatures
  rw [Session.result_bind, Session.result_ofExcept, Session.state_ofExcept]
  refine congrArg (keys.mapM kind.normalize >>= ·) (funext fun keys => ?_)
  rw [Session.result_bind, result_within, result_resolveAll]
  split <;> rfl

theorem tells_resolveKeys (limit : Int) (kind : LookupKind) (keys : List Value) :
    (resolveKeys sources limit kind keys).Keeps (tells sources) :=
  (Session.keeps_lift _ _).bind fun keys =>
    (keeps_within (view_resolveAll limit · keys)).bind fun _ => Session.keeps_pure _ _

theorem tells_resolveKey (kind : LookupKind) (key : Value) :
    (resolveKey sources kind key).Keeps (tells sources) :=
  (Session.keeps_lift _ _).bind fun key => keeps_within (view_resolve · key)

/-! ## Functions and events -/

def pending (functions : List FunctionEntry) : List Value :=
  (functions.filter fun f => !f.resolved).map fun f => .text f.selector

def enriched (say : LookupKind → String → Except Fault (Option Signature)) (limit : Int)
    (functions : List FunctionEntry) : Except Fault (List FunctionEntry) := do
  let found ← signatures say limit .function (pending functions)
  functions.mapM (applyFound found)

def eventsOf (say : LookupKind → String → Except Fault (Option Signature)) (limit : Int)
    (topics : List Value) : Except Fault (List EventEntry) := do
  let found ← signatures say limit .event topics
  (found.filterMap fun (topic, sig) => sig.map fun s => (topic, s)).mapM
    fun (topic, sig) => sig.toEvent (.text topic)

theorem result_enrich (limit : Int) (functions : List FunctionEntry) (m : Memory) :
    (enrich sources limit functions m).1.result =
      enriched (tells sources m) limit functions := by
  unfold enrich enriched
  rw [Session.result_bind, result_resolveKeys]
  refine congrArg (signatures _ limit .function (pending functions) >>= ·)
    (funext fun found => ?_)
  rw [Session.result_bind, Session.result_ofExcept]
  cases functions.mapM (applyFound found) with
  | error f => rfl
  | ok functions =>
      rw [Except.ok_bind]
      split <;> rfl

theorem tells_enrich (limit : Int) (functions : List FunctionEntry) :
    (enrich sources limit functions).Keeps (tells sources) := by
  refine (tells_resolveKeys limit .function _).bind fun found => ?_
  refine (Session.keeps_lift _ _).bind fun functions => ?_
  dsimp only
  split
  · exact (Session.keeps_lift _ _).bind fun _ => Session.keeps_pure _ _
  · exact Session.keeps_pure _ _

theorem result_resolveEvents (limit : Int) (topics : List Value) (m : Memory) :
    (resolveEvents sources limit topics m).1.result =
      eventsOf (tells sources m) limit topics := by
  unfold resolveEvents eventsOf
  rw [Session.result_bind, result_resolveKeys]
  rfl

theorem tells_resolveEvents (limit : Int) (topics : List Value) :
    (resolveEvents sources limit topics).Keeps (tells sources) :=
  (tells_resolveKeys limit .event topics).bind fun _ => Session.keeps_lift _ _

end ContractAbi.Resolver
