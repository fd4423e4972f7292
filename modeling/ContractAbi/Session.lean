import ContractAbi.Value.Access

/-!
# Sessions

Work that asks services and keeps notes. A traced computation gives its answer or failure together
with everything that happened on the way; a session also carries a state, which a failure leaves as
it was at that moment.
-/

namespace ContractAbi

inductive Level where
  | debug
  | info
  | warning
  deriving Repr, DecidableEq

namespace Level

def text : Level → String
  | debug => "DEBUG"
  | info => "INFO"
  | warning => "WARNING"

def rank : Level → Nat
  | debug => 0
  | info => 1
  | warning => 2

end Level

/-- A question to a service outside. -/
inductive Request where
  | code (address : String)
  | storage (address : String) (slot : Int)
  | call (address : String) (data : Bytes)
  | chainId
  | lookup (source selector : String)
  | lookupEvent (source topic : String)
  | fetch (loader : String) (address chain : Value)
  | get (url agent : String)
  | connect (url : String)

/-- Something that happened during a session. -/
inductive Event where
  | request (r : Request)
  | notice (level : Level) (origin text : String)
  /-- The interface of an address is put together, this many delegations below the first. -/
  | entered (address : String) (depth : Nat)
  /-- A result is put into the cache. -/
  | stored

/-- The answer or failure of a computation, and what happened on the way. -/
structure Traced (α : Type) where
  result : Except Fault α
  events : List Event

namespace Traced

def answer (a : α) : Traced α :=
  ⟨.ok a, []⟩

def fail (f : Fault) : Traced α :=
  ⟨.error f, []⟩

def ofExcept (r : Except Fault α) : Traced α :=
  ⟨r, []⟩

/-- The computation with more events in front. -/
def after (events : List Event) (t : Traced α) : Traced α :=
  ⟨t.result, events ++ t.events⟩

def bind (t : Traced α) (f : α → Traced β) : Traced β :=
  match t.result with
  | .ok a => (f a).after t.events
  | .error e => ⟨.error e, t.events⟩

instance : Monad Traced where
  pure := answer
  bind := bind

instance : LawfulMonad Traced :=
  .mk' Traced
    (fun ⟨r, es⟩ => by cases r <;> simp [Functor.map, bind, answer, after])
    (fun a f => by simp [Bind.bind, Pure.pure, bind, answer, after])
    (fun ⟨r, es⟩ f g => by
      cases r with
      | error e => rfl
      | ok a =>
        simp only [Bind.bind, bind, after]
        cases (f a).result <;> simp)

def attempt (t : Traced α) : Traced (Except Fault α) :=
  ⟨.ok t.result, t.events⟩

def ask (r : Request) : Traced Unit :=
  ⟨.ok (), [.request r]⟩

def note (level : Level) (origin text : String) : Traced Unit :=
  ⟨.ok (), [.notice level origin text]⟩

end Traced

/-- A traced computation over a state. -/
def Session (σ α : Type) : Type :=
  σ → Traced α × σ

namespace Session

def run (x : Session σ α) (s : σ) : Traced α × σ :=
  x s

def bind (x : Session σ α) (f : α → Session σ β) : Session σ β := fun s =>
  let (t, s) := x s
  match t.result with
  | .ok a =>
    let (u, s) := f a s
    (u.after t.events, s)
  | .error e => (⟨.error e, t.events⟩, s)

instance : Monad (Session σ) where
  pure a := fun s => (.answer a, s)
  bind := bind

instance : LawfulMonad (Session σ) :=
  .mk' (Session σ)
    (fun x => by
      funext s
      rcases h : x s with ⟨⟨r, es⟩, s'⟩
      cases r <;> simp [Functor.map, bind, h, Traced.answer, Traced.after, Function.comp])
    (fun a f => by
      funext s
      simp [Bind.bind, Pure.pure, bind, Traced.answer, Traced.after])
    (fun x f g => by
      funext s
      rcases h : x s with ⟨⟨r, es⟩, s'⟩
      cases r with
      | error e => simp [Bind.bind, bind, h]
      | ok a =>
        rcases h' : f a s' with ⟨⟨r', es'⟩, s''⟩
        cases r' <;> simp [Bind.bind, bind, h, h', Traced.after])

/-- A computation that leaves the state alone. -/
def lift (t : Traced α) : Session σ α := fun s =>
  (t, s)

def fail (f : Fault) : Session σ α :=
  lift (.fail f)

def ofExcept (r : Except Fault α) : Session σ α :=
  lift (.ofExcept r)

def get : Session σ σ := fun s =>
  (.answer s, s)

def modify (f : σ → σ) : Session σ Unit := fun s =>
  (.answer (), f s)

def attempt (x : Session σ α) : Session σ (Except Fault α) := fun s =>
  let (t, s) := x s
  (t.attempt, s)

def note (level : Level) (origin text : String) : Session σ Unit :=
  lift (.note level origin text)

/-- A session over a part of the state. -/
def focus (part : σ → τ) (replace : τ → σ → σ) (x : Session τ α) : Session σ α := fun s =>
  let (t, u) := x (part s)
  (t, replace u s)

end Session

end ContractAbi
