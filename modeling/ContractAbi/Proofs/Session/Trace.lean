import ContractAbi.Proofs.Session.Run

/-!
# What happens during sessions

Everything that happens before a failure has happened, so the events of a run are told apart from
its result.

* `Traced.events_bind` and `Session.events_bind`: events come one after the other;
* `Traced.Asks` and `Session.Asks`: which questions are asked, with one rule for each way to build a
  computation;
* `Session.Leads`: what the events of a run and its states have to do with each other;
* `Session.Runs` and `Session.Yields`: what the events of a run and its outcome have to do with each
  other;
* `Session.run_bind_of_answer`: a session that goes on after an answer, nothing having happened.
-/

namespace ContractAbi

namespace Traced

variable {α β : Type}

@[simp] theorem events_answer (a : α) : (answer a).events = [] := rfl

@[simp] theorem events_pure (a : α) : (pure a : Traced α).events = [] := rfl

@[simp] theorem events_fail (f : Fault) : (fail f : Traced α).events = [] := rfl

@[simp] theorem events_ofExcept (r : Except Fault α) : (ofExcept r).events = [] := rfl

@[simp] theorem events_attempt (t : Traced α) : t.attempt.events = t.events := rfl

@[simp] theorem events_note (level : Level) (origin text : String) :
    (note level origin text).events = [.notice level origin text] := rfl

theorem events_bind (t : Traced α) (f : α → Traced β) :
    (t >>= f).events = t.events ++ (t.result.toOption.map fun a => (f a).events).getD [] := by
  change (t.bind f).events = _
  unfold bind
  cases t.result <;> simp [Except.toOption, after]

theorem mem_events_bind_iff {t : Traced α} {f : α → Traced β} {e : Event} :
    e ∈ (t >>= f).events ↔ e ∈ t.events ∨ ∃ a, t.result = .ok a ∧ e ∈ (f a).events := by
  rw [events_bind, List.mem_append]
  cases t.result <;> simp [Except.toOption]

theorem mem_events_bind_left {t : Traced α} {f : α → Traced β} {e : Event} (h : e ∈ t.events) :
    e ∈ (t >>= f).events :=
  mem_events_bind_iff.2 (.inl h)

theorem mem_events_bind_right {t : Traced α} {f : α → Traced β} {e : Event} {a : α}
    (ha : t.result = .ok a) (h : e ∈ (f a).events) : e ∈ (t >>= f).events :=
  mem_events_bind_iff.2 (.inr ⟨a, ha, h⟩)

theorem events_mapM_of_answers {f : α → Traced β} {g : α → β} {xs : List α}
    (h : ∀ x ∈ xs, (f x).result = .ok (g x)) :
    (xs.mapM f).events = xs.flatMap fun x => (f x).events := by
  induction xs with
  | nil => rfl
  | cons x rest ih =>
      have hrest := ih fun y hy => h y (List.mem_cons_of_mem _ hy)
      rw [List.mapM_cons, events_bind, h x List.mem_cons_self, List.flatMap_cons, ← hrest]
      refine congrArg ((f x).events ++ ·) ?_
      change (rest.mapM f >>= _).events = _
      rw [events_bind]
      cases (rest.mapM f).result <;> simp [Except.toOption]

end Traced

/-! ## Questions -/

def Event.AsksOnly (R : Request → Prop) : Event → Prop
  | .request r => R r
  | .notice .. => True
  | .entered .. => False
  | .stored => False

namespace Traced

variable {α β : Type} {R : Request → Prop}

def Asks (R : Request → Prop) (t : Traced α) : Prop :=
  ∀ e ∈ t.events, e.AsksOnly R

theorem asks_of_events_nil {t : Traced α} (h : t.events = []) : t.Asks R := by
  intro e he
  rw [h] at he
  exact absurd he List.not_mem_nil

theorem asks_pure (a : α) : (pure a : Traced α).Asks R := asks_of_events_nil rfl

theorem asks_answer (a : α) : (answer a).Asks R := asks_of_events_nil rfl

theorem asks_fail (f : Fault) : (fail f : Traced α).Asks R := asks_of_events_nil rfl

theorem asks_ofExcept (r : Except Fault α) : (ofExcept r).Asks R := asks_of_events_nil rfl

theorem asks_note (level : Level) (origin text : String) : (note level origin text).Asks R := by
  intro e he
  obtain rfl := List.mem_singleton.1 he
  trivial

theorem Asks.attempt {t : Traced α} (h : t.Asks R) : t.attempt.Asks R := h

theorem events_bind_of_asks (t : Traced α) {f : α → Traced β} (hf : ∀ a, (f a).Asks R) :
    ∃ rest, (t >>= f).events = t.events ++ rest ∧ ∀ e ∈ rest, e.AsksOnly R := by
  refine ⟨_, events_bind t f, fun e he => ?_⟩
  cases hresult : t.result with
  | error g => simp [hresult, Except.toOption] at he
  | ok a =>
      rw [hresult] at he
      exact hf a e he

theorem Asks.bind {t : Traced α} {f : α → Traced β} (ht : t.Asks R) (hf : ∀ a, (f a).Asks R) :
    (t >>= f).Asks R := by
  obtain ⟨rest, hevents, hrest⟩ := events_bind_of_asks t hf
  intro e he
  rw [hevents] at he
  exact (List.mem_append.1 he).elim (ht e) (hrest e)

theorem asks_ofExcept_bind {r : Except Fault α} {f : α → Traced β}
    (h : ∀ a, r = .ok a → (f a).Asks R) : (ofExcept r >>= f).Asks R := by
  cases r with
  | error f => exact asks_fail f
  | ok a => exact h a rfl

theorem Asks.mapM {f : α → Traced β} {xs : List α} (h : ∀ x ∈ xs, (f x).Asks R) :
    (xs.mapM f).Asks R := by
  induction xs with
  | nil => exact asks_pure []
  | cons x rest ih =>
      rw [List.mapM_cons]
      refine (h x List.mem_cons_self).bind fun y => ?_
      exact (ih fun z hz => h z (List.mem_cons_of_mem _ hz)).bind fun ys => asks_pure _

end Traced

namespace Session

variable {σ τ α β : Type}

theorem events_bind (x : Session σ α) (f : α → Session σ β) (s : σ) :
    ((x >>= f) s).1.events = (x s).1.events ++
      ((x s).1.result.toOption.map fun a => (f a (x s).2).1.events).getD [] := by
  change (Session.bind x f s).1.events = _
  unfold Session.bind
  cases h : (x s).1.result <;> simp [h, Except.toOption, Traced.after]

theorem events_bind_of_ok {x : Session σ α} {s : σ} {a : α} (f : α → Session σ β)
    (h : (x s).1.result = .ok a) :
    ((x >>= f) s).1.events = (x s).1.events ++ (f a (x s).2).1.events := by
  rw [events_bind, h]
  rfl

/-! ## Questions -/

variable {R : Request → Prop}

def Asks (R : Request → Prop) (x : Session σ α) : Prop :=
  ∀ s, (x s).1.Asks R

theorem asks_pure (a : α) : (pure a : Session σ α).Asks R := fun _ => Traced.asks_answer a

theorem asks_lift {t : Traced α} (h : t.Asks R) : (lift t : Session σ α).Asks R := fun _ => h

theorem asks_ofExcept (r : Except Fault α) : (ofExcept r : Session σ α).Asks R :=
  asks_lift (Traced.asks_ofExcept r)

theorem asks_note (level : Level) (origin text : String) :
    (note level origin text : Session σ Unit).Asks R :=
  asks_lift (Traced.asks_note level origin text)

theorem asks_fail (f : Fault) : (fail f : Session σ α).Asks R := asks_lift (Traced.asks_fail f)

theorem asks_get : (get : Session σ σ).Asks R := fun s => Traced.asks_answer s

theorem asks_modify (f : σ → σ) : (modify f).Asks R := fun _ => Traced.asks_answer ()

theorem events_bind_of_asks (x : Session σ α) {f : α → Session σ β} (hf : ∀ a, (f a).Asks R)
    (s : σ) :
    ∃ rest, ((x >>= f) s).1.events = (x s).1.events ++ rest ∧ ∀ e ∈ rest, e.AsksOnly R := by
  refine ⟨_, events_bind x f s, fun e he => ?_⟩
  cases hresult : (x s).1.result with
  | error g => simp [hresult, Except.toOption] at he
  | ok a =>
      rw [hresult] at he
      exact hf a _ e he

theorem Asks.bind {x : Session σ α} {f : α → Session σ β} (hx : x.Asks R)
    (hf : ∀ a, (f a).Asks R) : (x >>= f).Asks R := by
  intro s e he
  obtain ⟨rest, hevents, hrest⟩ := events_bind_of_asks x hf s
  rw [hevents] at he
  exact (List.mem_append.1 he).elim (hx s e) (hrest e)

theorem Asks.focus {part : σ → τ} {replace : τ → σ → σ} {x : Session τ α} (h : x.Asks R) :
    (Session.focus part replace x).Asks R :=
  fun s => h (part s)

theorem asks_lift_bind {t : Traced α} {f : α → Session σ β} (ht : t.Asks R)
    (hf : ∀ a, t.result = .ok a → (f a).Asks R) : (lift t >>= f).Asks R := by
  intro s e he
  rw [events_bind] at he
  rcases List.mem_append.1 he with he | he
  · exact ht e he
  · cases hresult : t.result with
    | error g => simp [hresult, Except.toOption] at he
    | ok a =>
        rw [result_lift, hresult] at he
        exact hf a hresult _ e he

theorem asks_ofExcept_bind {r : Except Fault α} {f : α → Session σ β}
    (h : ∀ a, r = .ok a → (f a).Asks R) : (ofExcept r >>= f).Asks R :=
  asks_lift_bind (Traced.asks_ofExcept r) h

/-! ## From state to state -/

/-- From the state, the session leads with its events to a state as `T` says, also where it
fails. -/
def Leads (T : σ → List Event → σ → Prop) (x : Session σ α) (s : σ) : Prop :=
  T s (x s).1.events (x s).2

theorem Leads.bind {T T' T'' : σ → List Event → σ → Prop} {x : Session σ α}
    {f : α → Session σ β} {s : σ}
    (happend : ∀ {es t es' u}, T s es t → T' t es' u → T'' s (es ++ es') u)
    (hnone : ∀ t, T' t [] t) (hx : x.Leads T s)
    (hf : ∀ a, (x s).1.result = .ok a → (f a).Leads T' (x s).2) : (x >>= f).Leads T'' s := by
  unfold Leads
  rw [events_bind, state_bind]
  cases hresult : (x s).1.result with
  | error e => exact happend hx (hnone _)
  | ok a => exact happend hx (hf a hresult)

/-! ## What happens and what comes of it -/

/-- From the state, what happens in the session and its outcome are as `T` says. -/
def Runs (T : List Event → Except Fault α → Prop) (x : Session σ α) (s : σ) : Prop :=
  T (x s).1.events (x s).1.result

theorem Runs.bind {T : List Event → Except Fault α → Prop} {T' : List Event → Except Fault β → Prop}
    {x : Session σ α} {f : α → Session σ β} {s : σ} (hx : x.Runs T s)
    (herror : ∀ es e, T es (.error e) → T' es (.error e))
    (hf : ∀ es a, T es (.ok a) → (x s).1.result = .ok a →
      (f a).Runs (fun es' r => T' (es ++ es') r) (x s).2) :
    (x >>= f).Runs T' s := by
  unfold Runs at hx ⊢
  rw [events_bind, result_bind]
  cases hresult : (x s).1.result with
  | error e =>
      rw [hresult] at hx
      simpa [Except.toOption] using herror _ e hx
  | ok a =>
      rw [hresult] at hx
      exact hf _ a hx hresult

def Yields (T : List Event → α → Prop) (x : Session σ α) (s : σ) : Prop :=
  x.Runs (fun es r => ∀ a, r = .ok a → T es a) s

theorem yields_pure {T : List Event → α → Prop} {a : α} (h : T [] a) (s : σ) :
    (pure a : Session σ α).Yields T s := by
  intro b hb
  obtain rfl := Except.ok.inj hb
  exact h

theorem Yields.bind {T : List Event → α → Prop} {T' : List Event → β → Prop} {x : Session σ α}
    {f : α → Session σ β} {s : σ} (hx : x.Yields T s)
    (hf : ∀ es a, T es a → (f a).Yields (fun es' b => T' (es ++ es') b) (x s).2) :
    (x >>= f).Yields T' s :=
  Runs.bind hx (fun _ _ _ => nofun) fun es a ha _ => hf es a (ha a rfl)

theorem runs_bind_of_asks {T : List Event → Except Fault β → Prop} {x : Session σ α}
    {f : α → Session σ β} {s : σ} (hx : x.Asks R)
    (herror : ∀ es e, (∀ e ∈ es, e.AsksOnly R) → T es (.error e))
    (happend : ∀ {es es' r}, (∀ e ∈ es, e.AsksOnly R) → T es' r → T (es ++ es') r)
    (hf : ∀ a, (x s).1.result = .ok a → (f a).Runs T (x s).2) : (x >>= f).Runs T s := by
  have hasked : x.Runs (fun es _ => ∀ e ∈ es, e.AsksOnly R) s := hx s
  exact hasked.bind herror fun es a hes ha => happend hes (hf a ha)

theorem yields_bind_get {T : List Event → β → Prop} {f : σ → Session σ β} {s : σ}
    (h : (f s).Yields T s) : (get >>= f).Yields T s := h

/-! ## Runs that are known so far -/

theorem run_bind_ofExcept_ok (a : α) (f : α → Session σ β) (s : σ) :
    (ofExcept (.ok a) >>= f) s = f a s := rfl

theorem run_bind_lift_pure (a : α) (f : α → Session σ β) (s : σ) :
    (lift (pure a) >>= f) s = f a s := rfl

theorem run_bind_get (f : σ → Session σ β) (s : σ) : (get >>= f) s = f s s := rfl

theorem run_bind_lift_of_ok {t : Traced α} {a : α} (h : t.result = .ok a) (f : α → Session σ β)
    (s : σ) : (lift t >>= f) s = ((f a s).1.after t.events, (f a s).2) := by
  change Session.bind (lift t) f s = _
  unfold Session.bind lift
  simp only [h]

theorem run_bind_of_answer {x : Session σ α} {s t : σ} {a : α} (h : x s = (.answer a, t))
    (f : α → Session σ β) : (x >>= f) s = f a t := by
  change Session.bind x f s = _
  unfold Session.bind
  rw [h]
  rfl

/-- What comes after a session matters only for the answer and the state that it leads to. -/
theorem run_bind_congr {x : Session σ α} {f g : α → Session σ β} {s : σ}
    (h : ∀ a, (x s).1.result = .ok a → f a (x s).2 = g a (x s).2) : (x >>= f) s = (x >>= g) s := by
  change Session.bind x f s = Session.bind x g s
  unfold Session.bind
  cases hresult : (x s).1.result with
  | error e => simp [hresult]
  | ok a => simp [hresult, h a hresult]

end Session

end ContractAbi
