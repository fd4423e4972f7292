import ContractAbi.Proofs.Session.Except

/-!
# Runs of sessions

What a computation answers does not hang on what it notes on the way, so `Traced.result` commutes
with everything computations are built with. A run of a session is taken apart in the same way:

* `Traced.result_bind` and `Traced.result_mapM`: results of traced computations;
* `Session.result_bind` and `Session.state_bind`: results and last states of sessions;
* `Session.answers_bind_iff`: a session that answers does so step after step.
-/

namespace ContractAbi

namespace Traced

variable {α β : Type}

@[simp] theorem result_answer (a : α) : (answer a).result = .ok a := rfl

@[simp] theorem result_fail (f : Fault) : (fail f : Traced α).result = .error f := rfl

@[simp] theorem result_ofExcept (r : Except Fault α) : (ofExcept r).result = r := rfl

@[simp] theorem result_attempt (t : Traced α) : t.attempt.result = .ok t.result := rfl

@[simp] theorem result_note (level : Level) (origin text : String) :
    (note level origin text).result = .ok () := rfl

@[simp] theorem result_pure (a : α) : (pure a : Traced α).result = .ok a := rfl

@[simp] theorem result_bind (t : Traced α) (f : α → Traced β) :
    (t >>= f).result = t.result >>= fun a => (f a).result := by
  change (t.bind f).result = _
  unfold bind
  cases t.result <;> rfl

theorem bind_congr_answers {t : Traced α} {f g : α → Traced β}
    (h : ∀ a, t.result = .ok a → f a = g a) : (t >>= f) = (t >>= g) := by
  change t.bind f = t.bind g
  unfold bind
  cases ht : t.result with
  | ok a => exact congrArg (after t.events) (h a ht)
  | error f => rfl

theorem bind_congr {t : Traced α} {a : α} {f g : α → Traced β} (ht : t.result = .ok a)
    (h : f a = g a) : t >>= f = t >>= g := by
  refine bind_congr_answers fun b hb => ?_
  obtain rfl := Except.ok.inj (ht.symm.trans hb)
  exact h

@[simp] theorem result_ite (p : Prop) [Decidable p] (t u : Traced α) :
    (if p then t else u).result = if p then t.result else u.result := by
  split <;> rfl

theorem result_mapM (f : α → Traced β) (xs : List α) :
    (xs.mapM f).result = xs.mapM fun a => (f a).result := by
  induction xs with
  | nil => rfl
  | cons x xs ih =>
      rw [List.mapM_cons, List.mapM_cons, result_bind, ← ih]
      refine congrArg ((f x).result >>= ·) (funext fun a => ?_)
      rw [result_bind]
      rfl

theorem mapM_congr {f g : α → Traced β} {xs : List α} (h : ∀ x ∈ xs, f x = g x) :
    xs.mapM f = xs.mapM g := by
  induction xs with
  | nil => rfl
  | cons x xs ih =>
      rw [List.mapM_cons, List.mapM_cons, h x List.mem_cons_self,
        ih fun y hy => h y (List.mem_cons_of_mem _ hy)]

end Traced

namespace Session

variable {σ τ α β : Type}

def Answers (x : Session σ α) (s : σ) (a : α) (s' : σ) : Prop :=
  (x s).1.result = .ok a ∧ (x s).2 = s'

/-! ## Results and last states -/

@[simp] theorem result_pure (a : α) (s : σ) : ((pure a : Session σ α) s).1.result = .ok a := rfl

@[simp] theorem state_pure (a : α) (s : σ) : ((pure a : Session σ α) s).2 = s := rfl

@[simp] theorem result_lift (t : Traced α) (s : σ) : (lift t s).1.result = t.result := rfl

@[simp] theorem state_lift (t : Traced α) (s : σ) : (lift t s).2 = s := rfl

@[simp] theorem result_fail (f : Fault) (s : σ) :
    ((fail f : Session σ α) s).1.result = .error f := rfl

@[simp] theorem state_fail (f : Fault) (s : σ) : ((fail f : Session σ α) s).2 = s := rfl

@[simp] theorem result_ofExcept (r : Except Fault α) (s : σ) : (ofExcept r s).1.result = r := rfl

@[simp] theorem state_ofExcept (r : Except Fault α) (s : σ) : (ofExcept r s).2 = s := rfl

@[simp] theorem result_get (s : σ) : (get s).1.result = .ok s := rfl

@[simp] theorem state_get (s : σ) : (get s).2 = s := rfl

@[simp] theorem result_modify (f : σ → σ) (s : σ) : (modify f s).1.result = .ok () := rfl

@[simp] theorem state_modify (f : σ → σ) (s : σ) : (modify f s).2 = f s := rfl

@[simp] theorem result_note (level : Level) (origin text : String) (s : σ) :
    (note level origin text s).1.result = .ok () := rfl

@[simp] theorem state_note (level : Level) (origin text : String) (s : σ) :
    (note level origin text s).2 = s := rfl

@[simp] theorem result_attempt (x : Session σ α) (s : σ) :
    (x.attempt s).1.result = .ok (x s).1.result := rfl

@[simp] theorem state_attempt (x : Session σ α) (s : σ) : (x.attempt s).2 = (x s).2 := rfl

@[simp] theorem result_focus (part : σ → τ) (replace : τ → σ → σ) (x : Session τ α) (s : σ) :
    (focus part replace x s).1.result = (x (part s)).1.result := rfl

@[simp] theorem state_focus (part : σ → τ) (replace : τ → σ → σ) (x : Session τ α) (s : σ) :
    (focus part replace x s).2 = replace (x (part s)).2 s := rfl

theorem result_bind (x : Session σ α) (f : α → Session σ β) (s : σ) :
    ((x >>= f) s).1.result = (x s).1.result >>= fun a => (f a (x s).2).1.result := by
  change (Session.bind x f s).1.result = _
  unfold Session.bind
  cases h : (x s).1.result <;> simp [h, Traced.after]

theorem state_bind (x : Session σ α) (f : α → Session σ β) (s : σ) :
    ((x >>= f) s).2 =
      match (x s).1.result with
      | .ok a => (f a (x s).2).2
      | .error _ => (x s).2 := by
  change (Session.bind x f s).2 = _
  unfold Session.bind
  cases h : (x s).1.result <;> simp [h]

theorem result_bind_of_ok {x : Session σ α} {s : σ} {a : α} (f : α → Session σ β)
    (h : (x s).1.result = .ok a) : ((x >>= f) s).1.result = (f a (x s).2).1.result := by
  rw [result_bind, h]
  rfl

theorem state_bind_of_ok {x : Session σ α} {s : σ} {a : α} (f : α → Session σ β)
    (h : (x s).1.result = .ok a) : ((x >>= f) s).2 = (f a (x s).2).2 := by
  rw [state_bind, h]

theorem result_bind_of_error {x : Session σ α} {s : σ} {e : Fault} (f : α → Session σ β)
    (h : (x s).1.result = .error e) : ((x >>= f) s).1.result = .error e := by
  rw [result_bind, h]
  rfl

theorem state_bind_of_error {x : Session σ α} {s : σ} {e : Fault} (f : α → Session σ β)
    (h : (x s).1.result = .error e) : ((x >>= f) s).2 = (x s).2 := by
  rw [state_bind, h]

/-! ## Sessions that answer -/

theorem answers_bind_iff {x : Session σ α} {f : α → Session σ β} {s s' : σ} {b : β} :
    (x >>= f).Answers s b s' ↔ ∃ a t, x.Answers s a t ∧ (f a).Answers t b s' := by
  unfold Answers
  rw [result_bind, state_bind]
  constructor
  · intro h
    cases hx : (x s).1.result with
    | error e =>
        rw [hx] at h
        exact absurd h.1 (by simp [Bind.bind, Except.bind])
    | ok a =>
        rw [hx] at h
        exact ⟨a, (x s).2, ⟨rfl, rfl⟩, h⟩
  · rintro ⟨a, t, ⟨hx, rfl⟩, hf⟩
    rw [hx]
    exact hf

@[simp] theorem answers_pure_iff {a b : α} {s s' : σ} :
    (pure a : Session σ α).Answers s b s' ↔ a = b ∧ s = s' := by
  simp [Answers]

@[simp] theorem answers_lift_iff {t : Traced α} {a : α} {s s' : σ} :
    (lift t).Answers s a s' ↔ t.result = .ok a ∧ s = s' := by
  simp [Answers]

@[simp] theorem answers_get_iff {a s s' : σ} :
    get.Answers s a s' ↔ s = a ∧ s = s' := by
  simp [Answers]

@[simp] theorem answers_modify_iff {f : σ → σ} {u : Unit} {s s' : σ} :
    (modify f).Answers s u s' ↔ f s = s' := by
  simp [Answers]

@[simp] theorem answers_note_iff {level : Level} {origin text : String} {u : Unit} {s s' : σ} :
    (note level origin text).Answers s u s' ↔ s = s' := by
  simp [Answers]

@[simp] theorem answers_fail_iff {f : Fault} {a : α} {s s' : σ} :
    (fail f : Session σ α).Answers s a s' ↔ False := by
  simp [Answers]

@[simp] theorem answers_attempt_iff {x : Session σ α} {r : Except Fault α} {s s' : σ} :
    x.attempt.Answers s r s' ↔ (x s).1.result = r ∧ (x s).2 = s' := by
  simp [Answers]

theorem answers_focus_iff {part : σ → τ} {replace : τ → σ → σ} {x : Session τ α} {a : α}
    {s s' : σ} :
    (focus part replace x).Answers s a s' ↔ ∃ t, x.Answers (part s) a t ∧ replace t s = s' := by
  unfold Answers
  constructor
  · rintro ⟨h, rfl⟩
    exact ⟨_, ⟨h, rfl⟩, rfl⟩
  · rintro ⟨t, ⟨h, rfl⟩, rfl⟩
    exact ⟨h, rfl⟩

/-! ## What a session leaves as it was -/

/-- Whatever happens, the session leaves what `v` sees of the state as it was. -/
def Keeps (v : σ → τ) (x : Session σ α) : Prop :=
  ∀ s, v (x s).2 = v s

theorem keeps_pure (v : σ → τ) (a : α) : (pure a : Session σ α).Keeps v := fun _ => rfl

theorem keeps_lift (v : σ → τ) (t : Traced α) : (lift t).Keeps v := fun _ => rfl

theorem Keeps.bind {v : σ → τ} {x : Session σ α} {f : α → Session σ β} (hx : x.Keeps v)
    (hf : ∀ a, (f a).Keeps v) : (x >>= f).Keeps v := by
  intro s
  rw [state_bind]
  cases (x s).1.result with
  | error e => exact hx s
  | ok a => exact (hf a _).trans (hx s)

end Session

end ContractAbi
