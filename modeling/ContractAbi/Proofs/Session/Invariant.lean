import ContractAbi.Proofs.Session.Run

/-!
# What holds all through a session

An invariant of the states, what is known of the answer, and what is known of a failure. There is
one rule for each way to build a session.

* `Except.Meets.bind` and `Except.Meets.mapM`: computations one after the other;
* `Session.Meets.bind`, `Session.Meets.attempt`, `Session.Meets.focus`: sessions.
-/

namespace ContractAbi

namespace Except

variable {α β ε : Type}

inductive Meets (P : α → Prop) (E : ε → Prop) : Except ε α → Prop
  | ok {a} (h : P a) : Meets P E (.ok a)
  | error {e} (h : E e) : Meets P E (.error e)

variable {P : α → Prop} {Q : β → Prop} {E : ε → Prop}

theorem Meets.mono {P' : α → Prop} {E' : ε → Prop} {r : Except ε α} (h : Meets P E r)
    (hP : ∀ a, P a → P' a) (hE : ∀ e, E e → E' e) : Meets P' E' r := by
  cases h with
  | ok h => exact .ok (hP _ h)
  | error h => exact .error (hE _ h)

theorem Meets.of_ok {r : Except ε α} {a : α} (h : Meets P E r) (hr : r = .ok a) : P a := by
  subst hr
  cases h with
  | ok h => exact h

theorem Meets.of_error {r : Except ε α} {e : ε} (h : Meets P E r) (hr : r = .error e) : E e := by
  subst hr
  cases h with
  | error h => exact h

theorem Meets.bind {x : Except ε α} {f : α → Except ε β} (hx : Meets P E x)
    (hf : ∀ a, P a → Meets Q E (f a)) : Meets Q E (x >>= f) := by
  cases hx with
  | ok h => exact hf _ h
  | error h => exact .error h

theorem Meets.mapM {f : α → Except ε β} {xs : List α} (h : ∀ x ∈ xs, Meets Q E (f x)) :
    Meets (fun ys => ∀ y ∈ ys, Q y) E (xs.mapM f) := by
  induction xs with
  | nil => exact .ok (by simp)
  | cons x rest ih =>
      rw [List.mapM_cons]
      refine (h x (by simp)).bind fun y hy => ?_
      refine (ih fun z hz => h z (by simp [hz])).bind fun ys hys => .ok fun z hz => ?_
      rcases List.mem_cons.1 hz with rfl | hz
      · exact hy
      · exact hys z hz

/-- It is settled by `P` whether there is an answer; a failure has `E`. -/
def Settles (P : Prop) (E : ε → Prop) (r : Except ε α) : Prop :=
  Meets (fun _ => P) (fun e => ¬P ∧ E e) r

theorem Settles.of_ok {P : Prop} {r : Except ε α} (h : r.isOk = true) (hP : P) : Settles P E r := by
  cases r with
  | ok a => exact .ok hP
  | error e => exact absurd h (by simp [Except.isOk, Except.toBool])

theorem Settles.exists_ok_iff {P : Prop} {r : Except ε α} (h : Settles P E r) :
    (∃ a, r = .ok a) ↔ P := by
  cases h with
  | ok hP => exact ⟨fun _ => hP, fun _ => ⟨_, rfl⟩⟩
  | error hE => exact ⟨fun ⟨_, h⟩ => absurd h (by simp), fun hP => absurd hP hE.1⟩

theorem Settles.of_error {P : Prop} {r : Except ε α} {e : ε} (h : Settles P E r)
    (hr : r = .error e) : E e :=
  (Meets.of_error h hr).2

theorem Settles.congr {P Q : Prop} {r : Except ε α} (h : Settles P E r) (hPQ : P ↔ Q) :
    Settles Q E r :=
  Meets.mono h (fun _ => hPQ.1) fun _ he => ⟨mt hPQ.2 he.1, he.2⟩

theorem Settles.bind {P Q : Prop} {x : Except ε α} {f : α → Except ε β} (hx : Settles P E x)
    (hf : ∀ a, x = .ok a → Settles Q E (f a)) : Settles (P ∧ Q) E (x >>= f) := by
  cases hx with
  | error h => exact .error ⟨fun hPQ => h.1 hPQ.1, h.2⟩
  | ok hP => exact (hf _ rfl).congr (and_iff_right hP).symm

theorem Settles.mapM {P : α → Prop} {f : α → Except ε β} {xs : List α}
    (h : ∀ x ∈ xs, Settles (P x) E (f x)) : Settles (∀ x ∈ xs, P x) E (xs.mapM f) := by
  induction xs with
  | nil => exact .ok (by simp)
  | cons x rest ih =>
      rw [List.mapM_cons]
      have hrest := ih fun y hy => h y (List.mem_cons_of_mem _ hy)
      have hboth := (h x List.mem_cons_self).bind fun y _ =>
        (hrest.bind fun ys _ =>
          Settles.of_ok (r := (pure (y :: ys) : Except ε (List β))) rfl trivial)
      refine hboth.congr ?_
      rw [and_true, List.forall_mem_cons]

end Except

namespace Session

variable {σ τ α β : Type}

/-- From states with `I`, the session ends in a state with `I`, its answer has `P` and its failure
has `E`. -/
def Meets (I : σ → Prop) (P : α → Prop) (E : Fault → Prop) (x : Session σ α) : Prop :=
  ∀ s, I s → I (x s).2 ∧ Except.Meets P E (x s).1.result

variable {I : σ → Prop} {P : α → Prop} {Q : β → Prop} {E : Fault → Prop}

theorem meets_pure {a : α} (h : P a) : (pure a : Session σ α).Meets I P E :=
  fun _ hI => ⟨hI, .ok h⟩

theorem meets_lift {t : Traced α} (h : Except.Meets P E t.result) :
    (lift t : Session σ α).Meets I P E :=
  fun _ hI => ⟨hI, h⟩

theorem meets_ofExcept {r : Except Fault α} (h : Except.Meets P E r) :
    (ofExcept r : Session σ α).Meets I P E :=
  fun _ hI => ⟨hI, h⟩

theorem meets_fail {f : Fault} (h : E f) : (fail f : Session σ α).Meets I P E :=
  fun _ hI => ⟨hI, .error h⟩

theorem meets_note (level : Level) (origin text : String) :
    (note level origin text : Session σ Unit).Meets I (fun _ => True) E :=
  fun _ hI => ⟨hI, .ok trivial⟩

theorem meets_get : (get : Session σ σ).Meets I I E :=
  fun _ hI => ⟨hI, .ok hI⟩

theorem meets_modify {f : σ → σ} (h : ∀ s, I s → I (f s)) :
    (modify f).Meets I (fun _ => True) E :=
  fun _ hI => ⟨h _ hI, .ok trivial⟩

theorem Meets.bind {x : Session σ α} {f : α → Session σ β} (hx : x.Meets I P E)
    (hf : ∀ a, P a → (f a).Meets I Q E) : (x >>= f).Meets I Q E := by
  intro s hI
  obtain ⟨hstate, hresult⟩ := hx s hI
  rw [state_bind, result_bind]
  cases hxs : (x s).1.result with
  | ok a =>
      rw [hxs] at hresult
      cases hresult with
      | ok h => exact hf a h _ hstate
  | error e =>
      rw [hxs] at hresult
      cases hresult with
      | error h => exact ⟨hstate, .error h⟩

theorem Meets.attempt {x : Session σ α} (hx : x.Meets I P E) {F : Fault → Prop} :
    x.attempt.Meets I (Except.Meets P E) F :=
  fun s hI => ⟨(hx s hI).1, .ok (hx s hI).2⟩

theorem Meets.focus {J : τ → Prop} {part : σ → τ} {replace : τ → σ → σ} {x : Session τ α}
    (hx : x.Meets J P E) (hpart : ∀ s, I s → J (part s))
    (hreplace : ∀ s u, I s → J u → I (replace u s)) :
    (focus part replace x).Meets I P E :=
  fun s hI => ⟨hreplace s _ hI (hx _ (hpart s hI)).1, (hx _ (hpart s hI)).2⟩

end Session

end ContractAbi
