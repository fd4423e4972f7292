import ContractAbi.Proofs.Session.Run

/-!
# Two runs side by side

Two computations are related if both answer, with related answers, or both fail, with related
failures. Two sessions simulate each other if this holds from all related states, and leaves related
states. There is one rule for each way to build a session.

* `Except.Related.bind` and `Except.Related.mapM`: related computations one after the other;
* `Session.Simulates.bind`, `Session.Simulates.attempt`, `Session.Simulates.focus`: sessions.
-/

namespace ContractAbi

namespace Except

variable {α α' β β' ε : Type}

/-- Both computations answer, with related answers, or both fail, with related failures. -/
inductive Related (P : α → α' → Prop) (F : ε → ε → Prop) : Except ε α → Except ε α' → Prop
  | ok {a b} (h : P a b) : Related P F (.ok a) (.ok b)
  | error {e f} (h : F e f) : Related P F (.error e) (.error f)

variable {P : α → α' → Prop} {Q : β → β' → Prop} {F : ε → ε → Prop}

theorem Related.of_eq (hF : ∀ e, F e e) {r r' : Except ε α} (h : r = r') :
    Related (fun a b => a = b) F r r' := by
  subst h
  cases r with
  | ok a => exact .ok rfl
  | error e => exact .error (hF e)

theorem Related.eq {r r' : Except ε α} (h : Related (fun a b => a = b) (fun e f => e = f) r r') :
    r = r' := by
  cases h with
  | ok h => rw [h]
  | error h => rw [h]

theorem Related.exists_ok {a : α} {r : Except ε α'} (h : Related P F (.ok a) r) :
    ∃ b, r = .ok b ∧ P a b := by
  cases h with
  | ok h => exact ⟨_, rfl, h⟩

theorem Related.swap {P' : α' → α → Prop} {F' : ε → ε → Prop} {r : Except ε α}
    {r' : Except ε α'} (h : Related P F r r') (hP : ∀ a b, P a b → P' b a)
    (hF : ∀ e f, F e f → F' f e) : Related P' F' r' r := by
  cases h with
  | ok h => exact .ok (hP _ _ h)
  | error h => exact .error (hF _ _ h)

theorem Related.bind {x : Except ε α} {x' : Except ε α'} {f : α → Except ε β}
    {f' : α' → Except ε β'} (hx : Related P F x x') (hf : ∀ a b, P a b → Related Q F (f a) (f' b)) :
    Related Q F (x >>= f) (x' >>= f') := by
  cases hx with
  | ok h => exact hf _ _ h
  | error h => exact .error h

theorem Related.mapM {f : α → Except ε β} {f' : α' → Except ε β'} {xs : List α} {xs' : List α'}
    (hxs : List.Forall₂ P xs xs') (hf : ∀ a b, P a b → Related Q F (f a) (f' b)) :
    Related (List.Forall₂ Q) F (xs.mapM f) (xs'.mapM f') := by
  induction hxs with
  | nil => exact .ok .nil
  | cons hfirst _ ih =>
      rw [List.mapM_cons, List.mapM_cons]
      exact (hf _ _ hfirst).bind fun _ _ hb => ih.bind fun _ _ hbs => .ok (.cons hb hbs)

theorem Related.mapM_same {f : α → Except ε β} {f' : α → Except ε β'} {Q : β → β' → Prop}
    (xs : List α) (hf : ∀ a, Related Q F (f a) (f' a)) :
    Related (List.Forall₂ Q) F (xs.mapM f) (xs.mapM f') :=
  Related.mapM (List.forall₂_same.2 fun a (_ : a ∈ xs) => rfl)
    fun a b (hab : a = b) => by subst hab; exact hf a

theorem mapM_eq_of_forall₂ {f : α → Except ε β} {f' : α' → Except ε β} {xs : List α}
    {xs' : List α'} (hxs : List.Forall₂ P xs xs') (hf : ∀ a b, P a b → f a = f' b) :
    xs.mapM f = xs'.mapM f' := by
  induction hxs with
  | nil => rfl
  | cons hfirst _ ih => rw [List.mapM_cons, List.mapM_cons, hf _ _ hfirst, ih]

theorem forall₂_zip {γ : Type} (cs : List γ) {xs : List α} {xs' : List α'}
    (h : List.Forall₂ P xs xs') :
    List.Forall₂ (fun p q => p.1 = q.1 ∧ P p.2 q.2) (cs.zip xs) (cs.zip xs') := by
  induction h generalizing cs with
  | nil => simp
  | cons hfirst _ ih =>
      cases cs with
      | nil => exact .nil
      | cons c cs => exact .cons ⟨rfl, hfirst⟩ (ih cs)

end Except

namespace Session

variable {σ τ α β : Type}

/-- From related states, the sessions end in related states with related outcomes. -/
def Simulates (R : σ → σ → Prop) (P : α → α → Prop) (F : Fault → Fault → Prop)
    (x y : Session σ α) : Prop :=
  ∀ s t, R s t → R (x s).2 (y t).2 ∧ Except.Related P F (x s).1.result (y t).1.result

variable {R : σ → σ → Prop} {P : α → α → Prop} {Q : β → β → Prop} {F : Fault → Fault → Prop}

theorem simulates_pure {a b : α} (h : P a b) :
    (pure a : Session σ α).Simulates R P F (pure b) :=
  fun _ _ hR => ⟨hR, .ok h⟩

theorem simulates_lift {t u : Traced α} (h : Except.Related P F t.result u.result) :
    (lift t : Session σ α).Simulates R P F (lift u) :=
  fun _ _ hR => ⟨hR, h⟩

theorem simulates_ofExcept {r r' : Except Fault α} (h : Except.Related P F r r') :
    (ofExcept r : Session σ α).Simulates R P F (ofExcept r') :=
  fun _ _ hR => ⟨hR, h⟩

theorem simulates_fail {f g : Fault} (h : F f g) :
    (fail f : Session σ α).Simulates R P F (fail g) :=
  fun _ _ hR => ⟨hR, .error h⟩

theorem simulates_note {level level' : Level} {origin origin' text text' : String}
    {U : Unit → Unit → Prop} (h : U () ()) :
    (note level origin text : Session σ Unit).Simulates R U F (note level' origin' text') :=
  fun _ _ hR => ⟨hR, .ok h⟩

theorem simulates_get : (get : Session σ σ).Simulates R R F get :=
  fun _ _ hR => ⟨hR, .ok hR⟩

theorem simulates_modify {f g : σ → σ} {U : Unit → Unit → Prop} (hU : U () ())
    (h : ∀ s t, R s t → R (f s) (g t)) : (modify f).Simulates R U F (modify g) :=
  fun _ _ hR => ⟨h _ _ hR, .ok hU⟩

theorem Simulates.bind {x y : Session σ α} {f g : α → Session σ β} (hx : x.Simulates R P F y)
    (hf : ∀ a b, P a b → (f a).Simulates R Q F (g b)) :
    (x >>= f).Simulates R Q F (y >>= g) := by
  intro s t hR
  obtain ⟨hstate, hresult⟩ := hx s t hR
  rw [state_bind, state_bind, result_bind, result_bind]
  cases hxs : (x s).1.result with
  | ok a =>
      cases hyt : (y t).1.result with
      | ok b =>
          rw [hxs, hyt] at hresult
          cases hresult with
          | ok h => exact hf a b h _ _ hstate
      | error f =>
          rw [hxs, hyt] at hresult
          nomatch hresult
  | error e =>
      cases hyt : (y t).1.result with
      | ok b =>
          rw [hxs, hyt] at hresult
          nomatch hresult
      | error f =>
          rw [hxs, hyt] at hresult
          cases hresult with
          | error h => exact ⟨hstate, .error h⟩

theorem Simulates.attempt {x y : Session σ α} (hx : x.Simulates R P F y)
    {G : Fault → Fault → Prop} :
    x.attempt.Simulates R (Except.Related P F) G y.attempt :=
  fun s t hR => ⟨(hx s t hR).1, .ok (hx s t hR).2⟩

theorem Simulates.focus {S : τ → τ → Prop} {part : σ → τ} {replace : τ → σ → σ}
    {x y : Session τ α} (hx : x.Simulates S P F y) (hpart : ∀ s t, R s t → S (part s) (part t))
    (hreplace : ∀ s t u v, R s t → S u v → R (replace u s) (replace v t)) :
    (focus part replace x).Simulates R P F (focus part replace y) :=
  fun s t hR =>
    ⟨hreplace s t _ _ hR (hx _ _ (hpart s t hR)).1, (hx _ _ (hpart s t hR)).2⟩

end Session

end ContractAbi
