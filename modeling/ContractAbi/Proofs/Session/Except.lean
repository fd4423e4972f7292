import ContractAbi.Session
import Mathlib.Data.List.Forall2

/-!
# Computations that may fail

* `Except.bind_eq_ok_iff`: a sequence answers if both of its steps do;
* `Except.mapM_eq_ok_iff`: a traversal answers if every step does.
-/

namespace ContractAbi.Except

variable {α β γ ε : Type}

@[simp] theorem ok_bind (a : α) (f : α → Except ε β) : (Except.ok a >>= f) = f a := rfl

@[simp] theorem error_bind (e : ε) (f : α → Except ε β) :
    ((Except.error e : Except ε α) >>= f) = .error e := rfl

@[simp] theorem pure_eq_ok (a : α) : (pure a : Except ε α) = .ok a := rfl

@[simp] theorem map_ok (a : α) (f : α → β) : (Except.ok a : Except ε α).map f = .ok (f a) := rfl

@[simp] theorem map_error (e : ε) (f : α → β) :
    (Except.error e : Except ε α).map f = .error e := rfl

theorem bind_eq_ok_iff {x : Except ε α} {f : α → Except ε β} {b : β} :
    (x >>= f) = .ok b ↔ ∃ a, x = .ok a ∧ f a = .ok b := by
  cases x <;> simp

theorem map_eq_ok_iff {x : Except ε α} {f : α → β} {b : β} :
    x.map f = .ok b ↔ ∃ a, x = .ok a ∧ f a = b := by
  cases x <;> simp

/-- What can be computed from an answer shows that there is one. -/
theorem exists_ok_of_toOption {x : Except ε α} {f : α → β} {b : β}
    (h : x.toOption.map f = some b) : ∃ a, x = .ok a ∧ f a = b := by
  cases x with
  | error e => exact absurd h (by simp [Except.toOption])
  | ok a => exact ⟨a, rfl, Option.some.inj h⟩

theorem exists_ok_of_isOk {x : Except ε α} (h : x.isOk = true) : ∃ a, x = .ok a := by
  cases x with
  | error e => exact absurd h (by simp [Except.isOk, Except.toBool])
  | ok a => exact ⟨a, rfl⟩

theorem exists_error_of_isOk {x : Except ε α} (h : x.isOk = false) : ∃ e, x = .error e := by
  cases x with
  | error e => exact ⟨e, rfl⟩
  | ok a => exact absurd h (by simp [Except.isOk, Except.toBool])

theorem mapM_eq_ok_iff {f : α → Except ε β} {xs : List α} {ys : List β} :
    xs.mapM f = .ok ys ↔ List.Forall₂ (fun x y => f x = .ok y) xs ys := by
  induction xs generalizing ys with
  | nil =>
      rw [List.mapM_nil, List.forall₂_nil_left_iff]
      exact ⟨fun h => (Except.ok.inj h).symm, fun h => congrArg Except.ok h.symm⟩
  | cons x xs ih =>
      rw [List.mapM_cons, bind_eq_ok_iff, List.forall₂_cons_left_iff]
      constructor
      · rintro ⟨y, hy, h⟩
        obtain ⟨rest, hrest, h⟩ := bind_eq_ok_iff.1 h
        exact ⟨y, rest, hy, ih.1 hrest, (Except.ok.inj h).symm⟩
      · rintro ⟨y, rest, hy, hrest, rfl⟩
        exact ⟨y, hy, bind_eq_ok_iff.2 ⟨rest, ih.2 hrest, rfl⟩⟩

theorem exists_of_mem_mapM {f : α → Except ε β} {xs : List α} {ys : List β} {y : β}
    (h : xs.mapM f = .ok ys) (hy : y ∈ ys) : ∃ x ∈ xs, f x = .ok y := by
  rw [mapM_eq_ok_iff] at h
  induction h with
  | nil => exact absurd hy List.not_mem_nil
  | cons hfirst _ ih =>
      rcases List.mem_cons.1 hy with rfl | hy
      · exact ⟨_, List.mem_cons_self, hfirst⟩
      · obtain ⟨x, hx, hanswer⟩ := ih hy
        exact ⟨x, List.mem_cons_of_mem _ hx, hanswer⟩

theorem exists_mem_zip_of_mapM {f : α → Except ε β} {xs : List α} {ys : List β} {x : α}
    (h : xs.mapM f = .ok ys) (hx : x ∈ xs) : ∃ y, (x, y) ∈ xs.zip ys ∧ f x = .ok y := by
  rw [mapM_eq_ok_iff] at h
  induction h with
  | nil => exact absurd hx List.not_mem_nil
  | @cons first y rest ys hfirst _ ih =>
      rw [List.zip_cons_cons]
      rcases List.mem_cons.1 hx with rfl | hx
      · exact ⟨y, List.mem_cons_self, hfirst⟩
      · obtain ⟨z, hz, hanswer⟩ := ih hx
        exact ⟨z, List.mem_cons_of_mem _ hz, hanswer⟩

theorem eq_ok_of_mem_zip {f : α → Except ε β} {xs : List α} {ys : List β} {x : α} {y : β}
    (h : xs.mapM f = .ok ys) (hmem : (x, y) ∈ xs.zip ys) : x ∈ xs ∧ f x = .ok y :=
  ⟨(List.of_mem_zip hmem).1, (List.forall₂_iff_zip.1 (mapM_eq_ok_iff.1 h)).2 hmem⟩

theorem map_eq_of_mapM {f : α → Except ε β} {g : β → γ} {h : α → γ} {xs : List α} {ys : List β}
    (hys : xs.mapM f = .ok ys) (heach : ∀ x ∈ xs, ∀ y, f x = .ok y → g y = h x) :
    ys.map g = xs.map h := by
  rw [mapM_eq_ok_iff] at hys
  induction hys with
  | nil => rfl
  | cons hfirst _ ih =>
      rw [List.map_cons, List.map_cons, heach _ List.mem_cons_self _ hfirst,
        ih fun x hx => heach x (List.mem_cons_of_mem _ hx)]

theorem mapM_eq_ok_map {f : α → Except ε β} {g : α → β} {xs : List α}
    (h : ∀ x ∈ xs, f x = .ok (g x)) : xs.mapM f = .ok (xs.map g) := by
  rw [mapM_eq_ok_iff, List.forall₂_map_right_iff, List.forall₂_same]
  exact h

/-- Two traversals, the second one over what the first one gives, are one. -/
theorem mapM_zip_eq_ok_iff {f : α → Except ε β} {g : α × β → Except ε γ} {xs : List α}
    {zs : List γ} :
    (xs.mapM f >>= fun ys => (xs.zip ys).mapM g) = .ok zs ↔
      (xs.mapM fun x => f x >>= fun y => g (x, y)) = .ok zs := by
  rw [bind_eq_ok_iff]
  simp only [mapM_eq_ok_iff]
  constructor
  · rintro ⟨ys, hys, hzs⟩
    induction hys generalizing zs with
    | nil =>
        rw [List.zip_nil_left, List.forall₂_nil_left_iff] at hzs
        rw [hzs]
        exact .nil
    | cons hy _ ih =>
        rw [List.zip_cons_cons, List.forall₂_cons_left_iff] at hzs
        obtain ⟨z, rest, hz, hrest, rfl⟩ := hzs
        exact .cons (bind_eq_ok_iff.2 ⟨_, hy, hz⟩) (ih hrest)
  · intro h
    induction h with
    | nil => exact ⟨[], .nil, .nil⟩
    | cons hz _ ih =>
        obtain ⟨y, hy, hz⟩ := bind_eq_ok_iff.1 hz
        obtain ⟨ys, hys, hzs⟩ := ih
        exact ⟨y :: ys, .cons hy hys, .cons hz hzs⟩

theorem mapM_id_map (f : α → Except ε β) (xs : List α) : (xs.map f).mapM id = xs.mapM f := by
  rw [List.mapM_map]
  rfl

end ContractAbi.Except
