import ContractAbi.Proofs.Session.Except
import ContractAbi.Value.Path

/-!
# Paths of keys

A key finds the field of an object that it names, or the item of a list at its place. What a path
gives is what its keys find one after another, with three exceptions.

* `follow?`: the value that keys lead to;
* `StopsAt`, `EndsInPart` and `CountsIn`: a path that stops before its end at a value that does not
  hold, one that ends in a text or byte string, and one that counts where nothing can be counted;
* `atKeys_append`: a path goes on from the value at its first part, if that holds;
* `atKeys_cases`: what there is at a path;
* `atKeys_follows`: where paths follow their keys and compose.
-/

namespace ContractAbi.Value

inductive Key where
  | name (s : String)
  | place (n : Nat)
  deriving Repr, DecidableEq

def Key.toValue : Key → Value
  | name s => .text s
  | place n => .int n

variable {v w : Value} {view : Value → Value} {key next : Key} {keys done rest path : List Key}

/-! ## What keys find -/

def find? : Value → Key → Option Value
  | object fields, .name s => lookup s fields
  | list items, .place n => items[n]?
  | _, _ => none

def spread : Value → Value
  | text s => list (pointTexts s)
  | bytes bs => list (bs.map fun b => .int b.toNat)
  | v => v

/-- The value that keys lead to, one after another, in what a view shows of the values. -/
def follow? (view : Value → Value) : Value → List Key → Option Value
  | v, [] => some v
  | v, key :: keys => ((view v).find? key).bind fun w => follow? view w keys

def unsized : Value → Bool
  | null | bool _ | int _ | float _ => true
  | _ => false

def refuses (v : Value) : Key → Bool
  | .name _ => false
  | .place _ => v.unsized

theorem follow?_append (view : Value → Value) (v : Value) (path rest : List Key) :
    v.follow? view (path ++ rest) = (v.follow? view path).bind fun w => w.follow? view rest := by
  induction path generalizing v with
  | nil => rfl
  | cons key path ih =>
      rw [List.cons_append, follow?, follow?, Option.bind_assoc]
      exact congrArg _ (funext fun w => ih w)

/-- Keys that lead nowhere lead to a value that lacks the next one. -/
theorem exists_of_follow?_eq_none (h : v.follow? view path = none) :
    ∃ done next rest w, path = done ++ next :: rest ∧ v.follow? view done = some w ∧
      (view w).find? next = none := by
  induction path generalizing v with
  | nil => cases h
  | cons key path ih =>
      rw [follow?] at h
      cases hfind : (view v).find? key with
      | none => exact ⟨[], key, path, v, rfl, rfl, hfind⟩
      | some u =>
          rw [hfind, Option.bind_some] at h
          obtain ⟨done, next, rest, w, rfl, hdone, hlacks⟩ := ih h
          refine ⟨key :: done, next, rest, w, rfl, ?_, hlacks⟩
          rw [follow?, hfind, Option.bind_some, hdone]

theorem find?_spread (h : v.find? key = some w) : v.spread.find? key = some w := by
  cases v with
  | object fields => exact h
  | list items => exact h
  | _ => cases h

theorem follow?_spread (h : v.follow? id path = some w) : v.follow? spread path = some w := by
  induction path generalizing v with
  | nil => exact h
  | cons key path ih =>
      obtain ⟨u, hfind, hrest⟩ := Option.bind_eq_some_iff.1 h
      exact Option.bind_eq_some_iff.2 ⟨u, find?_spread hfind, ih hrest⟩

theorem follow?_of_spread (h : v.follow? spread path = none) : v.follow? id path = none := by
  apply Option.eq_none_iff_forall_ne_some.2
  intro w hw
  cases h.symm.trans (follow?_spread hw)

theorem find?_of_not_holds (h : v.holds = false) (key : Key) : v.spread.find? key = none := by
  cases v with
  | text s =>
      have hs : s = "" := by simpa [holds] using h
      rw [hs]
      cases key <;> rfl
  | bytes xs | list xs | object xs =>
      cases xs with
      | nil => cases key <;> rfl
      | cons x xs => cases h
  | _ => cases key <;> rfl

theorem find?_of_unsized (h : v.unsized = true) (key : Key) : v.spread.find? key = none := by
  cases v with
  | null | bool | int | float => cases key <;> rfl
  | _ => cases h

/-! ## One step -/

theorem itemAt_natCast (items : List Value) (n : Nat) :
    itemAt items n = .ok (items[n]?.getD .null) := by
  rw [itemAt, if_pos (Int.natCast_nonneg n), Int.toNat_natCast]

theorem step_eq (v : Value) (key : Key) :
    v.step key.toValue =
      if v.refuses key then .error (.misfit (.unsized v))
      else .ok ((v.spread.find? key).getD .null) := by
  cases key with
  | name s => cases v <;> rfl
  | place n =>
      cases v with
      | text s => exact itemAt_natCast _ n
      | bytes bs => exact itemAt_natCast _ n
      | list items => exact itemAt_natCast items n
      | _ => rfl

theorem step_of_find? (h : v.spread.find? key = some w) : v.step key.toValue = .ok w := by
  have hsized : v.refuses key = false := by
    cases key with
    | name s => rfl
    | place n =>
        apply Bool.eq_false_iff.2
        intro hunsized
        cases h.symm.trans (find?_of_unsized hunsized _)
  rw [step_eq, hsized, h]
  rfl

/-! ## Paths -/

def atKeys (v : Value) (key : Key) (keys : List Key) : Except Fault Value :=
  v.atPath key.toValue (keys.map Key.toValue)

theorem atKeys_cons (v : Value) (key next : Key) (keys : List Key) :
    v.atKeys key (next :: keys) =
      v.step key.toValue >>= fun w => if w.holds then w.atKeys next keys else .ok w := rfl

/-- A path goes on from the value at the end of its first part, and stops there if that does not
hold. -/
theorem atKeys_append (v : Value) (key : Key) (keys : List Key) (next : Key) (rest : List Key) :
    v.atKeys key (keys ++ next :: rest) =
      v.atKeys key keys >>= fun w => if w.holds then w.atKeys next rest else .ok w := by
  induction keys generalizing v key with
  | nil => rfl
  | cons key' keys ih =>
      rw [List.cons_append, atKeys_cons, atKeys_cons, bind_assoc]
      congr 1
      funext w
      split
      · exact ih w key'
      · rename_i hempty
        rw [Except.ok_bind, if_neg hempty]

theorem atKeys_of_follow? (h : v.follow? spread (key :: keys) = some w) :
    v.atKeys key keys = .ok w := by
  induction keys generalizing v key with
  | nil =>
      obtain ⟨u, hfind, hend⟩ := Option.bind_eq_some_iff.1 h
      rw [← Option.some.inj hend]
      exact step_of_find? hfind
  | cons next keys ih =>
      obtain ⟨u, hfind, hrest⟩ := Option.bind_eq_some_iff.1 h
      -- the next key is found in the value, so this holds and the path goes on
      have hholds : u.holds = true := by
        apply Bool.of_not_eq_false
        intro hempty
        obtain ⟨x, hnext, -⟩ := Option.bind_eq_some_iff.1 hrest
        cases hnext.symm.trans (find?_of_not_holds hempty next)
      rw [atKeys_cons, step_of_find? hfind, Except.ok_bind, if_pos hholds, ih hrest]

/-- In a value that lacks the first key there is nothing, or it refuses that key. -/
theorem atKeys_of_lacks (h : v.spread.find? key = none) (keys : List Key) :
    v.atKeys key keys =
      if v.refuses key then .error (.misfit (.unsized v)) else .ok .null := by
  have hstep := step_eq v key
  rw [h] at hstep
  cases keys with
  | nil => exact hstep
  | cons next keys =>
      rw [atKeys_cons, hstep]
      split <;> rfl

/-- Behind keys that lead to a value the path goes on in it, or it stops there on its way. -/
theorem atKeys_split (hpath : key :: keys = done ++ next :: rest)
    (hdone : v.follow? spread done = some w) :
    v.atKeys key keys = if done ≠ [] ∧ w.holds = false then .ok w else w.atKeys next rest := by
  cases done with
  | nil =>
      obtain ⟨rfl, rfl⟩ := List.cons.inj hpath
      rw [← Option.some.inj hdone, if_neg fun h => h.1 rfl]
  | cons first done =>
      rw [List.cons_append, List.cons.injEq] at hpath
      obtain ⟨rfl, rfl⟩ := hpath
      rw [atKeys_append, atKeys_of_follow? hdone, Except.ok_bind]
      cases w.holds <;> simp

/-! ## Departures -/

/-- The first keys of the path lead to a value that does not hold, and there are keys left. -/
def StopsAt (v : Value) (path : List Key) (w : Value) : Prop :=
  ∃ done next rest, path = done ++ next :: rest ∧ done ≠ [] ∧
    v.follow? spread done = some w ∧ w.holds = false

def CountsIn (v : Value) (path : List Key) (w : Value) : Prop :=
  ∃ done n rest, path = done ++ .place n :: rest ∧ (done = [] ∨ w.holds = true) ∧
    v.follow? spread done = some w ∧ w.unsized = true

/-- The keys of the path lead to its end only if texts and byte strings are lists of their parts. -/
def EndsInPart (v : Value) (path : List Key) (w : Value) : Prop :=
  v.follow? id path = none ∧ v.follow? spread path = some w

theorem StopsAt.not_holds (h : v.StopsAt path w) : w.holds = false := by
  obtain ⟨_, _, _, _, _, _, hempty⟩ := h
  exact hempty

theorem StopsAt.follow?_eq_none (h : v.StopsAt path w) : v.follow? spread path = none := by
  obtain ⟨done, next, rest, rfl, -, hdone, hempty⟩ := h
  rw [follow?_append, hdone, Option.bind_some, follow?, find?_of_not_holds hempty]
  rfl

theorem StopsAt.atKeys_eq (h : v.StopsAt (key :: keys) w) : v.atKeys key keys = .ok w := by
  obtain ⟨done, next, rest, hpath, hne, hdone, hempty⟩ := h
  rw [atKeys_split hpath hdone, if_pos ⟨hne, hempty⟩]

theorem CountsIn.atKeys_eq (h : v.CountsIn (key :: keys) w) :
    v.atKeys key keys = .error (.misfit (.unsized w)) := by
  obtain ⟨done, n, rest, hpath, hgoes, hdone, hunsized⟩ := h
  have hrefuses : w.refuses (.place n) = true := hunsized
  rw [atKeys_split hpath hdone, if_neg, atKeys_of_lacks (find?_of_unsized hunsized _),
    if_pos hrefuses]
  rintro ⟨hne, hempty⟩
  exact absurd (hgoes.resolve_left hne) (by rw [hempty]; simp)

/-- Keys lead to the end of their path, or they lead nowhere; then it stops, or it counts, or there
is nothing at it. -/
theorem atKeys_cases (v : Value) (key : Key) (keys : List Key) :
    (∃ w, v.follow? spread (key :: keys) = some w ∧ v.atKeys key keys = .ok w) ∨
      v.follow? spread (key :: keys) = none ∧
        ((∃ w, v.StopsAt (key :: keys) w ∧ v.atKeys key keys = .ok w) ∨
          (∃ w, v.CountsIn (key :: keys) w) ∨ v.atKeys key keys = .ok .null) := by
  cases hfollow : v.follow? spread (key :: keys) with
  | some w => exact .inl ⟨w, rfl, atKeys_of_follow? hfollow⟩
  | none =>
      refine .inr ⟨rfl, ?_⟩
      obtain ⟨done, next, rest, w, hpath, hdone, hlacks⟩ := exists_of_follow?_eq_none hfollow
      by_cases hstops : done ≠ [] ∧ w.holds = false
      · have h : v.StopsAt (key :: keys) w := ⟨done, next, rest, hpath, hstops.1, hdone, hstops.2⟩
        exact .inl ⟨w, h, h.atKeys_eq⟩
      · have hat := atKeys_split hpath hdone
        rw [if_neg hstops, atKeys_of_lacks hlacks] at hat
        cases hrefuses : w.refuses next with
        | false =>
            rw [hrefuses] at hat
            exact .inr (.inr hat)
        | true =>
            have hgoes : done = [] ∨ w.holds = true := by
              rw [not_and_or, not_not, Bool.not_eq_false] at hstops
              exact hstops
            cases next with
            | name s => cases hrefuses
            | place n => exact .inr (.inl ⟨w, done, n, rest, hpath, hgoes, hdone, hrefuses⟩)

theorem follow?_spread_iff :
    v.follow? spread path = some w ↔ v.follow? id path = some w ∨ v.EndsInPart path w := by
  constructor
  · intro h
    cases hplain : v.follow? id path with
    | none => exact .inr ⟨hplain, h⟩
    | some u => exact .inl ((follow?_spread hplain).symm.trans h)
  · rintro (h | ⟨-, h⟩)
    · exact follow?_spread h
    · exact h

/-! ## What paths give -/

theorem atKeys_eq_ok_iff (hw : w ≠ .null) :
    v.atKeys key keys = .ok w ↔
      v.follow? spread (key :: keys) = some w ∨ v.StopsAt (key :: keys) w := by
  constructor
  · intro h
    rcases v.atKeys_cases key keys with
      ⟨u, hfollow, hat⟩ | ⟨-, ⟨u, hstops, hat⟩ | ⟨u, hcounts⟩ | hat⟩
    · cases h.symm.trans hat
      exact .inl hfollow
    · cases h.symm.trans hat
      exact .inr hstops
    · cases h.symm.trans hcounts.atKeys_eq
    · cases h.symm.trans hat
      exact absurd rfl hw
  · rintro (h | h)
    · exact atKeys_of_follow? h
    · exact h.atKeys_eq

theorem atKeys_eq_error_iff {e : Fault} :
    v.atKeys key keys = .error e ↔
      ∃ w, v.CountsIn (key :: keys) w ∧ e = .misfit (.unsized w) := by
  constructor
  · intro h
    rcases v.atKeys_cases key keys with ⟨u, -, hat⟩ | ⟨-, ⟨u, -, hat⟩ | ⟨u, hcounts⟩ | hat⟩
    · cases h.symm.trans hat
    · cases h.symm.trans hat
    · exact ⟨u, hcounts, Except.error.inj (h.symm.trans hcounts.atKeys_eq)⟩
    · cases h.symm.trans hat
  · rintro ⟨w, hcounts, rfl⟩
    exact hcounts.atKeys_eq

/-- A value that does not hold is at a path in itself only where both are nothing. -/
theorem atKeys_eq_self_iff (h : w.holds = false) :
    w.atKeys next rest = .ok w ↔ w = .null ∧ ∀ n, next ≠ .place n := by
  rw [atKeys_of_lacks (find?_of_not_holds h next)]
  cases next with
  | name s => simp [refuses, eq_comm]
  | place n => cases w <;> simp [refuses, unsized]

/-- A path composes unless its first part gives a value that does not hold: the whole path gives
this value, but a path in it starts anew. -/
theorem atKeys_append_eq_iff :
    v.atKeys key (keys ++ next :: rest) = (v.atKeys key keys >>= fun w => w.atKeys next rest) ↔
      ¬∃ w, v.atKeys key keys = .ok w ∧ w.holds = false ∧ (w ≠ .null ∨ ∃ n, next = .place n) := by
  rw [atKeys_append]
  cases hfirst : v.atKeys key keys with
  | error e => simp
  | ok w =>
      rw [Except.ok_bind, Except.ok_bind]
      by_cases hholds : w.holds = true
      · simp [hholds]
      · rw [if_neg hholds, eq_comm, atKeys_eq_self_iff (Bool.eq_false_iff.2 hholds)]
        constructor
        · rintro ⟨hnull, hname⟩ ⟨u, hu, -, hne | ⟨n, hplace⟩⟩
          · exact hne ((Except.ok.inj hu).symm.trans hnull)
          · exact hname n hplace
        · intro hnone
          refine ⟨?_, fun n hplace => ?_⟩
          · by_contra hne
            exact hnone ⟨w, rfl, Bool.eq_false_iff.2 hholds, .inl hne⟩
          · exact hnone ⟨w, rfl, Bool.eq_false_iff.2 hholds, .inr ⟨n, hplace⟩⟩

/-- Where there is something at a path that keys lead to, they lead to it. -/
theorem follow?_of_atKeys (h : v.atKeys key keys = .ok ((v.follow? id (key :: keys)).getD .null))
    (hat : v.atKeys key keys = .ok w) (hw : w ≠ .null) : v.follow? id (key :: keys) = some w := by
  have hsame : (v.follow? id (key :: keys)).getD .null = w := Except.ok.inj (h.symm.trans hat)
  cases hfollow : v.follow? id (key :: keys) with
  | none =>
      rw [hfollow] at hsame
      exact absurd hsame.symm hw
  | some u =>
      rw [hfollow] at hsame
      exact congrArg some hsame

/-- A path gives what its keys lead to, or nothing where they lead nowhere, unless it departs from
them to a value or a fault. -/
theorem atKeys_eq_follow?_iff :
    v.atKeys key keys = .ok ((v.follow? id (key :: keys)).getD .null) ↔
      (¬∃ w, w ≠ .null ∧ (v.StopsAt (key :: keys) w ∨ v.EndsInPart (key :: keys) w)) ∧
        ¬∃ w, v.CountsIn (key :: keys) w := by
  constructor
  · intro h
    refine ⟨?_, ?_⟩
    · rintro ⟨w, hw, hstops | hends⟩
      · have hfollow := follow?_of_atKeys h hstops.atKeys_eq hw
        cases hstops.follow?_eq_none.symm.trans (follow?_spread hfollow)
      · have hfollow := follow?_of_atKeys h (atKeys_of_follow? hends.2) hw
        cases hends.1.symm.trans hfollow
    · rintro ⟨w, hcounts⟩
      cases h.symm.trans hcounts.atKeys_eq
  · rintro ⟨hfound, hsized⟩
    have hnull : ∀ w, v.StopsAt (key :: keys) w ∨ v.EndsInPart (key :: keys) w → w = .null := by
      intro w hw
      by_contra hne
      exact hfound ⟨w, hne, hw⟩
    rcases v.atKeys_cases key keys with
      ⟨w, hfollow, hat⟩ | ⟨hnone, ⟨w, hstops, hat⟩ | hcounts | hat⟩
    · rcases follow?_spread_iff.1 hfollow with hplain | hends
      · rw [hplain, hat]
        rfl
      · rw [hends.1, hat, hnull w (.inr hends)]
        rfl
    · rw [follow?_of_spread hnone, hat, hnull w (.inl hstops)]
      rfl
    · exact absurd hcounts hsized
    · rw [follow?_of_spread hnone, hat]
      rfl

/-- A path composes unless its first part gives a value that does not hold, other than nothing in
front of a name. It gives what its keys lead to, or nothing where they lead nowhere, unless it stops
at something before its end, ends in a part of a text or byte string, or counts in a value without
a size. So all that it gives stands at its end, in a text or byte string, or before its end where it
does not hold, and counting is the only way to fail. -/
theorem atKeys_follows (v : Value) (key : Key) (keys : List Key) (next : Key) (rest : List Key) :
    (v.atKeys key (keys ++ next :: rest) = (v.atKeys key keys >>= fun w => w.atKeys next rest) ↔
      ¬∃ w, v.atKeys key keys = .ok w ∧ w.holds = false ∧ (w ≠ .null ∨ ∃ n, next = .place n)) ∧
    (v.atKeys key keys = .ok ((v.follow? id (key :: keys)).getD .null) ↔
      (¬∃ w, w ≠ .null ∧ (v.StopsAt (key :: keys) w ∨ v.EndsInPart (key :: keys) w)) ∧
        ¬∃ w, v.CountsIn (key :: keys) w) ∧
    (∀ w, v.atKeys key keys = .ok w ∧ w ≠ .null ↔
      w ≠ .null ∧ (v.follow? id (key :: keys) = some w ∨ v.StopsAt (key :: keys) w ∨
        v.EndsInPart (key :: keys) w)) ∧
    ∀ e, v.atKeys key keys = .error e ↔
      ∃ w, v.CountsIn (key :: keys) w ∧ e = .misfit (.unsized w) := by
  refine ⟨atKeys_append_eq_iff, atKeys_eq_follow?_iff, fun w => ?_, fun e => atKeys_eq_error_iff⟩
  rw [and_comm]
  refine and_congr_right fun hw => ?_
  rw [atKeys_eq_ok_iff hw, follow?_spread_iff, or_right_comm, or_assoc]

/-- An empty result is given for a field that it lacks, though it is not in itself; in a number in
its stead, and in nothing, counting fails; and a text gives a character. -/
theorem atKeys_departs :
    ((object [("result", object [])]).follow? id [.name "result", .name "function"] = none ∧
      (object [("result", object [])]).atKeys (.name "result") [.name "function"] =
        .ok (object []) ∧
      ((object [("result", object [])]).atKeys (.name "result") [] >>= fun w =>
        w.atKeys (.name "function") []) = .ok null) ∧
    ((object [("result", int 5)]).follow? id [.name "result", .place 0] = none ∧
      (object [("result", int 5)]).atKeys (.name "result") [.place 0] =
        .error (.misfit (.unsized (int 5)))) ∧
    ((object []).atKeys (.name "result") [.place 0] = .ok null ∧
      ((object []).atKeys (.name "result") [] >>= fun w => w.atKeys (.place 0) []) =
        .error (.misfit (.unsized null))) ∧
    (object [("result", text "none")]).follow? id [.name "result", .place 0] = none ∧
      (object [("result", text "none")]).atKeys (.name "result") [.place 0] = .ok (text "n") := by
  refine ⟨⟨?_, ?_, ?_⟩, ⟨?_, ?_⟩, ⟨?_, ?_⟩, ?_, ?_⟩ <;> rfl

end ContractAbi.Value
