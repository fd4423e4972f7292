import ContractAbi.Resolver
import ContractAbi.Proofs.Selector
import ContractAbi.Proofs.Session.Run

/-!
# What a resolver says

A resolver says of a key what it remembers, else what its sources give. Remembering, and the order
in which many lookups run, change neither.

* `Resolver.signature_search`: what the sources give, without the notes and counts of a search;
* `Resolver.view_resolve`: looking a key up leaves what is said of every key;
* `Resolver.result_resolve`: looking a key up answers what is said of it.
-/

namespace ContractAbi.Resolver

variable {sources : List SignatureSource} {kind : LookupKind}

/-! ## Searching -/

/-- What a candidate settles: the signature that it spells, if it hashes to the key, or the failure
to hash it. -/
def settled? (kind : LookupKind) (key : String) : Value → Option (Except Fault Signature)
  | .text s =>
    match Signature.parse s with
    | .ok sig =>
      match kind.hashed sig with
      | .ok computed => if computed = key then some (.ok sig) else none
      | .error f => some (.error f)
    | .error _ => none
  | _ => none

def chosen (kind : LookupKind) (key : String) (items : List Value) :
    Except Fault (Option Signature) :=
  match items.findSome? (settled? kind key) with
  | some r => r.map some
  | none => .ok none

def offered? (source : SignatureSource) (kind : LookupKind) (key : String) : Option Value :=
  match (source.candidates kind key).result with
  | .ok .null => none
  | .ok v => some v
  | .error _ => none

/-- What sources give for a key: the choice of the first source that chooses a signature. -/
def verdict (kind : LookupKind) (key : String) :
    List SignatureSource → Except Fault (Option Signature)
  | [] => .ok none
  | source :: rest =>
    match offered? source kind key with
    | none => verdict kind key rest
    | some candidates => do
      match ← chosen kind key (← candidates.toItems) with
      | some sig => .ok (some sig)
      | none => verdict kind key rest

theorem answer_of_offered? {source : SignatureSource} {key : String} {v : Value}
    (h : offered? source kind key = some v) :
    (source.candidates kind key).result = .ok v ∧ v ≠ .null := by
  unfold offered? at h
  split at h
  · exact absurd h nofun
  · rename_i answer hnull hanswer
    obtain rfl := Option.some.inj h
    exact ⟨hanswer, fun hv => hnull hv⟩
  · exact absurd h nofun

theorem chosen_cons (kind : LookupKind) (key : String) (v : Value) (rest : List Value) :
    chosen kind key (v :: rest) =
      match settled? kind key v with
      | some r => r.map some
      | none => chosen kind key rest := by
  rw [chosen, List.findSome?_cons]
  cases settled? kind key v <;> rfl

theorem result_pick (source : String) (kind : LookupKind) (key : String) (items : List Value) :
    (pick source kind key items).result = chosen kind key items := by
  induction items with
  | nil => rfl
  | cons v rest ih =>
      rw [chosen_cons]
      cases v with
      | text s =>
          unfold pick settled?
          dsimp only
          cases Signature.parse s with
          | error f =>
              rw [Traced.result_bind, Traced.result_note, Except.ok_bind]
              exact ih
          | ok sig =>
              dsimp only
              rw [Traced.result_bind, Traced.result_ofExcept]
              cases kind.hashed sig with
              | error f => rfl
              | ok computed =>
                  rw [Except.ok_bind]
                  by_cases hkey : computed = key
                  · simp [hkey]
                  · dsimp only
                    rw [if_pos hkey, if_neg hkey, Traced.result_bind, Traced.result_note,
                      Except.ok_bind]
                    exact ih
      | _ =>
          unfold pick settled?
          rw [Traced.result_bind, Traced.result_note, Except.ok_bind]
          exact ih

theorem result_query (source : SignatureSource) (kind : LookupKind) (key : String) :
    (query source kind key).result = .ok (offered? source kind key) := by
  unfold query offered?
  rw [Traced.result_bind, Traced.result_attempt]
  cases (source.candidates kind key).result with
  | ok v => cases v <;> rfl
  | error f => cases f <;> rfl

theorem signature_search (kind : LookupKind) (key : String) (sources : List SignatureSource) :
    (search kind key sources).result.map Lookup.signature = verdict kind key sources := by
  induction sources with
  | nil => rfl
  | cons source rest ih =>
      unfold search verdict
      rw [Traced.result_bind, result_query, Except.ok_bind]
      cases offered? source kind key with
      | none =>
          rw [← ih, Traced.result_bind]
          cases (search kind key rest).result <;> rfl
      | some candidates =>
          dsimp only
          rw [Traced.result_bind, Traced.result_ofExcept]
          cases candidates.toItems with
          | error f => rfl
          | ok items =>
              rw [Except.ok_bind, Except.ok_bind, Traced.result_bind, result_pick]
              cases chosen kind key items with
              | error f => rfl
              | ok found =>
                  cases found with
                  | some sig => rfl
                  | none =>
                      rw [← ih, Except.ok_bind, Except.ok_bind]
                      dsimp only
                      rw [Traced.result_bind]
                      cases (search kind key rest).result <;> rfl

theorem hashed_eq_ok_iff {sig : Signature} {key : String} :
    kind.hashed sig = .ok key ↔ Text.loneHalves? sig.text = none ∧ kind.hash sig = key := by
  cases kind with
  | function => exact Selector.hashed_eq_ok_iff
  | event => exact Topic.hashed_eq_ok_iff

theorem settled?_eq_some_iff {key : String} {v : Value} {r : Except Fault Signature} :
    settled? kind key v = some r ↔ ∃ s sig, v = .text s ∧ Signature.parse s = .ok sig ∧
      ((kind.hashed sig = .ok key ∧ r = .ok sig) ∨
        ∃ f, kind.hashed sig = .error f ∧ r = .error f) := by
  cases v with
  | text s =>
      unfold settled?
      cases hparse : Signature.parse s with
      | error f => simp [hparse]
      | ok sig =>
          cases hhashed : kind.hashed sig with
          | error f => simp [hparse, hhashed, eq_comm]
          | ok computed =>
              by_cases hkey : computed = key
              · simp [hparse, hhashed, hkey, eq_comm]
              · simp [hparse, hhashed, hkey]
  | _ => simp [settled?]

theorem parsed_of_chosen {key : String} {items : List Value} {sig : Signature}
    (h : chosen kind key items = .ok (some sig)) :
    (∃ s, Signature.parse s = .ok sig) ∧ kind.hashed sig = .ok key := by
  unfold chosen at h
  cases hfirst : items.findSome? (settled? kind key) with
  | none =>
      rw [hfirst] at h
      exact absurd (Except.ok.inj h) (by simp)
  | some r =>
      rw [hfirst] at h
      obtain ⟨found, rfl, hfound⟩ := Except.map_eq_ok_iff.1 h
      obtain rfl := Option.some.inj hfound
      obtain ⟨v, -, hv⟩ := List.exists_of_findSome?_eq_some hfirst
      obtain ⟨s, parsed, -, hparse, ⟨hhash, hr⟩ | ⟨f, -, hr⟩⟩ := settled?_eq_some_iff.1 hv
      · obtain rfl := Except.ok.inj hr
        exact ⟨⟨s, hparse⟩, hhash⟩
      · exact absurd hr (by simp)

theorem verdict_some {key : String} {sig : Signature}
    (h : verdict kind key sources = .ok (some sig)) :
    (∃ s, Signature.parse s = .ok sig) ∧ kind.hashed sig = .ok key := by
  induction sources with
  | nil => exact absurd h (by simp [verdict])
  | cons source rest ih =>
      unfold verdict at h
      cases hoffer : offered? source kind key with
      | none =>
          rw [hoffer] at h
          exact ih h
      | some candidates =>
          rw [hoffer] at h
          obtain ⟨items, -, h⟩ := Except.bind_eq_ok_iff.1 h
          obtain ⟨found, hchosen, h⟩ := Except.bind_eq_ok_iff.1 h
          cases found with
          | none => exact ih h
          | some found =>
              obtain rfl := Option.some.inj (Except.ok.inj h)
              exact parsed_of_chosen hchosen

/-! ## Remembering -/

theorem Memo.known?_cons (e : String × Option Signature) (memo : Memo) (key : String) :
    Memo.known? (e :: memo) key = if e.1 = key then some e.2 else Memo.known? memo key := by
  unfold Memo.known?
  by_cases hkey : e.1 = key <;> simp [hkey]

theorem Memo.known?_append_of_ne {k key : String} (memo : Memo) (sig : Option Signature)
    (h : k ≠ key) : Memo.known? (memo ++ [(k, sig)]) key = Memo.known? memo key := by
  induction memo with
  | nil => rw [List.nil_append, known?_cons, if_neg h]
  | cons e rest ih => rw [List.cons_append, known?_cons, known?_cons, ih]

theorem Memo.known?_overwrite_of_ne {k key : String} (memo : Memo) (sig : Option Signature)
    (h : k ≠ key) :
    Memo.known? (memo.map fun e => if e.1 == k then (k, sig) else e) key =
      Memo.known? memo key := by
  induction memo with
  | nil => rfl
  | cons e rest ih =>
      rw [List.map_cons, known?_cons, known?_cons, ih]
      by_cases he : e.1 = k
      · simp [he, h]
      · simp [he]

theorem Memo.known?_append_self {memo : Memo} {key : String} (sig : Option Signature)
    (h : (memo.any fun e => e.1 == key) = false) :
    Memo.known? (memo ++ [(key, sig)]) key = some sig := by
  induction memo with
  | nil => rw [List.nil_append, known?_cons, if_pos rfl]
  | cons e rest ih =>
      rw [List.any_cons, Bool.or_eq_false_iff, beq_eq_false_iff_ne] at h
      rw [List.cons_append, known?_cons, if_neg h.1, ih h.2]

theorem Memo.known?_overwrite_self {memo : Memo} {key : String} (sig : Option Signature)
    (h : (memo.any fun e => e.1 == key) = true) :
    Memo.known? (memo.map fun e => if e.1 == key then (key, sig) else e) key = some sig := by
  induction memo with
  | nil => exact absurd h (by simp)
  | cons e rest ih =>
      rw [List.map_cons, known?_cons]
      by_cases he : e.1 = key
      · simp [he]
      · have hrest : (rest.any fun e => e.1 == key) = true := by simpa [he] using h
        rw [ih hrest]
        simp [he]

theorem Memo.known?_remember (memo : Memo) (k key : String) (sig : Option Signature) :
    Memo.known? (memo.remember k sig) key =
      if k = key then some sig else Memo.known? memo key := by
  unfold Memo.remember
  by_cases hkey : k = key
  · subst hkey
    rw [if_pos rfl]
    by_cases hany : (memo.any fun e => e.1 == k) = true
    · rw [if_pos hany, known?_overwrite_self sig hany]
    · rw [if_neg hany, known?_append_self sig (Bool.eq_false_iff.2 hany)]
  · rw [if_neg hkey]
    split
    · exact known?_overwrite_of_ne memo sig hkey
    · exact known?_append_of_ne memo sig hkey

def view (sources : List SignatureSource) (kind : LookupKind) (memo : Memo) (key : String) :
    Except Fault (Option Signature) :=
  match memo.known? key with
  | some sig => .ok sig
  | none => verdict kind key sources

theorem view_remember {memo : Memo} {key : String} {sig : Option Signature}
    (h : view sources kind memo key = .ok sig) :
    view sources kind (memo.remember key sig) = view sources kind memo := by
  funext k
  unfold view
  rw [Memo.known?_remember]
  by_cases hkey : key = k
  · rw [if_pos hkey, ← hkey]
    exact h.symm
  · rw [if_neg hkey]

theorem result_resolve (memo : Memo) (key : String) :
    (resolve sources kind key memo).1.result = view sources kind memo key := by
  unfold resolve view
  rw [Session.result_bind, Session.result_get, Session.state_get, Except.ok_bind]
  cases Memo.known? memo key with
  | some sig => rfl
  | none =>
      dsimp only
      rw [← signature_search, Session.result_bind, Session.result_lift, Session.state_lift]
      cases (search kind key sources).result with
      | error f => rfl
      | ok found =>
          rw [Except.ok_bind]
          by_cases hfinal : found.isFinal = true
          · rw [if_pos hfinal]
            rfl
          · rw [if_neg hfinal]
            rfl

theorem view_resolve (memo : Memo) (key : String) :
    view sources kind (resolve sources kind key memo).2 = view sources kind memo := by
  unfold resolve
  rw [Session.state_bind, Session.result_get, Session.state_get]
  dsimp only
  cases hknown : Memo.known? memo key with
  | some sig => rfl
  | none =>
      dsimp only
      rw [Session.state_bind, Session.result_lift, Session.state_lift]
      have hsays : view sources kind memo key = verdict kind key sources := by
        rw [view, hknown]
      rw [← signature_search] at hsays
      cases hfound : (search kind key sources).result with
      | error f => rfl
      | ok found =>
          rw [hfound] at hsays
          dsimp only
          by_cases hfinal : found.isFinal = true
          · rw [if_pos hfinal]
            exact view_remember hsays
          · rw [if_neg hfinal]
            rfl

end ContractAbi.Resolver
