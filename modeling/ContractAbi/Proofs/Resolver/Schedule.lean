import ContractAbi.Proofs.Resolver.View

/-!
# Many lookups at a time

Lookups that run at the same time end in any order, and each leaves in the memo what it found. What
is said of a key stays the same through all of it.

* `Schedule.Faithful`: nothing that a schedule holds or is about to leave changes what is said;
* `schedule_cons`: what a schedule does with its first key;
* `schedule_faithful`: starting lookups keeps a schedule faithful, and answers what is said;
* `result_resolveAll` and `view_resolveAll`: many lookups answer what single ones would.
-/

namespace ContractAbi.Resolver

variable {sources : List SignatureSource} {kind : LookupKind}

/-- A lookup under way will leave what is said of its key. -/
def Flight.Faithful (sources : List SignatureSource) (kind : LookupKind) (memo : Memo)
    (f : Flight) : Prop :=
  view sources kind memo f.key = .ok f.found.signature

namespace Schedule

/-- The schedule says what the memo says that it started from. -/
structure Faithful (sources : List SignatureSource) (kind : LookupKind) (memo : Memo)
    (s : Schedule) : Prop where
  view_memo : view sources kind s.memo = view sources kind memo
  flights : ∀ f ∈ s.flights, f.Faithful sources kind memo

variable {memo : Memo} {s : Schedule}

theorem view_land {m : Memo} {f : Flight} (hview : view sources kind m = view sources kind memo)
    (hf : f.Faithful sources kind memo) :
    view sources kind (land m f) = view sources kind memo := by
  unfold land
  by_cases hfinal : f.found.isFinal = true
  · rw [if_pos hfinal, view_remember, hview]
    rw [hview]
    exact hf
  · rw [if_neg hfinal, hview]

theorem view_foldl_land {m : Memo} {fs : List Flight}
    (hview : view sources kind m = view sources kind memo)
    (hfs : ∀ f ∈ fs, f.Faithful sources kind memo) :
    view sources kind (fs.foldl land m) = view sources kind memo := by
  induction fs generalizing m with
  | nil => exact hview
  | cons f rest ih =>
      rw [List.foldl_cons]
      exact ih (view_land hview (hfs f (by simp))) fun g hg => hfs g (by simp [hg])

theorem Faithful.advance (h : s.Faithful sources kind memo) (time : Nat) :
    (s.advance time).Faithful sources kind memo := by
  unfold Schedule.advance
  refine ⟨view_foldl_land h.view_memo fun f hf => ?_, fun f hf => ?_⟩
  · have hdone := List.mem_mergeSort.1 hf
    rw [List.partition_eq_filter_filter] at hdone
    exact h.flights f (List.mem_filter.1 hdone).1
  · rw [List.partition_eq_filter_filter] at hf
    exact h.flights f (List.mem_filter.1 hf).1

theorem Faithful.makeRoom (h : s.Faithful sources kind memo) (limit : Nat) :
    (s.makeRoom limit).Faithful sources kind memo := by
  unfold Schedule.makeRoom
  split
  · exact h
  · exact h.advance _

theorem Faithful.add (h : s.Faithful sources kind memo) {f : Flight}
    (hf : f.Faithful sources kind memo) :
    ({ s with flights := s.flights ++ [f] } : Schedule).Faithful sources kind memo := by
  refine ⟨h.view_memo, fun g hg => ?_⟩
  rcases List.mem_append.1 hg with hg | hg
  · exact h.flights g hg
  · rw [List.mem_singleton.1 hg]
    exact hf

theorem Faithful.view_finish (h : s.Faithful sources kind memo) :
    view sources kind s.finish = view sources kind memo :=
  (h.advance _).view_memo

def start (sources : List SignatureSource) (kind : LookupKind) (key : String) (s : Schedule) :
    Except Fault (Option Signature) × Schedule :=
  match s.memo.known? key with
  | some sig => (.ok sig, s)
  | none =>
    match (search kind key sources).result with
    | .error f => (.error f, s)
    | .ok found =>
      (.ok found.signature, { s with flights := s.flights ++ [⟨s.now + found.asked, key, found⟩] })

theorem Faithful.start (h : s.Faithful sources kind memo) (key : String) :
    (s.start sources kind key).1 = view sources kind memo key ∧
      (s.start sources kind key).2.Faithful sources kind memo := by
  rw [← congrFun h.view_memo key]
  unfold Schedule.start
  cases hknown : s.memo.known? key with
  | some sig =>
      have hanswer : view sources kind s.memo key = .ok sig := by rw [view, hknown]
      exact ⟨hanswer.symm, h⟩
  | none =>
      have hanswer : view sources kind s.memo key =
          (search kind key sources).result.map Lookup.signature := by
        rw [view, hknown, signature_search]
      rw [hanswer]
      cases hfound : (search kind key sources).result with
      | error f => exact ⟨rfl, h⟩
      | ok found =>
          rw [hfound] at hanswer
          exact ⟨rfl, h.add ((congrFun h.view_memo key).symm.trans hanswer)⟩

end Schedule

/-- The first key is started where there is room, and then the other keys. -/
theorem schedule_cons {limit : Nat} {key : String} {rest : List String} {s : Schedule}
    {found : List (Except Fault (Option Signature))}
    (h : (schedule sources kind limit rest
      ((s.makeRoom limit).start sources kind key).2).1.result = .ok found) :
    (schedule sources kind limit (key :: rest) s).1.result =
        .ok (((s.makeRoom limit).start sources kind key).1 :: found) ∧
      (schedule sources kind limit (key :: rest) s).2 =
        (schedule sources kind limit rest ((s.makeRoom limit).start sources kind key).2).2 := by
  -- what is left to do once the answer for the key is there
  have hrest : ∀ {u : Schedule} {r : Except Fault (Option Signature)},
      (schedule sources kind limit rest u).1.result = .ok found →
      ((schedule sources kind limit rest >>= fun found => pure (r :: found)) u).1.result =
          .ok (r :: found) ∧
        ((schedule sources kind limit rest >>= fun found => pure (r :: found)) u).2 =
          (schedule sources kind limit rest u).2 := fun hu => by
    rw [Session.result_bind_of_ok _ hu, Session.state_bind_of_ok _ hu]
    exact ⟨rfl, rfl⟩
  rw [schedule, Session.result_bind_of_ok _ (Session.result_modify _ s),
    Session.state_bind_of_ok _ (Session.result_modify _ s), Session.state_modify]
  generalize s.makeRoom limit = t at h ⊢
  rw [Session.result_bind_of_ok _ (Session.result_get t),
    Session.state_bind_of_ok _ (Session.result_get t), Session.state_get]
  unfold Schedule.start at h ⊢
  cases hknown : t.memo.known? key with
  | some sig =>
      rw [hknown] at h
      exact hrest h
  | none =>
      rw [hknown] at h
      have hlift : ((Session.lift (search kind key sources).attempt : Session Schedule _)
          t).1.result = .ok (search kind key sources).result := rfl
      dsimp only at h ⊢
      rw [Session.result_bind_of_ok _ hlift, Session.state_bind_of_ok _ hlift, Session.state_lift]
      cases hfound : (search kind key sources).result with
      | error f =>
          rw [hfound] at h
          exact hrest h
      | ok l =>
          rw [hfound] at h
          exact hrest h

/-- Starting lookups, one key after the other, answers what is said of each key. -/
theorem schedule_faithful {memo : Memo} {s : Schedule} (h : s.Faithful sources kind memo)
    (limit : Nat) (keys : List String) :
    (schedule sources kind limit keys s).1.result =
        .ok (keys.map (view sources kind memo)) ∧
      (schedule sources kind limit keys s).2.Faithful sources kind memo := by
  induction keys generalizing s with
  | nil => exact ⟨rfl, h⟩
  | cons key rest ih =>
      obtain ⟨hanswer, hstart⟩ := (h.makeRoom limit).start key
      obtain ⟨hrest, hleft⟩ := ih hstart
      obtain ⟨hresult, hstate⟩ := schedule_cons hrest
      rw [hresult, hstate, hanswer, List.map_cons]
      exact ⟨rfl, hleft⟩

/-! ## The answers of many lookups -/

/-- Many lookups answer what single lookups would, whatever their order in time. -/
theorem result_resolveAll (limit : Int) (memo : Memo) (keys : List String) :
    (resolveAll sources kind limit keys memo).1.result =
      if limit < 0 then .error (.malformed .negativeConcurrency)
      else keys.mapM (view sources kind memo) := by
  unfold resolveAll
  by_cases hlimit : limit < 0
  · rw [if_pos hlimit, if_pos hlimit]
    rfl
  · rw [if_neg hlimit, if_neg hlimit]
    have hstart : (⟨0, memo, []⟩ : Schedule).Faithful sources kind memo := ⟨rfl, by simp⟩
    obtain ⟨hresult, -⟩ := schedule_faithful hstart limit.toNat keys
    rw [← Except.mapM_id_map]
    exact Session.result_bind_of_ok _ hresult

theorem view_resolveAll (limit : Int) (memo : Memo) (keys : List String) :
    view sources kind (resolveAll sources kind limit keys memo).2 = view sources kind memo := by
  unfold resolveAll
  by_cases hlimit : limit < 0
  · rw [if_pos hlimit]
    rfl
  · rw [if_neg hlimit]
    have hstart : (⟨0, memo, []⟩ : Schedule).Faithful sources kind memo := ⟨rfl, by simp⟩
    obtain ⟨hresult, hstate⟩ := schedule_faithful hstart limit.toNat keys
    rw [← hstate.view_finish]
    exact congrArg _ (Session.state_bind_of_ok _ hresult)

end ContractAbi.Resolver
