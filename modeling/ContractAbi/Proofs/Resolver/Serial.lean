import ContractAbi.Proofs.Resolver.Calls
import ContractAbi.Proofs.Resolver.Schedule
import Mathlib.Order.MinMax

/-!
# Many keys, one at a time

Many keys may be looked up at the same time. With a limit of one they are looked up one after the
other, each with what those before it have left.

* `schedule_one`: a schedule with room for one lookup;
* `resolveKeys_one`: a call for many keys.
-/

namespace ContractAbi.Resolver

variable {sources : List SignatureSource} {kind : LookupKind} {s : Schedule}

theorem Schedule.finish_of_nil (h : s.flights = []) : s.finish = s.memo := by
  simp [Schedule.finish, Schedule.advance, h]

theorem Schedule.finish_of_singleton {f : Flight} (h : s.flights = [f]) :
    s.finish = land s.memo f := by
  simp [Schedule.finish, Schedule.advance, h]

theorem Schedule.makeRoom_one (h : s.flights.length ≤ 1) :
    (s.makeRoom 1).flights = [] ∧ (s.makeRoom 1).memo = s.finish := by
  match hflights : s.flights with
  | [] =>
      rw [finish_of_nil hflights]
      simp [Schedule.makeRoom, hflights]
  | [f] =>
      rw [finish_of_singleton hflights]
      simp [Schedule.makeRoom, Schedule.nextFinish, Schedule.advance, hflights]
  | f :: g :: rest => simp [hflights] at h

def memoResults (sources : List SignatureSource) (kind : LookupKind) :
    List String → Memo → List (Except Fault (Option Signature)) × Memo
  | [], memo => ([], memo)
  | key :: rest, memo =>
    let (found, memo') := memoResults sources kind rest (resolve sources kind key memo).2
    ((resolve sources kind key memo).1.result :: found, memo')

/-- A lookup that is started alone answers and leaves what the lookup of its key does. -/
theorem Schedule.start_one (h : s.flights = []) (key : String) :
    (s.start sources kind key).1 = (resolve sources kind key s.memo).1.result ∧
      (s.start sources kind key).2.finish = (resolve sources kind key s.memo).2 ∧
      (s.start sources kind key).2.flights.length ≤ 1 := by
  have hnone : s.flights.length ≤ 1 := by simp [h]
  unfold Schedule.start
  cases hknown : s.memo.known? key with
  | some sig =>
      have hresolve : resolve sources kind key s.memo = _ := resolve_known hknown
      rw [hresolve]
      exact ⟨rfl, finish_of_nil h, hnone⟩
  | none =>
      have hresolve : resolve sources kind key s.memo = _ := resolve_unknown hknown
      rw [hresolve, Traced.result_map, learnt?]
      cases (search kind key sources).result with
      | error f => exact ⟨rfl, finish_of_nil h, hnone⟩
      | ok found =>
          refine ⟨rfl, ?_, by simp [h]⟩
          dsimp only
          rw [finish_of_singleton (congrArg (· ++ [_]) h), land]
          dsimp only [Except.toOption, Option.bind]
          split <;> rfl

theorem schedule_one (keys : List String) (h : s.flights.length ≤ 1) :
    (schedule sources kind 1 keys s).1.result = .ok (memoResults sources kind keys s.finish).1 ∧
      (schedule sources kind 1 keys s).2.finish = (memoResults sources kind keys s.finish).2 := by
  induction keys generalizing s with
  | nil => exact ⟨rfl, rfl⟩
  | cons key rest ih =>
      obtain ⟨hflights, hmemo⟩ := Schedule.makeRoom_one h
      obtain ⟨hanswer, hfinish, hlength⟩ := @Schedule.start_one sources kind _ hflights key
      obtain ⟨hrest, hleft⟩ := ih hlength
      obtain ⟨hresult, hstate⟩ := schedule_cons hrest
      rw [hresult, hstate, hleft, hfinish, hanswer, hmemo]
      exact ⟨rfl, rfl⟩

theorem resolveAll_one (keys : List String) (memo : Memo) :
    (resolveAll sources kind 1 keys memo).1.result =
        (memoResults sources kind keys memo).1.mapM id ∧
      (resolveAll sources kind 1 keys memo).2 = (memoResults sources kind keys memo).2 := by
  have hstart : (⟨0, memo, []⟩ : Schedule).flights.length ≤ 1 := Nat.zero_le _
  have hfinish : (⟨0, memo, []⟩ : Schedule).finish = memo := Schedule.finish_of_nil rfl
  obtain ⟨hresult, hstate⟩ :
      (schedule sources kind 1 keys ⟨0, memo, []⟩).1.result = .ok _ ∧ _ := schedule_one keys hstart
  rw [hfinish] at hresult hstate
  let batch : Session Memo (List (Except Fault (Option Signature))) := fun memo =>
    ((schedule sources kind 1 keys ⟨0, memo, []⟩).1,
      (schedule sources kind 1 keys ⟨0, memo, []⟩).2.finish)
  have hbatch : (batch memo).1.result = .ok (memoResults sources kind keys memo).1 := hresult
  unfold resolveAll
  rw [if_neg (by decide)]
  exact ⟨Session.result_bind_of_ok _ hbatch, (Session.state_bind_of_ok _ hbatch).trans hstate⟩

/-- The lookups for keys do to the memory what the keys do to the memo of their kind. -/
theorem results_eq (keys : List String) (m : Memory) :
    results (keys.map fun key => ⟨sources, kind, key⟩) m =
        (memoResults sources kind keys (m.memo kind)).1 ∧
      memoryAfterProbes (keys.map fun key => ⟨sources, kind, key⟩) m =
        (within kind (fun memo => (.answer (), (memoResults sources kind keys memo).2)) m).2 := by
  induction keys generalizing m with
  | nil => exact ⟨rfl, (snd_within_eq_self rfl).symm⟩
  | cons key rest ih =>
      have hresult : ((⟨sources, kind, key⟩ : Probe).perform m).1.result =
          (resolve sources kind key (m.memo kind)).1.result := result_within _ _ m
      have hmemo : ((⟨sources, kind, key⟩ : Probe).perform m).2.memo kind =
          (resolve sources kind key (m.memo kind)).2 := by
        rw [Probe.perform, memo_within, if_pos rfl]
      obtain ⟨hfound, hstate⟩ := ih ((⟨sources, kind, key⟩ : Probe).perform m).2
      rw [hmemo] at hfound
      rw [List.map_cons, results, memoResults, hresult, hfound]
      refine ⟨rfl, ?_⟩
      change memoryAfterProbes _ (Probe.perform _ m).2 = _
      rw [hstate]
      cases kind <;> rfl

theorem mapM_map_eq {α β γ : Type} (f : α → Except Fault β) (g : β → γ) (xs : List α) :
    (xs.mapM fun x => (f x).map g) = (xs.mapM f).map (List.map g) := by
  induction xs with
  | nil => rfl
  | cons x xs ih =>
      rw [List.mapM_cons, List.mapM_cons, ih]
      cases f x with
      | error e => rfl
      | ok b => cases xs.mapM f <;> rfl

/-- With room for one lookup, the memory is left as by lookups that are made one after the other. -/
theorem within_resolveAll_one (keys : List String) (m : Memory) :
    (within kind (resolveAll sources kind 1 keys) m).1.result =
        (results (keys.map fun key => ⟨sources, kind, key⟩) m).mapM id ∧
      (within kind (resolveAll sources kind 1 keys) m).2 =
        memoryAfterProbes (keys.map fun key => ⟨sources, kind, key⟩) m := by
  obtain ⟨hfound, hmemory⟩ := @results_eq sources kind keys m
  obtain ⟨hall, hleft⟩ := @resolveAll_one sources kind keys (m.memo kind)
  constructor
  · rw [result_within, hall, hfound]
  · rw [hmemory]
    cases kind
    · exact congrArg (fun memo => { m with functions := memo }) hleft
    · exact congrArg (fun memo => { m with events := memo }) hleft

/-- Many keys of which one is looked up at a time are looked up one after the other. -/
theorem resolveKeys_one (sources : List SignatureSource) (kind : LookupKind) (keys : List Value)
    (m : Memory) :
    (resolveKeys sources 1 kind keys m).1.result.map (List.map Prod.snd) =
        ((Call.many kind (keys.map fun key => (sources, key))).perform m).1.result ∧
      (resolveKeys sources 1 kind keys m).2 =
        ((Call.many kind (keys.map fun key => (sources, key))).perform m).2 := by
  have hspelled : spelled kind (keys.map fun key => (sources, key)) =
      (keys.mapM kind.normalize).map (List.map fun key => ⟨sources, kind, key⟩) := by
    rw [spelled, List.mapM_map]
    exact mapM_map_eq kind.normalize (fun key => (⟨sources, kind, key⟩ : Probe)) keys
  unfold resolveKeys
  cases hkeys : keys.mapM kind.normalize with
  | error f =>
      rw [Call.perform, hspelled, hkeys]
      exact ⟨rfl, rfl⟩
  | ok ks =>
      rw [hkeys] at hspelled
      obtain ⟨hmany, hafter⟩ := Call.perform_many hspelled m
      obtain ⟨hresult, hstate⟩ := @within_resolveAll_one sources kind ks m
      have hlift : (Session.ofExcept (Except.ok ks) m : Traced (List String) × Memory).1.result =
          .ok ks := rfl
      rw [hmany, hafter, ← hstate, Session.result_bind_of_ok _ hlift,
        Session.state_bind_of_ok _ hlift, Session.state_ofExcept]
      cases hsigs : (results (ks.map fun key => ⟨sources, kind, key⟩) m).mapM id with
      | error f =>
          rw [hsigs] at hresult
          rw [Session.result_bind_of_error _ hresult, Session.state_bind_of_error _ hresult]
          exact ⟨rfl, rfl⟩
      | ok answers =>
          rw [hsigs] at hresult
          rw [Session.result_bind_of_ok _ hresult, Session.state_bind_of_ok _ hresult]
          have hlength := length_results (ks.map fun key => ⟨sources, kind, key⟩) m
          rw [mapM_id_eq_ok_iff.1 hsigs, List.length_map, List.length_map] at hlength
          exact ⟨congrArg Except.ok (List.map_snd_zip (Nat.le_of_eq hlength)), rfl⟩

end ContractAbi.Resolver
