import ContractAbi.Proofs.Resolver.History

/-!
# The calls of a resolver

Calls look up one key or many, or clear the memory. They complete one after the other, and so do the
lookups of one call.

* `Call.perform`: what a call does to the memory and answers;
* `Call.probes` and `Call.steps`: the lookups that it is made of;
* `performs`: a call does what its lookups do, and answers what they answer;
* `memoryOf_eq`: so calls lead to the memory that their lookups lead to.
-/

namespace ContractAbi.Resolver

/-- A call. The sources are as they answer at the time of the call. Where many keys are looked up,
each has the sources as they answer at the time of its lookup. -/
inductive Call where
  | one (sources : List SignatureSource) (kind : LookupKind) (key : Value)
  | many (kind : LookupKind) (keys : List (List SignatureSource × Value))
  | clear

def spelled (kind : LookupKind) (keys : List (List SignatureSource × Value)) :
    Except Fault (List Probe) :=
  keys.mapM fun k => (kind.normalize k.2).map fun key => ⟨k.1, kind, key⟩

/-- Lookups one after the other. All run to their end, also where one of them fails. -/
def outcomes : List Probe → Session Memory (List (Except Fault (Option Signature)))
  | [] => pure []
  | p :: rest => do
    let r ← p.perform.attempt
    return r :: (← outcomes rest)

namespace Call

def perform : Call → Session Memory (List (Option Signature))
  | one sources kind key => do return [← resolveKey sources kind key]
  | many kind keys => do
    let found ← outcomes (← .ofExcept (spelled kind keys))
    .ofExcept (found.mapM id)
  | clear => do
    .modify fun _ => Memory.empty
    return []

def probes : Call → Except Fault (List Probe)
  | one sources kind key => spelled kind [(sources, key)]
  | many kind keys => spelled kind keys
  | clear => .ok []

def steps : Call → List Step
  | clear => [.clear]
  | call => (call.probes.toOption.getD []).map .probe

end Call

/-! ## Lookups one after the other -/

def results : List Probe → Memory → List (Except Fault (Option Signature))
  | [], _ => []
  | p :: rest, m => (p.perform m).1.result :: results rest (p.perform m).2

def memoryAfterProbes (probes : List Probe) (m : Memory) : Memory :=
  (probes.map Step.probe).foldl Step.after m

theorem outcomes_spec (probes : List Probe) (m : Memory) :
    (outcomes probes m).1.result = .ok (results probes m) ∧
      (outcomes probes m).2 = memoryAfterProbes probes m := by
  induction probes generalizing m with
  | nil => exact ⟨rfl, rfl⟩
  | cons p rest ih =>
      obtain ⟨hresult, hstate⟩ := ih (p.perform m).2
      have hfirst : (p.perform.attempt m).1.result = .ok (p.perform m).1.result := rfl
      unfold outcomes
      rw [Session.result_bind_of_ok _ hfirst, Session.state_bind_of_ok _ hfirst,
        Session.state_attempt, Session.result_bind_of_ok _ hresult,
        Session.state_bind_of_ok _ hresult, hstate]
      exact ⟨rfl, rfl⟩

theorem length_results (probes : List Probe) (m : Memory) :
    (results probes m).length = probes.length := by
  induction probes generalizing m with
  | nil => rfl
  | cons p rest ih => exact congrArg (· + 1) (ih _)

theorem getElem?_results (front : List Probe) (p : Probe) (back : List Probe) (m : Memory) :
    (results (front ++ p :: back) m)[front.length]? =
      some (p.perform (memoryAfterProbes front m)).1.result := by
  induction front generalizing m with
  | nil => rfl
  | cons q front ih => exact ih (q.perform m).2

/-- A lookup answers, if its sources fail or answer with lists. -/
theorem Probe.exists_answer {p : Probe} (h : ∀ s ∈ p.sources, Lists p.kind p.key s) (m : Memory) :
    ∃ r, (p.perform m).1.result = .ok r := by
  cases hknown : m.known? p.kind p.key with
  | some r => exact ⟨r, by rw [perform_known hknown]; rfl⟩
  | none =>
      obtain ⟨l, hl⟩ := exists_search h
      exact ⟨l.signature, by rw [perform_unknown hknown, Traced.result_map, hl]; rfl⟩

theorem exists_answers {probes : List Probe}
    (h : ∀ p ∈ probes, ∀ s ∈ p.sources, Lists p.kind p.key s) (m : Memory) :
    ∃ answers : List (Option Signature), results probes m = answers.map .ok := by
  induction probes generalizing m with
  | nil => exact ⟨[], rfl⟩
  | cons p rest ih =>
      obtain ⟨hfirst, hrest⟩ := List.forall_mem_cons.1 h
      obtain ⟨r, hr⟩ := p.exists_answer hfirst m
      obtain ⟨answers, hanswers⟩ := ih hrest (p.perform m).2
      exact ⟨r :: answers, congrArg₂ List.cons hr hanswers⟩

theorem mapM_id_eq_ok_iff {found : List (Except Fault (Option Signature))}
    {answers : List (Option Signature)} :
    found.mapM id = .ok answers ↔ found = answers.map .ok := by
  rw [Except.mapM_eq_ok_iff, List.forall₂_iff_get]
  constructor
  · rintro ⟨hlength, hget⟩
    refine List.ext_get (by rw [hlength, List.length_map]) fun i h₁ h₂ => ?_
    rw [List.length_map] at h₂
    simpa using hget i h₁ h₂
  · rintro rfl
    exact ⟨List.length_map _, fun i h₁ h₂ => by simp⟩

/-! ## Calls -/

theorem resolveKey_of_ok {sources : List SignatureSource} {kind : LookupKind} {key : Value}
    {k : String} (h : kind.normalize key = .ok k) (m : Memory) :
    resolveKey sources kind key m = Probe.perform ⟨sources, kind, k⟩ m := by
  unfold resolveKey
  rw [h]
  rfl

theorem resolveKey_of_error {sources : List SignatureSource} {kind : LookupKind} {key : Value}
    {f : Fault} (h : kind.normalize key = .error f) (m : Memory) :
    resolveKey sources kind key m = (.fail f, m) := by
  unfold resolveKey
  rw [h]
  rfl

namespace Call

theorem probes_one {kind : LookupKind} {key : Value} {k : String} (h : kind.normalize key = .ok k)
    (sources : List SignatureSource) :
    (one sources kind key).probes = .ok [⟨sources, kind, k⟩] := by
  simp [probes, spelled, h]

theorem steps_one {kind : LookupKind} {key : Value} {k : String} (h : kind.normalize key = .ok k)
    (sources : List SignatureSource) :
    (one sources kind key).steps = [.probe ⟨sources, kind, k⟩] := by
  simp [steps, probes_one h, Except.toOption]

inductive Performs (c : Call) (m : Memory) : Prop
  | refused {f : Fault} (hprobes : c.probes = .error f) (hsteps : c.steps = [])
      (hresult : (c.perform m).1.result = .error f) (hstate : (c.perform m).2 = m)
  | done {probes : List Probe} (hprobes : c.probes = .ok probes)
      (hstate : (c.perform m).2 = c.steps.foldl Step.after m)
      (hresult : ∀ answers,
        (c.perform m).1.result = .ok answers ↔ results probes m = answers.map .ok)

theorem performs_one (sources : List SignatureSource) (kind : LookupKind) (key : Value)
    (m : Memory) : (one sources kind key).Performs m := by
  cases hkey : kind.normalize key with
  | error f =>
      have hprobes : (one sources kind key).probes = .error f := by
        simp [probes, spelled, hkey]
      have hresult : (resolveKey sources kind key m).1.result = .error f := by
        rw [resolveKey_of_error hkey]
        rfl
      refine .refused hprobes (by simp [steps, hprobes, Except.toOption]) ?_ ?_
      · rw [perform, Session.result_bind_of_error _ hresult]
      · rw [perform, Session.state_bind_of_error _ hresult, resolveKey_of_error hkey]
  | ok k =>
      have hsteps := steps_one hkey sources
      have hlookup := @resolveKey_of_ok sources kind key k hkey m
      refine .done (probes_one hkey sources) ?_ fun answers => ?_
      · cases hresult : (resolveKey sources kind key m).1.result with
        | error f =>
            rw [hsteps, perform, Session.state_bind_of_error _ hresult, hlookup]
            rfl
        | ok r =>
            rw [hsteps, perform, Session.state_bind_of_ok _ hresult, hlookup]
            rfl
      · rw [results, ← hlookup]
        cases hresult : (resolveKey sources kind key m).1.result with
        | error f =>
            rw [perform, Session.result_bind_of_error _ hresult]
            cases answers <;> simp
        | ok r =>
            rw [perform, Session.result_bind_of_ok _ hresult]
            cases answers <;> simp [results, eq_comm]

theorem perform_many {kind : LookupKind} {keys : List (List SignatureSource × Value)}
    {probes : List Probe} (h : spelled kind keys = .ok probes) (m : Memory) :
    ((many kind keys).perform m).1.result = (results probes m).mapM id ∧
      ((many kind keys).perform m).2 = memoryAfterProbes probes m := by
  have hlift : (Session.ofExcept (spelled kind keys) m).1.result = .ok probes := h
  obtain ⟨hresult, hstate⟩ := outcomes_spec probes m
  rw [perform, Session.result_bind_of_ok _ hlift, Session.state_bind_of_ok _ hlift,
    Session.state_ofExcept, Session.result_bind_of_ok _ hresult, Session.state_bind_of_ok _ hresult,
    Session.result_ofExcept, Session.state_ofExcept]
  exact ⟨rfl, hstate⟩

theorem performs_many (kind : LookupKind) (keys : List (List SignatureSource × Value))
    (m : Memory) : (many kind keys).Performs m := by
  cases hprobes : (many kind keys).probes with
  | error f =>
      have hlift : (Session.ofExcept (spelled kind keys) m).1.result = .error f := hprobes
      refine .refused hprobes (by simp [steps, hprobes, Except.toOption]) ?_ ?_
      · rw [perform, Session.result_bind_of_error _ hlift]
      · rw [perform, Session.state_bind_of_error _ hlift, Session.state_ofExcept]
  | ok probes =>
      have hsteps : (many kind keys).steps = probes.map .probe := by
        simp [steps, hprobes, Except.toOption]
      obtain ⟨hresult, hstate⟩ := perform_many hprobes m
      refine .done hprobes ?_ fun answers => ?_
      · rw [hsteps, hstate, memoryAfterProbes]
      · rw [hresult, mapM_id_eq_ok_iff]

theorem performs (c : Call) (m : Memory) : c.Performs m := by
  cases c with
  | one sources kind key => exact performs_one sources kind key m
  | many kind keys => exact performs_many kind keys m
  | clear =>
      have hresult : (clear.perform m).1.result = .ok [] := rfl
      refine @Performs.done clear m [] rfl rfl fun answers => ?_
      rw [hresult, results]
      cases answers <;> simp

theorem state_perform (c : Call) (m : Memory) :
    (c.perform m).2 = c.steps.foldl Step.after m := by
  cases c.performs m with
  | refused hprobes hsteps hresult hstate => rw [hstate, hsteps, List.foldl_nil]
  | done hprobes hstate hresult => exact hstate

end Call

def memoryOf (calls : List Call) : Memory :=
  calls.foldl (fun m c => (c.perform m).2) .empty

def past (calls : List Call) : List Step :=
  calls.flatMap Call.steps

theorem past_concat (calls : List Call) (c : Call) :
    past (calls ++ [c]) = past calls ++ c.steps := by
  simp [past]

theorem memoryOf_concat (calls : List Call) (c : Call) :
    memoryOf (calls ++ [c]) = (c.perform (memoryOf calls)).2 :=
  List.foldl_append

theorem memoryOf_eq (calls : List Call) : memoryOf calls = memoryAfter (past calls) := by
  induction calls using List.reverseRecOn with
  | nil => rfl
  | append_singleton before c ih =>
      rw [memoryOf_concat, past_concat, memoryAfter_append, ← ih, Call.state_perform]

end ContractAbi.Resolver
