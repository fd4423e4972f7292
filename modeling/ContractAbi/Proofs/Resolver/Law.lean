import ContractAbi.Proofs.Resolver.Calls
import ContractAbi.Proofs.Resolver.Serial

/-!
# What every call of a resolver can count on

Sources may answer with lists, with nothing or not at all, and may change between any two lookups.

* `MemoryLaw`: where the entries of the memory come from;
* `LookupLaw`: what holds of a lookup, whatever was looked up and cleared before it;
* `CallLaw` and `history_law`: what holds of a call after any other calls.
-/

namespace ContractAbi.Resolver

variable {history : List Step} {kind : LookupKind} {key : String}

/-- The history has a search of the lookup in it: nothing was known of its key when it came, and the
memory has not been cleared since. -/
def Searched (history : List Step) (q : Probe) : Prop :=
  ∃ earlier later, history = earlier ++ .probe q :: later ∧ .clear ∉ later ∧
    (memoryAfter earlier).known? q.kind q.key = none

theorem Searched.of_known? {r : Option Signature}
    (h : (memoryAfter history).known? kind key = some r) :
    ∃ q, Searched history q ∧ q.Is kind key ∧ q.learnt? = some r := by
  obtain ⟨earlier, q, later, hsplit, hlater, hq, hunknown, hlearnt⟩ := exists_of_known? h
  refine ⟨q, ⟨earlier, later, hsplit, hlater, ?_⟩, hq, hlearnt⟩
  rwa [hq.1, hq.2]

theorem Searched.concat {q : Probe} (h : Searched history q) (p : Probe) :
    Searched (history ++ [.probe p]) q := by
  obtain ⟨earlier, later, rfl, hlater, hunknown⟩ := h
  refine ⟨earlier, later ++ [.probe p], ?_, ?_, hunknown⟩
  · rw [List.append_assoc, List.cons_append]
  · simp [hlater]

structure MemoryLaw (history : List Step) : Prop where
  /-- A signature is remembered from a search that found it at the first source that names one. -/
  hits : ∀ {kind key sig}, (memoryAfter history).known? kind key = some (some sig) →
    ∃ q, Searched history q ∧ q.Is kind key ∧ NamedFirst kind key q.sources sig
  /-- That there is no signature is remembered from a search in which every source gave an answer,
  and none of the candidates was accepted. -/
  misses : ∀ {kind key}, (memoryAfter history).known? kind key = some none →
    ∃ q, Searched history q ∧ q.Is kind key ∧
      ∀ s ∈ q.sources, (offered? s kind key).isSome = true ∧ Declines kind key s
  /-- What is remembered stays until the memory is cleared. -/
  stays : ∀ {kind key r more}, (memoryAfter history).known? kind key = some r → .clear ∉ more →
    (memoryAfter (history ++ more)).known? kind key = some r
  /-- Then nothing is remembered. -/
  cleared : ∀ {kind key}, (memoryAfter (history ++ [.clear])).known? kind key = none

theorem memoryLaw (history : List Step) : MemoryLaw history where
  hits h := by
    obtain ⟨q, hsearched, ⟨rfl, rfl⟩, hlearnt⟩ := Searched.of_known? h
    obtain ⟨l, hfound, -, hsig⟩ := learnt?_eq_some_iff.1 hlearnt
    exact ⟨q, hsearched, ⟨rfl, rfl⟩, namedFirst_of_search hfound hsig⟩
  misses h := by
    obtain ⟨q, hsearched, ⟨rfl, rfl⟩, hlearnt⟩ := Searched.of_known? h
    exact ⟨q, hsearched, ⟨rfl, rfl⟩, answered_of_learnt? hlearnt⟩
  stays := known?_append
  cleared := by
    rw [memoryAfter_concat]
    exact known?_empty

structure LookupLaw (history : List Step) (p : Probe) : Prop where
  /-- A signature that is answered was found by a search, this one or one since the last clearing,
  at the first source that names one. -/
  named : ∀ {sig}, (p.perform (memoryAfter history)).1.result = .ok (some sig) →
    ∃ q, Searched (history ++ [.probe p]) q ∧ q.Is p.kind p.key ∧
      NamedFirst p.kind p.key q.sources sig
  /-- What is remembered is answered, nobody is asked, and nothing changes. -/
  remembered : ∀ {r}, (memoryAfter history).known? p.kind p.key = some r →
    p.perform (memoryAfter history) = (.answer r, memoryAfter history)
  /-- What is not remembered is searched for, from the first source on. -/
  searched : (memoryAfter history).known? p.kind p.key = none →
    (p.perform (memoryAfter history)).1 = Lookup.signature <$> search p.kind p.key p.sources
  /-- The answer is remembered, if it is a signature or every source gave an answer. -/
  kept : ∀ {r}, (p.perform (memoryAfter history)).1.result = .ok r →
    (r = none → ∀ s ∈ p.sources, (offered? s p.kind p.key).isSome = true) →
    (memoryAfter (history ++ [.probe p])).known? p.kind p.key = some r
  /-- Where the last search for the key found nothing and some source failed in it, nothing is
  remembered. -/
  again : ∀ {earlier q later}, history = earlier ++ .probe q :: later → q.Is p.kind p.key →
    (memoryAfter earlier).known? q.kind q.key = none →
    (q.perform (memoryAfter earlier)).1.result = .ok none →
    (∃ s ∈ q.sources, offered? s q.kind q.key = none) →
    (∀ r, .probe r ∈ later → ¬r.Is p.kind p.key) →
    (memoryAfter history).known? p.kind p.key = none
  /-- A signature that some source names is not missed, whatever the other sources have. -/
  found : (memoryAfter history).known? p.kind p.key = none →
    (∀ s ∈ p.sources, Lists p.kind p.key s) → (∃ s ∈ p.sources, ∃ sig, Names p.kind p.key s sig) →
    ∃ sig, (p.perform (memoryAfter history)).1.result = .ok (some sig)
  /-- The memo of the other kind of keys neither matters nor changes. -/
  apart : ∀ {other}, p.kind ≠ other →
    (p.perform (memoryAfter history)).2.memo other = (memoryAfter history).memo other ∧
      ∀ m : Memory, m.memo p.kind = (memoryAfter history).memo p.kind →
        (p.perform m).1 = (p.perform (memoryAfter history)).1
  /-- There is an answer, if the sources fail or answer with lists of what can be hashed. -/
  answers : (∀ s ∈ p.sources, Lists p.kind p.key s) →
    ∃ r, (p.perform (memoryAfter history)).1.result = .ok r

theorem named_of_perform {p : Probe} {sig : Signature}
    (h : (p.perform (memoryAfter history)).1.result = .ok (some sig)) :
    ∃ q, Searched (history ++ [.probe p]) q ∧ q.Is p.kind p.key ∧
      NamedFirst p.kind p.key q.sources sig := by
  cases hknown : (memoryAfter history).known? p.kind p.key with
  | some r =>
      rw [perform_known hknown] at h
      obtain rfl := Except.ok.inj h
      obtain ⟨q, hsearched, hq⟩ := (memoryLaw history).hits hknown
      exact ⟨q, hsearched.concat p, hq⟩
  | none =>
      rw [perform_unknown hknown, Traced.result_map] at h
      obtain ⟨l, hfound, hsig⟩ := Except.map_eq_ok_iff.1 h
      exact ⟨p, ⟨history, [], rfl, List.not_mem_nil, hknown⟩, ⟨rfl, rfl⟩,
        namedFirst_of_search hfound hsig⟩

theorem known?_of_perform {p : Probe} {r : Option Signature}
    (h : (p.perform (memoryAfter history)).1.result = .ok r)
    (hanswered : r = none → ∀ s ∈ p.sources, (offered? s p.kind p.key).isSome = true) :
    (memoryAfter (history ++ [.probe p])).known? p.kind p.key = some r := by
  rw [memoryAfter_concat, Step.after, known?_perform,
    if_pos (show p.Is p.kind p.key from ⟨rfl, rfl⟩)]
  cases hknown : (memoryAfter history).known? p.kind p.key with
  | some r' =>
      rw [perform_known hknown] at h
      rw [Option.some_or, Except.ok.inj h]
  | none =>
      rw [perform_unknown hknown, Traced.result_map] at h
      obtain ⟨l, hfound, rfl⟩ := Except.map_eq_ok_iff.1 h
      rw [Option.none_or]
      refine learnt?_eq_some_iff.2 ⟨l, hfound, ?_, rfl⟩
      cases hsig : l.signature with
      | some sig => simp [Lookup.isFinal, hsig]
      | none =>
          obtain ⟨-, hall⟩ := declines_of_search hfound hsig
          rw [Lookup.isFinal, hall, List.all_eq_true.2 (hanswered hsig), Bool.or_true]

theorem unknown_again {earlier later : List Step} {q : Probe}
    (hsplit : history = earlier ++ .probe q :: later) (hq : q.Is kind key)
    (hunknown : (memoryAfter earlier).known? q.kind q.key = none)
    (hmissed : (q.perform (memoryAfter earlier)).1.result = .ok none)
    (hfails : ∃ s ∈ q.sources, offered? s q.kind q.key = none)
    (hlater : ∀ r, .probe r ∈ later → ¬r.Is kind key) :
    (memoryAfter history).known? kind key = none := by
  obtain ⟨rfl, rfl⟩ := hq
  rw [perform_unknown hunknown, Traced.result_map] at hmissed
  obtain ⟨l, hfound, hnone⟩ := Except.map_eq_ok_iff.1 hmissed
  rw [hsplit, List.append_cons]
  refine known?_append_eq_none ?_ hlater
  rw [memoryAfter_concat, Step.after, known?_perform, hunknown, Option.none_or,
    if_pos (show q.Is q.kind q.key from ⟨rfl, rfl⟩)]
  exact learnt?_eq_none hfound hnone hfails

theorem exists_named {p : Probe} {m : Memory} (hunknown : m.known? p.kind p.key = none)
    (hlists : ∀ s ∈ p.sources, Lists p.kind p.key s)
    (hnames : ∃ s ∈ p.sources, ∃ sig, Names p.kind p.key s sig) :
    ∃ sig, (p.perform m).1.result = .ok (some sig) := by
  obtain ⟨s, hs, sig, hnames⟩ := hnames
  obtain ⟨l, hfound⟩ := exists_search hlists
  have hresult : (p.perform m).1.result = .ok l.signature := by
    rw [perform_unknown hunknown, Traced.result_map, hfound]
    rfl
  cases hsig : l.signature with
  | some found => exact ⟨found, by rw [hresult, hsig]⟩
  | none =>
      obtain ⟨hall, -⟩ := declines_of_search hfound hsig
      exact absurd (hall s hs) (not_declines_of_names hnames)

theorem lookupLaw (history : List Step) (p : Probe) : LookupLaw history p where
  named := named_of_perform
  remembered := perform_known
  searched := perform_unknown
  kept := known?_of_perform
  again := unknown_again
  found := exists_named
  apart h := by
    refine ⟨memo_perform_of_ne p _ h, fun m hm => ?_⟩
    rw [Probe.perform, fst_within, fst_within, hm]
  answers h := p.exists_answer h _

structure CallLaw (calls : List Call) (call : Call) : Prop where
  /-- The calls before have led to what their lookups and clearings lead to. -/
  memory : memoryOf calls = memoryAfter (past calls)
  /-- Where its entries come from. -/
  entries : MemoryLaw (past calls)
  /-- A call with a key that has no spelling does nothing. -/
  refused : ∀ {f}, call.probes = .error f →
    (call.perform (memoryOf calls)).1.result = .error f ∧
      (call.perform (memoryOf calls)).2 = memoryOf calls
  /-- Any other call answers, if the sources fail or answer with lists of what can be hashed. -/
  answers : ∀ {probes}, call.probes = .ok probes →
    (∀ p ∈ probes, ∀ s ∈ p.sources, Lists p.kind p.key s) →
    ∃ signatures, (call.perform (memoryOf calls)).1.result = .ok signatures
  /-- There is one answer for each lookup of the call. -/
  complete : ∀ {probes signatures}, call.probes = .ok probes →
    (call.perform (memoryOf calls)).1.result = .ok signatures → signatures.length = probes.length
  /-- What holds of each lookup, and that the call answers what the lookup answers. -/
  lookups : ∀ {front p back}, call.probes = .ok (front ++ p :: back) →
    LookupLaw (past calls ++ front.map .probe) p ∧
      ∀ signatures, (call.perform (memoryOf calls)).1.result = .ok signatures →
        ∃ r, signatures[front.length]? = some r ∧
          (p.perform (memoryAfter (past calls ++ front.map .probe))).1.result = .ok r
  /-- Many keys of which one is looked up at a time, from sources that stay as they are during the
  call, are looked up by such a call. -/
  batch : ∀ {sources kind keys}, call = .many kind (keys.map fun key => (sources, key)) →
    (resolveKeys sources 1 kind keys (memoryOf calls)).1.result.map (List.map Prod.snd) =
        (call.perform (memoryOf calls)).1.result ∧
      (resolveKeys sources 1 kind keys (memoryOf calls)).2 = (call.perform (memoryOf calls)).2

def silentSource : SignatureSource :=
  ⟨"silent", fun _ _ => .fail (.timeout "")⟩

def listingSource (candidates : List String) : SignatureSource :=
  ⟨"listing", fun _ _ => .answer (.list (candidates.map .text))⟩

def transferCall (sources : List SignatureSource) : Call :=
  .one sources .function (.text "A9059CBB")

def transferProbe (sources : List SignatureSource) : Probe :=
  ⟨sources, .function, "0xa9059cbb"⟩

theorem normalize_transfer :
    LookupKind.function.normalize (.text "A9059CBB") = .ok "0xa9059cbb" := by
  rfl

def unhelpful : List SignatureSource := [silentSource, listingSource ["mint()"]]

def helpful : List SignatureSource :=
  [silentSource, listingSource ["mint()", "transfer(", "transfer(address,uint256)"]]

theorem result_unhelpful : ((transferProbe unhelpful).perform .empty).1.result = .ok none := by
  have hnone : ∀ c ∈ ["mint()"].map Value.text, settled? .function "0xa9059cbb" c = none := by
    decide +kernel
  rw [perform_unknown known?_empty, Traced.result_map, transferProbe, unhelpful,
    search_cons_failed rfl, search_cons_listed rfl rfl, chosen_eq_none_iff.2 hnone]
  rfl

theorem lists_helpful : ∀ s ∈ helpful, Lists .function "0xa9059cbb" s := by
  have hhashable : ["mint()", "transfer(", "transfer(address,uint256)"].all (fun s =>
      (Signature.parse s).toOption.all fun sig => (Text.loneHalves? sig.text).isNone) = true := by
    decide +kernel
  intro s hs v hv
  simp only [helpful, List.mem_cons, List.not_mem_nil, or_false] at hs
  obtain rfl | rfl := hs
  · exact absurd hv (by simp [offered?, silentSource])
  · refine ⟨_, (Option.some.inj hv).symm, fun s sig hs hparse => ?_⟩
    obtain ⟨t, ht, hsame⟩ := List.mem_map.1 hs
    obtain rfl := Value.text.inj hsame
    have hsig := List.all_eq_true.1 hhashable t ht
    rw [hparse] at hsig
    exact Option.isNone_iff_eq_none.1 hsig

theorem names_helpful : ∃ s ∈ helpful, ∃ sig, Names .function "0xa9059cbb" s sig := by
  obtain ⟨found, hchosen, hfound⟩ := Except.exists_ok_of_toOption
    (show (chosen .function "0xa9059cbb"
      (["mint()", "transfer(", "transfer(address,uint256)"].map .text)).toOption.map
        Option.isSome = some true by decide +kernel)
  obtain ⟨sig, rfl⟩ := Option.isSome_iff_exists.1 hfound
  exact ⟨_, List.mem_cons_of_mem _ List.mem_cons_self, sig, names_iff.2 ⟨_, _, rfl, rfl, hchosen⟩⟩

end ContractAbi.Resolver
