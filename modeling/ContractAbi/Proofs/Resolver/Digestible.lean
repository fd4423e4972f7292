import ContractAbi.Interface.Skeleton
import ContractAbi.Proofs.Evm.Dispatcher
import ContractAbi.Proofs.Evm.EventTopics
import ContractAbi.Proofs.Interface.Entry
import ContractAbi.Proofs.Resolver.Reach
import ContractAbi.Proofs.Session.Invariant
import ContractAbi.Proofs.Signature

/-!
# Candidates that lookups can use

What a source answers is gone through, and the first candidate that is accepted is made into an
entry, without regard to failures of either. Both succeed for candidates that are digestible.

* `Digestible`: what a source may answer so that nothing fails;
* `meets_enriched` and `meets_eventsOf`: with such answers, functions and events are put together.
-/

namespace ContractAbi.Resolver

def keysOf : LookupKind → Bytes → List String
  | .function => Skeleton.selectors
  | .event => EventTopics.scan

def InCode (kind : LookupKind) (key : String) : Prop :=
  ∃ code, key ∈ keysOf kind code

/-- The types of a signature are types of parameters. An event has no use for outputs. -/
structure Builds (kind : LookupKind) (sig : Signature) : Prop where
  inputs : ∃ ps, Param.ofTypes "param" sig.inputs = .ok ps
  outputs : kind = .function → ∀ types, sig.outputs = some types →
    ∃ ps, Param.ofTypes "output" types = .ok ps

structure BuildsOr (E : Fault → Prop) (kind : LookupKind) (sig : Signature) : Prop where
  inputs : Except.Meets (fun _ => True) E (Param.ofTypes "param" sig.inputs)
  outputs : kind = .function → ∀ types, sig.outputs = some types →
    Except.Meets (fun _ => True) E (Param.ofTypes "output" types)

theorem Builds.buildsOr {kind : LookupKind} {sig : Signature} (h : Builds kind sig)
    (E : Fault → Prop) : BuildsOr E kind sig := by
  refine ⟨?_, fun hkind types htypes => ?_⟩
  · obtain ⟨ps, hps⟩ := h.inputs
    rw [hps]
    exact .ok trivial
  · obtain ⟨ps, hps⟩ := h.outputs hkind types htypes
    rw [hps]
    exact .ok trivial

/-- Candidates that can be gone through for each key of some code, up to one that hashes to it. That
one can be made into an entry. -/
def Digestible (kind : LookupKind) (candidates : Value) : Prop :=
  candidates = .null ∨ ∃ items, candidates.toItems = .ok items ∧
    ∀ key, InCode kind key → ∃ found, chosen kind key items = .ok found ∧
      ∀ sig, found = some sig → Builds kind sig

variable {kind : LookupKind} {key : String} {sources : List SignatureSource} {E : Fault → Prop}

theorem normalize_of_inCode (h : InCode kind key) : kind.normalize (.text key) = .ok key := by
  cases kind with
  | function =>
      obtain ⟨code, hkey⟩ := h
      exact Dispatcher.normalize_of_mem_selectors hkey
  | event =>
      obtain ⟨code, hkey⟩ := h
      exact EventTopics.normalize_of_mem_scan hkey

/-- Answers that are digestible give a signature that builds, or none. -/
theorem meets_verdict
    (hsources : ∀ source ∈ sources, ∀ v, (source.candidates kind key).result = .ok v →
      Digestible kind v)
    (hkey : InCode kind key) :
    Except.Meets (fun o => ∀ sig, o = some sig → Builds kind sig) E
      (verdict kind key sources) := by
  induction sources with
  | nil => exact .ok (by simp)
  | cons source rest ih =>
      have hrest := ih fun other hother => hsources other (List.mem_cons_of_mem _ hother)
      unfold verdict
      cases hoffered : offered? source kind key with
      | none => exact hrest
      | some v =>
          obtain ⟨hanswer, hnull⟩ := answer_of_offered? hoffered
          obtain ⟨items, hitems, hbuilds⟩ :=
            (hsources source List.mem_cons_self v hanswer).resolve_left hnull
          obtain ⟨found, hchosen, hfound⟩ := hbuilds key hkey
          dsimp only
          rw [hitems, Except.ok_bind, hchosen, Except.ok_bind]
          cases found with
          | none => exact hrest
          | some sig => exact .ok hfound

/-! ## Entries from signatures -/

theorem meets_applyTo {sig : Signature} {f : FunctionEntry} (hsig : BuildsOr E .function sig)
    (hf : f.Spelt) : Except.Meets FunctionEntry.Spelt E (sig.applyTo f) := by
  have hmake : ∀ outputs mutability, Except.Meets FunctionEntry.Spelt E (do
      FunctionEntry.make (.text f.selector) (.text sig.name)
        (← Param.ofTypes "param" sig.inputs) outputs mutability) := by
    intro outputs mutability
    refine hsig.inputs.bind fun inputs _ => ?_
    unfold FunctionEntry.make
    rw [hf, Except.ok_bind]
    exact .ok hf
  unfold Signature.applyTo
  cases houtputs : sig.outputs with
  | none => exact hmake f.outputs f.mutability
  | some types =>
      refine (hsig.outputs rfl types houtputs).bind fun outputs _ => ?_
      exact hmake outputs (.text "view")

theorem meets_toEvent {sig : Signature} {topic : String} (hsig : BuildsOr E .event sig)
    (htopic : Topic.normalize (.text topic) = .ok topic) :
    Except.Meets (fun _ => True) E (sig.toEvent (.text topic)) := by
  unfold Signature.toEvent
  refine hsig.inputs.bind fun inputs _ => ?_
  unfold EventEntry.make
  rw [if_pos (Topic.holds_of_normalize htopic), htopic, Except.ok_bind]
  exact .ok trivial

/-! ## Many keys -/

section

variable {say : LookupKind → String → Except Fault (Option Signature)} {limit : Int}

def Tellable (E : Fault → Prop) (say : LookupKind → String → Except Fault (Option Signature)) :
    Prop :=
  ∀ kind key, InCode kind key →
    Except.Meets (fun o => ∀ sig, o = some sig → BuildsOr E kind sig) E (say kind key)

theorem meets_signatures (hsay : Tellable E say)
    (hlimit : limit < 0 → E (.malformed .negativeConcurrency)) {keys : List Value}
    (hkeys : ∀ v ∈ keys, ∃ key, InCode kind key ∧ v = .text key) :
    Except.Meets (fun found => ∀ key sig, (key, some sig) ∈ found →
      InCode kind key ∧ BuildsOr E kind sig) E (signatures say limit kind keys) := by
  unfold signatures
  refine (Except.Meets.mapM (Q := InCode kind) fun v hv => ?_).bind fun spelt hspelt => ?_
  · obtain ⟨key, hkey, rfl⟩ := hkeys v hv
    rw [normalize_of_inCode hkey]
    exact .ok hkey
  · by_cases hnegative : limit < 0
    · rw [if_pos hnegative]
      exact .error (hlimit hnegative)
    · rw [if_neg hnegative]
      refine (Except.Meets.mapM fun key hkey => hsay kind key (hspelt key hkey)).bind
        fun answers hanswers => .ok fun key sig hmem => ?_
      obtain ⟨hkey, hanswer⟩ := List.of_mem_zip hmem
      exact ⟨hspelt key hkey, hanswers (some sig) hanswer sig rfl⟩

theorem meets_applyFound {found : List (String × Option Signature)}
    (hfound : ∀ key sig, (key, some sig) ∈ found → BuildsOr E .function sig) {f : FunctionEntry}
    (hf : f.Spelt) : Except.Meets FunctionEntry.Spelt E (applyFound found f) := by
  unfold applyFound
  split
  · rename_i key sig hfind
    exact meets_applyTo
      (hfound key sig (List.mem_reverse.1 (List.mem_of_find?_eq_some hfind))) hf
  · exact .ok hf

theorem selector_mem_of_functions {code : Bytes} {f : FunctionEntry}
    (h : f ∈ Skeleton.functions code) : f.selector ∈ Skeleton.selectors code := by
  obtain ⟨s, hs, rfl⟩ := List.mem_map.1 h
  exact hs

/-- The functions of a code are put together, and keep selectors in their one spelling. -/
theorem meets_enriched (hsay : Tellable E say)
    (hlimit : limit < 0 → E (.malformed .negativeConcurrency)) (code : Bytes) :
    Except.Meets (fun functions => ∀ f ∈ functions, f.Spelt) E
      (enriched say limit (Skeleton.functions code)) := by
  unfold enriched
  refine (meets_signatures hsay hlimit fun v hv => ?_).bind fun found hfound => ?_
  · obtain ⟨f, hf, rfl⟩ := List.mem_map.1 hv
    exact ⟨f.selector, ⟨code, selector_mem_of_functions (List.mem_filter.1 hf).1⟩, rfl⟩
  · exact Except.Meets.mapM fun f hf => meets_applyFound (fun key sig h => (hfound key sig h).2)
      (Dispatcher.normalize_of_mem_selectors (selector_mem_of_functions hf))

theorem meets_eventsOf (hsay : Tellable E say)
    (hlimit : limit < 0 → E (.malformed .negativeConcurrency)) {topics : List String}
    {code : Bytes} (htopics : ∀ t ∈ topics, t ∈ EventTopics.scan code) :
    Except.Meets (fun _ => True) E (eventsOf say limit (topics.map .text)) := by
  unfold eventsOf
  refine (meets_signatures hsay hlimit fun v hv => ?_).bind fun found hfound => ?_
  · obtain ⟨topic, htopic, rfl⟩ := List.mem_map.1 hv
    exact ⟨topic, ⟨code, htopics topic htopic⟩, rfl⟩
  · refine (Except.Meets.mapM (Q := fun _ => True) ?_).mono (fun _ _ => trivial) fun _ h => h
    rintro ⟨topic, sig⟩ hp
    obtain ⟨⟨t, o⟩, hmem, hpair⟩ := List.mem_filterMap.1 hp
    obtain ⟨s, rfl, hboth⟩ := Option.map_eq_some_iff.1 hpair
    obtain ⟨rfl, rfl⟩ := Prod.mk.inj hboth
    obtain ⟨hkey, hbuilds⟩ := hfound _ _ hmem
    exact meets_toEvent hbuilds (normalize_of_inCode hkey)

end

end ContractAbi.Resolver
