import ContractAbi.Proofs.Assembly.HashIntegrity
import ContractAbi.Proofs.Loader
import ContractAbi.Proofs.Resolver.Digestible
import ContractAbi.Proofs.Resolver.Requests

/-!
# What is asked for one contract

The own entries of a contract come from its loaders. Only where these publish nothing that can be
used is the code of the contract asked for, and are the sources asked for the keys in it.

* `asks_published`: the interface that is published;
* `asks_fromCode`: the entries of a code, for which no keys but its own are looked up;
* `asks_ownEntries`: the own entries of a contract.
-/

namespace ContractAbi.Assembler

open Resolver

variable {R : Request → Prop} {services : Services} {options : Options} {address : String}
  {chain : Value} {code : Bytes}

theorem asks_getCode {reader : ChainReader} (chain : Value) (h : (reader.code address).Asks R) :
    (getCode reader address chain).Asks R := by
  unfold getCode
  refine h.attempt.bind fun code => ?_
  split
  · split
    · exact Traced.asks_fail _
    · exact Traced.asks_ofExcept _
  · exact Traced.asks_fail _
  · exact Traced.asks_fail _
  · exact Traced.asks_fail _

theorem asks_lookUp (h : ∀ kind, ∀ key ∈ keysOf kind code, SourcesAsk R kind key services.sources) :
    (lookUp services options code).Asks R := by
  have hfunctions : (enrich services.sources options.concurrency (Skeleton.functions code)).Asks
      R := by
    refine asks_enrich _ fun f hf key hkey => ?_
    have hmem := selector_mem_of_functions hf
    rw [Dispatcher.normalize_of_mem_selectors hmem] at hkey
    obtain rfl := Except.ok.inj hkey
    exact h .function _ hmem
  have hevents : (resolveEvents services.sources options.concurrency
      ((options.topics code).map .text)).Asks R := by
    refine asks_resolveEvents _ fun v hv key hkey => ?_
    obtain ⟨topic, htopic, rfl⟩ := List.mem_map.1 hv
    have hmem : topic ∈ EventTopics.scan code := by
      unfold Options.topics at htopic
      split at htopic
      · exact htopic
      · exact absurd htopic List.not_mem_nil
    rw [EventTopics.normalize_of_mem_scan hmem] at hkey
    obtain rfl := Except.ok.inj hkey
    exact h .event _ hmem
  unfold lookUp
  refine hfunctions.bind fun functions => ?_
  split
  · exact (Session.asks_pure _).bind fun _ => Session.asks_pure _
  · exact hevents.bind fun _ => Session.asks_pure _

theorem asks_fromCode
    (h : ∀ kind, ∀ key ∈ keysOf kind code, SourcesAsk R kind key services.sources) :
    (fromCode services options address code).Asks R := by
  rw [fromCode_eq_lookUp]
  split
  · exact (Session.asks_note _ _ _).bind fun _ => asks_lookUp h
  · exact asks_lookUp h

theorem asks_published
    (h : ∀ loader ∈ services.loaders, (loader.fetch (.text address) chain).Asks R) :
    (published services address chain).Asks R := by
  unfold published
  refine (AbiLoader.asks_loadVerified h).bind fun found => ?_
  split
  · exact Traced.asks_pure _
  · split
    · exact Traced.asks_pure _
    · exact (Traced.asks_note _ _ _).bind fun _ => Traced.asks_pure _

/-- The sources are asked for the keys of a code only, and that only if it is the code of a contract
for which nothing is published that can be used. -/
theorem asks_ownEntries
    (hloaders : ∀ loader ∈ services.loaders, (loader.fetch (.text address) chain).Asks R)
    (hcode : (services.reader.code address).Asks R)
    (hsources : (published services address chain).result = .ok none →
      ∀ code, (getCode services.reader address chain).result = .ok code →
        ∀ kind, ∀ key ∈ keysOf kind code, SourcesAsk R kind key services.sources) :
    (ownEntries services options address chain).Asks R := by
  unfold ownEntries
  refine Session.asks_lift_bind (asks_published hloaders) fun found hfound => ?_
  split
  · exact Session.asks_pure _
  · refine Session.asks_lift_bind (asks_getCode chain hcode) fun code hanswer => ?_
    exact (asks_fromCode (hsources hfound code hanswer)).bind fun _ => Session.asks_pure _

end ContractAbi.Assembler
