import ContractAbi.Proofs.Chain.Delegates
import ContractAbi.Proofs.Chain.Requests
import Mathlib.Data.List.Perm.Basic

/-!
# Facets in another order

A diamond lists its facets in some order. Which contracts it delegates to does not hang on it.

* `ChainReader.Relists`: readers that differ in the order of facets only;
* `Proxy.result_detect_of_relists` and `Proxy.mem_detectFacets_of_relists`: the same implementation
  and the same facets are found.
-/

namespace ContractAbi

/-- The second reader answers as the first one does, with the facets of diamonds in any order. -/
structure ChainReader.Relists (r q : ChainReader) : Prop where
  code : q.code = r.code
  storage : q.storage = r.storage
  call : ∀ address data, data ≠ Proxy.facetsCall →
    (q.call address data).result = (r.call address data).result
  facets : ∀ address, Except.Related List.Perm (fun _ _ => True)
    ((r.call address Proxy.facetsCall).result.bind Proxy.facetsOfReturn)
    ((q.call address Proxy.facetsCall).result.bind Proxy.facetsOfReturn)

theorem ChainReader.Relists.symm {r q : ChainReader} (h : r.Relists q) : q.Relists r where
  code := h.code.symm
  storage := h.storage.symm
  call address data hdata := (h.call address data hdata).symm
  facets address := (h.facets address).swap (fun _ _ h => h.symm) fun _ _ _ => trivial

namespace Proxy

variable {r q : ChainReader}

variable [AddressLibrary]

theorem result_detect_of_relists (h : r.Relists q) (settings : Settings) (address : Value)
    (selectors : List Value) (code : Value) :
    (detect settings q address selectors code).result =
      (detect settings r address selectors code).result :=
  result_detect_of_softens
    { code := fun address => .same (by rw [h.code])
      storage := fun address slot => .same (by rw [h.storage])
      beacon := fun address => .same (h.call _ _ implementationCall_ne_facetsCall) }
    settings address selectors code

theorem exists_mapM_of_perm {vs vs' : List Value} {as : List String}
    (h : vs.mapM Address.checksumAny = .ok as) (hperm : vs.Perm vs') :
    ∃ as', vs'.mapM Address.checksumAny = .ok as' ∧ ∀ a, a ∈ as' ↔ a ∈ as := by
  obtain ⟨as', has', hperm'⟩ := List.perm_comp_forall₂ hperm.symm (Except.mapM_eq_ok_iff.1 h)
  exact ⟨as', Except.mapM_eq_ok_iff.2 has', fun a => hperm'.mem_iff⟩

theorem mem_detectFacets_of_relists {address : String} {selectors : List Value}
    {facets : List String} (h : r.Relists q)
    (hfacets : (detectFacets r address selectors).result = .ok facets) :
    ∃ facets', (detectFacets q address selectors).result = .ok facets' ∧
      ∀ a, a ∈ facets' ↔ a ∈ facets := by
  unfold detectFacets at hfacets ⊢
  rw [Traced.result_bind] at hfacets ⊢
  obtain ⟨spelt, hspelt, hfacets⟩ := Except.bind_eq_ok_iff.1 hfacets
  rw [hspelt, Except.ok_bind]
  by_cases hnone : (!spelt.contains facetsSelector) = true
  · rw [if_pos hnone] at hfacets ⊢
    exact ⟨facets, hfacets, fun _ => Iff.rfl⟩
  · rw [if_neg hnone, Traced.result_bind, Traced.result_attempt, Except.ok_bind] at hfacets ⊢
    have hlisted := h.facets address
    generalize (r.call address facetsCall).result.bind facetsOfReturn = listed at *
    generalize (q.call address facetsCall).result.bind facetsOfReturn = listed' at *
    cases hlisted with
    | error _ => exact ⟨facets, hfacets, fun _ => Iff.rfl⟩
    | ok hperm =>
        dsimp only at hfacets ⊢
        rw [Traced.result_bind, Traced.result_ofExcept] at hfacets ⊢
        obtain ⟨as, has, hfacets⟩ := Except.bind_eq_ok_iff.1 hfacets
        obtain ⟨as', has', hmem⟩ := exists_mapM_of_perm has hperm
        obtain rfl := Except.ok.inj hfacets
        refine ⟨_, by rw [has']; rfl, fun a => ?_⟩
        rw [mem_foldl_addFacet, mem_foldl_addFacet, hmem]

end Proxy

end ContractAbi
