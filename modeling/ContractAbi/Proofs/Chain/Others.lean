import ContractAbi.Address.Libraries
import ContractAbi.Proofs.Chain.Slots

/-!
# Delegates and the contract itself

What storage tells and what a diamond lists is neither the zero address nor the contract that is
asked about. The target of a clone may be either of them: it counts as soon as there is code at it.

* `Proxy.detectFacets_cases` and `Proxy.facets_other`: the facets that are found;
* `Proxy.delegates_other`: only by way of a clone does a contract delegate to itself or to the zero
  address, and then it does;
* `Proxy.detect_itself`: it may happen.
-/

namespace ContractAbi.Proxy

open Address

variable {r : ChainReader} {address : String} {selectors : List Value} {facets : List String}

/-! ## Facets -/

/-- There are no facets, or those of the addresses that the diamond answers with. -/
theorem detectFacets_cases [AddressLibrary]
    (h : (detectFacets r address selectors).result = .ok facets) :
    facets = [] ∨ ∃ raw listed spelt, (r.call address facetsCall).result = .ok raw ∧
      facetsOfReturn raw = .ok listed ∧ listed.mapM checksumAny = .ok spelt ∧
      facets = (spelt.filter (isOther address)).eraseDups := by
  unfold detectFacets at h
  rw [Traced.result_bind] at h
  obtain ⟨own, -, h⟩ := Except.bind_eq_ok_iff.1 h
  split at h
  · exact .inl (Except.ok.inj h).symm
  · rw [Traced.result_bind, Traced.result_attempt, Except.ok_bind] at h
    cases hraw : (r.call address facetsCall).result.bind facetsOfReturn with
    | error f =>
        rw [hraw] at h
        exact .inl (Except.ok.inj h).symm
    | ok listed =>
        rw [hraw] at h
        obtain ⟨raw, hcall, hlisted⟩ := Except.bind_eq_ok_iff.1 hraw
        dsimp only at h
        rw [Traced.result_bind, Traced.result_ofExcept] at h
        obtain ⟨spelt, hspelt, h⟩ := Except.bind_eq_ok_iff.1 h
        refine .inr ⟨raw, listed, spelt, hcall, hlisted, hspelt, ?_⟩
        rw [← foldl_addFacet]
        exact (Except.ok.inj h).symm

theorem facets_other [AddressLibrary] (h : (detectFacets r address selectors).result = .ok facets) :
    facets.Nodup ∧ ∀ a ∈ facets, IsSpelt a ∧ a ≠ zero ∧ fold a ≠ fold address := by
  rcases detectFacets_cases h with rfl | ⟨raw, listed, spelt, -, -, hspelt, rfl⟩
  · exact ⟨List.nodup_nil, by simp⟩
  · refine ⟨nodup_eraseDups _, fun a ha => ?_⟩
    rw [← foldl_addFacet, mem_foldl_addFacet] at ha
    obtain ⟨hlisted, hself, hzero⟩ := ha
    obtain ⟨v, -, hv⟩ := Except.exists_of_mem_mapM hspelt hlisted
    have hspelt := isSpelt_of_checksumAny hv
    exact ⟨hspelt, mt (fold_eq_zero_iff hspelt).2 hzero, hself⟩

/-! ## Implementations -/

/-- The addresses that slots and diamonds do not tell: that of the contract itself, in whatever
case, and the zero address. -/
def IsBarred (place a : String) : Prop :=
  a = zero ∨ fold a = fold place

/-- A contract delegates to itself, or to the zero address, if its code is a clone of that address
and there is code there, and in no other way. Facets are different from both, and from each
other. -/
theorem delegates_other [AddressLibrary] (settings : Settings) (r : ChainReader) :
    (∀ address selectors code i,
      (detect settings r address selectors code).result = .ok (some i) →
        ∃ place a, checksum address = .ok place ∧ i.implementation = .text a ∧ IsSpelt a ∧
          (IsBarred place a → Clones r code a)) ∧
    (∀ address selectors code place a, checksum address = .ok place → Clones r code a →
      (detect settings r address selectors code).result =
        .ok (some ⟨.text a, .text "eip1167", []⟩)) ∧
    ∀ address selectors facets, (detectFacets r address selectors).result = .ok facets →
      facets.Nodup ∧ ∀ a ∈ facets, IsSpelt a ∧ ¬IsBarred address a := by
  refine ⟨fun address selectors code i h => ?_, fun address selectors code place a hplace h => ?_,
    fun address selectors facets h => ?_⟩
  · obtain ⟨place, hplace, h⟩ := detect_eq_ok_iff.1 h
    obtain ⟨a, hi, hspelt, -, hclones | ⟨hzero, hself⟩⟩ := implementation_of_detectAt h
    · exact ⟨place, a, hplace, hi, hspelt, fun _ => hclones⟩
    · exact ⟨place, a, hplace, hi, hspelt, fun hbarred => (hbarred.elim hzero hself).elim⟩
  · exact detect_eq_ok_iff.2 ⟨place, hplace, detectAt_of_clones h⟩
  · obtain ⟨hdistinct, hother⟩ := facets_other h
    exact ⟨hdistinct, fun a ha => ⟨(hother a ha).1, not_or.2 (hother a ha).2⟩⟩

def cloneOf (target : Bytes) : Bytes :=
  MinimalProxy.head ++ target ++ MinimalProxy.tail

def listingReader (address : String) (code : Bytes) : ChainReader where
  code a := .answer (.bytes (if a = address then code else []))
  storage _ _ := .answer (.bytes (List.replicate 32 0))
  call _ _ := .answer (.bytes (
    List.replicate 31 0 ++ [32] ++ List.replicate 31 0 ++ [4] ++
    List.replicate 12 0 ++ List.replicate 20 0x11 ++ List.replicate 32 0 ++
    List.replicate 12 0 ++ List.replicate 20 0x33 ++
    List.replicate 12 0 ++ List.replicate 20 0x33))
  chainId := .answer .null

open AddressLibrary in
theorem delegates_other_clone :
    let itself := "0x1111111111111111111111111111111111111111"
    let code := cloneOf (List.replicate 20 0x11)
    let r := listingReader itself code
    (∃ i, (detect .default r (.text itself) [] (.bytes code)).result = .ok (some i) ∧
      Clones r (.bytes code) itself) ∧
    ∃ facets, (detectFacets r itself [.text facetsSelector]).result = .ok facets ∧
      facets = ["0x3333333333333333333333333333333333333333"] ∧ facets.Nodup ∧
      ∀ a ∈ facets, ¬IsBarred itself a := by
  intro itself code r
  obtain ⟨hdetect, -, hfacets⟩ := delegates_other .default r
  obtain ⟨info, hinfo, hfound⟩ := Except.exists_ok_of_toOption
    (show ((detect .default r (.text itself) [] (.bytes code)).result.toOption.map fun info =>
        info.map ProxyInfo.implementation) = some (some (.text itself)) by decide +kernel)
  obtain ⟨i, rfl, hi⟩ := Option.map_eq_some_iff.1 hfound
  obtain ⟨place, a, hplace, ha, -, hclones⟩ := hdetect _ _ _ i hinfo
  obtain ⟨facets, hlisted, hlist⟩ := Except.exists_ok_of_toOption
    (show (detectFacets r itself [.text facetsSelector]).result.toOption.map id =
      some ["0x3333333333333333333333333333333333333333"] by decide +kernel)
  obtain ⟨hdistinct, hother⟩ := hfacets _ _ _ hlisted
  refine ⟨⟨i, hinfo, ?_⟩, facets, hlisted, hlist, hdistinct, fun a ha => (hother a ha).2⟩
  obtain ⟨b, hb, rfl⟩ := Except.exists_ok_of_toOption
    (show (checksum (.text itself)).toOption.map id = some itself by decide +kernel)
  obtain rfl := Except.ok.inj (hb.symm.trans hplace)
  obtain rfl := Value.text.inj (hi.symm.trans ha)
  exact hclones (.inr rfl)

open AddressLibrary in
/-- Clones of themselves delegate to themselves, and clones of the zero address to that one. -/
theorem detect_itself :
    let itself := "0x1111111111111111111111111111111111111111"
    let own := cloneOf (List.replicate 20 0x11)
    let empty := cloneOf (List.replicate 20 0)
    ((detect .default (listingReader itself own) (.text itself) [] (.bytes own)).result.toOption.map
        fun info => info.map ProxyInfo.implementation) = some (some (.text itself)) ∧
      ((detect .default (listingReader zero [0]) (.text itself) []
          (.bytes empty)).result.toOption.map
        fun info => info.map ProxyInfo.implementation) = some (some (.text zero)) := by
  decide +kernel

end ContractAbi.Proxy
