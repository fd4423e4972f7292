import ContractAbi.Chain.Proxy
import ContractAbi.Proofs.Address
import ContractAbi.Proofs.Session.Trace

/-!
# What a search for delegates asks

The search for what a contract delegates to reads slots of that contract only, and asks that
contract only for facets. Apart from that it asks for the code of candidates and for the
implementations of beacons.

* `Proxy.asks_detect`: the search for an implementation;
* `Proxy.asks_detectFacets`: the search for facets.
-/

namespace ContractAbi.Proxy

variable {R : Request → Prop} {r : ChainReader} {address : String}

theorem implementationCall_ne_facetsCall : implementationCall ≠ facetsCall := by decide +kernel

/-- What a reader asks when it is asked for something to do with an address: questions of the kind
`R`. -/
structure Searches (R : Request → Prop) (r : ChainReader) (address : String) : Prop where
  code : ∀ candidate, (r.code candidate).Asks R
  beacon : ∀ candidate, (r.call candidate implementationCall).Asks R
  slot : ∀ slot, (r.storage address slot).Asks R
  facets : (r.call address facetsCall).Asks R

theorem asks_hasCode (candidate : String) (h : Searches R r address) :
    (hasCode r candidate).Asks R := by
  unfold hasCode
  refine (h.code candidate).attempt.bind fun result => ?_
  split
  · exact Traced.asks_pure _
  · exact (Traced.asks_note _ _ _).bind fun _ => Traced.asks_pure _

theorem asks_confirm (slot : ProxySlot) (candidate : String) (h : Searches R r address) :
    (confirm r address slot candidate).Asks R := by
  unfold confirm
  split
  · exact Traced.asks_pure _
  · refine (asks_hasCode candidate h).bind fun held => ?_
    split
    · exact Traced.asks_pure _
    · exact (Traced.asks_note _ _ _).bind fun _ => Traced.asks_pure _

theorem asks_readWord (slot : ProxySlot) (h : Searches R r address) :
    (readWord r address slot).Asks R := by
  unfold readWord
  refine (h.slot slot.slot).attempt.bind fun result => ?_
  split
  · exact Traced.asks_pure _
  · exact (Traced.asks_note _ _ _).bind fun _ => Traced.asks_pure _

theorem asks_askBeacon (beacon : String) (h : Searches R r address) :
    (askBeacon r beacon).Asks R := by
  unfold askBeacon
  refine (h.beacon beacon).attempt.bind fun result => ?_
  split
  · exact Traced.asks_pure _
  · exact (Traced.asks_note _ _ _).bind fun _ => Traced.asks_pure _

variable [AddressLibrary]

theorem asks_afterWord (slot : ProxySlot) (word : Value) (h : Searches R r address) :
    (afterWord r address slot word).Asks R := by
  unfold afterWord
  refine (Traced.asks_ofExcept _).bind fun found => ?_
  cases found with
  | none => exact Traced.asks_pure _
  | some candidate =>
      dsimp only
      split
      · exact Traced.asks_pure _
      · split
        · refine (Traced.asks_note _ _ _).bind fun _ => ?_
          exact (asks_askBeacon candidate h).bind fun _ => Traced.asks_pure _
        · exact (asks_confirm slot candidate h).bind fun _ => Traced.asks_pure _

theorem asks_afterBeacon (slot : ProxySlot) (stage : Stage) (h : Searches R r address) :
    (afterBeacon r address slot stage).Asks R := by
  cases stage with
  | done candidate => exact Traced.asks_answer _
  | beacon answer =>
      unfold afterBeacon
      refine (Traced.asks_ofExcept _).bind fun found => ?_
      cases found with
      | none => exact Traced.asks_pure _
      | some candidate => exact asks_confirm slot candidate h

omit [AddressLibrary] in
theorem asks_together {α : Type} {steps : List (Traced α)} (h : ∀ t ∈ steps, t.Asks R) :
    (together steps).Asks R := by
  intro e he
  obtain ⟨events, hevents, he⟩ := List.mem_flatten.1 he
  obtain ⟨t, ht, rfl⟩ := List.mem_map.1 hevents
  exact h t ht e he

theorem asks_probe (slots : List ProxySlot) (h : Searches R r address) :
    (probe r address slots).Asks R := by
  unfold probe
  refine (Traced.Asks.mapM fun slot _ => asks_readWord slot h).bind fun words => ?_
  refine (asks_together fun t ht => ?_).bind fun stages => asks_together fun t ht => ?_
  · obtain ⟨⟨slot, word⟩, -, rfl⟩ := List.mem_map.1 ht
    exact asks_afterWord slot word h
  · obtain ⟨⟨slot, stage⟩, -, rfl⟩ := List.mem_map.1 ht
    exact asks_afterBeacon slot stage h

theorem asks_cloneTarget (code : Value) (h : Searches R r address) :
    (cloneTarget r code).Asks R := by
  unfold cloneTarget
  split
  · refine (Traced.asks_ofExcept _).bind fun found => ?_
    cases found with
    | none => exact Traced.asks_pure _
    | some target =>
        refine (asks_hasCode target h).bind fun held => ?_
        split <;> exact Traced.asks_pure _
  · exact Traced.asks_pure _

theorem asks_detectAt (settings : Settings) (selectors : List Value) (code : Value)
    (h : Searches R r address) : (detectAt settings r address selectors code).Asks R := by
  unfold detectAt
  refine (asks_cloneTarget code h).bind fun target => ?_
  cases target with
  | some target => exact (Traced.asks_note _ _ _).bind fun _ => Traced.asks_pure _
  | none =>
      dsimp only
      refine (Traced.asks_ofExcept _).bind fun proxyLike => ?_
      split
      · refine (Traced.asks_note _ _ _).bind fun _ => (asks_probe _ h).bind fun found => ?_
        split
        · exact (Traced.asks_note _ _ _).bind fun _ => Traced.asks_pure _
        · exact (Traced.asks_note _ _ _).bind fun _ => Traced.asks_pure _
      · refine (asks_probe _ h).bind fun found => ?_
        split
        · exact (Traced.asks_note _ _ _).bind fun _ => Traced.asks_pure _
        · exact Traced.asks_pure _

theorem asks_detect (settings : Settings) {address : Value} (selectors : List Value) (code : Value)
    (h : ∀ place, Address.checksum address = .ok place → Searches R r place) :
    (detect settings r address selectors code).Asks R := by
  unfold detect
  exact Traced.asks_ofExcept_bind fun place hplace =>
    asks_detectAt settings selectors code (h place hplace)

theorem asks_detectFacets (selectors : List Value) (h : Searches R r address) :
    (detectFacets r address selectors).Asks R := by
  unfold detectFacets
  refine (Traced.asks_ofExcept _).bind fun spelt => ?_
  split
  · exact Traced.asks_pure _
  · refine h.facets.attempt.bind fun raw => ?_
    split
    · exact (Traced.asks_ofExcept _).bind fun _ => Traced.asks_pure _
    · exact (Traced.asks_note _ _ _).bind fun _ => Traced.asks_pure _

end ContractAbi.Proxy
