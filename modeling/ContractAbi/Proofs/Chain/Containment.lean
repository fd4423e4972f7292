import ContractAbi.Proofs.Calldata.Addresses
import ContractAbi.Proofs.Chain.Softening
import ContractAbi.Proofs.Evm.Dispatcher
import ContractAbi.Proofs.Fault
import ContractAbi.Proofs.Session.Invariant

/-!
# Failures that leave the search for delegates

Nothing that a reader fails with leaves the search for what a contract delegates to. An answer that
cannot be read as a word does: words are read behind the place where failures are caught.

* `Proxy.meets_detect`: with readable words, finding a delegate fails in such a way only;
* `Proxy.meets_detectFacets`: finding the facets of a diamond does not fail.
-/

namespace ContractAbi

variable [AddressLibrary]

/-- A word as a service gives it, from which an address can be read, or that there is none. -/
def Readable (word : Value) : Prop :=
  ∃ found, Address.ofWordValue word = .ok found

theorem Address.announced_checksum (v : Value) :
    Except.Meets (fun _ => True) Fault.Announced (Address.checksum v) := by
  unfold Address.checksum
  split
  · split
    · exact .error (.invalidAddress _)
    · unfold Address.checksumAny
      dsimp only
      split
      · exact .ok trivial
      · exact .error (.invalidAddress _)
  · exact .error (.invalidAddress _)

structure ChainReader.Readable (r : ChainReader) : Prop where
  storage : ∀ address slot v, (r.storage address slot).result = .ok v → ContractAbi.Readable v
  call : ∀ address data v, (r.call address data).result = .ok v → ContractAbi.Readable v

namespace Proxy

variable {r : ChainReader} {E : Fault → Prop}

theorem readable_null : Readable .null := ⟨none, by rfl⟩

/-! ## Slots -/

omit [AddressLibrary] in
theorem meets_hasCode (address : String) :
    Except.Meets (fun _ => True) E (hasCode r address).result := by
  unfold hasCode
  rw [Traced.result_bind, Traced.result_attempt, Except.ok_bind]
  cases (r.code address).result <;> exact .ok trivial

omit [AddressLibrary] in
theorem meets_confirm (address candidate : String) (slot : ProxySlot) :
    Except.Meets (fun _ => True) E (confirm r address slot candidate).result := by
  unfold confirm
  split
  · exact .ok trivial
  · rw [Traced.result_bind]
    refine (meets_hasCode candidate).bind fun held _ => ?_
    cases held <;> exact .ok trivial

theorem meets_readWord (hr : r.Readable) (address : String) (slot : ProxySlot) :
    Except.Meets Readable E (readWord r address slot).result := by
  unfold readWord
  rw [Traced.result_bind, Traced.result_attempt, Except.ok_bind]
  cases hword : (r.storage address slot.slot).result with
  | ok v => exact .ok (hr.storage _ _ v hword)
  | error f => exact .ok readable_null

theorem meets_askBeacon (hr : r.Readable) (beacon : String) :
    Except.Meets Readable E (askBeacon r beacon).result := by
  unfold askBeacon
  rw [Traced.result_bind, Traced.result_attempt, Except.ok_bind]
  cases hword : (r.call beacon implementationCall).result with
  | ok v => exact .ok (hr.call _ _ v hword)
  | error f => exact .ok readable_null

/-- A slot whose beacon, if it has one, has given a word that can be read. -/
def Stage.Readable : Stage → Prop
  | .beacon answer => ContractAbi.Readable answer
  | .done _ => True

theorem meets_afterWord (hr : r.Readable) (address : String) (slot : ProxySlot) {word : Value}
    (hword : Readable word) :
    Except.Meets Stage.Readable E (afterWord r address slot word).result := by
  obtain ⟨found, hfound⟩ := hword
  unfold afterWord
  rw [Traced.result_bind, Traced.result_ofExcept, hfound, Except.ok_bind]
  cases found with
  | none => exact .ok trivial
  | some candidate =>
      dsimp only
      split
      · exact .ok trivial
      · split
        · rw [Traced.result_bind, Traced.result_note, Except.ok_bind, Traced.result_bind]
          exact (meets_askBeacon hr candidate).bind fun _ hanswer => .ok hanswer
        · rw [Traced.result_bind]
          exact (meets_confirm address candidate slot).bind fun _ _ => .ok trivial

theorem meets_afterBeacon (address : String) (slot : ProxySlot) {stage : Stage}
    (hstage : stage.Readable) :
    Except.Meets (fun _ => True) E (afterBeacon r address slot stage).result := by
  cases stage with
  | done candidate => exact .ok trivial
  | beacon answer =>
      obtain ⟨found, hfound⟩ := hstage
      unfold afterBeacon
      rw [Traced.result_bind, Traced.result_ofExcept, hfound, Except.ok_bind]
      cases found with
      | none => exact .ok trivial
      | some candidate => exact meets_confirm address candidate slot

theorem meets_probe (hr : r.Readable) (address : String) (slots : List ProxySlot) :
    Except.Meets (fun _ => True) E (probe r address slots).result := by
  unfold probe
  rw [Traced.result_bind, Traced.result_mapM]
  refine (Except.Meets.mapM fun slot _ => meets_readWord hr address slot).bind
    fun words hwords => ?_
  rw [Traced.result_bind, result_together]
  refine (Except.Meets.mapM (Q := Stage.Readable) ?_).bind fun stages hstages => ?_
  · rintro ⟨slot, word⟩ hmem
    exact meets_afterWord hr address slot (hwords word (List.of_mem_zip hmem).2)
  · rw [result_together]
    refine (Except.Meets.mapM (Q := fun _ => True) ?_).mono (fun _ _ => trivial) fun _ h => h
    rintro ⟨slot, stage⟩ hmem
    exact meets_afterBeacon address slot (hstages stage (List.of_mem_zip hmem).2)

/-! ## Delegates -/

def IsCode (code : Value) : Prop :=
  code = .null ∨ ∃ bs, code = .bytes bs

theorem meets_cloneTarget {code : Value} (hcode : IsCode code) :
    Except.Meets (fun _ => True) E (cloneTarget r code).result := by
  unfold cloneTarget
  split
  · have htarget : ∃ target, MinimalProxy.targetOfValue? code = .ok target := by
      rcases hcode with rfl | ⟨bs, rfl⟩
      · exact ⟨none, rfl⟩
      · cases bs with
        | nil => exact ⟨none, rfl⟩
        | cons b bs => exact ⟨MinimalProxy.target? (b :: bs), rfl⟩
    obtain ⟨target, htarget⟩ := htarget
    rw [Traced.result_bind, Traced.result_ofExcept, htarget, Except.ok_bind]
    cases target with
    | none => exact .ok trivial
    | some target =>
        dsimp only
        rw [Traced.result_bind]
        refine (meets_hasCode target).bind fun held _ => ?_
        cases held <;> exact .ok trivial
  · exact .ok trivial

def AreSpelt (selectors : List Value) : Prop :=
  ∀ v ∈ selectors, ∃ s, Selector.normalize v = .ok s

omit [AddressLibrary] in
theorem meets_isProxyLike {selectors : List Value} (hselectors : AreSpelt selectors) :
    Except.Meets (fun _ => True) E (isProxyLike selectors) := by
  unfold isProxyLike
  induction selectors with
  | nil => exact .ok trivial
  | cons v rest ih =>
      obtain ⟨s, hs⟩ := hselectors v (by simp)
      unfold looksLikeProxy
      rw [hs, Except.ok_bind]
      split
      · exact .ok trivial
      · exact ih fun w hw => hselectors w (by simp [hw])

theorem meets_detectAt (hr : r.Readable) (settings : Settings) (address : String)
    {selectors : List Value} (hselectors : AreSpelt selectors) {code : Value}
    (hcode : IsCode code) :
    Except.Meets (fun _ => True) E (detectAt settings r address selectors code).result := by
  unfold detectAt
  rw [Traced.result_bind]
  refine (meets_cloneTarget hcode).bind fun target _ => ?_
  cases target with
  | some target => exact .ok trivial
  | none =>
      dsimp only
      rw [Traced.result_bind]
      refine (meets_isProxyLike hselectors).bind fun proxyLike _ => ?_
      split
      · rw [Traced.result_bind, Traced.result_note, Except.ok_bind, Traced.result_bind]
        refine (meets_probe hr address _).bind fun found _ => ?_
        split
        · exact .ok trivial
        · exact .ok trivial
      · rw [Traced.result_bind]
        refine (meets_probe hr address _).bind fun found _ => ?_
        split
        · exact .ok trivial
        · exact .ok trivial

theorem meets_detect (hr : r.Readable) (settings : Settings) (address : Value)
    {selectors : List Value} (hselectors : AreSpelt selectors) {code : Value}
    (hcode : IsCode code) :
    Except.Meets (fun _ => True) Fault.Announced
      (detect settings r address selectors code).result := by
  unfold detect
  rw [Traced.result_bind]
  exact (Address.announced_checksum address).bind
    fun address _ => meets_detectAt hr settings address hselectors hcode

/-! ## Diamonds -/

theorem checksumAny_of_facetsOfReturn {raw : Value} {facets : List Value}
    (h : facetsOfReturn raw = .ok facets) :
    ∀ v ∈ facets, ∃ a, Address.checksumAny v = .ok a := by
  intro v hv
  unfold facetsOfReturn at h
  obtain ⟨values, hvalues, h⟩ := Except.bind_eq_ok_iff.1 h
  split at h
  · obtain rfl := Except.ok.inj h
    obtain ⟨bs, hlength, rfl⟩ := AbiType.decodeReturn_addresses hvalues v hv
    exact Address.checksumAny_encode0x hlength
  · exact absurd h (by simp [throw, throwThe, MonadExceptOf.throw])

theorem meets_detectFacets (address : String) {selectors : List Value}
    (hselectors : AreSpelt selectors) :
    Except.Meets (fun _ => True) E (detectFacets r address selectors).result := by
  unfold detectFacets
  rw [Traced.result_bind]
  refine (Except.Meets.mapM (Q := fun _ => True) ?_).bind fun spelt _ => ?_
  · intro v hv
    obtain ⟨s, hs⟩ := hselectors v hv
    rw [hs]
    exact .ok trivial
  · split
    · exact .ok trivial
    · rw [Traced.result_bind, Traced.result_attempt, Except.ok_bind]
      cases hfacets : (r.call address facetsCall).result.bind facetsOfReturn with
      | error f => exact .ok trivial
      | ok facets =>
          dsimp only
          rw [Traced.result_bind, Traced.result_ofExcept]
          obtain ⟨raw, -, hraw⟩ := Except.bind_eq_ok_iff.1 hfacets
          refine (Except.Meets.mapM (Q := fun _ => True) fun v hv => ?_).bind
            fun _ _ => .ok trivial
          obtain ⟨a, ha⟩ := checksumAny_of_facetsOfReturn hraw v hv
          rw [ha]
          exact .ok trivial

end Proxy

end ContractAbi
