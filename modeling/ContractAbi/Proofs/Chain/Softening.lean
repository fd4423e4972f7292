import ContractAbi.Chain.Proxy
import ContractAbi.Proofs.Session.Simulation

/-!
# Questions that fail, and questions with nothing to answer

What a contract delegates to is the same whether a question to the chain fails or finds nothing: no
code, a word of zeros, or no return data.

* `Traced.Softened` and `ChainReader.Softens`: failures become empty answers;
* `Proxy.result_detect_of_softens` and `Proxy.result_detectFacets_of_softens`: delegation is found
  as before.
-/

namespace ContractAbi

/-- The second computation has the outcome of the first one, or an empty answer where that
fails. -/
inductive Traced.Softened {α : Type} (empty : α → Prop) (t u : Traced α) : Prop
  | same (h : u.result = t.result)
  | softened {f a} (hfail : t.result = .error f) (hanswer : u.result = .ok a) (hempty : empty a)

def zeroWord : Bytes := List.replicate 32 0

/-- Some questions that the first reader fails on find nothing with the second one. -/
structure ChainReader.Softens (r q : ChainReader) : Prop where
  code : ∀ address, (r.code address).Softened (· = .bytes []) (q.code address)
  storage : ∀ address slot,
    (r.storage address slot).Softened (· = .bytes zeroWord) (q.storage address slot)
  call : ∀ address data, (r.call address data).Softened (· = .bytes []) (q.call address data)

/-- Readers that differ in this way as far as slots, beacons and candidates go. -/
structure ChainReader.SoftensProbes (r q : ChainReader) : Prop where
  code : ∀ address, (r.code address).Softened (· = .bytes []) (q.code address)
  storage : ∀ address slot,
    (r.storage address slot).Softened (· = .bytes zeroWord) (q.storage address slot)
  beacon : ∀ address, (r.call address Proxy.implementationCall).Softened (· = .bytes [])
    (q.call address Proxy.implementationCall)

theorem ChainReader.Softens.probes {r q : ChainReader} (h : r.Softens q) : r.SoftensProbes q where
  code := h.code
  storage := h.storage
  beacon address := h.call address Proxy.implementationCall

namespace Proxy

variable {r q : ChainReader} (h : r.SoftensProbes q)

include h

theorem result_hasCode_of_softens (address : String) :
    (hasCode q address).result = (hasCode r address).result := by
  unfold hasCode
  rw [Traced.result_bind, Traced.result_bind, Traced.result_attempt, Traced.result_attempt]
  cases h.code address with
  | same hsame => rw [hsame]
  | softened hfail hanswer hempty =>
      rw [hfail, hanswer, hempty]
      rfl

theorem result_confirm_of_softens (address candidate : String) (slot : ProxySlot) :
    (confirm q address slot candidate).result = (confirm r address slot candidate).result := by
  unfold confirm
  split
  · rfl
  · rw [Traced.result_bind, Traced.result_bind, result_hasCode_of_softens h]

variable [AddressLibrary]

theorem related_readWord (address : String) (slot : ProxySlot) :
    Except.Related (fun v w => Address.ofWordValue v = Address.ofWordValue w) (· = ·)
      (readWord r address slot).result (readWord q address slot).result := by
  unfold readWord
  rw [Traced.result_bind, Traced.result_bind, Traced.result_attempt, Traced.result_attempt]
  cases h.storage address slot.slot with
  | same hsame =>
      rw [hsame]
      cases (r.storage address slot.slot).result with
      | ok v => exact .ok rfl
      | error f => exact .ok rfl
  | softened hfail hanswer hempty =>
      rw [hfail, hanswer, hempty]
      exact .ok (by rfl)

theorem related_askBeacon (beacon : String) :
    Except.Related (fun v w => Address.ofWordValue v = Address.ofWordValue w) (· = ·)
      (askBeacon r beacon).result (askBeacon q beacon).result := by
  unfold askBeacon
  rw [Traced.result_bind, Traced.result_bind, Traced.result_attempt, Traced.result_attempt]
  cases h.beacon beacon with
  | same hsame =>
      rw [hsame]
      cases (r.call beacon implementationCall).result with
      | ok v => exact .ok rfl
      | error f => exact .ok rfl
  | softened hfail hanswer hempty =>
      rw [hfail, hanswer, hempty]
      exact .ok rfl

omit h in
/-- Slots that have come equally far, where it does not matter how a beacon answers nothing. -/
inductive Stage.Alike : Stage → Stage → Prop
  | beacon {v w} (h : Address.ofWordValue v = Address.ofWordValue w) :
      Alike (.beacon v) (.beacon w)
  | done (candidate : Option String) : Alike (.done candidate) (.done candidate)

theorem related_afterWord (address : String) (slot : ProxySlot) {v w : Value}
    (hword : Address.ofWordValue v = Address.ofWordValue w) :
    Except.Related Stage.Alike (· = ·) (afterWord r address slot v).result
      (afterWord q address slot w).result := by
  unfold afterWord
  rw [Traced.result_bind, Traced.result_bind, Traced.result_ofExcept, Traced.result_ofExcept,
    hword]
  cases Address.ofWordValue w with
  | error f => exact .error rfl
  | ok found =>
      cases found with
      | none => exact .ok (.done none)
      | some candidate =>
          rw [Except.ok_bind, Except.ok_bind]
          dsimp only
          split
          · exact .ok (.done none)
          · split
            · rw [Traced.result_bind, Traced.result_bind, Traced.result_note, Except.ok_bind,
                Traced.result_bind, Traced.result_note, Except.ok_bind, Traced.result_bind]
              exact (related_askBeacon h candidate).bind fun _ _ hanswer => .ok (.beacon hanswer)
            · rw [Traced.result_bind, Traced.result_bind, result_confirm_of_softens h]
              cases (confirm r address slot candidate).result with
              | error f => exact .error rfl
              | ok found => exact .ok (.done found)

theorem result_afterBeacon_of_softens (address : String) (slot : ProxySlot) {stage stage' : Stage}
    (hstage : stage.Alike stage') :
    (afterBeacon q address slot stage').result = (afterBeacon r address slot stage).result := by
  cases hstage with
  | done candidate => rfl
  | beacon hword =>
      unfold afterBeacon
      rw [Traced.result_bind, Traced.result_bind, Traced.result_ofExcept, Traced.result_ofExcept,
        hword]
      refine congrArg (Address.ofWordValue _ >>= ·) (funext fun found => ?_)
      cases found with
      | none => rfl
      | some candidate => exact result_confirm_of_softens h address candidate slot

omit [AddressLibrary] in
omit h in
theorem result_together {α β : Type} (f : α → Traced β) (xs : List α) :
    (together (xs.map f)).result = xs.mapM fun x => (f x).result := by
  change ((xs.map f).map Traced.result).mapM id = _
  rw [List.map_map, Except.mapM_id_map]
  rfl

theorem result_probe_of_softens (address : String) (slots : List ProxySlot) :
    (probe q address slots).result = (probe r address slots).result := by
  refine (Except.Related.eq ?_).symm
  unfold probe
  rw [Traced.result_bind, Traced.result_bind, Traced.result_mapM, Traced.result_mapM]
  have hwords := Except.Related.mapM_same slots (related_readWord h address)
  refine hwords.bind fun words words' hwords => ?_
  rw [Traced.result_bind, Traced.result_bind, result_together, result_together]
  refine (Except.Related.mapM (Q := Stage.Alike) (Except.forall₂_zip slots hwords) ?_).bind ?_
  · rintro ⟨slot, v⟩ ⟨_, w⟩ ⟨rfl, hword⟩
    exact related_afterWord h address slot hword
  · intro stages stages' hstages
    rw [result_together, result_together]
    refine .of_eq (fun _ => rfl)
      (Except.mapM_eq_of_forall₂ (Except.forall₂_zip slots hstages) ?_)
    rintro ⟨slot, stage⟩ ⟨_, stage'⟩ ⟨rfl, hstage⟩
    exact (result_afterBeacon_of_softens h address slot hstage).symm

theorem result_cloneTarget_of_softens (code : Value) :
    (cloneTarget q code).result = (cloneTarget r code).result := by
  unfold cloneTarget
  split
  · rw [Traced.result_bind, Traced.result_bind]
    refine congrArg ((MinimalProxy.targetOfValue? code) >>= ·) (funext fun target => ?_)
    cases target with
    | none => rfl
    | some target =>
        dsimp only
        rw [Traced.result_bind, Traced.result_bind, result_hasCode_of_softens h]
  · rfl

theorem result_detectAt_of_softens (settings : Settings) (address : String)
    (selectors : List Value) (code : Value) :
    (detectAt settings q address selectors code).result =
      (detectAt settings r address selectors code).result := by
  unfold detectAt
  rw [Traced.result_bind, Traced.result_bind, result_cloneTarget_of_softens h]
  refine congrArg ((cloneTarget r code).result >>= ·) (funext fun target => ?_)
  cases target with
  | some target => rfl
  | none =>
      dsimp only
      rw [Traced.result_bind, Traced.result_bind]
      refine congrArg (isProxyLike selectors >>= ·) (funext fun proxyLike => ?_)
      split
      · rw [Traced.result_bind, Traced.result_note, Except.ok_bind, Traced.result_bind,
          Traced.result_bind, Traced.result_note, Except.ok_bind, Traced.result_bind,
          result_probe_of_softens h]
      · rw [Traced.result_bind, Traced.result_bind, result_probe_of_softens h]

theorem result_detect_of_softens (settings : Settings) (address : Value)
    (selectors : List Value) (code : Value) :
    (detect settings q address selectors code).result =
      (detect settings r address selectors code).result := by
  unfold detect
  rw [Traced.result_bind, Traced.result_bind]
  exact congrArg (Address.checksum address >>= ·)
    (funext fun address => result_detectAt_of_softens h settings address selectors code)

/-! ## Diamonds -/

omit [AddressLibrary] in
omit h in
theorem facetsOfReturn_nil : facetsOfReturn (.bytes []) = .error .undecodable := by rfl

omit h in
theorem result_detectFacets_of_softens (h : r.Softens q) (address : String)
    (selectors : List Value) :
    (detectFacets q address selectors).result = (detectFacets r address selectors).result := by
  unfold detectFacets
  rw [Traced.result_bind, Traced.result_bind]
  refine congrArg (selectors.mapM Selector.normalize >>= ·) (funext fun selectors => ?_)
  split
  · rfl
  · rw [Traced.result_bind, Traced.result_bind, Traced.result_attempt, Traced.result_attempt,
      Except.ok_bind, Except.ok_bind]
    cases h.call address facetsCall with
    | same hsame => rw [hsame]
    | softened hfail hanswer hempty =>
        have hnothing : (Except.ok (Value.bytes [])).bind facetsOfReturn =
            .error .undecodable := facetsOfReturn_nil
        rw [hfail, hanswer, hempty, hnothing]
        rfl

end Proxy

end ContractAbi
