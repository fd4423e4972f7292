import ContractAbi.Proofs.Address.Refusal
import ContractAbi.Proofs.Chain.Containment
import ContractAbi.Proofs.Distinct
import ContractAbi.Proofs.Fault

/-!
# Where delegates come from

Whatever a reader answers, the delegates that are found are addresses in the checksummed spelling,
and a search that fails does not say that there is no contract. Of all delegates only the target of
a clone may be the zero address.

* `Fault.Grave`: the failures that delegations are not skipped for;
* `Proxy.told_detectAt`: implementations are told by words or by code that is a clone;
* `Proxy.foldl_addFacet`: the facets that are kept of those listed;
* `Proxy.spelt_detect` and `Proxy.spelt_detectFacets`: what the searches give.
-/

namespace ContractAbi

def Fault.Grave (f : Fault) : Prop :=
  ∀ place chain reason, f ≠ .noContract place chain reason

theorem Fault.Unannounced.grave {f : Fault} (h : f.Unannounced) : f.Grave := by
  rintro place chain reason rfl
  exact h (.noContract place chain reason)

def Address.IsSpeltOption (o : Option String) : Prop :=
  ∀ a ∈ o, Address.IsSpelt a

variable [AddressLibrary]

theorem Address.grave_checksumAny (v : Value) :
    Except.Meets IsSpelt Fault.Grave (checksumAny v) := by
  cases h : checksumAny v with
  | ok a => exact .ok (isSpelt_of_checksumAny h)
  | error f =>
      unfold checksumAny at h
      split at h
      · split at h
        · exact absurd h (by simp)
        · obtain rfl := Except.error.inj h
          exact .error nofun
      · obtain rfl := Except.error.inj h
        exact .error nofun

theorem Address.grave_checksum (v : Value) :
    Except.Meets IsSpelt Fault.Grave (checksum v) := by
  unfold checksum
  split
  · split
    · exact .error nofun
    · exact grave_checksumAny _
  · exact .error nofun

def Address.IsHeldOption (o : Option String) : Prop :=
  ∀ a ∈ o, ∃ word, Address.ofWord word = some a

theorem Address.isHeldOption_none : IsHeldOption none :=
  fun _ h => absurd h (by simp)

theorem Address.isHeldOption_some {a : String} {word : Bytes} (h : ofWord word = some a) :
    IsHeldOption (some a) := by
  rintro b hb
  obtain rfl := Option.some.inj hb
  exact ⟨word, h⟩

theorem Address.held_ofWordValue (v : Value) :
    Except.Meets IsHeldOption Fault.Unannounced (ofWordValue v) := by
  cases h : ofWordValue v with
  | error f => exact .error ((unannounced_ofWordValue v).of_error h)
  | ok found =>
      obtain ⟨word, -, rfl⟩ : ∃ word, v.toBytes = .ok word ∧ ofWord word = found := by
        unfold ofWordValue at h
        cases hword : v.toBytes with
        | error f => simp [hword, Except.map] at h
        | ok word => exact ⟨word, rfl, by simpa [hword, Except.map] using h⟩
      exact .ok fun a ha => ⟨word, ha⟩

omit [AddressLibrary] in
theorem Selector.unannounced_normalize (v : Value) :
    Except.Meets (fun _ => True) Fault.Unannounced (normalize v) := by
  unfold normalize
  split
  · split
    · exact .ok trivial
    · exact .error (Fault.unannounced_malformed _)
  · exact .error (Fault.unannounced_malformed _)

namespace MinimalProxy

theorem unannounced_targetOfValue? (v : Value) :
    Except.Meets (fun found => targetOfValue? v = .ok found) Fault.Unannounced
      (targetOfValue? v) := by
  cases h : targetOfValue? v with
  | ok found => exact .ok rfl
  | error f =>
      unfold targetOfValue? Code.ofValue at h
      cases v with
      | text s =>
          unfold Value.toBytes Value.bytesOfText at h
          cases hread : Hex.decodeLoose s with
          | error i => simp [hread] at h
          | ok bs => cases bs <;> simp [hread] at h
      | bytes bs => cases bs <;> simp [Value.toBytes] at h
      | null => simp [Value.toBytes] at h
      | _ =>
          obtain rfl := Except.error.inj h
          exact .error nofun

/-- Code that is a clone of an address consists of the bytes of the address between two others. -/
theorem target?_eq_some_iff {code : Bytes} {a : String} :
    target? code = some a ↔ ∃ bs : Bytes, bs.length = 20 ∧ code = head ++ bs ++ tail ∧
      a = Address.ofBytes bs := by
  unfold target?
  dsimp only
  constructor
  · intro h
    split at h
    · rename_i hform
      exact ⟨_, hform.1, hform.2, (Option.some.inj h).symm⟩
    · exact absurd h (by simp)
  · rintro ⟨bs, hbs, rfl, rfl⟩
    have htaken : ((head ++ bs ++ tail).drop head.length).take 20 = bs := by
      rw [List.append_assoc, List.drop_left, ← hbs, List.take_left]
    rw [htaken, if_pos ⟨hbs, rfl⟩]

theorem target?_of_targetOfValue? {v : Value} {a : String}
    (h : targetOfValue? v = .ok (some a)) : ∃ code, Code.ofValue v = .ok code ∧
      target? code = some a := by
  unfold targetOfValue? at h
  split at h
  · rename_i code hcode
    exact ⟨code, hcode, Except.ok.inj h⟩
  · exact absurd h (by simp)
  · exact absurd h (by simp)

theorem isSpelt_of_targetOfValue? {v : Value} {a : String}
    (h : targetOfValue? v = .ok (some a)) : Address.IsSpelt a := by
  obtain ⟨code, -, htarget⟩ := target?_of_targetOfValue? h
  obtain ⟨bs, hbs, -, rfl⟩ := target?_eq_some_iff.1 htarget
  exact Address.isSpelt_ofBytes hbs

end MinimalProxy

namespace Proxy

open Address

variable {r : ChainReader} {E : Fault → Prop}

/-! ## Slots -/

theorem held_confirm {candidate : String} {word : Bytes} (h : ofWord word = some candidate)
    (address : String) (slot : ProxySlot) :
    Except.Meets IsHeldOption E (confirm r address slot candidate).result := by
  unfold confirm
  split
  · exact .ok isHeldOption_none
  · rw [Traced.result_bind]
    refine (meets_hasCode candidate).bind fun present _ => ?_
    cases present
    · exact .ok isHeldOption_none
    · exact .ok (isHeldOption_some h)

def Stage.IsHeld : Stage → Prop
  | .beacon _ => True
  | .done candidate => IsHeldOption candidate

theorem held_afterWord (address : String) (slot : ProxySlot) (word : Value) :
    Except.Meets Stage.IsHeld Fault.Unannounced (afterWord r address slot word).result := by
  unfold afterWord
  rw [Traced.result_bind, Traced.result_ofExcept]
  refine (held_ofWordValue word).bind fun found hfound => ?_
  cases found with
  | none => exact .ok isHeldOption_none
  | some candidate =>
      dsimp only
      split
      · exact .ok isHeldOption_none
      · split
        · rw [Traced.result_bind, Traced.result_note, Except.ok_bind, Traced.result_bind]
          unfold askBeacon
          rw [Traced.result_bind, Traced.result_attempt, Except.ok_bind]
          cases (r.call candidate implementationCall).result <;> exact .ok trivial
        · rw [Traced.result_bind]
          obtain ⟨_, hheld⟩ := hfound candidate rfl
          exact (held_confirm hheld address slot).bind fun _ h => .ok h

theorem held_afterBeacon (address : String) (slot : ProxySlot) {stage : Stage}
    (hstage : stage.IsHeld) :
    Except.Meets IsHeldOption Fault.Unannounced (afterBeacon r address slot stage).result := by
  cases stage with
  | done candidate => exact .ok hstage
  | beacon answer =>
      unfold afterBeacon
      rw [Traced.result_bind, Traced.result_ofExcept]
      refine (held_ofWordValue answer).bind fun found hfound => ?_
      cases found with
      | none => exact .ok isHeldOption_none
      | some candidate =>
          obtain ⟨_, hheld⟩ := hfound candidate rfl
          exact held_confirm hheld address slot

omit [AddressLibrary] in
theorem answers_readWord (address : String) (slot : ProxySlot) :
    Except.Meets (fun _ => True) E (readWord r address slot).result := by
  unfold readWord
  rw [Traced.result_bind, Traced.result_attempt, Except.ok_bind]
  cases (r.storage address slot.slot).result <;> exact .ok trivial

theorem held_probe (address : String) (slots : List ProxySlot) :
    Except.Meets (fun found => ∀ o ∈ found, IsHeldOption o) Fault.Unannounced
      (probe r address slots).result := by
  unfold probe
  rw [Traced.result_bind, Traced.result_mapM]
  refine (Except.Meets.mapM fun slot _ => answers_readWord address slot).bind fun words _ => ?_
  rw [Traced.result_bind, result_together]
  refine (Except.Meets.mapM (Q := Stage.IsHeld) ?_).bind fun stages hstages => ?_
  · rintro ⟨slot, word⟩ -
    exact held_afterWord address slot word
  · rw [result_together]
    refine Except.Meets.mapM ?_
    rintro ⟨slot, stage⟩ hmem
    exact held_afterBeacon address slot (hstages stage (List.of_mem_zip hmem).2)

omit [AddressLibrary] in
theorem mem_of_firstFound {found : List (ProxySlot × Option String)} {slot : ProxySlot}
    {candidate : String} (h : firstFound found = some (slot, candidate)) :
    (slot, some candidate) ∈ found := by
  induction found with
  | nil => exact absurd h (by simp [firstFound])
  | cons p rest ih =>
      obtain ⟨slot', o⟩ := p
      cases o with
      | none => exact List.mem_cons_of_mem _ (ih h)
      | some c =>
          obtain ⟨rfl, rfl⟩ := Prod.mk.inj (Option.some.inj h)
          exact List.mem_cons_self

theorem held_firstFound (address : String) (slots : List ProxySlot) :
    Except.Meets (fun found => ∀ slot candidate,
      firstFound (slots.zip found) = some (slot, candidate) →
        ∃ word, ofWord word = some candidate) Fault.Unannounced
      (probe r address slots).result :=
  (held_probe address slots).mono (fun _ hfound _ candidate hfirst =>
    hfound _ (List.of_mem_zip (mem_of_firstFound hfirst)).2 candidate rfl) fun _ h => h

/-! ## Delegates -/

theorem unannounced_cloneTarget (code : Value) :
    Except.Meets (fun o => ∀ a ∈ o, MinimalProxy.targetOfValue? code = .ok (some a))
      Fault.Unannounced (cloneTarget r code).result := by
  unfold cloneTarget
  split
  · rw [Traced.result_bind, Traced.result_ofExcept]
    refine (MinimalProxy.unannounced_targetOfValue? code).bind fun found hfound => ?_
    cases found with
    | none => exact .ok (by simp)
    | some target =>
        dsimp only
        rw [Traced.result_bind]
        refine (meets_hasCode target).bind fun present _ => ?_
        cases present
        · exact .ok (by simp)
        · refine .ok fun a ha => ?_
          rw [hfound, Option.some.inj ha]
  · exact .ok (by simp)

omit [AddressLibrary] in
theorem unannounced_isProxyLike (selectors : List Value) :
    Except.Meets (fun _ => True) Fault.Unannounced (isProxyLike selectors) := by
  unfold isProxyLike
  induction selectors with
  | nil => exact .ok trivial
  | cons v rest ih =>
      unfold looksLikeProxy
      refine (Selector.unannounced_normalize v).bind fun s _ => ?_
      split
      · exact .ok trivial
      · exact ih

/-- An implementation that is told is the target of the code, which is a clone, or a word holds
it. -/
def Told (code : Value) (info : Option ProxyInfo) : Prop :=
  ∀ i ∈ info, ∀ a ∈ i.implementation.text?,
    MinimalProxy.targetOfValue? code = .ok (some a) ∨ ∃ word, ofWord word = some a

theorem told_none (code : Value) : Told code none :=
  fun _ h => absurd h (by simp)

theorem told_some {code kind : Value} {a : String}
    (h : MinimalProxy.targetOfValue? code = .ok (some a) ∨ ∃ word, ofWord word = some a) :
    Told code (some ⟨.text a, kind, []⟩) := by
  intro i hi b hb
  obtain rfl := Option.some.inj hi
  obtain rfl := Option.some.inj hb
  exact h

theorem told_detectAt (settings : Settings) (address : String) (selectors : List Value)
    (code : Value) :
    Except.Meets (Told code) Fault.Unannounced
      (detectAt settings r address selectors code).result := by
  unfold detectAt
  rw [Traced.result_bind]
  refine (unannounced_cloneTarget code).bind fun target htarget => ?_
  cases target with
  | some target => exact .ok (told_some (.inl (htarget target rfl)))
  | none =>
      dsimp only
      rw [Traced.result_bind]
      refine (unannounced_isProxyLike selectors).bind fun proxyLike _ => ?_
      split
      · rw [Traced.result_bind, Traced.result_note, Except.ok_bind, Traced.result_bind]
        refine (held_firstFound address _).bind fun found hfound => ?_
        split
        · exact .ok (told_some (.inr (hfound _ _ ‹_›)))
        · exact .ok (told_none code)
      · rw [Traced.result_bind]
        refine (held_firstFound address _).bind fun found hfound => ?_
        split
        · exact .ok (told_some (.inr (hfound _ _ ‹_›)))
        · exact .ok (told_none code)

def IsSpeltInfo (info : Option ProxyInfo) : Prop :=
  ∀ i ∈ info, IsSpeltOption i.implementation.text?

theorem Told.isSpeltInfo {code : Value} {info : Option ProxyInfo} (h : Told code info) :
    IsSpeltInfo info := by
  intro i hi a ha
  rcases h i hi a ha with hclone | ⟨word, hword⟩
  · exact MinimalProxy.isSpelt_of_targetOfValue? hclone
  · exact isSpelt_of_ofWord hword

/-- If the zero address is told, then by code that is a clone of it. -/
theorem Told.of_zero {code : Value} {info : Option ProxyInfo} (h : Told code info) {i : ProxyInfo}
    (hi : i ∈ info) (hzero : i.implementation.text? = some zero) :
    MinimalProxy.targetOfValue? code = .ok (some zero) := by
  rcases h i hi zero hzero with hclone | ⟨word, hword⟩
  · exact hclone
  · exact absurd rfl (ne_zero_of_ofWord hword)

/-- The implementation that is found is an address in the checksummed spelling. -/
theorem spelt_detect (settings : Settings) (address : Value) (selectors : List Value)
    (code : Value) :
    Except.Meets IsSpeltInfo Fault.Grave (detect settings r address selectors code).result := by
  unfold detect
  rw [Traced.result_bind]
  refine (grave_checksum address).bind fun address _ => ?_
  exact (told_detectAt settings address selectors code).mono (fun _ h => h.isSpeltInfo)
    fun _ h => h.grave

/-! ## Diamonds -/

def isOther (address facet : String) : Bool :=
  fold facet ≠ fold address ∧ fold facet ≠ zero

omit [AddressLibrary] in
theorem foldl_addFacet (address : String) (facets : List String) :
    facets.foldl (addFacet address) [] = (facets.filter (isOther address)).eraseDups := by
  induction facets using List.reverseRecOn with
  | nil => rfl
  | append_singleton facets facet ih =>
      rw [List.foldl_concat, ih, List.filter_append]
      by_cases hother : isOther address facet = true
      · obtain ⟨hself, hzero⟩ := of_decide_eq_true hother
        rw [List.filter_cons_of_pos hother, List.filter_nil, eraseDups_concat]
        have hlisted : (facets.filter (isOther address)).eraseDups.contains facet = true ↔
            facet ∈ facets.filter (isOther address) := by
          rw [List.contains_iff_mem, List.mem_eraseDups]
        unfold addFacet
        by_cases hmem : facet ∈ facets.filter (isOther address)
        · rw [if_pos hmem, if_pos (.inr (.inl (hlisted.2 hmem)))]
        · rw [if_neg hmem, if_neg]
          rintro (h | h | h)
          · exact hself h
          · exact hmem (hlisted.1 h)
          · exact hzero h
      · rw [List.filter_cons_of_neg hother, List.filter_nil, List.append_nil]
        unfold addFacet
        rw [if_pos]
        by_contra hnot
        rw [not_or, not_or] at hnot
        exact hother (decide_eq_true ⟨hnot.1, hnot.2.2⟩)

omit [AddressLibrary] in
theorem mem_foldl_addFacet {address a : String} {facets : List String} :
    a ∈ facets.foldl (addFacet address) [] ↔
      a ∈ facets ∧ fold a ≠ fold address ∧ fold a ≠ zero := by
  rw [foldl_addFacet, List.mem_eraseDups, List.mem_filter]
  exact and_congr_right fun _ => decide_eq_true_iff

/-- Facets are addresses in the checksummed spelling, and the zero address is none of them. -/
theorem spelt_detectFacets (address : String) (selectors : List Value) :
    Except.Meets (fun facets => ∀ a ∈ facets, IsSpelt a ∧ a ≠ zero) Fault.Grave
      (detectFacets r address selectors).result := by
  unfold detectFacets
  rw [Traced.result_bind]
  refine (Except.Meets.mapM fun v _ =>
    (Selector.unannounced_normalize v).mono (fun _ h => h) fun _ h => h.grave).bind
      fun spelt _ => ?_
  split
  · exact .ok (by simp)
  · rw [Traced.result_bind, Traced.result_attempt, Except.ok_bind]
    split
    · rw [Traced.result_bind, Traced.result_ofExcept]
      refine (Except.Meets.mapM fun v _ => grave_checksumAny v).bind fun facets hfacets => ?_
      refine .ok fun a ha => ?_
      obtain ⟨h, -, hzero⟩ := mem_foldl_addFacet.1 ha
      exact ⟨hfacets a h, fun hsame => hzero ((fold_eq_zero_iff (hfacets a h)).2 hsame)⟩
    · exact .ok (by simp)

end Proxy

end ContractAbi
