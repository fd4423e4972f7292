import ContractAbi.Proofs.Chain.Slots
import ContractAbi.Proofs.Session.Trace

/-!
# What is asked for slots

A slot asks for its word, for what its beacon answers, and for the code of the address that it
points to. A search asks all of this for every slot that it probes, and beside the code of a clone's
target nothing else goes into what it finds.

* `Proxy.Asks`: the questions that are asked for a slot;
* `Proxy.mem_events_probeSlot` and `Proxy.mem_events_detectAt`: all of them are asked;
* `Proxy.probe_eq_of_asks` and `Proxy.detectAt_eq_of_asks`: nothing else goes in.
-/

namespace ContractAbi

namespace ChainReader

inductive Question where
  | word (slot : Value)
  | beacon (address : String)
  | code (address : String)

def ask (r : ChainReader) (place : String) : Question → Traced Value
  | .word slot => r.storage place slot
  | .beacon address => r.call address Proxy.implementationCall
  | .code address => r.code address

end ChainReader

namespace Proxy

open Address ChainReader

variable {r q : ChainReader} {place a : String} {slot : ProxySlot} {slots : List ProxySlot}
  {settings : Settings} {selectors : List Value} {code : Value} {info : Option ProxyInfo}

/-! ## Questions -/

section

variable [AddressLibrary]

/-- A slot asks for its word, for the implementation of the beacon that the word holds, and for the
code of the address that it points to. -/
inductive Asks (r : ChainReader) (place : String) (slot : ProxySlot) : Question → Prop
  | word : Asks r place slot (.word slot.slot)
  | beacon {word : Value} {b : String} (hslot : slot.beacon = true)
      (hword : (r.storage place slot.slot).result = .ok word) (h : Holds word b) :
      Asks r place slot (.beacon b)
  | code {a : String} (hpoints : Points r place slot a) (hother : fold a ≠ fold place) :
      Asks r place slot (.code a)

omit [AddressLibrary] in
theorem confirm_congr (h : fold a ≠ fold place → q.code a = r.code a) :
    confirm q place slot a = confirm r place slot a := by
  unfold confirm hasCode
  split
  · rfl
  · rw [h ‹_›]

omit [AddressLibrary] in
theorem readWord_congr (h : q.storage place slot.slot = r.storage place slot.slot) :
    readWord q place slot = readWord r place slot := by
  unfold readWord
  rw [h]

theorem afterWord_congr {word : Value}
    (h : ∀ x, Asks r place slot x → q.ask place x = r.ask place x)
    (hread : (readWord r place slot).result = .ok word) :
    afterWord q place slot word = afterWord r place slot word := by
  rw [result_readWord] at hread
  obtain rfl := Except.ok.inj hread
  cases hheld : ofWordValue ((r.storage place slot.slot).result.toOption.getD .null) with
  | error f => rw [afterWord_of_error hheld, afterWord_of_error hheld]
  | ok o =>
      cases o with
      | none => rw [afterWord_of_none hheld, afterWord_of_none hheld]
      | some c =>
          obtain ⟨word, hword, hc⟩ := holds_getD_iff.1 (ofWordValue_eq_some_iff.1 hheld)
          rw [afterWord_of_holds hheld, afterWord_of_holds hheld]
          cases hslot : slot.beacon with
          | true =>
              have hcall : q.call c implementationCall = r.call c implementationCall :=
                h _ (.beacon hslot hword hc)
              have hbeacon : askBeacon q c = askBeacon r c := by
                unfold askBeacon
                rw [hcall]
              rw [if_pos rfl, if_pos rfl, hbeacon]
          | false =>
              have hconfirm : confirm q place slot c = confirm r place slot c :=
                confirm_congr fun hother => h _ (.code (.direct hslot hword hc) hother)
              rw [if_neg Bool.false_ne_true, if_neg Bool.false_ne_true, hconfirm]

theorem exists_beacon_of_afterWord {word answer : Value}
    (hread : (readWord r place slot).result = .ok word)
    (h : (afterWord r place slot word).result = .ok (.beacon answer)) :
    slot.beacon = true ∧ ∃ word b, (r.storage place slot.slot).result = .ok word ∧
      Holds word b ∧ answer = (r.call b implementationCall).result.toOption.getD .null := by
  rw [result_readWord] at hread
  obtain rfl := Except.ok.inj hread
  cases hheld : ofWordValue ((r.storage place slot.slot).result.toOption.getD .null) with
  | error f =>
      rw [afterWord_of_error hheld] at h
      exact absurd h (by simp)
  | ok o =>
      cases o with
      | none =>
          rw [afterWord_of_none hheld] at h
          exact absurd h (by simp)
      | some c =>
          obtain ⟨word, hword, hc⟩ := holds_getD_iff.1 (ofWordValue_eq_some_iff.1 hheld)
          rw [afterWord_of_holds hheld] at h
          cases hslot : slot.beacon with
          | true =>
              rw [if_pos hslot, Traced.result_bind, Traced.result_note, Except.ok_bind,
                Traced.result_bind, result_askBeacon, Except.ok_bind] at h
              exact ⟨rfl, word, c, hword, hc, (Stage.beacon.inj (Except.ok.inj h)).symm⟩
          | false =>
              rw [hslot, if_neg Bool.false_ne_true, Traced.result_bind] at h
              obtain ⟨o, -, h⟩ := Except.bind_eq_ok_iff.1 h
              exact absurd h (by simp)

theorem afterBeacon_congr {word : Value} {stage : Stage}
    (h : ∀ x, Asks r place slot x → q.ask place x = r.ask place x)
    (hread : (readWord r place slot).result = .ok word)
    (hstage : (afterWord r place slot word).result = .ok stage) :
    afterBeacon q place slot stage = afterBeacon r place slot stage := by
  cases stage with
  | done candidate => rfl
  | beacon answer =>
      obtain ⟨hslot, word, b, hword, hb, rfl⟩ := exists_beacon_of_afterWord hread hstage
      unfold afterBeacon
      refine Traced.bind_congr_answers fun o ho => ?_
      cases o with
      | none => rfl
      | some c =>
          obtain ⟨answer, hanswer, hc⟩ := holds_getD_iff.1 (ofWordValue_eq_some_iff.1 ho)
          exact confirm_congr fun hother =>
            h _ (.code (.beacon hslot hword hb hanswer hc) hother)

/-- Nothing but the answers to these questions, and what happens on the way to them, goes into what
is found in the slots. -/
theorem probe_eq_of_asks
    (h : ∀ slot ∈ slots, ∀ x, Asks r place slot x → q.ask place x = r.ask place x) :
    probe q place slots = probe r place slots := by
  have hwords : slots.mapM (readWord q place) = slots.mapM (readWord r place) :=
    Traced.mapM_congr fun slot hslot => readWord_congr (h slot hslot _ .word)
  unfold probe
  rw [hwords]
  refine Traced.bind_congr_answers fun words hread => ?_
  rw [Traced.result_mapM] at hread
  have hsteps : ∀ p ∈ slots.zip words, afterWord q place p.1 p.2 = afterWord r place p.1 p.2 := by
    intro p hp
    obtain ⟨hslot, hword⟩ := Except.eq_ok_of_mem_zip hread hp
    exact afterWord_congr (h _ hslot) hword
  rw [List.map_congr_left hsteps]
  refine Traced.bind_congr_answers fun stages hstaged => ?_
  refine congrArg together (List.map_congr_left fun p hp => ?_)
  -- the stage of a slot is the one that its own word leads to
  have hboth := Except.mapM_zip_eq_ok_iff
    (g := fun p => (afterWord r place p.1 p.2).result) |>.1
      (Except.bind_eq_ok_iff.2 ⟨words, hread, (result_together _ _).symm.trans hstaged⟩)
  obtain ⟨hslot, hstage⟩ := Except.eq_ok_of_mem_zip hboth hp
  obtain ⟨word, hword, hstage⟩ := Except.bind_eq_ok_iff.1 hstage
  exact afterBeacon_congr (h _ hslot) hword hstage

omit [AddressLibrary] in
theorem mem_events_confirm {e : Event} (hother : fold a ≠ fold place)
    (he : e ∈ (r.code a).events) : e ∈ (confirm r place slot a).events := by
  unfold confirm
  rw [if_neg hother]
  refine Traced.mem_events_bind_left ?_
  unfold hasCode
  exact Traced.mem_events_bind_left he

theorem mem_events_probeSlot {x : Question} {e : Event} (hx : Asks r place slot x)
    (he : e ∈ (r.ask place x).events) : e ∈ (probeSlot r place slot).events := by
  unfold probeSlot
  cases hx with
  | word =>
      refine Traced.mem_events_bind_left ?_
      unfold readWord
      exact Traced.mem_events_bind_left he
  | beacon hslot hword hholds =>
      have hheld := ofWordValue_eq_some_iff.2 (holds_getD_iff.2 ⟨_, hword, hholds⟩)
      refine Traced.mem_events_bind_right (result_readWord r place slot)
        (Traced.mem_events_bind_left ?_)
      rw [afterWord_of_holds hheld, if_pos hslot]
      refine Traced.mem_events_bind_right rfl (Traced.mem_events_bind_left ?_)
      unfold askBeacon
      exact Traced.mem_events_bind_left he
  | code hpoints hother =>
      refine Traced.mem_events_bind_right (result_readWord r place slot) ?_
      cases hpoints with
      | direct hslot hword hholds =>
          have hheld := ofWordValue_eq_some_iff.2 (holds_getD_iff.2 ⟨_, hword, hholds⟩)
          refine Traced.mem_events_bind_left ?_
          rw [afterWord_of_holds hheld, if_neg (by simp [hslot])]
          exact Traced.mem_events_bind_left (mem_events_confirm hother he)
      | @beacon word b answer hslot hword hbeacon hanswer hholds =>
          have hheld := ofWordValue_eq_some_iff.2 (holds_getD_iff.2 ⟨_, hword, hbeacon⟩)
          have hfound := ofWordValue_eq_some_iff.2 (holds_getD_iff.2 ⟨_, hanswer, hholds⟩)
          rw [afterWord_of_holds hheld, if_pos hslot]
          refine Traced.mem_events_bind_right
            (a := .beacon ((r.call b implementationCall).result.toOption.getD .null)) ?_ ?_
          · rw [Traced.result_bind, Traced.result_note, Except.ok_bind, Traced.result_bind,
              result_askBeacon]
            rfl
          · unfold afterBeacon
            exact Traced.mem_events_bind_right hfound (mem_events_confirm hother he)

/-- What happens for a slot by itself happens also when all slots are probed together. -/
theorem mem_events_probe {found : List (Option String)} {e : Event} (hslot : slot ∈ slots)
    (hfound : (probe r place slots).result = .ok found)
    (he : e ∈ (probeSlot r place slot).events) : e ∈ (probe r place slots).events := by
  unfold probe at hfound ⊢
  rw [Traced.result_bind] at hfound
  obtain ⟨words, hwords, hfound⟩ := Except.bind_eq_ok_iff.1 hfound
  rw [Traced.result_bind] at hfound
  obtain ⟨stages, hstages, -⟩ := Except.bind_eq_ok_iff.1 hfound
  have hread := hwords
  have hstaged := hstages
  rw [Traced.result_mapM] at hread
  rw [result_together] at hstaged
  unfold probeSlot at he
  rcases Traced.mem_events_bind_iff.1 he with he | ⟨word, hword, he⟩
  · refine Traced.mem_events_bind_left ?_
    rw [Traced.events_mapM_of_answers fun slot _ => result_readWord r place slot]
    exact List.mem_flatMap.2 ⟨slot, hslot, he⟩
  · refine Traced.mem_events_bind_right hwords ?_
    obtain ⟨word', hpair, hword'⟩ := Except.exists_mem_zip_of_mapM hread hslot
    obtain rfl := Except.ok.inj (hword.symm.trans hword')
    rcases Traced.mem_events_bind_iff.1 he with he | ⟨stage, hstage, he⟩
    · refine Traced.mem_events_bind_left (List.mem_flatten_of_mem ?_ he)
      exact List.mem_map.2 ⟨_, List.mem_map.2 ⟨_, hpair, rfl⟩, rfl⟩
    · refine Traced.mem_events_bind_right hstages ?_
      have hboth := Except.mapM_zip_eq_ok_iff
        (g := fun p => (afterWord r place p.1 p.2).result) |>.1
          (Except.bind_eq_ok_iff.2 ⟨words, hread, hstaged⟩)
      obtain ⟨stage', hpair', hstage'⟩ := Except.exists_mem_zip_of_mapM hboth hslot
      rw [hword, Except.ok_bind] at hstage'
      obtain rfl := Except.ok.inj (hstage.symm.trans hstage')
      exact List.mem_flatten_of_mem
        (List.mem_map.2 ⟨_, List.mem_map.2 ⟨_, hpair', rfl⟩, rfl⟩) he

/-! ## The whole search -/

theorem cloneTarget_congr
    (h : ∀ a, MinimalProxy.targetOfValue? code = .ok (some a) → q.code a = r.code a) :
    cloneTarget q code = cloneTarget r code := by
  unfold cloneTarget
  split
  · refine Traced.bind_congr_answers fun o ho => ?_
    cases o with
    | none => rfl
    | some a =>
        dsimp only
        unfold hasCode
        rw [h a ho]
  · rfl

/-- Beside the target of a clone, the search depends on what is asked for the slots that it
probes. -/
theorem detectAt_eq_of_asks
    (hcode : ∀ a, MinimalProxy.targetOfValue? code = .ok (some a) → q.code a = r.code a)
    (h : ∀ proxyLike, isProxyLike selectors = .ok proxyLike →
      ∀ slot ∈ settings.probed selectors proxyLike, ∀ x, Asks r place slot x →
        q.ask place x = r.ask place x) :
    detectAt settings q place selectors code = detectAt settings r place selectors code := by
  unfold detectAt
  rw [cloneTarget_congr hcode]
  refine Traced.bind_congr_answers fun target _ => ?_
  cases target with
  | some a => rfl
  | none =>
      refine Traced.bind_congr_answers fun proxyLike hlike => ?_
      have hprobe := probe_eq_of_asks (h proxyLike hlike)
      unfold Settings.probed at hprobe
      dsimp only
      rw [hprobe]

/-- Everything that happens for the slots happens in the search. -/
theorem mem_events_detectAt {proxyLike : Bool} {e : Event}
    (hclone : (cloneTarget r code).result = .ok none)
    (hlike : isProxyLike selectors = .ok proxyLike)
    (he : e ∈ (probe r place (settings.probed selectors proxyLike)).events) :
    e ∈ (detectAt settings r place selectors code).events := by
  unfold detectAt
  refine Traced.mem_events_bind_right hclone ?_
  refine Traced.mem_events_bind_right (Traced.result_ofExcept _ |>.trans hlike) ?_
  cases proxyLike with
  | true => exact Traced.mem_events_bind_right rfl (Traced.mem_events_bind_left he)
  | false => exact Traced.mem_events_bind_left he

/-- Where nothing is a clone, a search that answers has probed its slots. -/
theorem exists_probe_of_detectAt {proxyLike : Bool} (hnot : ∀ a, ¬Clones r code a)
    (hlike : isProxyLike selectors = .ok proxyLike)
    (h : (detectAt settings r place selectors code).result = .ok info) :
    (cloneTarget r code).result = .ok none ∧
      ∃ found, (probe r place (settings.probed selectors proxyLike)).result = .ok found := by
  cases htarget : (cloneTarget r code).result with
  | error f =>
      unfold detectAt at h
      rw [Traced.result_bind, htarget] at h
      exact absurd h (by simp)
  | ok target =>
      cases target with
      | some a => exact absurd (cloneTarget_eq_some_iff.1 htarget) (hnot a)
      | none =>
          rw [result_detectAt_of_slots htarget, hlike, Except.ok_bind] at h
          obtain ⟨found, hfound, -⟩ := Except.bind_eq_ok_iff.1 h
          exact ⟨rfl, found, hfound⟩

end

end Proxy

end ContractAbi
