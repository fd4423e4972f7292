import ContractAbi.Address.Libraries
import ContractAbi.Proofs.Chain.Questions
import Mathlib.Data.List.Nodup

/-!
# Earlier slots decide

All slots are read, but what is found is what the first one tells that is confirmed. Neither what
stands behind it nor what goes wrong with the others makes a difference.

* `Proxy.FirstConfirmed.of_agreesToFirst`: nothing behind the first confirmed slot matters;
* `Proxy.confirms_iff_of_failsBeside`: nor do failures of slots that are not confirmed;
* `Proxy.detect_priority`: both, for a whole search.
-/

namespace ContractAbi

namespace Proxy

open Address ChainReader

variable {r q : ChainReader} {place a : String} {slot : ProxySlot} {slots : List ProxySlot}
  {settings : Settings} {selectors : List Value} {code : Value} {info : Option ProxyInfo}

/-! ## Two readers -/

section

variable [AddressLibrary]

/-- The second reader answers what is asked for a slot as the first one does, if at all. -/
def Follows (r q : ChainReader) (place : String) (slot : ProxySlot) : Prop :=
  ∀ x, Asks r place slot x → ∀ v, (q.ask place x).result = .ok v → (r.ask place x).result = .ok v

def Agrees (r q : ChainReader) (place : String) (slot : ProxySlot) : Prop :=
  ∀ x, Asks r place slot x → (q.ask place x).result = (r.ask place x).result

theorem Agrees.follows (h : Agrees r q place slot) : Follows r q place slot :=
  fun x hx _ hv => (h x hx).symm.trans hv

theorem Points.of_follows (h : Follows r q place slot) (hpoints : Points q place slot a) :
    Points r place slot a := by
  cases hpoints with
  | direct hslot hword hholds => exact .direct hslot (h _ .word _ hword) hholds
  | beacon hslot hword hbeacon hanswer hholds =>
      have hword := h _ .word _ hword
      exact .beacon hslot hword hbeacon (h _ (.beacon hslot hword hbeacon) _ hanswer) hholds

theorem Confirms.of_follows (h : Follows r q place slot) (hconfirms : Confirms q place slot a) :
    Confirms r place slot a := by
  have hpoints := hconfirms.points.of_follows h
  obtain ⟨code, hcode, hholds⟩ := hconfirms.code
  exact ⟨hpoints, hconfirms.other, code, h _ (.code hpoints hconfirms.other) _ hcode, hholds⟩

theorem Points.of_agrees (h : Agrees r q place slot) (hpoints : Points r place slot a) :
    Points q place slot a := by
  cases hpoints with
  | direct hslot hword hholds => exact .direct hslot ((h _ .word).trans hword) hholds
  | beacon hslot hword hbeacon hanswer hholds =>
      exact .beacon hslot ((h _ .word).trans hword) hbeacon
        ((h _ (.beacon hslot hword hbeacon)).trans hanswer) hholds

theorem Confirms.of_agrees (h : Agrees r q place slot) (hconfirms : Confirms r place slot a) :
    Confirms q place slot a := by
  obtain ⟨code, hcode, hholds⟩ := hconfirms.code
  exact ⟨hconfirms.points.of_agrees h, hconfirms.other, code,
    (h _ (.code hconfirms.points hconfirms.other)).trans hcode, hholds⟩

/-! ## The first slot -/

theorem FirstConfirmed.unique {other : Option ProxyInfo} (h : FirstConfirmed r place slots info)
    (hother : FirstConfirmed r place slots other) : info = other := by
  induction h with
  | nil =>
      cases hother
      rfl
  | here h =>
      cases hother with
      | here h' => rw [h.points.unique h'.points]
      | later h' _ => exact absurd h (h' _)
  | later h _ ih =>
      cases hother with
      | here h' => exact absurd h' (h _)
      | later _ hrest => exact ih hrest

theorem FirstConfirmed.congr (h : FirstConfirmed r place slots info)
    (hsame : ∀ slot ∈ slots, ∀ a, Confirms q place slot a ↔ Confirms r place slot a) :
    FirstConfirmed q place slots info := by
  induction h with
  | nil => exact .nil
  | here h => exact .here ((hsame _ List.mem_cons_self _).2 h)
  | later h _ ih =>
      refine .later (fun a ha => h a ((hsame _ List.mem_cons_self a).1 ha)) (ih ?_)
      exact fun slot hslot => hsame slot (List.mem_cons_of_mem _ hslot)

/-- Both readers agree on every slot that no confirmed one stands before. -/
def AgreesToFirst (r q : ChainReader) (place : String) (slots : List ProxySlot) : Prop :=
  ∀ front slot behind, slots = front ++ slot :: behind →
    (∀ s ∈ front, ∀ a, ¬Confirms r place s a) → Agrees r q place slot

/-- What stands behind the first confirmed slot does not matter. -/
theorem FirstConfirmed.of_agreesToFirst (h : FirstConfirmed r place slots info)
    (hsame : AgreesToFirst r q place slots) : FirstConfirmed q place slots info := by
  induction h with
  | nil => exact .nil
  | here h => exact .here (h.of_agrees (hsame [] _ _ rfl (by simp)))
  | later h _ ih =>
      refine .later (fun a ha => h a (ha.of_follows (hsame [] _ _ rfl (by simp)).follows)) (ih ?_)
      -- What stands in front of a slot of the rest stands behind the head, which is not confirmed.
      intro front slot behind hsplit hfront
      refine hsame (_ :: front) slot behind (by rw [hsplit]; rfl) ?_
      intro s hs
      rcases List.mem_cons.1 hs with rfl | hs
      · exact h
      · exact hfront s hs

/-! ## Slots that fail -/

/-- Some questions fail with the second reader, all of them asked for slots that are not confirmed
with the first one. -/
def FailsBeside (r q : ChainReader) (place : String) (slots : List ProxySlot) : Prop :=
  ∀ slot ∈ slots, ∀ x, Asks r place slot x →
    (q.ask place x).result = (r.ask place x).result ∨
      (∃ f, (q.ask place x).result = .error f) ∧
        ∃ s ∈ slots, (∀ a, ¬Confirms r place s a) ∧ Asks r place s x

/-- Slots that share a question are one slot, or confirmed together. -/
theorem Confirms.of_shared {s : ProxySlot} {x : Question}
    (hslots : (slots.map ProxySlot.slot).Nodup) (hs : s ∈ slots) (hslot : slot ∈ slots)
    (hx : Asks r place s x) (hshared : Asks r place slot x) (h : Confirms r place slot a) :
    Confirms r place s a := by
  -- A question tells at which stage it is asked, and from there on both slots go the same way.
  cases hx with
  | word =>
      generalize hword : Question.word s.slot = x at hshared
      cases hshared with
      | word =>
          rw [List.inj_on_of_nodup_map hslots hs hslot (Question.word.inj hword)]
          exact h
      | beacon _ _ _ => exact absurd hword nofun
      | code _ _ => exact absurd hword nofun
  | beacon hbeacon hword hholds =>
      cases hshared with
      | beacon hbeacon' hword' hholds' =>
          cases h.points with
          | direct hdirect _ _ => exact absurd (hdirect.symm.trans hbeacon') (by decide)
          | beacon _ hword'' hholds'' hanswer ha =>
              obtain rfl := Except.ok.inj (hword'.symm.trans hword'')
              obtain rfl := hholds'.unique hholds''
              exact ⟨.beacon hbeacon hword hholds hanswer ha, h.other, h.code⟩
  | code hpoints _ =>
      cases hshared with
      | code hpoints' _ =>
          obtain rfl := hpoints'.unique h.points
          exact ⟨hpoints, h.other, h.code⟩

theorem confirms_iff_of_failsBeside (hslots : (slots.map ProxySlot.slot).Nodup)
    (hfails : FailsBeside r q place slots) (hslot : slot ∈ slots) :
    Confirms q place slot a ↔ Confirms r place slot a := by
  constructor
  · refine Confirms.of_follows fun x hx v hv => ?_
    rcases hfails slot hslot x hx with hsame | ⟨⟨f, hf⟩, -⟩
    · exact hsame.symm.trans hv
    · exact absurd (hf.symm.trans hv) (by simp)
  · intro h
    refine h.of_agrees fun x hx => ?_
    rcases hfails slot hslot x hx with hsame | ⟨-, s, hs, hnot, hasks⟩
    · exact hsame
    · exact absurd (h.of_shared hslots hs hslot hasks hx) (hnot a)

/-! ## The whole search -/

/-- A reader that gives words that can be read, and with which the code is not a clone. -/
structure Plain (r : ChainReader) (code : Value) : Prop where
  readable : r.Readable
  notClone : ∀ a, ¬Clones r code a

theorem Plain.exists_firstConfirmed (h : Plain r code) (hselectors : AreSpelt selectors)
    (hcode : IsCode code) {proxyLike : Bool} (hlike : isProxyLike selectors = .ok proxyLike)
    (settings : Settings) (place : String) :
    ∃ info, (detectAt settings r place selectors code).result = .ok info ∧
      FirstConfirmed r place (settings.probed selectors proxyLike) info := by
  have hmeets : Except.Meets (fun _ => True) (fun _ => False)
      (detectAt settings r place selectors code).result :=
    meets_detectAt h.readable settings place hselectors hcode
  cases hfound : (detectAt settings r place selectors code).result with
  | error f => exact (hmeets.of_error hfound).elim
  | ok info =>
      refine ⟨info, rfl, ?_⟩
      rcases detectAt_cases hfound with ⟨a, hclones, -⟩ | ⟨-, other, hother, hfirst⟩
      · exact absurd hclones (h.notClone a)
      · rw [Except.ok.inj (hlike.symm.trans hother)]
        exact hfirst

omit [AddressLibrary] in
theorem nodup_probed (h : (settings.slots.map ProxySlot.slot).Nodup) (proxyLike : Bool) :
    ((settings.probed selectors proxyLike).map ProxySlot.slot).Nodup := by
  unfold Settings.probed
  split
  · exact h.sublist (List.filter_sublist.map _)
  · exact h

omit [AddressLibrary] in
theorem exists_isProxyLike (h : AreSpelt selectors) :
    ∃ proxyLike, isProxyLike selectors = .ok proxyLike := by
  have hmeets : Except.Meets (fun _ => True) (fun _ => False) (isProxyLike selectors) :=
    meets_isProxyLike h
  cases hlike : isProxyLike selectors with
  | ok proxyLike => exact ⟨proxyLike, rfl⟩
  | error f => exact (hmeets.of_error hlike).elim

/-- What is found is what the first slot tells that is confirmed, and nothing if none is. The
questions for all slots that are probed are asked, and nothing else makes a difference. What is
found does not change with what stands behind the first confirmed slot. If the slots are different,
nor does it if questions for unconfirmed ones fail. -/
theorem detect_priority {address : Value} (haddress : NamesContract address)
    (hselectors : AreSpelt selectors) (hcode : IsCode code) (hr : Plain r code)
    (settings : Settings) :
    ∃ place proxyLike, checksum address = .ok place ∧ isProxyLike selectors = .ok proxyLike ∧
      (∃ info, (detect settings r address selectors code).result = .ok info ∧
        FirstConfirmed r place (settings.probed selectors proxyLike) info) ∧
      (∀ slot ∈ settings.probed selectors proxyLike, ∀ x, Asks r place slot x →
        (r.ask place x).events ⊆ (detect settings r address selectors code).events) ∧
      (∀ q, (∀ a, MinimalProxy.targetOfValue? code = .ok (some a) → q.code a = r.code a) →
        (∀ slot ∈ settings.probed selectors proxyLike, ∀ x, Asks r place slot x →
          q.ask place x = r.ask place x) →
        detect settings q address selectors code = detect settings r address selectors code) ∧
      ∀ q, Plain q code →
        AgreesToFirst r q place (settings.probed selectors proxyLike) ∨
          (settings.slots.map ProxySlot.slot).Nodup ∧
            FailsBeside r q place (settings.probed selectors proxyLike) →
        (detect settings q address selectors code).result =
          (detect settings r address selectors code).result := by
  obtain ⟨place, hplace⟩ := exists_checksum_iff.2 (.inl haddress)
  obtain ⟨proxyLike, hlike⟩ := exists_isProxyLike hselectors
  obtain ⟨info, hinfo, hfirst⟩ := hr.exists_firstConfirmed hselectors hcode hlike settings place
  have hfound := detect_eq_ok_iff.2 ⟨place, hplace, hinfo⟩
  refine ⟨place, proxyLike, hplace, hlike, ⟨info, hfound, hfirst⟩, ?_, ?_, fun q hq hchange => ?_⟩
  · intro slot hslot x hx e he
    obtain ⟨hclone, found, hprobe⟩ := exists_probe_of_detectAt hr.notClone hlike hinfo
    have hasked := mem_events_probe hslot hprobe (mem_events_probeSlot hx he)
    unfold detect
    refine Traced.mem_events_bind_right ?_ (mem_events_detectAt hclone hlike hasked)
    exact (Traced.result_ofExcept _).trans hplace
  · intro q hclone hasked
    unfold detect
    refine Traced.bind_congr_answers fun place' hplace' => ?_
    obtain rfl := Except.ok.inj (hplace.symm.trans hplace')
    refine detectAt_eq_of_asks hclone fun proxyLike' hlike' => ?_
    obtain rfl := Except.ok.inj (hlike.symm.trans hlike')
    exact hasked
  obtain ⟨other, hother, hfirst'⟩ := hq.exists_firstConfirmed hselectors hcode hlike settings place
  have hsame : FirstConfirmed q place (settings.probed selectors proxyLike) info := by
    rcases hchange with hagrees | ⟨hslots, hfails⟩
    · exact hfirst.of_agreesToFirst hagrees
    · exact hfirst.congr fun slot hslot a =>
        confirms_iff_of_failsBeside (nodup_probed hslots proxyLike) hfails hslot
  rw [hfound, detect_eq_ok_iff.2 ⟨place, hplace, hother⟩, hfirst'.unique hsame]

theorem readable_bytes (bs : Bytes) : Readable (.bytes bs) := ⟨_, rfl⟩

def beaconReader (fails : Bool) : ChainReader where
  code address :=
    .answer (.bytes (if address = "0x1111111111111111111111111111111111111111" then [0x60] else []))
  storage _ slot :=
    if slot = .text "0xa3f0ad74e5423aebfd80d3ef4346578335a9a72aeaee59ff6cb3582b35133d50" then
      if fails then .fail (.timeout "") else .answer (.bytes (List.replicate 32 0x33))
    else if slot = .text "0x0000000000000000000000000000000000000000000000000000000000000000" then
      .answer (.bytes (List.replicate 32 0x11))
    else .answer (.bytes zeroWord)
  call _ _ := .fail (.timeout "")
  chainId := .answer .null

theorem plain_beaconReader (fails : Bool) : Plain (beaconReader fails) .null where
  readable := {
    storage := by
      intro address slot v h
      dsimp only [beaconReader] at h
      split at h
      · split at h
        · exact absurd h nofun
        · rw [← Except.ok.inj h]
          exact readable_bytes _
      · split at h
        · rw [← Except.ok.inj h]
          exact readable_bytes _
        · rw [← Except.ok.inj h]
          exact readable_bytes _
    call := fun _ _ _ h => absurd h nofun }
  notClone := fun a h => absurd (holds_of_clones h) (by decide)

end

open AddressLibrary in
theorem detect_priority_beacon :
    let address : Value := .text "0x2222222222222222222222222222222222222222"
    NamesContract address ∧ AreSpelt [] ∧ IsCode .null ∧
      Plain (beaconReader false) .null ∧ Plain (beaconReader true) .null ∧
      (detect .default (beaconReader true) address [] .null).result =
        (detect .default (beaconReader false) address [] .null).result := by
  intro address
  have haddress : NamesContract address :=
    ⟨_, List.replicate 40 '2', rfl, by decide, digits?_eq_some_iff.1 (by decide), by decide⟩
  have hslots : (Settings.default.slots.map ProxySlot.slot).Nodup := by decide +kernel
  have hselectors : AreSpelt [] := fun _ h => absurd h List.not_mem_nil
  obtain ⟨place, proxyLike, -, -, -, -, -, hsame⟩ :=
    detect_priority haddress hselectors (.inl rfl) (plain_beaconReader false) .default
  refine ⟨haddress, hselectors, .inl rfl, plain_beaconReader false, plain_beaconReader true,
    hsame _ (plain_beaconReader true) (.inr ⟨hslots, ?_⟩)⟩
  -- The two readers differ in one word only, that of the slot with the beacon.
  intro slot _ x hx
  cases x with
  | word slot =>
      by_cases hslot : slot =
          .text "0xa3f0ad74e5423aebfd80d3ef4346578335a9a72aeaee59ff6cb3582b35133d50"
      · refine .inr ⟨⟨.timeout "", ?_⟩, ⟨.text "eip1967-beacon", slot, true, false⟩, ?_, ?_, .word⟩
        · rw [hslot]
          rfl
        · rw [hslot]
          exact List.mem_cons_of_mem _ List.mem_cons_self
        · intro a h
          cases h.points with
          | direct hdirect _ _ => exact absurd hdirect (by simp)
          | beacon _ _ _ hanswer _ => exact absurd hanswer nofun
      · refine .inl ?_
        dsimp only [ask, beaconReader]
        rw [if_neg hslot, if_neg hslot]
  | beacon _ => exact .inl rfl
  | code _ => exact .inl rfl

end Proxy

end ContractAbi
