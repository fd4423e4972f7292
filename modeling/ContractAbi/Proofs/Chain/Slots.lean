import ContractAbi.Proofs.Chain.Delegates

/-!
# Slots one by one

Slots are probed together, question by question. What is found in each of them is what is found if
it is probed alone, and the first one that is confirmed decides.

* `Points` and `Confirms`: what a slot says, and when it is believed;
* `probe_eq_ok_iff`: slots that are probed together are probed alone;
* `probeSlot_eq_some_iff`: what is found in a slot;
* `FirstConfirmed`: the answer of slots in their order;
* `detectAt_cases`: all that a search for an implementation may answer.
-/

namespace ContractAbi

variable [AddressLibrary]

/-- The low twenty bytes of a word, as a service gives it, are those of an address and not all
zero. -/
def Address.Holds (word : Value) (a : String) : Prop :=
  ∃ bs, word.toBytes = .ok bs ∧ Bytes.lastPadded 20 bs ≠ List.replicate 20 0 ∧
    a = Address.ofBytes (Bytes.lastPadded 20 bs)

def ChainReader.HasCode (r : ChainReader) (a : String) : Prop :=
  ∃ code, (r.code a).result = .ok code ∧ code.holds = true

namespace Address

theorem ofWordValue_eq_some_iff {word : Value} {a : String} :
    ofWordValue word = .ok (some a) ↔ Holds word a := by
  unfold ofWordValue
  rw [Except.map_eq_ok_iff]
  exact exists_congr fun bs => and_congr_right fun _ => ofWord_eq_some_iff

theorem Holds.unique {word : Value} {a b : String} (ha : Holds word a) (hb : Holds word b) :
    a = b := by
  have hsame := (ofWordValue_eq_some_iff.2 ha).symm.trans (ofWordValue_eq_some_iff.2 hb)
  exact Option.some.inj (Except.ok.inj hsame)

theorem Holds.exists_ofWord {word : Value} {a : String} (h : Holds word a) :
    ∃ bs, ofWord bs = some a := by
  obtain ⟨bs, -, h⟩ := h
  exact ⟨bs, ofWord_eq_some_iff.2 h⟩

end Address

namespace Proxy

open Address

variable {r : ChainReader} {place a : String} {slot : ProxySlot} {slots : List ProxySlot}
  {settings : Settings} {selectors : List Value} {code : Value} {info : Option ProxyInfo}

/-! ## One slot -/

inductive Points (r : ChainReader) (place : String) (slot : ProxySlot) (a : String) : Prop
  | direct {word} (hslot : slot.beacon = false)
      (hword : (r.storage place slot.slot).result = .ok word) (h : Holds word a)
  | beacon {word b answer} (hslot : slot.beacon = true)
      (hword : (r.storage place slot.slot).result = .ok word) (hbeacon : Holds word b)
      (hanswer : (r.call b implementationCall).result = .ok answer) (h : Holds answer a)

structure Confirms (r : ChainReader) (place : String) (slot : ProxySlot) (a : String) : Prop where
  points : Points r place slot a
  other : fold a ≠ fold place
  code : r.HasCode a

theorem Points.exists_ofWord (h : Points r place slot a) : ∃ bs, ofWord bs = some a := by
  cases h with
  | direct _ _ h => exact h.exists_ofWord
  | beacon _ _ _ _ h => exact h.exists_ofWord

theorem Points.unique {b : String} (ha : Points r place slot a) (hb : Points r place slot b) :
    a = b := by
  cases ha with
  | direct hslot hword h =>
      cases hb with
      | direct _ hword' h' =>
          obtain rfl := Except.ok.inj (hword.symm.trans hword')
          exact h.unique h'
      | beacon hslot' _ _ _ _ => exact absurd (hslot.symm.trans hslot') (by decide)
  | beacon hslot hword hbeacon hanswer h =>
      cases hb with
      | direct hslot' _ _ => exact absurd (hslot.symm.trans hslot') (by decide)
      | beacon _ hword' hbeacon' hanswer' h' =>
          obtain rfl := Except.ok.inj (hword.symm.trans hword')
          obtain rfl := hbeacon.unique hbeacon'
          obtain rfl := Except.ok.inj (hanswer.symm.trans hanswer')
          exact h.unique h'

omit [AddressLibrary] in
theorem exists_hasCode (r : ChainReader) (a : String) :
    ∃ held, (hasCode r a).result = .ok held ∧ (held = true ↔ r.HasCode a) := by
  unfold hasCode ChainReader.HasCode
  rw [Traced.result_bind, Traced.result_attempt, Except.ok_bind]
  cases hcode : (r.code a).result with
  | ok code => exact ⟨code.holds, rfl, by simp⟩
  | error f => exact ⟨false, rfl, by simp⟩

omit [AddressLibrary] in
theorem confirm_eq_some_iff {candidate : String} :
    (confirm r place slot candidate).result = .ok (some a) ↔
      a = candidate ∧ fold a ≠ fold place ∧ r.HasCode a := by
  unfold confirm
  split
  · rename_i hself
    rw [Traced.result_pure]
    refine iff_of_false (by simp) ?_
    rintro ⟨rfl, hother, -⟩
    exact hother hself
  · rename_i hother
    obtain ⟨held, hheld, hiff⟩ := exists_hasCode r candidate
    rw [Traced.result_bind, hheld, Except.ok_bind]
    cases held with
    | true =>
        have hcode := hiff.1 rfl
        simp only [if_true, Traced.result_pure, Except.ok.injEq, Option.some.injEq]
        refine ⟨?_, fun h => h.1.symm⟩
        rintro rfl
        exact ⟨rfl, hother, hcode⟩
    | false =>
        rw [if_neg Bool.false_ne_true, Traced.result_bind, Traced.result_note, Except.ok_bind]
        refine iff_of_false (by simp) ?_
        rintro ⟨rfl, -, hcode⟩
        exact absurd (hiff.2 hcode) (by decide)

/-- One slot, as if there were no others. -/
def probeSlot (r : ChainReader) (place : String) (slot : ProxySlot) : Traced (Option String) := do
  let word ← readWord r place slot
  let stage ← afterWord r place slot word
  afterBeacon r place slot stage

/-- All slots that are probed together answer if each of them alone does, and as it does. -/
theorem probe_eq_ok_iff {found : List (Option String)} :
    (probe r place slots).result = .ok found ↔
      (slots.mapM fun slot => (probeSlot r place slot).result) = .ok found := by
  have hsteps : (probe r place slots).result =
      (slots.mapM fun slot => (readWord r place slot).result) >>= fun words =>
        ((slots.zip words).mapM fun p => (afterWord r place p.1 p.2).result) >>= fun stages =>
          (slots.zip stages).mapM fun p => (afterBeacon r place p.1 p.2).result := by
    unfold probe
    rw [Traced.result_bind, Traced.result_mapM]
    refine congrArg (_ >>= ·) (funext fun words => ?_)
    rw [Traced.result_bind, result_together]
    exact congrArg (_ >>= ·) (funext fun stages => result_together _ _)
  have hslot : ∀ slot, (probeSlot r place slot).result =
      ((readWord r place slot).result >>= fun word => (afterWord r place slot word).result) >>=
        fun stage => (afterBeacon r place slot stage).result := by
    intro slot
    unfold probeSlot
    rw [Traced.result_bind, bind_assoc]
    exact congrArg (_ >>= ·) (funext fun word => Traced.result_bind _ _)
  simp only [hslot]
  rw [hsteps, ← bind_assoc, Except.bind_eq_ok_iff]
  refine Iff.trans ?_ (Except.mapM_zip_eq_ok_iff
    (g := fun p => (afterBeacon r place p.1 p.2).result))
  rw [Except.bind_eq_ok_iff]
  exact exists_congr fun stages => and_congr_left fun _ => Except.mapM_zip_eq_ok_iff
    (g := fun p => (afterWord r place p.1 p.2).result)

/-- A question that fails is taken for one with an empty answer, which holds no address. -/
theorem holds_getD_iff {answer : Except Fault Value} :
    Holds (answer.toOption.getD .null) a ↔ ∃ word, answer = .ok word ∧ Holds word a := by
  cases answer with
  | ok word => exact ⟨fun h => ⟨word, rfl, h⟩, fun ⟨_, hword, h⟩ => Except.ok.inj hword ▸ h⟩
  | error f =>
      refine iff_of_false ?_ (by simp)
      rintro ⟨bs, hbs, hne, -⟩
      obtain rfl := Except.ok.inj hbs
      exact hne (by decide)

omit [AddressLibrary] in
theorem result_readWord (r : ChainReader) (place : String) (slot : ProxySlot) :
    (readWord r place slot).result =
      .ok ((r.storage place slot.slot).result.toOption.getD .null) := by
  unfold readWord
  rw [Traced.result_bind, Traced.result_attempt, Except.ok_bind]
  cases (r.storage place slot.slot).result <;> rfl

omit [AddressLibrary] in
theorem result_askBeacon (r : ChainReader) (b : String) :
    (askBeacon r b).result = .ok ((r.call b implementationCall).result.toOption.getD .null) := by
  unfold askBeacon
  rw [Traced.result_bind, Traced.result_attempt, Except.ok_bind]
  cases (r.call b implementationCall).result <;> rfl

theorem afterWord_of_error {word : Value} {f : Fault} (h : ofWordValue word = .error f) :
    afterWord r place slot word = .fail f := by
  unfold afterWord
  rw [h]
  rfl

theorem afterWord_of_none {word : Value} (h : ofWordValue word = .ok none) :
    afterWord r place slot word = pure (.done none) := by
  unfold afterWord
  rw [h]
  rfl

theorem afterWord_of_holds {word : Value} (h : ofWordValue word = .ok (some a)) :
    afterWord r place slot word =
      if slot.beacon then do
        .note .debug origin (place ++ " points to beacon " ++ a)
        return .beacon (← askBeacon r a)
      else return .done (← confirm r place slot a) := by
  have hvalid := isValid_of_ofWordValue h
  unfold afterWord
  rw [h]
  change (if (!isValid (.text a)) = true then _ else _ : Traced Stage) = _
  rw [hvalid, if_neg (by decide)]

theorem afterBeacon_eq_some_iff {answer : Value} :
    (afterBeacon r place slot (.beacon answer)).result = .ok (some a) ↔
      Holds answer a ∧ fold a ≠ fold place ∧ r.HasCode a := by
  rw [← ofWordValue_eq_some_iff]
  unfold afterBeacon
  rw [Traced.result_bind, Traced.result_ofExcept, Except.bind_eq_ok_iff]
  constructor
  · rintro ⟨o, ho, h⟩
    cases o with
    | none => exact absurd h (by simp)
    | some c =>
        obtain ⟨rfl, hother⟩ := confirm_eq_some_iff.1 h
        exact ⟨ho, hother⟩
  · rintro ⟨ho, h⟩
    exact ⟨some a, ho, confirm_eq_some_iff.2 ⟨rfl, h⟩⟩

theorem exists_holds_of_probeSlot (h : (probeSlot r place slot).result = .ok (some a)) :
    ∃ word c, (r.storage place slot.slot).result = .ok word ∧ Holds word c := by
  unfold probeSlot at h
  rw [Traced.result_bind, result_readWord, Except.ok_bind, Traced.result_bind] at h
  obtain ⟨stage, hstage, h⟩ := Except.bind_eq_ok_iff.1 h
  cases hheld : ofWordValue ((r.storage place slot.slot).result.toOption.getD .null) with
  | error f =>
      rw [afterWord_of_error hheld] at hstage
      exact absurd hstage (by simp)
  | ok o =>
      cases o with
      | none =>
          rw [afterWord_of_none hheld] at hstage
          obtain rfl := Except.ok.inj hstage
          exact absurd h (by simp [afterBeacon])
      | some c =>
          -- A word that was not answered holds no address, so this one was.
          obtain ⟨word, hword, hc⟩ := holds_getD_iff.1 (ofWordValue_eq_some_iff.1 hheld)
          exact ⟨word, c, hword, hc⟩

theorem result_probeSlot_of_holds {word : Value} {c : String}
    (hword : (r.storage place slot.slot).result = .ok word) (hc : Holds word c) :
    (probeSlot r place slot).result =
      if slot.beacon then (afterBeacon r place slot
        (.beacon ((r.call c implementationCall).result.toOption.getD .null))).result
      else (confirm r place slot c).result := by
  have hheld := ofWordValue_eq_some_iff.2 (holds_getD_iff.2 ⟨_, hword, hc⟩)
  unfold probeSlot
  rw [Traced.result_bind, result_readWord, Except.ok_bind, Traced.result_bind,
    afterWord_of_holds hheld]
  by_cases hslot : slot.beacon = true
  · rw [if_pos hslot, if_pos hslot, Traced.result_bind, Traced.result_note, Except.ok_bind,
      Traced.result_bind, result_askBeacon, Except.ok_bind, Traced.result_pure, Except.ok_bind]
  · rw [if_neg hslot, if_neg hslot, Traced.result_bind]
    cases (confirm r place slot c).result <;> rfl

/-- What is found is the address that the slot points to, if it is that of another contract. -/
theorem probeSlot_eq_some_iff :
    (probeSlot r place slot).result = .ok (some a) ↔ Confirms r place slot a := by
  constructor
  · intro h
    obtain ⟨word, c, hword, hc⟩ := exists_holds_of_probeSlot h
    rw [result_probeSlot_of_holds hword hc] at h
    cases hslot : slot.beacon with
    | true =>
        rw [hslot, if_pos rfl, afterBeacon_eq_some_iff, holds_getD_iff] at h
        obtain ⟨⟨answer, hanswer, ha⟩, hother, hcode⟩ := h
        exact ⟨.beacon hslot hword hc hanswer ha, hother, hcode⟩
    | false =>
        rw [hslot, if_neg Bool.false_ne_true, confirm_eq_some_iff] at h
        obtain ⟨rfl, hother, hcode⟩ := h
        exact ⟨.direct hslot hword hc, hother, hcode⟩
  · rintro ⟨hpoints, hother, hcode⟩
    cases hpoints with
    | direct hslot hword ha =>
        rw [result_probeSlot_of_holds hword ha, hslot, if_neg Bool.false_ne_true,
          confirm_eq_some_iff]
        exact ⟨rfl, hother, hcode⟩
    | beacon hslot hword hbeacon hanswer ha =>
        rw [result_probeSlot_of_holds hword hbeacon, hslot, if_pos rfl, afterBeacon_eq_some_iff]
        exact ⟨holds_getD_iff.2 ⟨_, hanswer, ha⟩, hother, hcode⟩

/-! ## The first slot -/

/-- The answer of slots in their order: what the first one tells that is believed. -/
inductive FirstConfirmed (r : ChainReader) (place : String) :
    List ProxySlot → Option ProxyInfo → Prop
  | nil : FirstConfirmed r place [] none
  | here {slot : ProxySlot} {behind : List ProxySlot} {a : String}
      (h : Confirms r place slot a) :
      FirstConfirmed r place (slot :: behind) (some ⟨.text a, slot.kind, []⟩)
  | later {slot : ProxySlot} {behind : List ProxySlot} {found : Option ProxyInfo}
      (h : ∀ a, ¬Confirms r place slot a) (hrest : FirstConfirmed r place behind found) :
      FirstConfirmed r place (slot :: behind) found

def told (p : ProxySlot × String) : ProxyInfo :=
  ⟨.text p.2, p.1.kind, []⟩

theorem firstConfirmed_of_probe {found : List (Option String)}
    (h : (probe r place slots).result = .ok found) :
    FirstConfirmed r place slots ((firstFound (slots.zip found)).map told) := by
  have heach := Except.mapM_eq_ok_iff.1 (probe_eq_ok_iff.1 h)
  clear h
  induction heach with
  | nil => exact .nil
  | @cons slot o slots found hslot _ ih =>
      cases o with
      | some a => exact .here (probeSlot_eq_some_iff.1 hslot)
      | none =>
          refine .later (fun a hconfirms => ?_) ih
          have hsome := probeSlot_eq_some_iff.2 hconfirms
          rw [hslot] at hsome
          exact absurd hsome (by simp)

theorem FirstConfirmed.exists_confirms {i : ProxyInfo}
    (h : FirstConfirmed r place slots (some i)) :
    ∃ slot ∈ slots, ∃ a, Confirms r place slot a ∧ i = ⟨.text a, slot.kind, []⟩ := by
  generalize hsome : some i = o at h
  induction h with
  | nil => exact absurd hsome (by simp)
  | here h => exact ⟨_, List.mem_cons_self, _, h, Option.some.inj hsome⟩
  | later _ _ ih =>
      obtain ⟨slot, hslot, rest⟩ := ih hsome
      exact ⟨slot, List.mem_cons_of_mem _ hslot, rest⟩

/-! ## The whole search -/

def Settings.probed (settings : Settings) (selectors : List Value) (proxyLike : Bool) :
    List ProxySlot :=
  if settings.guardNaive && !selectors.isEmpty && !proxyLike then
    settings.slots.filter fun s => !s.naive
  else settings.slots

/-- Code that is a clone of an address, and there is code at that one. -/
def Clones (r : ChainReader) (code : Value) (a : String) : Prop :=
  MinimalProxy.targetOfValue? code = .ok (some a) ∧ r.HasCode a

theorem Clones.isSpelt (h : Clones r code a) : IsSpelt a :=
  MinimalProxy.isSpelt_of_targetOfValue? h.1

theorem holds_of_clones (h : Clones r code a) : code.holds = true := by
  obtain ⟨bs, hbs, htarget⟩ := MinimalProxy.target?_of_targetOfValue? h.1
  obtain ⟨_, -, rfl, -⟩ := MinimalProxy.target?_eq_some_iff.1 htarget
  cases code with
  | text s =>
      refine decide_eq_true ?_
      rintro rfl
      exact absurd hbs nofun
  | bytes own =>
      cases own with
      | nil => exact absurd hbs nofun
      | cons op rest => rfl
  | _ => exact absurd hbs nofun

theorem cloneTarget_eq_some_iff : (cloneTarget r code).result = .ok (some a) ↔ Clones r code a := by
  constructor
  · intro h
    unfold cloneTarget at h
    split at h
    · rw [Traced.result_bind, Traced.result_ofExcept] at h
      obtain ⟨o, ho, h⟩ := Except.bind_eq_ok_iff.1 h
      cases o with
      | none => exact absurd h (by simp)
      | some target =>
          dsimp only at h
          obtain ⟨held, hheld, hiff⟩ := exists_hasCode r target
          rw [Traced.result_bind, hheld, Except.ok_bind] at h
          cases held with
          | false => exact absurd h (by simp)
          | true =>
              obtain rfl := Option.some.inj (Except.ok.inj h)
              exact ⟨ho, hiff.1 rfl⟩
    · exact absurd h (by simp)
  · intro h
    obtain ⟨held, hheld, hiff⟩ := exists_hasCode r a
    unfold cloneTarget
    rw [if_pos (holds_of_clones h), Traced.result_bind, Traced.result_ofExcept, h.1, Except.ok_bind]
    dsimp only
    rw [Traced.result_bind, hheld, Except.ok_bind, if_pos (hiff.2 h.2)]
    rfl

theorem not_clones_of_cloneTarget (h : (cloneTarget r code).result = .ok none) :
    ¬Clones r code a := by
  intro hclones
  rw [cloneTarget_eq_some_iff.2 hclones] at h
  exact absurd h (by simp)

theorem detectAt_of_clones (h : Clones r code a) :
    (detectAt settings r place selectors code).result =
      .ok (some ⟨.text a, .text "eip1167", []⟩) := by
  unfold detectAt
  rw [Traced.result_bind, cloneTarget_eq_some_iff.2 h]
  rfl

/-- Where there is no clone, the first slot with a candidate decides. The notes that are made of
selectors do not. -/
theorem result_detectAt_of_slots (h : (cloneTarget r code).result = .ok none) :
    (detectAt settings r place selectors code).result =
      isProxyLike selectors >>= fun proxyLike =>
        (probe r place (settings.probed selectors proxyLike)).result >>= fun found =>
          .ok ((firstFound ((settings.probed selectors proxyLike).zip found)).map told) := by
  unfold detectAt
  rw [Traced.result_bind, h, Except.ok_bind]
  dsimp only
  rw [Traced.result_bind, Traced.result_ofExcept]
  refine congrArg (_ >>= ·) (funext fun proxyLike => ?_)
  unfold Settings.probed
  -- The two cases differ in what is noted.
  cases proxyLike with
  | true =>
      rw [if_pos rfl, Traced.result_bind, Traced.result_note, Except.ok_bind, Traced.result_bind]
      refine congrArg (_ >>= ·) (funext fun found => ?_)
      split <;> rename_i hfirst <;> rw [hfirst] <;> rfl
  | false =>
      rw [if_neg Bool.false_ne_true, Traced.result_bind]
      refine congrArg (_ >>= ·) (funext fun found => ?_)
      split <;> rename_i hfirst <;> rw [hfirst] <;> rfl

/-- What is found is the target of a clone, or what the first slot tells that is believed. -/
theorem detectAt_cases (h : (detectAt settings r place selectors code).result = .ok info) :
    (∃ a, Clones r code a ∧ info = some ⟨.text a, .text "eip1167", []⟩) ∨
      (∀ a, ¬Clones r code a) ∧ ∃ proxyLike, isProxyLike selectors = .ok proxyLike ∧
        FirstConfirmed r place (settings.probed selectors proxyLike) info := by
  cases htarget : (cloneTarget r code).result with
  | error f =>
      unfold detectAt at h
      rw [Traced.result_bind, htarget] at h
      exact absurd h (by simp)
  | ok target =>
      cases target with
      | some a =>
          have hclones := cloneTarget_eq_some_iff.1 htarget
          rw [detectAt_of_clones hclones] at h
          exact .inl ⟨a, hclones, (Except.ok.inj h).symm⟩
      | none =>
          rw [result_detectAt_of_slots htarget] at h
          obtain ⟨proxyLike, hlike, h⟩ := Except.bind_eq_ok_iff.1 h
          obtain ⟨found, hfound, h⟩ := Except.bind_eq_ok_iff.1 h
          rw [← Except.ok.inj h]
          exact .inr ⟨fun a => not_clones_of_cloneTarget htarget, proxyLike, hlike,
            firstConfirmed_of_probe hfound⟩

theorem detect_eq_ok_iff {address : Value} :
    (detect settings r address selectors code).result = .ok info ↔
      ∃ place, checksum address = .ok place ∧
        (detectAt settings r place selectors code).result = .ok info := by
  unfold detect
  rw [Traced.result_bind, Traced.result_ofExcept, Except.bind_eq_ok_iff]

/-- The implementation that is found is an address with code. It is the target of a clone, or
neither the zero address nor that of the contract itself. -/
theorem implementation_of_detectAt {i : ProxyInfo}
    (h : (detectAt settings r place selectors code).result = .ok (some i)) :
    ∃ a, i.implementation = .text a ∧ IsSpelt a ∧ r.HasCode a ∧
      (Clones r code a ∨ (a ≠ zero ∧ fold a ≠ fold place)) := by
  rcases detectAt_cases h with ⟨a, hclones, hi⟩ | ⟨-, proxyLike, -, hfirst⟩
  · obtain rfl := Option.some.inj hi
    exact ⟨a, rfl, hclones.isSpelt, hclones.2, .inl hclones⟩
  · obtain ⟨slot, -, a, hconfirms, rfl⟩ := hfirst.exists_confirms
    obtain ⟨word, hword⟩ := hconfirms.points.exists_ofWord
    exact ⟨a, rfl, isSpelt_of_ofWord hword, hconfirms.code,
      .inr ⟨ne_zero_of_ofWord hword, hconfirms.other⟩⟩

end Proxy

end ContractAbi
