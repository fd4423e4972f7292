import ContractAbi.Address.Libraries
import ContractAbi.Proofs.Address.Refusal
import ContractAbi.Proofs.Assembly.Step
import ContractAbi.Proofs.Assembly.Tables
import ContractAbi.Proofs.Number.Rounding
import ContractAbi.Proofs.Session.Trace

/-!
# Answers that stand

Once an assembly has answered, its answer is kept under the address and the chain. As long as the
record is fresh it is answered again, however the address is spelt and whatever was assembled on
the chain in between, and then nobody is asked and nothing changes.

* `assemble_of_fresh`: one assembly that is served;
* `exists_record_of_answers`: an answer leaves its record;
* `Assemblies.find?_eq`: a record that will be fresh at the end stays through assemblies;
* `answer_stands`: the answer after any assemblies on the chain.
-/

namespace ContractAbi.Assembler

variable {services : Services} {options : Options} {address given : Value} {s : State} {n : Int}
  {place : String} {q : CacheRecord}

/-! ## An assembly that is served -/

def IsOn (n : Int) (given : Value) : Prop :=
  given.isNull = true ∨ given.toWhole = .ok n

def onChain (n : Int) (given : Value) : Value :=
  if given.isNull then .int n else given

theorem toWhole_onChain (hgiven : IsOn n given) : (onChain n given).toWhole = .ok n := by
  unfold onChain
  cases hnull : given.isNull with
  | true => rfl
  | false => exact hgiven.resolve_left (by simp [hnull])

theorem chainOf_of_isOn (hchain : s.chain = .int n) :
    chainOf services place given s.chain = pure (onChain n given) := by
  rw [chainOf_of_known (.inr (by rw [hchain]; rfl)), hchain]
  rfl

theorem setChain_of_on {on : Value} (hchain : s.chain = .int n) (hon : on.toWhole = .ok n) :
    setChain on s = (.answer (), s) := by
  have hsame : (!s.chain.isNull && !s.chain.same (.int n)) = false := by
    simp [hchain, Value.isNull, Value.same]
  obtain ⟨chain, cache, memory⟩ := s
  obtain rfl : chain = .int n := hchain
  unfold setChain
  rw [hon, Session.run_bind_ofExcept_ok, Session.run_bind_get, hsame]
  rfl

theorem get?_of_fresh {c : ResultCache} {now : Binary64} {on : Value} (hon : on.toWhole = .ok n)
    (hfind : c.find? (Text.lowered place) n = some q) (hfresh : q.isFresh now c.maxAge = true) :
    c.get? now (.text place) on = pure (some q.result) := by
  have hrecord : c.record? (.text place) on = .ok (some q) := by
    unfold ResultCache.record?
    rw [ResultCache.key_text place hon, ← hfind]
    rfl
  unfold ResultCache.get?
  rw [hrecord]
  simp only [Bind.bind, Traced.bind, Traced.ofExcept, hfresh, if_true]
  rfl

def servedNote (place : String) (on : Value) : Event :=
  .notice .info origin ("Using cached result for " ++ place ++ " on chain " ++ on.plain)

theorem assemble_of_fresh [AddressLibrary] (hplace : Address.checksum address = .ok place)
    (hchain : s.chain = .int n) (hgiven : IsOn n given)
    (hfind : s.cache.find? (Text.lowered place) n = some q)
    (hfresh : q.isFresh services.now s.cache.maxAge = true) :
    assemble services options address given s =
      (⟨.ok q.result, [servedNote place (onChain n given)]⟩, s) := by
  have hon := toWhole_onChain hgiven
  rw [assemble_eq_assembleOn, hplace, Session.run_bind_ofExcept_ok, Session.run_bind_get,
    chainOf_of_isOn hchain, Session.run_bind_lift_pure]
  unfold assembleOn
  rw [Session.run_bind_of_answer (setChain_of_on hchain hon), Session.run_bind_get,
    get?_of_fresh hon hfind hfresh, Session.run_bind_lift_pure]
  rfl

/-! ## Answers leave records -/

/-- After an answer the assembler is on a chain and has the answer under that chain and the address:
in a new record, or in the one that it was read from. -/
theorem exists_record_of_answers [AddressLibrary] {r : Reconstruction} {s' : State}
    (h : (assemble services options address given).Answers s r s') :
    ∃ place n q, Address.checksum address = .ok place ∧ s'.chain = .int n ∧
      s'.cache.maxAge = s.cache.maxAge ∧ s'.cache.find? (Text.lowered place) n = some q ∧
      q.result = r ∧ (q = recordOf place n r services.now ∨ q ∈ s.cache.records) := by
  obtain ⟨hresult, rfl⟩ := h
  have hrun := assemble_run services options address given s
  generalize (assemble services options address given s).2 = s' at hrun ⊢
  rw [hresult] at hrun
  cases hrun with
  | @served place on n _ haim hserved =>
      obtain ⟨q, hfind, hq⟩ := Option.bind_eq_some_iff.1 hserved
      split at hq
      · exact ⟨place, n, q, (aimOf_eq_ok_iff.1 haim).1, rfl, s.maxAge_moveTo n, hfind,
          Option.some.inj hq, .inr (State.mem_records_of_moveTo (ResultCache.mem_of_find? hfind))⟩
      · exact absurd hq (by simp)
  | @stored place on n _ w haim _ _ =>
      exact ⟨place, n, recordOf place n r services.now, (aimOf_eq_ok_iff.1 haim).1, rfl,
        s.maxAge_moveTo n, ResultCache.find?_store _ (isFor_recordOf _ _ _ _), rfl, .inl rfl⟩

/-! ## Records through other assemblies -/

/-- From an assembler at a time, assemblies on a chain lead to an assembler at a later time. They
may have any services and any addresses, and may fail. -/
inductive Assemblies [AddressLibrary] (n : Int) : Binary64 → State → Binary64 → State → Prop
  | none {now s} : Assemblies n now s now s
  | next {now s services options address given now' s'} (hgiven : IsOn n given)
      (hclock : now.le services.now = true)
      (hrest : Assemblies n services.now (assemble services options address given s).2 now' s') :
      Assemblies n now s now' s'

theorem isFresh_of_le {now now' maxAge : Binary64} (hfinite : q.timestamp ≠ .infinite true)
    (hclock : now.le now' = true) (hfresh : q.isFresh now' maxAge = true) :
    q.isFresh now maxAge = true := by
  unfold CacheRecord.isFresh at *
  cases hverified : q.verified with
  | true => rfl
  | false =>
      rw [hverified, Bool.false_or] at hfresh
      rw [Bool.false_or]
      have hnumber : now'.sub q.timestamp ≠ .nan := by
        intro hnan
        rw [hnan] at hfresh
        exact absurd hfresh (by simp [Binary64.le])
      exact Binary64.le_trans (Binary64.sub_le_sub hfinite hclock hnumber) hfresh

/-- An assembly on the chain keeps a fresh record, since it would serve it rather than store
another one. -/
theorem find?_of_assemble [AddressLibrary]
    (hchain : s.chain = .int n) (hgiven : IsOn n given) {key : String}
    (hfind : s.cache.find? key n = some q)
    (hfresh : q.isFresh services.now s.cache.maxAge = true) :
    let s' := (assemble services options address given s).2
    s'.chain = .int n ∧ s'.cache.maxAge = s.cache.maxAge ∧ s'.cache.find? key n = some q := by
  intro s'
  have hrun : AssembleRun services options address given s
    (assemble services options address given s).1.result s' := assemble_run _ _ _ _ _
  generalize (assemble services options address given s).1.result = result at hrun
  have hsame : ∀ {place on m}, aimOf services address given s = .ok (place, on, m) → m = n := by
    intro place on m haim
    obtain ⟨-, hon, hm⟩ := aimOf_eq_ok_iff.1 haim
    rw [chainOf_of_isOn hchain] at hon
    obtain rfl := Except.ok.inj hon
    exact Except.ok.inj (hm.symm.trans (toWhole_onChain hgiven))
  clear_value s'
  cases hrun with
  | refused _ => exact ⟨hchain, rfl, hfind⟩
  | @served place on m r haim _ =>
      obtain rfl := hsame haim
      rw [State.moveTo_of_chain hchain]
      exact ⟨hchain, rfl, hfind⟩
  | @failed place on m f haim _ _ =>
      obtain rfl := hsame haim
      rw [State.moveTo_of_chain hchain]
      exact ⟨hchain, rfl, hfind⟩
  | @stored place on m r w haim hmissed _ =>
      obtain rfl := hsame haim
      rw [State.moveTo_of_chain hchain] at hmissed ⊢
      refine ⟨hchain, rfl, ?_⟩
      have hother : key ≠ Text.lowered place := by
        rintro rfl
        simp [State.served?, hfind, hfresh] at hmissed
      exact (ResultCache.find?_store_of_ne _ (isFor_recordOf _ _ _ _)
        fun h => hother h.1).trans hfind

theorem Assemblies.le_last [AddressLibrary] {now now' last : Binary64} {s' : State}
    (h : Assemblies n now s now' s') (hlast : now'.le last = true) : now.le last = true := by
  induction h with
  | none => exact hlast
  | next _ hclock _ ih => exact Binary64.le_trans hclock (ih hlast)

theorem Assemblies.find?_eq [AddressLibrary] {now now' : Binary64} {s' : State} {key : String}
    (h : Assemblies n now s now' s') (hfinite : q.timestamp ≠ .infinite true)
    (hchain : s.chain = .int n) (hfind : s.cache.find? key n = some q) {last : Binary64}
    (hlast : now'.le last = true) (hfresh : q.isFresh last s.cache.maxAge = true) :
    s'.chain = .int n ∧ s'.cache.maxAge = s.cache.maxAge ∧ s'.cache.find? key n = some q := by
  induction h with
  | none => exact ⟨hchain, rfl, hfind⟩
  | @next now s services options address given now' s' hgiven hclock hrest ih =>
      have hle := hrest.le_last hlast
      obtain ⟨hchain', hage, hfind'⟩ := find?_of_assemble hchain hgiven hfind
        (isFresh_of_le hfinite hle hfresh)
      obtain ⟨hc, ha, hf⟩ := ih hchain' hfind' hlast (by rw [hage]; exact hfresh)
      exact ⟨hc, ha.trans hage, hf⟩

/-! ## The answer again -/

theorem checksum_of_spells [AddressLibrary]
    {text : String} {digits : List Char} (h : Address.Spells text digits)
    (hplace : Address.checksum (.text text) = .ok place) : place = Address.ofDigits digits := by
  obtain ⟨_, ds, htext, -, hspells, -, rfl⟩ := Address.checksum_eq_ok_iff.1 hplace
  obtain rfl := Value.text.inj htext
  rw [hspells.unique h]

/-- An answer leaves a record: a new one with the time and with whether an author published the
result, or else the one that was answered from. After any assemblies on the chain, at times that do
not go backwards, an assembly of the same address answers the same while the record is fresh. It
only notes that it does, and the assembler is as it was. -/
theorem answer_stands [AddressLibrary]
    {services : Services} {options : Options} {address given : Value}
    {s₀ s₁ : State} {r : Reconstruction}
    (hanswer : (assemble services options address given).Answers s₀ r s₁) :
    ∃ text place n q, address = .text text ∧ Address.checksum address = .ok place ∧
      s₁.chain = .int n ∧ s₁.cache.find? (Text.lowered place) n = some q ∧ q.result = r ∧
      (q = recordOf place n r services.now ∨ q ∈ s₀.cache.records) ∧
      ((∀ p ∈ s₀.cache.records, p.verified = p.result.verified) → q.verified = r.verified) ∧
      ∀ (now : Binary64) (s : State), Assemblies n services.now s₁ now s →
      ∀ (services' : Services) (options' : Options) (text' : String) (given' : Value)
        (digits : List Char), Address.Spells text digits → Address.Spells text' digits →
        (Address.checksum (.text text')).isOk = true → IsOn n given' →
        now.le services'.now = true → q.timestamp ≠ .infinite true →
        (q.verified = true ∨
          (services'.now.sub q.timestamp).le s₀.cache.maxAge = true) →
        assemble services' options' (.text text') given' s =
          (⟨.ok r, [servedNote place (onChain n given')]⟩, s) := by
  obtain ⟨place, n, q, hplace, hchain, hage, hfind, rfl, hrecord⟩ :=
    exists_record_of_answers hanswer
  obtain ⟨text, -, rfl, -, -, -, -⟩ := Address.checksum_eq_ok_iff.1 hplace
  refine ⟨text, place, n, q, rfl, hplace, hchain, hfind, rfl, hrecord, fun hflags => ?_, ?_⟩
  · rcases hrecord with heq | hmem
    · rw [heq]
      rfl
    · exact hflags q hmem
  intro now s hbetween services' options' text' given' digits hspelt hspelt' haccepted hgiven
    hclock hfinite hfresh
  have hfresh : q.isFresh services'.now s₁.cache.maxAge = true := by
    rw [hage]
    unfold CacheRecord.isFresh
    exact Bool.or_eq_true_iff.2 hfresh
  obtain ⟨hchain', hage', hfind'⟩ :=
    hbetween.find?_eq hfinite hchain hfind hclock hfresh
  obtain ⟨place', hplace'⟩ := Except.exists_ok_of_isOk haccepted
  obtain rfl : place' = place :=
    (checksum_of_spells hspelt' hplace').trans (checksum_of_spells hspelt hplace).symm
  exact assemble_of_fresh hplace' hchain' hgiven hfind' (by rw [hage']; exact hfresh)

def stopTables : Tables :=
  { Tables.empty with
    codes := [("0x2222222222222222222222222222222222222222", .bytes [0])] }

open AddressLibrary in
/-- The contract is assembled at ten seconds, a place without code at thirty, and the contract
again at seventy, where results are fresh for a minute. -/
theorem answer_stands_minute :
    let services (seconds : Int) := { stopTables.services with now := .ofInt seconds }
    let options := { Options.default with followProxies := false }
    ∃ r s₁ place on,
      (assemble (services 10) options (.text "0x2222222222222222222222222222222222222222")
        (.int 1)).Answers ⟨.null, .empty (.ofInt 60), .empty⟩ r s₁ ∧ r.verified = false ∧
      let s := (assemble (services 30) options
        (.text "0x4444444444444444444444444444444444444444") .null s₁).2
      assemble (services 70) options (.text "2222222222222222222222222222222222222222") .null s =
        (⟨.ok r, [servedNote place on]⟩, s) := by
  intro services options
  obtain ⟨r, hr, hkind⟩ := Except.exists_ok_of_toOption
    (show ((assemble (services 10) options (.text "0x2222222222222222222222222222222222222222")
      (.int 1) ⟨.null, .empty (.ofInt 60), .empty⟩).1.result.toOption.map
        Reconstruction.verified) = some false by decide +kernel)
  obtain ⟨_, place, n, q, htext, -, -, -, -, rfl | hmem, -, hagain⟩ := answer_stands ⟨hr, rfl⟩
  · have hclock : (services 10).now.le (services 30).now = true ∧
        (services 30).now.le (services 70).now = true ∧
        ((services 70).now.sub (services 10).now).le (.ofInt 60) = true ∧
        (services 10).now ≠ .infinite true := by decide +kernel
    obtain ⟨hfirst, hsecond, hfresh, hfinite⟩ := hclock
    refine ⟨r, _, place, onChain n .null, ⟨hr, rfl⟩, hkind, ?_⟩
    exact hagain (services 30).now _ (.next (.inl rfl) hfirst .none) (services 70) options _ .null
      (List.replicate 40 '2') (Value.text.inj htext ▸ Address.digits?_eq_some_iff.1 (by decide))
      (Address.digits?_eq_some_iff.1 (by decide))
      (by decide +kernel) (.inl rfl) hsecond hfinite (.inr hfresh)
  · exact absurd hmem (by simp [ResultCache.empty])

end ContractAbi.Assembler
