import ContractAbi.Address.Libraries
import ContractAbi.Proofs.Assembly.Phases

/-!
# Records that never expire

A record never expires if an interface is published for its own address. What is published for the
address says nothing of the contracts that it delegates to: where nothing is published for one of
them, its code is read, and what the code tells is kept in the same record.

* `verified_iff_accepts`: which results are marked as published;
* `origins_of_answers`: where the entries of a result come from;
* `stored_origins`: where the entries of a new record come from;
* `durable_from_code`: a record that never expires with a function that was read off code.
-/

namespace ContractAbi.Assembler

open Resolver

variable {services : Services} {options : Options} {address given chain : Value} {place : String}
  {s : State} {n : Int}

/-! ## Where an entry comes from -/

/-- The entry stands in the interface that is published for one of the addresses. -/
def FromPublished (services : Services) (chain : Value) (addresses : List String) (e : Entry) :
    Prop :=
  ∃ a ∈ addresses, ∃ own, Accepts services a chain own ∧ e ∈ own

/-- The entry was told by the code of one of the addresses, for which nothing is published that can
be used. -/
def FromCode (services : Services) (options : Options) (chain : Value) (addresses : List String)
    (e : Entry) : Prop :=
  ∃ a ∈ addresses, (∀ own, ¬Accepts services a chain own) ∧
    ∃ told, Contributes services options chain a told ∧ e ∈ told

theorem Contributes.origin {addresses : List String} {a : String} {own : List Entry} {e : Entry}
    (h : Contributes services options chain a own) (ha : a ∈ addresses) (he : e ∈ own) :
    FromPublished services chain addresses e ∨ FromCode services options chain addresses e := by
  have hsome := h
  cases h with
  | published haccepts => exact .inl ⟨a, ha, _, haccepts, he⟩
  | code hnone hcode htold => exact .inr ⟨a, ha, hnone, _, hsome, he⟩

/-- Code is not read where something is published for every address. -/
theorem FromCode.elim {addresses : List String} {e : Entry}
    (h : FromCode services options chain addresses e)
    (hall : ∀ a ∈ addresses, ∃ own, Accepts services a chain own) : False := by
  obtain ⟨a, ha, hnone, -⟩ := h
  obtain ⟨own, hown⟩ := hall a ha
  exact hnone own hown

/-- Entries of an assembly come from the contracts that it has entered. -/
theorem exists_contribution [AddressLibrary]
    {fuel depth : Nat} {w w' : Walk} {r : Reconstruction} {e : Entry}
    (h : (assembleAt services.observed options chain fuel depth place).Answers w r w')
    (he : e ∈ r.entries) :
    ∃ a ∈ (entries (assembleAt services.observed options chain fuel depth place w).1.events).map
      Prod.fst, ∃ own, Contributes services options chain a own ∧ e ∈ own := by
  obtain ⟨own, parts, hcomposed, hmerged⟩ := composed_assembleAt fuel depth w r h.1
  have hpart : ∃ p ∈ (place, own) :: parts, e ∈ p.2 := by
    rw [hmerged] at he
    rcases Entry.mem_of_mem_merge he with hown | ⟨other, hother, hmem⟩
    · exact ⟨(place, own), by simp, hown⟩
    · obtain ⟨p, hp, hpart⟩ := List.mem_map.1 hother
      exact ⟨p, List.mem_cons_of_mem _ hp, hpart ▸ hmem⟩
  obtain ⟨p, hp, hmem⟩ := hpart
  exact ⟨p.1, hcomposed.entered.subset (List.mem_map_of_mem hp), p.2, hcomposed.contributes p hp,
    hmem⟩

/-- A result is marked as published if an interface is published for its own address. -/
theorem verified_iff_accepts [AddressLibrary] {fuel depth : Nat} {w w' : Walk} {r : Reconstruction}
    (h : (assembleAt services options chain fuel depth place).Answers w r w') :
    r.verified = true ↔ ∃ own, Accepts services place chain own := by
  obtain ⟨own, proxy, found, hgathers, hr⟩ := assembleAt_answers h
  have hown : ∃ m, (ownEntries services options place chain).Answers w.memory own m := by
    cases hgathers with
    | alone hown => exact ⟨_, hown⟩
    | following hown _ _ _ => exact ⟨_, hown⟩
  obtain ⟨m, hown⟩ := hown
  have hyes : (verifiedSource.text? == verifiedSource.text?) = true := by decide
  have hno : (codeSource.text? == verifiedSource.text?) = false := by decide
  have hverified : r.verified = (own.sourceKind.text? == verifiedSource.text?) := by rw [hr]; rfl
  rw [hverified]
  rcases ownEntries_answers hown with ⟨items, haccepts, hitems, -⟩ |
      ⟨hnone, code, told, -, -, htold⟩
  · rw [hitems]
    exact ⟨fun _ => ⟨items, haccepts⟩, fun _ => hyes⟩
  · have hkind : own.sourceKind = codeSource := by rw [htold]; rfl
    rw [hkind, hno]
    constructor
    · intro hfalse
      exact absurd hfalse (by simp)
    · rintro ⟨items, haccepts⟩
      exact absurd haccepts (hnone items)

/-! ## Records -/

/-- What code has told is not told by the code of the contract itself, if its result is marked as
published, and is nothing at all, if something is published for each contract that was entered. -/
theorem origins_of_answers [AddressLibrary] {fuel depth : Nat} {w w' : Walk} {r : Reconstruction}
    (h : (assembleAt services.observed options chain fuel depth place).Answers w r w') :
    let entered := (entries (assembleAt services.observed options chain fuel depth place
      w).1.events).map Prod.fst
    (r.verified = true → ∀ e ∈ r.entries, FromPublished services chain entered e ∨
      FromCode services options chain (entered.filter fun a => decide (a ≠ place)) e) ∧
    ((∀ a ∈ entered, ∃ own, Accepts services a chain own) →
      ∀ e ∈ r.entries, FromPublished services chain entered e) := by
  intro entered
  have horigin : ∀ e ∈ r.entries, FromPublished services chain entered e ∨
      FromCode services options chain entered e := by
    intro e he
    obtain ⟨a, ha, own, hown, hmem⟩ := exists_contribution h he
    exact hown.origin ha hmem
  constructor
  · intro hpublished e he
    obtain ⟨items, haccepts⟩ := (verified_iff_accepts h).1 hpublished
    rw [accepts_observed] at haccepts
    refine (horigin e he).imp_right ?_
    rintro ⟨a, ha, hnone, told⟩
    have hother : a ≠ place := fun hsame => hnone items (hsame ▸ haccepts)
    exact ⟨a, List.mem_filter.2 ⟨ha, decide_eq_true hother⟩, hnone, told⟩
  · intro hall e he
    exact (horigin e he).resolve_right fun hcode => hcode.elim hall

/-- Each record behind an assembly was there before or is the one of this assembly. Its result never
expires if an interface is published for its own address. Then no entry was told by the code of this
address: each one stands in the interface that is published for a contract that was entered, or was
told by the code of another one, for which nothing is published. If something is published for each
contract that was entered, code has told nothing. -/
theorem stored_origins [AddressLibrary]
    (services : Services) (options : Options) (address given : Value)
    (s : State) :
    let run := assemble services.observed options address given s
    let entered := (entries run.1.events).map Prod.fst
    ∀ q ∈ run.2.cache.records, q ∈ s.cache.records ∨
      ∃ place chain n r, aimOf services address given s = .ok (place, chain, n) ∧
        run.1.result = .ok r ∧ q = recordOf place n r services.now ∧
        (q.verified = true ↔ ∃ own, Accepts services place chain own) ∧
        (q.verified = true → (∀ now maxAge, q.isFresh now maxAge = true) ∧
          ∀ e ∈ q.result.entries, FromPublished services chain entered e ∨
            FromCode services options chain (entered.filter fun a => decide (a ≠ place)) e) ∧
        ((∀ a ∈ entered, ∃ own, Accepts services a chain own) →
          ∀ e ∈ q.result.entries, FromPublished services chain entered e) := by
  intro run entered q hq
  have hkept : ∀ n, q ∈ (s.moveTo n).cache.records → q ∈ s.cache.records :=
    fun n h => State.mem_records_of_moveTo h
  generalize hresult : (assemble services.observed options address given s).1.result = result
  generalize hstate : (assemble services.observed options address given s).2 = s'
  have hrun := assemble_run services.observed options address given s
  rw [hresult, hstate] at hrun
  rw [show run.2 = s' from hstate] at hq
  cases hrun with
  | refused haim => exact .inl hq
  | served haim hserved => exact .inl (hkept _ hq)
  | failed haim hmissed hfail => exact .inl (hkept _ hq)
  | @stored place chain n r w haim hmissed hanswer =>
      rw [aimOf_observed] at haim
      have hunserved : (s.moveTo n).served? services.now place n = none := hmissed
      have hentered := entries_assemble options haim
      rw [if_pos hunserved] at hentered
      have hsame : entered = (entries (assembleAt services.observed options chain options.fuel 0
          place ⟨s.memory, []⟩).1.events).map Prod.fst := congrArg (List.map Prod.fst) hentered
      have hmarked := verified_iff_accepts hanswer
      simp only [accepts_observed] at hmarked
      obtain ⟨hpublished, hall⟩ := origins_of_answers hanswer
      rw [← hsame] at hpublished hall
      rcases ResultCache.mem_store hq with hnew | ⟨hold, -⟩
      · subst hnew
        refine .inr ⟨place, chain, n, r, haim, rfl, rfl, hmarked, fun hverified => ⟨?_,
          hpublished hverified⟩, hall⟩
        intro now maxAge
        rw [CacheRecord.isFresh, hverified, Bool.true_or]
      · exact .inl (hkept _ hold)

def fallbackAbi : Value :=
  .list [.object [("type", .text "fallback"), ("stateMutability", .text "payable")]]

/-- A proxy for which an interface without functions is published. Nothing is published for its
implementation, and the selector in the code of the implementation has no name. -/
def durableTables : Tables :=
  { Tables.empty with
    codes := [("0x2222222222222222222222222222222222222222", .bytes [0x60, 0x00, 0x35, 0x63, 0x2d,
      0xec, 0x55, 0xa6, 0x14, 0x61, 0x00, 0x10, 0x57])]
    words := [(("0x1111111111111111111111111111111111111111",
        .text "0x360894a13ba1a3210667c828492db98dca3e2076cc3735a920a3ca505d382bbc"),
      .bytes (List.replicate 12 0 ++ List.replicate 20 0x22))]
    abis := [(.text "0x1111111111111111111111111111111111111111", fallbackAbi)] }

theorem functions_of_durableTables {a : String} {own : List Entry}
    (h : Accepts durableTables.services a (.int 1) own) : own.filterMap Entry.function? = [] := by
  obtain ⟨abi, hchosen, hown⟩ := h
  have hmem : (Value.text a, abi) ∈ durableTables.abis := Tables.mem_abis_of_loadVerified hchosen
  have habi : abi = fallbackAbi := (Prod.mk.inj (List.mem_singleton.1 hmem)).2
  have hnone : (Entry.ofAbi fallbackAbi).toOption.map (fun own =>
      (own.filterMap Entry.function?).length) = some 0 := by
    decide +kernel
  rw [← habi, hown] at hnone
  exact List.length_eq_zero_iff.1 (Option.some.inj hnone)

open AddressLibrary in
/-- The record of the proxy never expires. It has a function that no published interface tells and
that no name was found for. -/
theorem durable_from_code :
    let run := assemble durableTables.services.observed .default
      (.text "0x1111111111111111111111111111111111111111") (.int 1)
      ⟨.null, .empty (.ofInt 60), .empty⟩
    (run.2.cache.records.map fun q => (q.verified, q.result.functions.map fun f =>
        (f.selector, f.name.plain, f.resolved))) =
      [(true, [("0x2dec55a6", "func_2dec55a6", false)])] ∧
    ∀ a own, Accepts durableTables.services a (.int 1) own →
      own.filterMap Entry.function? = [] := by
  refine ⟨?_, fun a own => functions_of_durableTables⟩
  decide +kernel

end ContractAbi.Assembler
