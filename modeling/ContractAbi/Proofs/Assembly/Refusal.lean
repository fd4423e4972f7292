import ContractAbi.Address.Libraries
import ContractAbi.Proofs.Assembly.Sinking

/-!
# Addresses that an assembly refuses

An argument that is no address is refused before anything is asked. The same failure has one other
cause: an assembly comes to the zero address and looks for its delegates. There the zero address
comes from its bare digits, which are let through as an argument, or from code that is a clone of
it.

* `sinks_assembleAt`: every assembly founders if and only if it refuses an address;
* `assemble_refused`: arguments that are refused at once;
* `refuses_iff`: whole assemblies.
-/

namespace ContractAbi

namespace Assembler

open Resolver

variable {services : Services} {options : Options} {chain : Value} {address : String} {m : Memory}
  {limit : Nat} {es es' : List Event} {reason : Prop} {α β : Type}

/-! ## All contracts -/

variable {fuel depth : Nat} {w : Walk}

theorem mem_entries_assembleAt [AddressLibrary] :
    (address, depth) ∈
      entries (assembleAt services.observed options chain fuel depth address w).1.events := by
  rw [assembleAt_eq_enter, Session.events_bind, entries_append, entries_enter]
  exact List.mem_append_left _ List.mem_cons_self

theorem sinks_enter [AddressLibrary] (hne : address ≠ Address.zero) :
    (enter services.observed options chain depth address).Runs
      (Sinks services options chain m limit reason) w := by
  have hentered := entries_enter services options chain depth address w
  have hresult : Except.Meets Own.Spelt (fun f => ¬f.Refuses)
      (enter services.observed options chain depth address w).1.result :=
    (not_refuses_ownEntries address w.memory trivial).2
  constructor
  · refine iff_of_false ?_ ?_
    · rintro ⟨v, hv⟩
      exact hresult.of_error hv ⟨v, rfl⟩
    · rintro ⟨-, d, -, hmem⟩
      rw [hentered, List.mem_singleton] at hmem
      exact hne (Prod.mk.inj hmem).1.symm
  · intro hzero
    rw [hentered, List.map_singleton, List.mem_singleton] at hzero
    exact absurd hzero.symm hne

/-- An assembly of the zero address founders if there is anything to look for delegates of. -/
theorem sinks_assembleAt_zero [AddressLibrary] (hlimit : depth + fuel = limit)
    (hw : Walk.tells services w = tells services.sources m) :
    (assembleAt services.observed options chain fuel depth Address.zero).Runs
      (Sinks services options chain m limit True) w := by
  refine ⟨?_, fun _ => .inl trivial⟩
  have hentered := entries_enter services options chain depth Address.zero w
  have hentry : (enter services.observed options chain depth Address.zero w).1.result =
      (ownEntries services.observed options Address.zero chain w.memory).1.result := rfl
  have hown : (∃ own, (ownEntries services.observed options Address.zero chain
        w.memory).1.result = .ok own) ↔
      ∃ own, (ownEntries services options Address.zero chain m).1.result = .ok own :=
    exists_own_iff hw Address.zero
  cases hresult : (ownEntries services.observed options Address.zero chain w.memory).1.result with
  | error f =>
      have hfails : (assembleAt services.observed options chain fuel depth Address.zero
          w).1.result = .error f :=
        result_assembleAt_of_ownEntries hresult
      have hnot : ¬f.Refuses :=
        (not_refuses_ownEntries Address.zero w.memory trivial).2.of_error hresult
      refine iff_of_false ?_ fun hfounders => ?_
      · rintro ⟨v, hv⟩
        exact hnot ⟨v, Except.error.inj (hfails.symm.trans hv)⟩
      · obtain ⟨own, hok⟩ := hown.2 hfounders.1
        exact absurd (hresult.symm.trans hok) (by simp)
  | ok own =>
      cases fuel with
      | zero =>
          -- At the limit no delegates are looked for, so the address is not checked again.
          rw [hresult] at hentry
          rw [assembleAt_eq_enter, Session.result_bind_of_ok _ hentry,
            Session.events_bind_of_ok _ hentry]
          refine iff_of_false (by simp [delegationsOf]) ?_
          rintro ⟨-, d, hd, hmem⟩
          rw [entries_append, hentered] at hmem
          have hmem : (Address.zero, d) ∈ [(Address.zero, depth)] := hmem
          have hsame : d = depth := (Prod.mk.inj (List.mem_singleton.1 hmem)).2
          omega
      | succ fuel =>
          have hfails : (assembleAt services.observed options chain (fuel + 1) depth Address.zero
              w).1.result = .error (.invalidAddress (.text Address.zero)) :=
            result_assembleAt_of_detect ⟨hresult, rfl⟩ (Proxy.result_detect_zero _ _ _ _)
          have habove : depth < limit := by omega
          exact iff_of_true ⟨_, hfails⟩
            ⟨hown.1 ⟨own, hresult⟩, depth, habove, mem_entries_assembleAt⟩

/-- A contract at another address leads to the zero address only by its code, or by what it
delegates to. -/
theorem sinks_contract [AddressLibrary] (hne : address ≠ Address.zero)
    (hw : Walk.tells services w = tells services.sources m)
    (hdelegations : ∀ own, own.Spelt →
      (MinimalProxy.targetOfValue? own.codeValue = .ok (some Address.zero) →
        ClonesZero services chain address) →
      ∀ w, Walk.tells services w = tells services.sources m →
        (delegationsOf services.observed options chain fuel depth address own).Runs
          (Sinks services options chain m limit (ClonesZero services chain address)) w) :
    (assembleAt services.observed options chain fuel depth address).Runs
      (Sinks services options chain m limit (address = Address.zero)) w := by
  have hrun : (assembleAt services.observed options chain fuel depth address).Runs
      (Sinks services options chain m limit (ClonesZero services chain address)) w := by
    rw [assembleAt_eq_enter]
    refine Sinks.bind (sinks_enter hne) fun own hentry => ?_
    have hown : (ownEntries services.observed options address chain).Answers w.memory own _ :=
      ⟨hentry, rfl⟩
    have hspelt : own.Spelt := (not_refuses_ownEntries address w.memory trivial).2.of_ok hentry
    have hkeeps : (enter services.observed options chain depth address).Keeps
        (Walk.tells services) := walkTells_observed ▸ keeps_enter
    refine Sinks.bind (hdelegations own hspelt (clonesZero_of_target hown) _
      ((hkeeps w).trans hw)) fun _ _ => ?_
    exact Sinks.pure _ _
  constructor
  · exact hrun.refuses
  · intro hzero
    refine .inr ((hrun.comes hzero).elim (fun hclone => ?_) id)
    exact ⟨address, List.mem_map_of_mem mem_entries_assembleAt, hclone⟩

/-- Every assembly refuses an address if and only if it founders, and comes to the zero address only
from there or from a clone. -/
theorem sinks_assembleAt [AddressLibrary]
    (hlimit : depth + fuel = limit) (hspelt : Address.IsSpelt address)
    (hw : Walk.tells services w = tells services.sources m) :
    (assembleAt services.observed options chain fuel depth address).Runs
      (Sinks services options chain m limit (address = Address.zero)) w := by
  induction fuel generalizing depth address w with
  | zero =>
      by_cases hzero : address = Address.zero
      · rw [hzero]
        exact ⟨(sinks_assembleAt_zero hlimit hw).refuses, fun _ => .inl rfl⟩
      · exact sinks_contract hzero hw fun _ _ _ _ _ => Sinks.pure _ _
  | succ fuel ih =>
      by_cases hzero : address = Address.zero
      · rw [hzero]
        exact ⟨(sinks_assembleAt_zero hlimit hw).refuses, fun _ => .inl rfl⟩
      · refine sinks_contract hzero hw fun own hown hclone w hw => ?_
        refine Sinks.followDelegation hspelt hzero hown hclone
          (fun _ => walkTells_observed ▸ keeps_assembleAt) (fun a ha hreason w hw => ?_) hw
        have hnext : (assembleAt services.observed options chain fuel (depth + 1) a).Runs
            (Sinks services options chain m limit (a = Address.zero)) w :=
          ih (by omega) ha hw
        exact ⟨hnext.refuses, fun h => (hnext.comes h).imp_left hreason⟩

/-! ## Whole assemblies -/

variable {given : Value} {s : State}

theorem Sinks.of_entries_eq {result : Except Fault α} (h : entries es = entries es')
    (hsinks : Sinks services options chain m limit reason es' result) :
    Sinks services options chain m limit reason es result := by
  have hsame : Founders services options chain m limit es ↔
      Founders services options chain m limit es' := by
    unfold Founders
    rw [h]
  constructor
  · rw [hsame]
    exact hsinks.refuses
  · rw [h]
    exact hsinks.comes

/-- Behind an address that is let through, no chain is refused as an address. -/
theorem not_refuses_aimOf [AddressLibrary] {address : Value} {place : String}
    (hplace : Address.checksum address = .ok place) :
    Except.Meets (fun _ => True) (fun f => ¬f.Refuses) (aimOf services address given s) := by
  have hchain : Except.Meets (fun _ => True) (fun f => ¬f.Refuses)
      (chainOf services place given s.chain).result := by
    unfold chainOf readChain
    split
    · exact .ok trivial
    · split
      · exact .ok trivial
      · rw [Traced.result_bind, Traced.result_attempt, Except.ok_bind]
        split
        · exact .ok trivial
        · exact .error (Fault.not_refuses_noContract _ _ _)
        · exact .error (Fault.not_refuses_noContract _ _ _)
  unfold aimOf
  rw [hplace, Except.ok_bind]
  refine hchain.bind fun chain _ => ?_
  exact ((Value.unannounced_toWhole chain).mono (fun _ h => h) fun _ h => h.not_refuses).bind
    fun _ _ => .ok trivial

theorem result_assemble_of_aimOf [AddressLibrary] {address : Value} {f : Fault}
    (haim : aimOf services address given s = .error f) :
    (assemble services.observed options address given s).1.result = .error f := by
  have hrun := assemble_run services.observed options address given s
  rw [← aimOf_observed] at haim
  generalize (assemble services.observed options address given s).2 = s' at hrun
  generalize (assemble services.observed options address given s).1.result = result at hrun ⊢
  cases hrun with
  | refused hrefused => rw [Except.error.inj (hrefused.symm.trans haim)]
  | served hother _ => exact absurd (hother.symm.trans haim) (by simp)
  | failed hother _ _ => exact absurd (hother.symm.trans haim) (by simp)
  | stored hother _ _ => exact absurd (hother.symm.trans haim) (by simp)

theorem sinks_assemble [AddressLibrary] {address : Value} {place : String} {n : Int}
    (haim : aimOf services address given s = .ok (place, chain, n)) :
    (assemble services.observed options address given).Runs
      (Sinks services options chain s.memory options.fuel (place = Address.zero)) s := by
  obtain ⟨hplace, -, -⟩ := aimOf_eq_ok_iff.1 haim
  have hwalk : (assembleAt services.observed options chain options.fuel 0 place).Runs
      (Sinks services options chain s.memory options.fuel (place = Address.zero))
        ⟨s.memory, []⟩ :=
    sinks_assembleAt (Nat.zero_add _) (Address.isSpelt_of_checksum hplace) rfl
  have hentries := entries_assemble options haim
  have hrun := assemble_run services.observed options address given s
  rw [← aimOf_observed] at haim
  unfold Session.Runs at hwalk ⊢
  generalize (assemble services.observed options address given s).1.result = result at hrun ⊢
  generalize (assemble services.observed options address given s).2 = s' at hrun
  cases hrun with
  | refused hrefused => exact absurd (hrefused.symm.trans haim) (by simp)
  -- A record that is served is an answer, and no contract is entered for it.
  | served hother hserved =>
      obtain ⟨rfl, rfl, rfl⟩ : _ = place ∧ _ = chain ∧ _ = n := by
        simpa using hother.symm.trans haim
      have hserved : (s.moveTo _).served? services.now _ _ = some _ := hserved
      rw [if_neg (by simp [hserved])] at hentries
      exact .of_entries_nil hentries nofun
  | failed hother hmissed hfail =>
      obtain ⟨rfl, rfl, rfl⟩ : _ = place ∧ _ = chain ∧ _ = n := by
        simpa using hother.symm.trans haim
      have hmissed : (s.moveTo _).served? services.now _ _ = none := hmissed
      rw [if_pos hmissed] at hentries
      rw [hfail] at hwalk
      exact .of_entries_eq hentries hwalk.of_error
  | stored hother hmissed hanswer =>
      obtain ⟨rfl, rfl, rfl⟩ : _ = place ∧ _ = chain ∧ _ = n := by
        simpa using hother.symm.trans haim
      have hmissed : (s.moveTo _).served? services.now _ _ = none := hmissed
      rw [if_pos hmissed] at hentries
      rw [hanswer.1] at hwalk
      exact .of_entries_eq hentries hwalk

theorem assemble_refused [AddressLibrary] {address : Value} (hnone : ¬Address.NamesContract address)
    (hbare : address ≠ .text Address.bareZeros) :
    assemble services options address given s = (⟨.error (.invalidAddress address), []⟩, s) := by
  cases hplace : Address.checksum address with
  | ok place =>
      rcases Address.exists_checksum_iff.1 ⟨place, hplace⟩ with hnames | hzeros
      · exact absurd hnames hnone
      · exact absurd hzeros hbare
  | error f =>
      rw [assemble_eq_assembleOn, hplace, Address.eq_invalidAddress_of_checksum hplace]
      rfl

/-- An argument that the library takes for no address, or that spells the zero address, is refused
at once: nobody has been asked, and the assembler is left as it was. The bare digits of the zero
address are the one exception. Where the argument is let through, an address is refused if and only
if the assembly has entered the zero address above the limit and has found own entries for it. It
comes there by the bare digits, or by the code of a contract that it has entered before. -/
theorem refuses_iff [AddressLibrary]
    (services : Services) (options : Options) (address given : Value) (s : State) :
    let run := assemble services.observed options address given s
    (¬Address.NamesContract address → address ≠ .text Address.bareZeros →
      run = (⟨.error (.invalidAddress address), []⟩, s)) ∧
    (Address.NamesContract address ∨ address = .text Address.bareZeros →
      ((∃ v, run.1.result = .error (.invalidAddress v)) ↔
        ∃ place chain n, aimOf services address given s = .ok (place, chain, n) ∧
          Founders services options chain s.memory options.fuel run.1.events) ∧
      ∀ place chain n, aimOf services address given s = .ok (place, chain, n) →
        Founders services options chain s.memory options.fuel run.1.events →
        address = .text Address.bareZeros ∨
          ∃ a ∈ (entries run.1.events).map Prod.fst, ClonesZero services chain a) := by
  intro run
  refine ⟨assemble_refused, fun hlet => ⟨⟨?_, ?_⟩, ?_⟩⟩
  · rintro ⟨v, hv⟩
    obtain ⟨place, hplace⟩ := Address.exists_checksum_iff.2 hlet
    cases haim : aimOf services address given s with
    | ok aim =>
        obtain ⟨place, chain, n⟩ := aim
        exact ⟨place, chain, n, rfl, (sinks_assemble haim).refuses.1 ⟨v, hv⟩⟩
    | error f =>
        have hnot : ¬f.Refuses := (not_refuses_aimOf hplace).of_error haim
        have hfails : run.1.result = .error f := result_assemble_of_aimOf haim
        exact absurd ⟨v, Except.error.inj (hfails.symm.trans hv)⟩ hnot
  · rintro ⟨place, chain, n, haim, hfounders⟩
    exact (sinks_assemble haim).refuses.2 hfounders
  · rintro place chain n haim ⟨-, depth, -, hmem⟩
    have hzero : Address.zero ∈ (entries run.1.events).map Prod.fst := List.mem_map_of_mem hmem
    refine ((sinks_assemble haim).comes hzero).imp_left fun hplace => ?_
    obtain ⟨hchecksum, -, -⟩ := aimOf_eq_ok_iff.1 haim
    exact (Address.eq_zero_iff_of_checksum hchecksum).1 hplace

def zeroTables : Tables :=
  { Tables.empty with
    codes := [("0x1111111111111111111111111111111111111111",
        .bytes (MinimalProxy.head ++ List.replicate 20 0 ++ MinimalProxy.tail)),
      ("0x0000000000000000000000000000000000000000", .bytes [0x00])] }

/-- Where mixed case is checked, a text with another checksum is refused at once, and so is the zero
address. Behind the clone it is refused after the code of both has been asked for. -/
theorem refuses_iff_clone :
    letI : AddressLibrary := .checked
    let fresh : State := ⟨.null, .empty (.ofInt 60), .empty⟩
    let mixed : Value := .text "0xAAaaaaaaaaaaaaaaaaaaaaaaaaaaaaaaaaaaaaaa"
    let zero : Value := .text "0X0000000000000000000000000000000000000000"
    let clone : Value := .text "0x1111111111111111111111111111111111111111"
    let run := assemble zeroTables.services.observed .default clone (.int 1) fresh
    assemble zeroTables.services.observed .default mixed (.int 1) fresh =
        (⟨.error (.invalidAddress mixed), []⟩, fresh) ∧
      assemble zeroTables.services.observed .default zero (.int 1) fresh =
        (⟨.error (.invalidAddress zero), []⟩, fresh) ∧
      (∃ v, run.1.result = .error (.invalidAddress v)) ∧
      entries run.1.events = [("0x1111111111111111111111111111111111111111", 0),
        ("0x0000000000000000000000000000000000000000", 1)] ∧
      ∃ a ∈ (entries run.1.events).map Prod.fst, ClonesZero zeroTables.services (.int 1) a := by
  intro fresh mixed zero clone run
  let _ : AddressLibrary := .checked
  have hentries : entries run.1.events = [("0x1111111111111111111111111111111111111111", 0),
      ("0x0000000000000000000000000000000000000000", 1)] := by
    decide +kernel
  have hzeros : Address.Spells "0X0000000000000000000000000000000000000000"
      (List.replicate 40 '0') :=
    Address.digits?_eq_some_iff.1 (by decide)
  have hrefused : AddressLibrary.accepts "0xAAaaaaaaaaaaaaaaaaaaaaaaaaaaaaaaaaaaaaaa" = false := by
    decide +kernel
  have hmixed : ¬Address.NamesContract mixed := by
    rintro ⟨text, ds, htext, haccepts, -⟩
    rw [← Value.text.inj htext, hrefused] at haccepts
    cases haccepts
  have hnone : ¬Address.NamesContract zero := by
    rintro ⟨text, ds, htext, -, hspells, hne⟩
    rw [← Value.text.inj htext] at hspells
    exact hne (hspells.unique hzeros)
  have hones : Address.NamesContract clone :=
    ⟨_, List.replicate 40 '1', rfl, by decide, Address.digits?_eq_some_iff.1 (by decide),
      by decide⟩
  obtain ⟨own, hown⟩ := Except.exists_ok_of_isOk
    (show (ownEntries zeroTables.services .default Address.zero (.int 1) .empty).1.result.isOk =
      true by decide +kernel)
  have hfounders : Founders zeroTables.services .default (.int 1) fresh.memory
      Options.default.fuel run.1.events := by
    refine ⟨⟨own, hown⟩, 1, by decide, ?_⟩
    rw [hentries]
    decide
  obtain ⟨⟨place, chain, n⟩, haim, hshown⟩ := Except.exists_ok_of_toOption
    (show ((aimOf zeroTables.services clone (.int 1) fresh).toOption.map fun aim =>
        (aim.2.1, aim.2.2)) = some (.int 1, 1) by decide +kernel)
  obtain ⟨rfl, rfl⟩ := Prod.mk.inj hshown
  obtain ⟨hrefusedMixed, -⟩ := refuses_iff zeroTables.services .default mixed (.int 1) fresh
  obtain ⟨hrefusedZero, -⟩ := refuses_iff zeroTables.services .default zero (.int 1) fresh
  obtain ⟨-, hlet⟩ := refuses_iff zeroTables.services .default clone (.int 1) fresh
  have hrun : assemble zeroTables.services.observed .default clone (.int 1) fresh = run := rfl
  clear_value run
  rw [hrun] at hlet
  obtain ⟨hrefuses, hcomes⟩ := hlet (.inl hones)
  have hbare : mixed ≠ .text Address.bareZeros := by decide +kernel
  have hzero : zero ≠ .text Address.bareZeros := by decide +kernel
  have hclone : clone ≠ .text Address.bareZeros := by decide +kernel
  exact ⟨hrefusedMixed hmixed hbare, hrefusedZero hnone hzero,
    hrefuses.2 ⟨place, _, _, haim, hfounders⟩, hentries,
    (hcomes place _ _ haim hfounders).resolve_left hclone⟩

def codeAsked? : Event → Option String
  | .request (.code address) => some address
  | _ => none

def missingAt? : Except Fault Reconstruction → Option String
  | .error (.noContract place _ _) => some place
  | _ => none

theorem exists_of_missingAt? {result : Except Fault Reconstruction} {place : String}
    (h : missingAt? result = some place) :
    ∃ chain reason, result = .error (.noContract place chain reason) := by
  unfold missingAt? at h
  split at h
  · rename_i chain reason
    exact ⟨chain, reason, by rw [Option.some.inj h]⟩
  · exact absurd h (by simp)

open AddressLibrary in
/-- Where the digits of the zero address stand alone, they are let through: the zero address is
asked for its code, and there is no contract. -/
theorem bareZeros_let_through :
    let run := (assemble Tables.empty.services.observed .default (.text Address.bareZeros) (.int 1)
      ⟨.null, .empty (.ofInt 60), .empty⟩).1
    (∃ chain reason, run.result = .error (.noContract Address.zero chain reason)) ∧
      entries run.events = [(Address.zero, 0)] ∧ run.events.filterMap codeAsked? =
        [Address.zero] := by
  intro run
  have hmissing : missingAt? run.result = some Address.zero := by decide +kernel
  exact ⟨exists_of_missingAt? hmissing, by decide +kernel, by decide +kernel⟩

end Assembler

end ContractAbi
