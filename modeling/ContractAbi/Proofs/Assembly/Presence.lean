import ContractAbi.Address.Libraries
import ContractAbi.Assembler
import ContractAbi.Proofs.Chain.Slots
import ContractAbi.Proofs.Evm.Code

/-!
# Whether there is code

Code is asked for twice: where an address that a contract may delegate to is confirmed, and where
its interface is put together. The first takes whatever is not empty for code, the second one reads
it. They agree on all code but the two bytes of the text `0x`, which is how no code is written.

* `Assembler.result_getCode_bytes`: the code that is read where bytes are given;
* `Assembler.delegates_present`: the code of an implementation that is found can be read;
* `Assembler.delegate_blank`: unless it is written as no code is.
-/

namespace ContractAbi.Assembler

open Proxy

variable {r : ChainReader} {a : String} {v chain : Value}

def blank : Bytes := [0x30, 0x78]

/-- Answers that tell that there is no code without being empty: the text `0x` as bytes, and texts
that give no bytes in hex. -/
def TellsNone (v : Value) : Prop :=
  v = .bytes blank ∨ ∃ s, v = .text s ∧ ∀ code, Value.bytesOfText s = .ok code → code = []

theorem result_getCode_of_ok (h : (r.code a).result = .ok v) :
    (getCode r a chain).result =
      if isBlankCode v then .error (.noContract a (some chain) none) else Code.ofValue v := by
  unfold getCode
  rw [Traced.result_bind, Traced.result_attempt, h, Except.ok_bind]
  dsimp only
  split
  · rfl
  · rfl

/-- Bytes are the code that is read, if there are any and they do not spell `0x`. -/
theorem result_getCode_bytes {code : Bytes} (h : (r.code a).result = .ok (.bytes code))
    (hcode : code ≠ []) :
    (getCode r a chain).result =
      if code = blank then .error (.noContract a (some chain) none) else .ok code := by
  have hblank : isBlankCode (.bytes code) = true ↔ code = blank := by
    unfold isBlankCode blank
    simp [Value.holds, hcode]
  rw [result_getCode_of_ok h, Code.ofValue_bytes hcode]
  exact if_congr hblank rfl rfl

/-- What is taken for code can be read, unless it tells that there is none. -/
theorem present_of_holds (h : (r.code a).result = .ok v) (hholds : v.holds = true)
    (htells : ¬TellsNone v) (place : String) (c : Option Value) (reason : Option String) :
    (getCode r a chain).result ≠ .error (.noContract place c reason) := by
  cases v with
  | bytes code =>
      have hcode : code ≠ [] := by
        rintro rfl
        exact absurd hholds (by decide)
      have hblank : code ≠ blank := fun hsame => htells (.inl (congrArg Value.bytes hsame))
      rw [result_getCode_bytes h hcode, if_neg hblank]
      simp
  | text s =>
      rcases Code.ofValue_text s with ⟨code, hcode, hbytes, hvalue⟩ | ⟨hnone, -⟩
      · have hblank : isBlankCode (.text s) = false := by
          unfold isBlankCode
          rw [hholds]
          refine decide_eq_false ?_
          rintro rfl
          exact hcode (Except.ok.inj hbytes).symm
        rw [result_getCode_of_ok h, hblank, if_neg Bool.false_ne_true, hvalue]
        simp
      · exact absurd (.inr ⟨s, rfl, hnone⟩) htells
  | null => exact absurd hholds (by decide)
  -- Values of other kinds have no bytes, which is another failure.
  | _ =>
      rw [result_getCode_of_ok h]
      unfold isBlankCode
      rw [hholds]
      exact nofun

/-- An implementation that is found has code, and that code can be read if it is not written as no
code is. All bytes are read as they are except for the text `0x`, which means that there is no
contract. -/
theorem delegates_present [AddressLibrary] (settings : Settings) (r : ChainReader) :
    (∀ address selectors code i,
      (detect settings r address selectors code).result = .ok (some i) →
        ∃ a v, i.implementation = .text a ∧ (r.code a).result = .ok v ∧
          (¬TellsNone v → ∀ chain place c reason,
            (getCode r a chain).result ≠ .error (.noContract place c reason))) ∧
    ∀ a code chain, (r.code a).result = .ok (.bytes code) → code ≠ [] →
      (code ≠ blank → (getCode r a chain).result = .ok code) ∧
      (code = blank → (getCode r a chain).result = .error (.noContract a (some chain) none)) := by
  constructor
  · intro address selectors code i h
    obtain ⟨place, -, h⟩ := detect_eq_ok_iff.1 h
    obtain ⟨a, hi, -, ⟨v, hv, hholds⟩, -⟩ := implementation_of_detectAt h
    exact ⟨a, v, hi, hv, fun htells chain => present_of_holds hv hholds htells⟩
  · intro a code chain h hcode
    rw [result_getCode_bytes h hcode]
    exact ⟨fun hblank => if_neg hblank, fun hblank => if_pos hblank⟩

def pointedReader (code : Bytes) : ChainReader where
  code a := .answer (.bytes (if a = "0x1111111111111111111111111111111111111111" then code else []))
  storage _ _ := .answer (.bytes (List.replicate 32 0x11))
  call _ _ := .answer (.bytes [])
  chainId := .answer .null

open AddressLibrary in
theorem delegates_present_short :
    let r := pointedReader [0x30]
    let a := "0x1111111111111111111111111111111111111111"
    ∃ i, (detect .default r (.text "0x2222222222222222222222222222222222222222") [] .null).result =
        .ok (some i) ∧ i.implementation = .text a ∧
      (∀ place c reason, (getCode r a (.int 1)).result ≠ .error (.noContract place c reason)) ∧
      (getCode r a (.int 1)).result = .ok [0x30] := by
  intro r a
  obtain ⟨hdetect, hbytes⟩ := delegates_present .default r
  obtain ⟨info, hinfo, hfound⟩ := Except.exists_ok_of_toOption
    (show ((detect .default r (.text "0x2222222222222222222222222222222222222222") []
        .null).result.toOption.map fun info => info.map ProxyInfo.implementation) =
      some (some (.text a)) by decide +kernel)
  obtain ⟨i, rfl, hi⟩ := Option.map_eq_some_iff.1 hfound
  obtain ⟨b, v, hb, hv, hpresent⟩ := hdetect _ _ _ i hinfo
  obtain rfl := Value.text.inj (hi.symm.trans hb)
  have hcode : (r.code a).result = .ok (.bytes [0x30]) := rfl
  obtain rfl := Except.ok.inj (hcode.symm.trans hv)
  have htells : ¬TellsNone (.bytes [0x30]) := by
    rintro (h | ⟨s, h, -⟩)
    · exact absurd h (by decide)
    · exact absurd h nofun
  exact ⟨i, hinfo, hi, hpresent htells (.int 1),
    (hbytes a [0x30] (.int 1) hcode (by decide)).1 (by decide)⟩

open AddressLibrary in
/-- Code that spells `0x` confirms an implementation, and is none where its interface is put
together. -/
theorem delegate_blank :
    let r := pointedReader blank
    let a := "0x1111111111111111111111111111111111111111"
    ((detect .default r (.text "0x2222222222222222222222222222222222222222") []
        .null).result.toOption.map fun info => info.map ProxyInfo.implementation) =
      some (some (.text a)) ∧
      (r.code a).result = .ok (.bytes blank) ∧
      (getCode r a (.int 1)).result = .error (.noContract a (some (.int 1)) none) := by
  intro r a
  have hcode : (r.code a).result = .ok (.bytes blank) := rfl
  refine ⟨by decide +kernel, hcode, ?_⟩
  rw [result_getCode_bytes hcode (by decide), if_pos rfl]

end ContractAbi.Assembler
