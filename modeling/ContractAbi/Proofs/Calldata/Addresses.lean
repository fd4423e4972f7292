import ContractAbi.Chain.Proxy
import ContractAbi.Proofs.Address
import ContractAbi.Proofs.Selector
import ContractAbi.Proofs.Session.Except

/-!
# Lists of addresses

* `AbiType.decodeReturn_addresses`: whatever return data lists are addresses of twenty bytes;
* `Address.checksumAny_encode0x`: twenty bytes can be spelt as an address.
-/

namespace ContractAbi

namespace AbiType

theorem length_of_wordAt {data w : Bytes} {start : Nat} (h : wordAt data start = .ok w) :
    w.length = 32 := by
  unfold wordAt slice at h
  dsimp only at h
  split at h
  · obtain rfl := Except.ok.inj h
    assumption
  · exact absurd h (by simp)

theorem decodeAt_address {data : Bytes} {start : Nat} {v : Value}
    (h : decodeAt data .address start = .ok v) :
    ∃ bs : Bytes, bs.length = 20 ∧ v = .text (Hex.encode0x bs) := by
  rw [decodeAt] at h
  obtain ⟨w, hw, h⟩ := Except.bind_eq_ok_iff.1 h
  obtain ⟨bs, hbs, rfl⟩ := Except.map_eq_ok_iff.1 h
  refine ⟨bs, ?_, rfl⟩
  unfold lowBytes at hbs
  split at hbs
  · obtain rfl := Except.ok.inj hbs
    rw [List.length_drop, length_of_wordAt hw]
  · exact absurd hbs (by simp)

theorem mem_decodeEach {α : Type} {read : Nat → Except Fault α} {stride count place : Nat}
    {vs : List α} (h : decodeEach read stride count place = .ok vs) {v : α} (hv : v ∈ vs) :
    ∃ p, read p = .ok v := by
  induction count generalizing place vs with
  | zero =>
      obtain rfl := Except.ok.inj h
      exact absurd hv List.not_mem_nil
  | succ count ih =>
      unfold decodeEach at h
      obtain ⟨first, hfirst, h⟩ := Except.bind_eq_ok_iff.1 h
      obtain ⟨rest, hrest, h⟩ := Except.bind_eq_ok_iff.1 h
      obtain rfl := Except.ok.inj h
      rcases List.mem_cons.1 hv with rfl | hv
      · exact ⟨place, hfirst⟩
      · exact ih hrest hv

theorem parse_addresses : parse "address[]" = .ok (.unsized .address) := by rfl

theorem decodeReturn_addresses {raw : Value} {vs : List Value}
    (h : decodeReturn ["address[]"] raw = .ok [.list vs]) :
    ∀ v ∈ vs, ∃ bs : Bytes, bs.length = 20 ∧ v = .text (Hex.encode0x bs) := by
  intro v hv
  cases raw with
  | bytes data =>
      unfold decodeReturn at h
      dsimp only at h
      have htypes : ["address[]"].mapM parse = .ok [.unsized .address] := by
        rw [List.mapM_cons, parse_addresses]
        rfl
      rw [htypes, Except.ok_bind] at h
      unfold decodeAll at h
      obtain ⟨_, -, h⟩ := Except.bind_eq_ok_iff.1 h
      have hdynamic : isDynamic (unsized address) = true := rfl
      rw [decodeFront, if_pos hdynamic] at h
      obtain ⟨found, hfound, h⟩ := Except.bind_eq_ok_iff.1 h
      obtain ⟨others, -, h⟩ := Except.bind_eq_ok_iff.1 h
      obtain ⟨rfl, -⟩ := List.cons.inj (Except.ok.inj h)
      obtain ⟨offset, -, hfound⟩ := Except.bind_eq_ok_iff.1 hfound
      rw [decodeAt] at hfound
      obtain ⟨count, -, hfound⟩ := Except.bind_eq_ok_iff.1 hfound
      unfold decodeItems at hfound
      have hstatic : ¬isDynamic address = true := by decide
      rw [if_neg hstatic] at hfound
      obtain ⟨items, hitems, hfound⟩ := Except.bind_eq_ok_iff.1 hfound
      obtain rfl := Value.list.inj (Except.ok.inj hfound)
      obtain ⟨place, hplace⟩ := mem_decodeEach hitems hv
      exact decodeAt_address hplace
  | _ => exact absurd h (by simp [decodeReturn])

end AbiType

namespace Address

theorem checksumAny_encode0x [AddressLibrary] {bs : Bytes} (h : bs.length = 20) :
    ∃ a, checksumAny (.text (Hex.encode0x bs)) = .ok a := by
  have hdigits := areDigits_ofBytes h
  exact ⟨_, checksumAny_text (AddressLibrary.accepts_lower (by simp) hdigits)
    (hdigits.spells (by simp))⟩

end Address

end ContractAbi
