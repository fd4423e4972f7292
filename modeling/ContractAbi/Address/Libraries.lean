import ContractAbi.Proofs.Address.Spelling

/-!
# Libraries of addresses

Upper and lower case in an address are its checksum. A library may pay no heed to it, or take mixed
case only where the checksum is right.
-/

namespace ContractAbi.AddressLibrary

open Address

/-- Digits of any case are taken. -/
scoped instance anyCase : AddressLibrary where
  accepts s := (digits? s).isSome
  spell s := ((digits? s).map ofDigits).getD s
  spells_of_accepts h := by
    obtain ⟨ds, hds⟩ := Option.isSome_iff_exists.1 h
    exact ⟨ds, digits?_eq_some_iff.1 hds⟩
  accepts_lower hfront hds := by
    rw [digits?_eq_some_iff.2 (hds.spells hfront), Option.isSome_some]
  accepts_ofDigits hds := by
    rw [digits?_eq_some_iff.2 (spells_ofDigits hds), Option.isSome_some]
  spell_eq _ hspells := by
    rw [digits?_eq_some_iff.2 hspells, Option.map_some, Option.getD_some]

/-- Mixed case is taken in the checksummed spelling only. -/
@[reducible] def checked : AddressLibrary where
  accepts s :=
    let cs := Hex.drop0x s.toList
    (digits? s).any fun ds =>
      cs == ds || cs == ds.map Char.toUpper || s == ofDigits ds
  spell s := ((digits? s).map ofDigits).getD s
  spells_of_accepts h := by
    obtain ⟨ds, hds, -⟩ := (Option.any_eq_true _ _).1 h
    exact ⟨ds, digits?_eq_some_iff.1 hds⟩
  accepts_lower hfront hds := by
    rw [digits?_eq_some_iff.2 (hds.spells hfront),
      drop0x_front hfront fun c hc => Hex.isDigit_of_mem_digits c (hds.digits c hc)]
    simp
  accepts_ofDigits hds := by
    rw [digits?_eq_some_iff.2 (spells_ofDigits hds)]
    simp
  spell_eq _ hspells := by
    rw [digits?_eq_some_iff.2 hspells, Option.map_some, Option.getD_some]

example : anyCase.accepts "0xAAaaaaaaaaaaaaaaaaaaaaaaaaaaaaaaaaaaaaaa" = true ∧
    checked.accepts "0xAAaaaaaaaaaaaaaaaaaaaaaaaaaaaaaaaaaaaaaa" = false := by
  decide +kernel

end ContractAbi.AddressLibrary
