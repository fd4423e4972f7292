import ContractAbi.Proofs.Address.Spelling
import ContractAbi.Proofs.Session.Except
import ContractAbi.Text.LowerCase

/-!
# What a library of addresses gives

An address comes out of the program in its checksummed spelling.

* `Address.lowered_eq_fold`: the lower-case form of text changes this spelling as the comparison
  of addresses does;
* `Address.isSpelt_of_checksumAny`, `Address.isSpelt_of_ofWord`: what comes out is spelt so;
* `Address.eq_of_checksum`: spelling such a text once more changes nothing.
-/

namespace ContractAbi

namespace Address

/-! ## Lower case -/

theorem lowerFrom_eq_map {cs : List Char}
    (h : ∀ c ∈ cs, c ∈ 'x' :: (Hex.digits ++ ['A', 'B', 'C', 'D', 'E', 'F']))
    (before : List Char) : Text.lowerFrom before cs = cs.map Char.toLower := by
  have hplain : ∀ c ∈ 'x' :: (Hex.digits ++ ['A', 'B', 'C', 'D', 'E', 'F']),
      c ≠ '\u03a3' ∧ c ≠ '\u0130' ∧ (Text.smallForm? c).getD c = c.toLower :=
    Hex.forall_of_all (by decide +kernel)
  induction cs generalizing before with
  | nil => rfl
  | cons c rest ih =>
      obtain ⟨hsigma, hdotted, hform⟩ := hplain c (h c List.mem_cons_self)
      rw [Text.lowerFrom, if_neg hsigma, if_neg hdotted, hform,
        ih fun d hd => h d (List.mem_cons_of_mem _ hd)]
      rfl

theorem lowered_eq_fold {a : String} (ha : IsSpelt a) : Text.lowered a = fold a := by
  obtain ⟨ds, hds, rfl⟩ := ha
  unfold Text.lowered Text.lower fold
  rw [lowerFrom_eq_map fun c hc => ?_]
  rw [ofDigits, String.toList_ofList] at hc
  rcases List.mem_cons.1 hc with rfl | hc
  · decide
  · rcases List.mem_cons.1 hc with rfl | hc
    · decide
    · exact List.mem_cons_of_mem _ (Hex.mem_of_isDigit (isDigit_of_mem_mixCase hds hc))

/-! ## What a library of addresses gives -/

variable [AddressLibrary]

theorem checksumAny_text {s : String} {ds : List Char} (h : AddressLibrary.accepts s = true)
    (hs : Spells s ds) : checksumAny (.text s) = .ok (ofDigits ds) := by
  unfold checksumAny
  dsimp only
  rw [if_pos h, AddressLibrary.spell_eq h hs]

/-- What the library takes for an address is a text that spells one. -/
theorem exists_spells_of_checksumAny {v : Value} {a : String} (h : checksumAny v = .ok a) :
    ∃ s ds, v = .text s ∧ AddressLibrary.accepts s = true ∧ Spells s ds ∧ a = ofDigits ds := by
  unfold checksumAny at h
  split at h
  · rename_i s
    split at h
    · rename_i haccepts
      obtain ⟨ds, hspells⟩ := AddressLibrary.spells_of_accepts haccepts
      rw [AddressLibrary.spell_eq haccepts hspells] at h
      exact ⟨s, ds, rfl, haccepts, hspells, (Except.ok.inj h).symm⟩
    · exact absurd h (by simp)
  · exact absurd h (by simp)

theorem isSpelt_of_checksumAny {v : Value} {a : String} (h : checksumAny v = .ok a) :
    IsSpelt a := by
  obtain ⟨_, ds, -, -, hspells, rfl⟩ := exists_spells_of_checksumAny h
  exact ⟨ds, hspells.areDigits, rfl⟩

theorem checksumAny_of_checksum {v : Value} {a : String} (h : checksum v = .ok a) :
    checksumAny v = .ok a := by
  unfold checksum at h
  split at h
  · split at h
    · exact absurd h (by simp)
    · exact h
  · exact absurd h (by simp)

theorem isSpelt_of_checksum {v : Value} {a : String} (h : checksum v = .ok a) : IsSpelt a :=
  isSpelt_of_checksumAny (checksumAny_of_checksum h)

/-- The library is asked for the spelling of lower-case digits behind `0x`. -/
theorem ofBytes_eq {bs : Bytes} (h : bs.length = 20) : ofBytes bs = ofDigits (Hex.ofBytes bs) := by
  have hdigits := areDigits_ofBytes h
  exact AddressLibrary.spell_eq (AddressLibrary.accepts_lower (by simp) hdigits)
    (hdigits.spells (by simp))

theorem isSpelt_ofBytes {bs : Bytes} (h : bs.length = 20) : IsSpelt (ofBytes bs) :=
  ⟨_, areDigits_ofBytes h, ofBytes_eq h⟩

/-- A word holds the address of its low twenty bytes, unless they are all zero. -/
theorem ofWord_eq_some_iff {word : Bytes} {a : String} :
    ofWord word = some a ↔ Bytes.lastPadded 20 word ≠ List.replicate 20 0 ∧
      a = ofBytes (Bytes.lastPadded 20 word) := by
  have hzero : (Bytes.lastPadded 20 word).all (· == 0) = true ↔
      Bytes.lastPadded 20 word = List.replicate 20 0 := by
    rw [List.all_eq_true, List.eq_replicate_iff, and_iff_right (Bytes.length_lastPadded 20 word)]
    exact forall₂_congr fun _ _ => beq_iff_eq
  unfold ofWord
  dsimp only
  split
  · rename_i hall
    exact iff_of_false (by simp) fun h => h.1 (hzero.1 hall)
  · rename_i hsome
    rw [Option.some.injEq]
    exact ⟨fun h => ⟨fun hall => hsome (hzero.2 hall), h.symm⟩, fun h => h.2.symm⟩

theorem isSpelt_of_ofWord {word : Bytes} {a : String} (h : ofWord word = some a) : IsSpelt a := by
  obtain ⟨-, rfl⟩ := ofWord_eq_some_iff.1 h
  exact isSpelt_ofBytes (Bytes.length_lastPadded 20 word)

theorem checksumAny_of_isSpelt {a : String} (ha : IsSpelt a) : checksumAny (.text a) = .ok a := by
  obtain ⟨ds, hds, rfl⟩ := ha
  exact checksumAny_text (AddressLibrary.accepts_ofDigits hds) (spells_ofDigits hds)

theorem isValid_of_isSpelt {a : String} (ha : IsSpelt a) : isValid (.text a) = true := by
  obtain ⟨ds, hds, rfl⟩ := ha
  exact AddressLibrary.accepts_ofDigits hds

theorem isValid_of_ofWordValue {word : Value} {a : String}
    (h : ofWordValue word = .ok (some a)) : isValid (.text a) = true := by
  obtain ⟨bs, -, ha⟩ := Except.map_eq_ok_iff.1 h
  exact isValid_of_isSpelt (isSpelt_of_ofWord ha)

theorem eq_of_checksum {a b : String} (ha : IsSpelt a) (h : checksum (.text a) = .ok b) :
    b = a := by
  have hany := checksumAny_of_checksum h
  rw [checksumAny_of_isSpelt ha] at hany
  exact (Except.ok.inj hany).symm

end Address

end ContractAbi
