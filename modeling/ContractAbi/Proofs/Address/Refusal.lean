import ContractAbi.Proofs.Address
import ContractAbi.Proofs.Session.Except
import ContractAbi.Proofs.Text.HexPairs

/-!
# What is refused as an address

The zero address is no place for a contract. It is refused behind `0x` or `0X`, and let through
where its digits stand alone.

* `fold_eq_zero_iff`, `ofBytes_eq_zero_iff` and `ne_zero_of_ofWord`: where it may be met;
* `spells_zeros_iff`: the texts that spell the zero address;
* `exists_checksum_iff` and `eq_zero_iff_of_checksum`: what is let through.
-/

namespace ContractAbi.Address

/-! ## The zero address -/

theorem areDigits_zeros : AreDigits (List.replicate 40 '0') := by
  constructor
  · exact List.length_replicate
  · intro c hc
    rw [List.eq_of_mem_replicate hc]
    decide

theorem zero_eq : zero = String.ofList ('0' :: 'x' :: List.replicate 40 '0') := by
  decide

theorem ofDigits_zeros : ofDigits (List.replicate 40 '0') = zero := by
  decide +kernel

theorem isSpelt_zero : IsSpelt zero :=
  ⟨_, areDigits_zeros, ofDigits_zeros.symm⟩

/-- The zero address has one spelling among those that the library writes. -/
theorem fold_eq_zero_iff {a : String} (ha : IsSpelt a) : fold a = zero ↔ a = zero := by
  have hzero : fold zero = zero := by decide
  constructor
  · intro h
    exact fold_inj ha isSpelt_zero (h.trans hzero.symm)
  · intro h
    rw [h, hzero]

/-! ## The texts of the zero address -/

def bareZeros : String :=
  "0000000000000000000000000000000000000000"

theorem toList_bareZeros : bareZeros.toList = List.replicate 40 '0' := by
  decide

theorem eq_zero_of_toLower {c : Char} (h : c.toLower = '0') : c = '0' := by
  rcases Hex.toLower_cases c with hsame | hupper
  · rw [← hsame, h]
  -- Only the capitals change, and there are few enough of them to try.
  · have hall : ∀ n < 91, 65 ≤ n → (Char.ofNat n).toLower ≠ '0' := by decide
    rw [← Char.ofNat_toNat c] at h
    exact absurd h (hall c.toNat (by omega) (by omega))

theorem eq_x_of_toLower {c : Char} (h : c.toLower = 'x') : c = 'x' ∨ c = 'X' := by
  rcases Hex.toLower_cases c with hsame | hupper
  · exact .inl (hsame.symm.trans h)
  · have hall : ∀ n < 91, 65 ≤ n → (Char.ofNat n).toLower = 'x' → Char.ofNat n = 'X' := by decide
    rw [← Char.ofNat_toNat c] at h ⊢
    exact .inr (hall c.toNat (by omega) (by omega) h)

theorem ofList_eq_bareZeros {cs : List Char} (h : cs.map Char.toLower = List.replicate 40 '0') :
    String.ofList cs = bareZeros := by
  have hlength : cs.length = 40 := by
    rw [← List.length_map Char.toLower, h, List.length_replicate]
  have hcs : cs = List.replicate 40 '0' := by
    apply List.eq_replicate_iff.2
    refine ⟨hlength, fun c hc => eq_zero_of_toLower ?_⟩
    have hmem := List.mem_map_of_mem (f := Char.toLower) hc
    rw [h] at hmem
    exact List.eq_of_mem_replicate hmem
  apply String.toList_injective
  rw [String.toList_ofList, toList_bareZeros, hcs]

/-- The zero address is spelt with nothing, `0x` or `0X` in front of its digits. -/
theorem spells_zeros_iff {s : String} :
    Spells s (List.replicate 40 '0') ↔ ∃ front ∈ ["", "0x", "0X"], s = front ++ bareZeros := by
  constructor
  · rintro ⟨front, hfront, cs, rfl, -, -, hzeros⟩
    exact ⟨front, hfront, by rw [ofList_eq_bareZeros hzeros]⟩
  · rintro ⟨front, hfront, rfl⟩
    refine ⟨front, hfront, List.replicate 40 '0', ?_, List.length_replicate, ?_, by decide⟩
    · rw [← toList_bareZeros, String.ofList_toList]
    · intro c hc
      rw [List.eq_of_mem_replicate hc]
      decide

theorem spells_bareZeros : Spells bareZeros (List.replicate 40 '0') :=
  spells_zeros_iff.2 ⟨"", by simp, String.empty_append.symm⟩

/-- Only behind `0x` and `0X` is the zero address compared with. -/
theorem fold_eq_zero_text_iff {s : String} :
    fold s = zero ↔ ∃ front ∈ ["0x", "0X"], s = front ++ bareZeros := by
  constructor
  · intro h
    rw [fold, zero_eq] at h
    obtain ⟨c, more, hs, hc, hmore⟩ := List.map_eq_cons_iff.1 (String.ofList_injective h)
    obtain ⟨d, rest, rfl, hd, hrest⟩ := List.map_eq_cons_iff.1 hmore
    have hrest : String.ofList rest = bareZeros := ofList_eq_bareZeros hrest
    have hsplit : s = String.ofList [c, d] ++ bareZeros := by
      apply String.toList_injective
      rw [hs, ← hrest, String.toList_append, String.toList_ofList, String.toList_ofList]
      rfl
    rw [eq_zero_of_toLower hc] at hsplit
    rcases eq_x_of_toLower hd with hd | hd
    · rw [hd] at hsplit
      exact ⟨"0x", by simp, hsplit⟩
    · rw [hd] at hsplit
      exact ⟨"0X", by simp, hsplit⟩
  · rintro ⟨front, hfront, rfl⟩
    rcases List.mem_pair.1 hfront with rfl | rfl <;> decide

/-! ## What is let through -/

variable [AddressLibrary]

theorem ofBytes_eq_zero_iff {bs : Bytes} (hbs : bs.length = 20) :
    ofBytes bs = zero ↔ bs = List.replicate 20 0 := by
  have hzeros : Hex.ofBytes (List.replicate 20 0) = List.replicate 40 '0' := by decide
  constructor
  · intro h
    have hfold : fold (ofBytes bs) = zero := (fold_eq_zero_iff (isSpelt_ofBytes hbs)).2 h
    rw [ofBytes_eq hbs, fold_ofDigits (areDigits_ofBytes hbs), zero_eq] at hfold
    have hdigits : Hex.ofBytes bs = List.replicate 40 '0' :=
      (List.cons.inj (List.cons.inj (String.ofList_injective hfold)).2).2
    exact Hex.ofBytes_inj (hdigits.trans hzeros.symm)
  · intro h
    rw [ofBytes_eq hbs, h, hzeros, ofDigits_zeros]

theorem ne_zero_of_ofWord {word : Bytes} {a : String} (h : ofWord word = some a) : a ≠ zero := by
  obtain ⟨hne, rfl⟩ := ofWord_eq_some_iff.1 h
  exact mt (ofBytes_eq_zero_iff (Bytes.length_lastPadded 20 word)).1 hne

/-- A text that the library takes for an address other than the zero address. -/
def NamesContract (v : Value) : Prop :=
  ∃ s ds, v = .text s ∧ AddressLibrary.accepts s = true ∧ Spells s ds ∧
    ds ≠ List.replicate 40 '0'

theorem accepts_bareZeros : AddressLibrary.accepts bareZeros = true := by
  have haccepts := @AddressLibrary.accepts_lower _ "" _ (by simp) areDigits_zeros
  rwa [String.empty_append, ← toList_bareZeros, String.ofList_toList] at haccepts

/-- What is let through is accepted by the library, and not compared with the zero address. -/
theorem checksum_eq_ok_iff {v : Value} {a : String} : checksum v = .ok a ↔
    ∃ s ds, v = .text s ∧ AddressLibrary.accepts s = true ∧ Spells s ds ∧ fold s ≠ zero ∧
      a = ofDigits ds := by
  constructor
  · intro h
    obtain ⟨s, ds, rfl, haccepts, hspells, ha⟩ :=
      exists_spells_of_checksumAny (checksumAny_of_checksum h)
    refine ⟨s, ds, rfl, haccepts, hspells, fun hzero => ?_, ha⟩
    rw [checksum, if_pos hzero] at h
    cases h
  · rintro ⟨s, ds, rfl, haccepts, hspells, hzero, rfl⟩
    rw [checksum, if_neg hzero, checksumAny_text haccepts hspells]

theorem checksum_zero : checksum (.text zero) = .error (.invalidAddress (.text zero)) := by
  have hzero : fold zero = zero := by decide
  rw [checksum, if_pos hzero]

theorem checksum_of_isSpelt {a : String} (ha : IsSpelt a) (hne : a ≠ zero) :
    checksum (.text a) = .ok a := by
  rw [checksum, if_neg (mt (fold_eq_zero_iff ha).1 hne), checksumAny_of_isSpelt ha]

theorem eq_zero_iff_of_checksum {v : Value} {a : String} (h : checksum v = .ok a) :
    a = zero ↔ v = .text bareZeros := by
  obtain ⟨s, ds, rfl, -, hspells, hfold, rfl⟩ := checksum_eq_ok_iff.1 h
  constructor
  · intro hzero
    have hds : ds = List.replicate 40 '0' := by
      have hsame := congrArg fold hzero
      rw [fold_ofDigits hspells.areDigits, (fold_eq_zero_iff isSpelt_zero).2 rfl, zero_eq] at hsame
      exact (List.cons.inj (List.cons.inj (String.ofList_injective hsame)).2).2
    rw [hds] at hspells
    obtain ⟨front, hfront, rfl⟩ := spells_zeros_iff.1 hspells
    rcases List.mem_cons.1 hfront with rfl | hfront
    · rw [String.empty_append]
    · exact absurd (fold_eq_zero_text_iff.2 ⟨front, hfront, rfl⟩) hfold
  · intro hbare
    obtain rfl := Value.text.inj hbare
    rw [hspells.unique spells_bareZeros, ofDigits_zeros]

/-- What is let through is what names a contract, and the bare digits of the zero address. -/
theorem exists_checksum_iff {v : Value} :
    (∃ a, checksum v = .ok a) ↔ NamesContract v ∨ v = .text bareZeros := by
  constructor
  · rintro ⟨a, h⟩
    by_cases hbare : v = .text bareZeros
    · exact .inr hbare
    · obtain ⟨s, ds, hs, haccepts, hspells, -, ha⟩ := checksum_eq_ok_iff.1 h
      refine .inl ⟨s, ds, hs, haccepts, hspells, fun hzeros => hbare ?_⟩
      rw [hzeros, ofDigits_zeros] at ha
      exact (eq_zero_iff_of_checksum h).1 ha
  · rintro (⟨s, ds, rfl, haccepts, hspells, hne⟩ | rfl)
    · refine ⟨ofDigits ds, checksum_eq_ok_iff.2 ⟨s, ds, rfl, haccepts, hspells, ?_, rfl⟩⟩
      intro hzero
      obtain ⟨front, hfront, rfl⟩ := fold_eq_zero_text_iff.1 hzero
      exact hne (hspells.unique (spells_zeros_iff.2 ⟨front, List.mem_cons_of_mem _ hfront, rfl⟩))
    · have hfold : fold bareZeros ≠ zero := by decide
      exact ⟨_, checksum_eq_ok_iff.2 ⟨_, _, rfl, accepts_bareZeros, spells_bareZeros, hfold, rfl⟩⟩

theorem eq_invalidAddress_of_checksum {v : Value} {f : Fault} (h : checksum v = .error f) :
    f = .invalidAddress v := by
  unfold checksum at h
  split at h
  · split at h
    · exact (Except.error.inj h).symm
    · unfold checksumAny at h
      dsimp only at h
      split at h
      · exact absurd h (by simp)
      · exact (Except.error.inj h).symm
  · exact (Except.error.inj h).symm

end ContractAbi.Address
