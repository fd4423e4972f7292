import ContractAbi.Selector
import ContractAbi.Proofs.Session.Except
import ContractAbi.Proofs.Text.Hex

/-!
# The one spelling of selectors and topics

* `Selector.normalize_normalize`: spelling a selector in its one way twice changes nothing more;
* `Topic.normalize_of_spells`: a topic that is written from its bytes is in that spelling.
-/

namespace ContractAbi

theorem fixedHex?_of_fixedHex? {width : Nat} {s : String} {ds : List Char}
    (h : fixedHex? width s = some ds) :
    fixedHex? width (String.ofList ('0' :: 'x' :: ds)) = some ds := by
  unfold fixedHex? at h ⊢
  dsimp only at h
  split at h
  · rename_i hfixed
    obtain ⟨hwidth, hdigits, htail⟩ := hfixed
    obtain rfl := Option.some.inj h
    generalize Hex.dropLower0x s.toList = cs at hwidth hdigits htail
    have hdrop : Hex.dropLower0x (String.ofList ('0' :: 'x' :: cs.map Char.toLower)).toList =
        cs.map Char.toLower := by
      rw [String.toList_ofList]
      rfl
    have hlower : (cs.map Char.toLower).map Char.toLower = cs.map Char.toLower := by
      rw [List.map_map]
      refine List.map_congr_left fun c hc => ?_
      rw [← List.take_append_drop width cs, List.mem_append] at hc
      rcases hc with hc | hc
      · exact Hex.toLower_of_mem_digits _
          (Hex.toLower_mem_digits (List.all_eq_true.1 hdigits c hc))
      · rcases htail with htail | htail
        · rw [htail] at hc
          exact absurd hc List.not_mem_nil
        · rw [htail, List.mem_singleton] at hc
          rw [hc]
          rfl
    rw [hdrop]
    dsimp only
    rw [hlower, if_pos]
    refine ⟨by simpa using hwidth, ?_, ?_⟩
    · rw [← List.map_take, List.all_map]
      refine List.all_eq_true.2 fun c hc => ?_
      exact Hex.isDigit_of_mem_digits _ (Hex.toLower_mem_digits (List.all_eq_true.1 hdigits c hc))
    · rw [← List.map_drop]
      rcases htail with htail | htail
      · exact .inl (by rw [htail, List.map_nil])
      · exact .inr (by rw [htail]; rfl)
  · exact absurd h (by simp)

/-- Bytes that are written out are read as the digits that they were written with. -/
theorem fixedHex?_encode0x (bs : Bytes) :
    fixedHex? (2 * bs.length) (Hex.encode0x bs) = some (Hex.ofBytes bs) := by
  have hdrop : Hex.dropLower0x (Hex.encode0x bs).toList = Hex.ofBytes bs := by
    rw [Hex.toList_encode0x]
    rfl
  have hlower : (Hex.ofBytes bs).map Char.toLower = Hex.ofBytes bs := by
    conv => rhs; rw [← List.map_id (Hex.ofBytes bs)]
    exact List.map_congr_left fun c hc =>
      Hex.toLower_of_mem_digits c (Hex.mem_digits_of_mem_ofBytes hc)
  have hwhole : (Hex.ofBytes bs).take (2 * bs.length) = Hex.ofBytes bs :=
    List.take_of_length_le (by simp)
  have hrest : (Hex.ofBytes bs).drop (2 * bs.length) = [] := List.drop_of_length_le (by simp)
  unfold fixedHex?
  dsimp only
  rw [hdrop, hlower, hwhole, hrest, if_pos]
  refine ⟨by simp, List.all_eq_true.2 fun c hc => ?_, .inl rfl⟩
  exact Hex.isDigit_of_mem_digits c (Hex.mem_digits_of_mem_ofBytes hc)

theorem holds_of_fixedHex? {width : Nat} {s : String} {ds : List Char} (hwidth : 0 < width)
    (h : fixedHex? width s = some ds) : (Value.text s).holds = true := by
  refine decide_eq_true fun hempty => ?_
  subst hempty
  unfold fixedHex? at h
  dsimp only at h
  rw [if_neg fun hfixed => absurd hfixed.1 (Nat.not_le.2 hwidth)] at h
  exact absurd h (by simp)

theorem Hex.ofList_ofBytes (bs : Bytes) :
    String.ofList ('0' :: 'x' :: Hex.ofBytes bs) = Hex.encode0x bs := by
  apply String.toList_injective
  simp

/-! ## Texts that can be hashed -/

theorem Text.map_hashable_eq_ok_iff {α : Type} {f : String → α} {s : String} {a : α} :
    (hashable s).map f = .ok a ↔ loneHalves? s = none ∧ f s = a := by
  unfold hashable
  cases loneHalves? s <;> simp

theorem Selector.hashed_eq_ok_iff {s selector : String} :
    hashed s = .ok selector ↔ Text.loneHalves? s = none ∧ ofSignature s = selector :=
  Text.map_hashable_eq_ok_iff

theorem Topic.hashed_eq_ok_iff {s topic : String} :
    hashed s = .ok topic ↔ Text.loneHalves? s = none ∧ ofSignature s = topic :=
  Text.map_hashable_eq_ok_iff

namespace Selector

theorem normalize_eq_ok_iff {v : Value} {s : String} :
    normalize v = .ok s ↔
      ∃ given ds, v = .text given ∧ fixedHex? 8 given = some ds ∧
        s = String.ofList ('0' :: 'x' :: ds) := by
  cases v with
  | text given =>
      cases hds : fixedHex? 8 given with
      | none => simp [normalize, hds]
      | some ds => simp [normalize, hds, eq_comm]
  | _ => simp [normalize]

theorem normalize_normalize {v : Value} {s : String} (h : normalize v = .ok s) :
    normalize (.text s) = .ok s := by
  obtain ⟨given, ds, rfl, hds, rfl⟩ := normalize_eq_ok_iff.1 h
  exact normalize_eq_ok_iff.2 ⟨_, ds, rfl, fixedHex?_of_fixedHex? hds, rfl⟩

theorem normalize_of_spells {s : String} (h : Hex.Spells 4 s) : normalize (.text s) = .ok s := by
  obtain ⟨bs, hlength, rfl⟩ := h
  have hread := fixedHex?_encode0x bs
  rw [hlength] at hread
  exact normalize_eq_ok_iff.2 ⟨_, _, rfl, hread, (Hex.ofList_ofBytes bs).symm⟩

theorem holds_of_normalize {v : Value} {s : String} (h : normalize v = .ok s) : v.holds = true := by
  obtain ⟨given, ds, rfl, hds, -⟩ := normalize_eq_ok_iff.1 h
  exact holds_of_fixedHex? (by decide) hds

end Selector

namespace Topic

theorem normalize_eq_ok_iff {v : Value} {s : String} :
    normalize v = .ok s ↔
      ∃ given ds, v = .text given ∧ fixedHex? 64 given = some ds ∧
        s = String.ofList ('0' :: 'x' :: ds) := by
  cases v with
  | text given =>
      cases hds : fixedHex? 64 given with
      | none => simp [normalize, hds]
      | some ds => simp [normalize, hds, eq_comm]
  | _ => simp [normalize]

theorem normalize_normalize {v : Value} {s : String} (h : normalize v = .ok s) :
    normalize (.text s) = .ok s := by
  obtain ⟨given, ds, rfl, hds, rfl⟩ := normalize_eq_ok_iff.1 h
  exact normalize_eq_ok_iff.2 ⟨_, ds, rfl, fixedHex?_of_fixedHex? hds, rfl⟩

theorem normalize_of_spells {s : String} (h : Hex.Spells 32 s) : normalize (.text s) = .ok s := by
  obtain ⟨bs, hlength, rfl⟩ := h
  have hread := fixedHex?_encode0x bs
  rw [hlength] at hread
  exact normalize_eq_ok_iff.2 ⟨_, _, rfl, hread, (Hex.ofList_ofBytes bs).symm⟩

theorem holds_of_normalize {v : Value} {s : String} (h : normalize v = .ok s) : v.holds = true := by
  obtain ⟨given, ds, rfl, hds, -⟩ := normalize_eq_ok_iff.1 h
  exact holds_of_fixedHex? (by decide) hds

end Topic

end ContractAbi
