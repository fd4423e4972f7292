import ContractAbi.Address
import ContractAbi.Proofs.Text.Hex

/-!
# The spellings of an address

A text spells at most one address, and the checksummed spelling tells its digits in whatever case
they are compared.

* `Address.digits?_eq_some_iff` and `Address.Spells.unique`: the texts that spell an address;
* `Address.spells_ofDigits`: the checksummed spelling is one of them;
* `Address.fold_inj`: texts in this spelling are the same if they are in lower case.
-/

namespace ContractAbi

namespace Keccak

@[simp] theorem length_laneBytes (count lane : Nat) : (laneBytes count lane).length = count := by
  induction count generalizing lane with
  | zero => rfl
  | succ count ih => rw [laneBytes, List.length_cons, ih]

@[simp] theorem length_hash (message : Bytes) : (hash message).length = 32 := by
  unfold hash
  generalize absorbAll _ _ _ = s
  simp [Row.toList]

end Keccak

@[simp] theorem Bytes.length_lastPadded (n : Nat) (bs : Bytes) : (lastPadded n bs).length = n := by
  unfold lastPadded
  simp only [List.length_drop, List.length_append, List.length_replicate]
  omega

namespace Address

theorem Spells.areDigits {s : String} {ds : List Char} (h : Spells s ds) : AreDigits ds := by
  obtain ⟨-, -, cs, -, hlength, hdigits, rfl⟩ := h
  refine ⟨by rw [List.length_map, hlength], fun c hc => ?_⟩
  obtain ⟨d, hd, rfl⟩ := List.mem_map.1 hc
  exact Hex.toLower_mem_digits (hdigits d hd)

theorem AreDigits.spells {front : String} {ds : List Char} (h : AreDigits ds)
    (hfront : front ∈ ["", "0x", "0X"]) : Spells (front ++ String.ofList ds) ds := by
  have hlower : ∀ c ∈ ds, c.toLower = c := fun c hc => Hex.toLower_of_mem_digits c (h.digits c hc)
  exact ⟨front, hfront, ds, rfl, h.length,
    fun c hc => Hex.isDigit_of_mem_digits c (h.digits c hc),
    (List.map_congr_left hlower).trans (List.map_id ds)⟩

theorem areDigits_ofBytes {bs : Bytes} (h : bs.length = 20) : AreDigits (Hex.ofBytes bs) :=
  ⟨by rw [Hex.length_ofBytes, h], fun _ hc => Hex.mem_digits_of_mem_ofBytes hc⟩

theorem drop0x_of_isDigit {cs : List Char} (h : ∀ c ∈ cs, Hex.isDigit c = true) :
    Hex.drop0x cs = cs := by
  unfold Hex.drop0x
  split
  · exact absurd (h 'x' (by simp)) (by decide)
  · exact absurd (h 'X' (by simp)) (by decide)
  · rfl

theorem exists_drop0x (cs : List Char) :
    ∃ front ∈ ["", "0x", "0X"], cs = front.toList ++ Hex.drop0x cs := by
  unfold Hex.drop0x
  split
  · exact ⟨"0x", by simp, rfl⟩
  · exact ⟨"0X", by simp, rfl⟩
  · exact ⟨"", by simp, rfl⟩

theorem drop0x_front {front : String} (hfront : front ∈ ["", "0x", "0X"]) {cs : List Char}
    (h : ∀ c ∈ cs, Hex.isDigit c = true) : Hex.drop0x (front ++ String.ofList cs).toList = cs := by
  rw [String.toList_append, String.toList_ofList]
  simp only [List.mem_cons, List.not_mem_nil, or_false] at hfront
  rcases hfront with rfl | rfl | rfl
  · exact drop0x_of_isDigit h
  · rfl
  · rfl

theorem digits?_eq_some_iff {s : String} {ds : List Char} :
    digits? s = some ds ↔ Spells s ds := by
  unfold digits?
  dsimp only
  constructor
  · intro h
    split at h
    · rename_i hform
      obtain ⟨front, hfront, hsplit⟩ := exists_drop0x s.toList
      refine ⟨front, hfront, Hex.drop0x s.toList, ?_, hform.1, List.all_eq_true.1 hform.2,
        Option.some.inj h⟩
      apply String.toList_injective
      rw [String.toList_append, String.toList_ofList]
      exact hsplit
    · exact absurd h (by simp)
  · rintro ⟨front, hfront, cs, rfl, hlength, hdigits, rfl⟩
    rw [drop0x_front hfront hdigits, if_pos ⟨hlength, List.all_eq_true.2 hdigits⟩]

theorem Spells.unique {s : String} {ds ds' : List Char} (h : Spells s ds) (h' : Spells s ds') :
    ds = ds' :=
  Option.some.inj ((digits?_eq_some_iff.2 h).symm.trans (digits?_eq_some_iff.2 h'))

/-! ## Mixed case -/

theorem length_nibbles (bs : Bytes) : (nibbles bs).length = 2 * bs.length := by
  induction bs with
  | nil => rfl
  | cons b bs ih =>
      rw [nibbles, List.flatMap_cons, List.length_append, ← nibbles, ih]
      simp only [List.length_cons, List.length_nil]
      omega

theorem length_mixCase {ds : List Char} (h : AreDigits ds) : (mixCase ds).length = 40 := by
  simp [mixCase, length_nibbles, h.length]

theorem toLower_mixCase {ds : List Char} (h : AreDigits ds) :
    (mixCase ds).map Char.toLower = ds := by
  have hcase : ∀ c ∈ Hex.digits, c.toUpper.toLower = c :=
    Hex.forall_of_all (by decide)
  unfold mixCase
  dsimp only
  generalize hhash : nibbles (Keccak.hash (ds.map fun c => UInt8.ofNat c.toNat)) = hash
  have hlength : ds.length ≤ hash.length := by
    rw [← hhash, length_nibbles, Keccak.length_hash, h.length]
    omega
  rw [List.map_map]
  conv => rhs; rw [← List.map_fst_zip hlength]
  refine List.map_congr_left fun p hp => ?_
  have hdigit := h.digits p.1 (List.of_mem_zip hp).1
  dsimp only [Function.comp]
  split
  · exact hcase p.1 hdigit
  · exact Hex.toLower_of_mem_digits p.1 hdigit

theorem isDigit_of_mem_mixCase {ds : List Char} (h : AreDigits ds) {c : Char}
    (hc : c ∈ mixCase ds) : Hex.isDigit c = true := by
  have hcase : ∀ c ∈ Hex.digits, Hex.isDigit c.toUpper = true :=
    Hex.forall_of_all (by decide)
  obtain ⟨p, hp, rfl⟩ := List.mem_map.1 hc
  have hdigit := h.digits p.1 (List.of_mem_zip hp).1
  dsimp only
  split
  · exact hcase p.1 hdigit
  · exact Hex.isDigit_of_mem_digits p.1 hdigit

theorem spells_ofDigits {ds : List Char} (h : AreDigits ds) : Spells (ofDigits ds) ds := by
  refine ⟨"0x", by simp, mixCase ds, ?_, length_mixCase h, fun c => isDigit_of_mem_mixCase h,
    toLower_mixCase h⟩
  apply String.toList_injective
  rw [ofDigits, String.toList_ofList, String.toList_append, String.toList_ofList]
  simp

theorem fold_ofDigits {ds : List Char} (h : AreDigits ds) :
    fold (ofDigits ds) = String.ofList ('0' :: 'x' :: ds) := by
  unfold fold ofDigits
  rw [String.toList_ofList, List.map_cons, List.map_cons, toLower_mixCase h]
  rfl

/-! ## Texts that the library writes -/

def IsSpelt (a : String) : Prop :=
  ∃ ds, AreDigits ds ∧ a = ofDigits ds

theorem fold_inj {a b : String} (ha : IsSpelt a) (hb : IsSpelt b) (h : fold a = fold b) :
    a = b := by
  obtain ⟨ds, hds, rfl⟩ := ha
  obtain ⟨ds', hds', rfl⟩ := hb
  rw [fold_ofDigits hds, fold_ofDigits hds'] at h
  have hsame := congrArg String.toList h
  rw [String.toList_ofList, String.toList_ofList] at hsame
  rw [(List.cons.inj (List.cons.inj hsame).2).2]

end Address

end ContractAbi
