import ContractAbi.Proofs.Text.Half
import ContractAbi.Text.Utf8

/-!
# UTF-8 of ASCII text

ASCII text is read from the bytes that it is written as.

* `toList_eq`: the list of the bytes of an array;
* `fault?_ascii`: bytes below 128 are always text;
* `encode_ascii`: each character of ASCII text is written as one of them;
* `decode_encode` and `decodeHalves_encode`: so ASCII text is read back.
-/

namespace ContractAbi.Utf8

/-! ## Bytes of arrays -/

theorem toList_loop (bs : ByteArray) (n i : Nat) (h : i + n = bs.size) (acc : List UInt8) :
    ByteArray.toList.loop bs i acc = acc.reverse ++ bs.data.toList.drop i := by
  have hsize : bs.data.toList.length = bs.size := rfl
  induction n generalizing i acc with
  | zero =>
      rw [ByteArray.toList.loop, if_neg (by omega), List.drop_eq_nil_of_le (by omega),
        List.append_nil]
  | succ n ih =>
      have hlt : i < bs.size := by omega
      have hget : bs.get! i = bs.data.toList[i] := by
        have hdata : i < bs.data.size := hlt
        change bs.data[i]! = _
        rw [getElem!_pos bs.data i hdata, Array.getElem_toList]
      rw [ByteArray.toList.loop, if_pos hlt, ih (i + 1) (by omega), hget,
        List.drop_eq_getElem_cons (by omega : i < bs.data.toList.length), List.reverse_cons,
        List.append_assoc, List.singleton_append]

theorem toList_eq (bs : ByteArray) : bs.toList = bs.data.toList := by
  rw [ByteArray.toList, toList_loop bs bs.size 0 (Nat.zero_add _), List.reverse_nil,
    List.nil_append, List.drop_zero]

theorem exists_ofChars_of_decode {bs : Bytes} {s : String} (h : decode bs = .ok s) :
    ∃ cs, s = Text.ofChars cs := by
  unfold decode at h
  split at h
  · exact absurd h (by simp)
  · exact ⟨_, (Except.ok.inj h).symm⟩

/-! ## ASCII -/

variable {bs : Bytes} {s : String}

theorem shape?_ascii {b : UInt8} (h : b.toNat < 128) : shape? b = some (1, 0, 0) := by
  unfold shape?
  dsimp only
  rw [if_pos h]

theorem startsWithHalf_ascii {b : UInt8} (h : b.toNat < 128) (rest : Bytes) :
    startsWithHalf (b :: rest) = false := by
  have hne : (b == 0xed) = false := by
    rw [beq_eq_false_iff_ne]
    rintro rfl
    exact absurd h (by decide)
  unfold startsWithHalf
  split
  · rename_i heq
    obtain ⟨rfl, -⟩ := List.cons.inj heq
    rw [hne]
    rfl
  · rfl

theorem fault?_ascii (halves : Bool) (i : Nat) (h : ∀ b ∈ bs, b.toNat < 128) :
    fault? halves i 0 bs = none := by
  induction bs generalizing i with
  | nil => rfl
  | cons b rest ih =>
      obtain ⟨hb, hall⟩ := List.forall_mem_cons.1 h
      rw [fault?, if_neg (by decide), startsWithHalf_ascii hb, Bool.and_false,
        if_neg (by decide), shape?_ascii hb]
      exact ih (i + 1) hall

theorem numbers_ascii (h : ∀ b ∈ bs, b.toNat < 128) : numbers 0 0 bs = bs.map UInt8.toNat := by
  induction bs with
  | nil => rfl
  | cons b rest ih =>
      obtain ⟨hb, hall⟩ := List.forall_mem_cons.1 h
      have hlead : lead b = (b.toNat, 0) := by
        unfold lead
        rw [shape?_ascii hb]
      rw [numbers, if_pos rfl, hlead, if_pos rfl, ih hall, List.map_cons]

theorem plain_of_ascii (h : ∀ c ∈ s.toList, c.toNat < 128) : Text.Plain s.toList :=
  Text.plain_of_lt fun c hc => Nat.lt_trans (h c hc) (by decide)

theorem encode_eq_flatMap (h : Text.Plain s.toList) :
    encode s = s.toList.flatMap String.utf8EncodeChar := by
  rw [encode, Text.characters_of_plain h, String.ofList_toList, toList_eq,
    String.toUTF8_eq_toByteArray, ← String.utf8Encode_toList, List.utf8Encode,
    List.toList_data_toByteArray]

/-- Each character of ASCII text is written as the byte of its number. -/
theorem encode_ascii (h : ∀ c ∈ s.toList, c.toNat < 128) :
    encode s = s.toList.map fun c => c.val.toUInt8 := by
  have heach : ∀ c ∈ s.toList, String.utf8EncodeChar c = [c.val.toUInt8] := fun c hc =>
    String.utf8EncodeChar_eq_singleton <| Char.utf8Size_eq_one_iff.2 <|
      UInt32.le_iff_toNat_le.2 (Nat.le_of_lt_succ (h c hc))
  rw [encode_eq_flatMap (plain_of_ascii h), List.map_eq_flatMap, List.flatMap_def, List.flatMap_def,
    List.map_congr_left heach]

theorem toNat_byte {c : Char} (h : c.toNat < 128) : c.val.toUInt8.toNat = c.toNat := by
  have hlt : c.val.toNat < 128 := h
  rw [UInt32.toNat_toUInt8]
  exact Nat.mod_eq_of_lt (by omega)

theorem lt_of_mem_encode (h : ∀ c ∈ s.toList, c.toNat < 128) :
    ∀ b ∈ encode s, b.toNat < 128 := by
  intro b hb
  rw [encode_ascii h, List.mem_map] at hb
  obtain ⟨c, hc, rfl⟩ := hb
  rw [toNat_byte (h c hc)]
  exact h c hc

theorem numbers_encode (h : ∀ c ∈ s.toList, c.toNat < 128) :
    numbers 0 0 (encode s) = s.toList.map Char.toNat := by
  rw [numbers_ascii (lt_of_mem_encode h), encode_ascii h, List.map_map]
  exact List.map_congr_left fun c hc => toNat_byte (h c hc)

theorem decode_encode (h : ∀ c ∈ s.toList, c.toNat < 128) : decode (encode s) = .ok s := by
  have hchars : (s.toList.map Char.toNat).map Char.ofNat = s.toList := by
    rw [List.map_map]
    exact (List.map_congr_left fun c _ => Char.ofNat_toNat c).trans (List.map_id _)
  rw [decode, fault?_ascii false 0 (lt_of_mem_encode h), numbers_encode h, hchars,
    Text.ofChars_of_plain (plain_of_ascii h), String.ofList_toList]

theorem decodeHalves_encode (h : ∀ c ∈ s.toList, c.toNat < 128) :
    decodeHalves (encode s) = .ok s := by
  have hpoints : (s.toList.map Char.toNat).map Text.Point.ofNat = s.toList.map .char := by
    rw [List.map_map]
    exact List.map_congr_left fun c _ => Text.Point.ofNat_toNat c
  have hchars : (s.toList.map Text.Point.char).flatMap Text.Point.chars = s.toList := by
    rw [List.flatMap_map]
    exact Text.flatMap_ofChar_of_plain (plain_of_ascii h)
  rw [decodeHalves, fault?_ascii true 0 (lt_of_mem_encode h), numbers_encode h, hpoints,
    Text.ofPoints, hchars, String.ofList_toList]

end ContractAbi.Utf8
