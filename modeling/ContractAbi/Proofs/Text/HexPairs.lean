import ContractAbi.Proofs.Text.Hex
import ContractAbi.Proofs.Text.Trim
import ContractAbi.Value.Access

/-!
# Pairs of hex digits

Bytes that are written in hex are read again, and a text of hex digits is written from bytes.

* `readPairs_ofBytes` and `bytesOfText_encode0x`: what is written from bytes stands for them;
* `bytesOfText_blank`: blanks behind it change nothing;
* `exists_ofBytes`: an even number of digits, in lower case, is written from bytes;
* `length_of_readPairs`: what is read has two digits for each byte;
* `decode_dropLower0x`: which of the texts that people write are read as they stand.
-/

namespace ContractAbi

namespace Hex

open Text

/-! ## Reading what was written -/

theorem plain_of_mem_digits : ∀ c ∈ digits, isBlank c = false ∧ isAsciiBlank c = false ∧
    ¬127 < c.toNat :=
  forall_of_all (by decide)

theorem digitValue?_digit {n : Nat} (h : n < 16) : digitValue? (digit n) = some n := by
  have hall : ∀ n ∈ List.range 16, digitValue? (digit n) = some n := by decide
  exact hall n (List.mem_range.2 h)

theorem readPairs_ofBytes (i : Nat) (bs : Bytes) : readPairs i (ofBytes bs) = .ok bs := by
  induction bs generalizing i with
  | nil => rfl
  | cons b rest ih =>
      have hb : b.toNat < 256 := b.toNat_lt
      have hhigh := digitValue?_digit (show b.toNat / 16 < 16 by omega)
      have hlow := digitValue?_digit (show b.toNat % 16 < 16 by omega)
      have hblank := (plain_of_mem_digits _ (digit_mem_digits
        (show b.toNat / 16 < 16 by omega))).2.1
      have hbyte : UInt8.ofNat (16 * (b.toNat / 16) + b.toNat % 16) = b := by
        rw [Nat.div_add_mod, UInt8.ofNat_toNat]
      have hcode : ofBytes (b :: rest) =
          digit (b.toNat / 16) :: digit (b.toNat % 16) :: ofBytes rest := rfl
      rw [hcode]
      unfold readPairs
      rw [hblank, hhigh]
      dsimp only
      rw [hlow]
      dsimp only
      rw [ih, hbyte]
      rfl

theorem decode_of_ascii {cs : List Char} (h : ∀ c ∈ cs, ¬127 < c.toNat) :
    decode cs = readPairs 0 cs := by
  have hnone : cs.findIdx? (fun c => 127 < c.toNat) = none := by
    rw [List.findIdx?_eq_none_iff]
    intro c hc
    simpa using h c hc
  rw [decode, hnone]

theorem decode_ofBytes (bs : Bytes) : decode (ofBytes bs) = .ok bs := by
  rw [decode_of_ascii fun c hc => (plain_of_mem_digits c (mem_digits_of_mem_ofBytes hc)).2.2]
  exact readPairs_ofBytes 0 bs

theorem trim_encode0x (bs : Bytes) : trim (encode0x bs).toList = (encode0x bs).toList := by
  apply trim_of_solid
  intro c hc
  rw [toList_encode0x, List.mem_cons, List.mem_cons] at hc
  rcases hc with hc | hc | hc
  · rw [hc]
    decide
  · rw [hc]
    decide
  · exact (plain_of_mem_digits c (mem_digits_of_mem_ofBytes hc)).1

theorem decodeLoose_encode0x (bs : Bytes) {blank : String} (hblank : Blank blank.toList) :
    decodeLoose (encode0x bs ++ blank) = .ok bs := by
  have heven : padEven (ofBytes bs) = ofBytes bs := by
    rw [padEven, if_pos (by rw [length_ofBytes]; omega)]
  rw [decodeLoose, String.toList_append, trim_append_blank _ hblank, trim_encode0x,
    toList_encode0x]
  change decode (padEven (ofBytes bs)) = _
  rw [heven, decode_ofBytes]

theorem ofBytes_inj {bs bs' : Bytes} (h : ofBytes bs = ofBytes bs') : bs = bs' := by
  have hread := decode_ofBytes bs
  rw [h, decode_ofBytes] at hread
  exact (Except.ok.inj hread).symm

/-! ## Digits as bytes -/

/-- A digit of either case is written for its value, in lower case. -/
theorem exists_digit {c : Char} (h : isDigit c = true) : ∃ n, n < 16 ∧ digit n = c.toLower := by
  have hall : ∀ c ∈ digits ++ ['A', 'B', 'C', 'D', 'E', 'F'],
      ∃ n ∈ List.range 16, digit n = c.toLower :=
    forall_of_all (by decide)
  obtain ⟨n, hn, hdigit⟩ := hall c (mem_of_isDigit h)
  exact ⟨n, List.mem_range.1 hn, hdigit⟩

theorem exists_ofBytes {n : Nat} {cs : List Char} (hlength : cs.length = 2 * n)
    (hdigits : ∀ c ∈ cs, isDigit c = true) :
    ∃ bs : Bytes, bs.length = n ∧ ofBytes bs = cs.map Char.toLower := by
  induction n generalizing cs with
  | zero =>
      have hnil : cs = [] := List.length_eq_zero_iff.1 hlength
      exact ⟨[], rfl, by rw [hnil]; rfl⟩
  | succ n ih =>
      obtain ⟨c, cs, rfl⟩ := List.exists_cons_of_length_pos (show 0 < cs.length by omega)
      rw [List.length_cons] at hlength
      obtain ⟨d, rest, rfl⟩ := List.exists_cons_of_length_pos (show 0 < cs.length by omega)
      rw [List.length_cons] at hlength
      obtain ⟨high, hhigh, hc⟩ := exists_digit (hdigits c (by simp))
      obtain ⟨low, hlow, hd⟩ := exists_digit (hdigits d (by simp))
      have hrest : ∀ e ∈ rest, isDigit e = true := fun e he => hdigits e (by simp [he])
      obtain ⟨bs, hbs, hrest⟩ := ih (show rest.length = 2 * n by omega) hrest
      have hbyte : (UInt8.ofNat (16 * high + low)).toNat = 16 * high + low := by
        rw [UInt8.toNat_ofNat']
        omega
      have hpair : ofByte (UInt8.ofNat (16 * high + low)) = [c.toLower, d.toLower] := by
        rw [ofByte, hbyte, ← hc, ← hd, show (16 * high + low) / 16 = high by omega,
          show (16 * high + low) % 16 = low by omega]
      refine ⟨UInt8.ofNat (16 * high + low) :: bs, by rw [List.length_cons, hbs], ?_⟩
      rw [ofBytes, List.flatMap_cons, hpair, ← ofBytes, hrest]
      rfl

/-! ## What is read -/

theorem isAsciiBlank_of_digitValue? {c : Char} {n : Nat} (h : digitValue? c = some n) :
    isAsciiBlank c = false := by
  have hall : ∀ c ∈ digits ++ ['A', 'B', 'C', 'D', 'E', 'F'], isAsciiBlank c = false :=
    forall_of_all (by decide)
  exact hall c (mem_of_isDigit (by rw [isDigit, h]; rfl))

/-- Two digits for each byte, whatever blanks stand between the pairs. -/
theorem length_of_readPairs {i : Nat} {cs : List Char} {bs : Bytes}
    (h : readPairs i cs = .ok bs) :
    (cs.filter fun c => !isAsciiBlank c).length = 2 * bs.length := by
  fun_induction readPairs i cs generalizing bs with
  | case1 i =>
      rw [← Except.ok.inj h]
      rfl
  | case2 i c rest hblank ih =>
      rw [List.filter_cons_of_neg (by simp [hblank])]
      exact ih h
  | case3 | case4 | case5 => cases h
  | case6 i c hblank high d rest hhigh low hlow ih =>
      cases hread : readPairs (i + 2) rest with
      | error j =>
          rw [hread] at h
          cases h
      | ok bytes =>
          rw [hread] at h
          have hd := isAsciiBlank_of_digitValue? hlow
          rw [← Except.ok.inj h, List.filter_cons_of_pos (by simp [hblank]),
            List.filter_cons_of_pos (by simp [hd]), List.length_cons, List.length_cons,
            List.length_cons, ih hread]
          omega

/-- Two texts that differ by one digit in front are not both read. -/
theorem error_of_readPairs_cons {i j : Nat} {c : Char} {cs : List Char} {bs : Bytes}
    (hc : isAsciiBlank c = false) (h : readPairs i (c :: cs) = .ok bs) :
    ∃ k, readPairs j cs = .error k := by
  cases hread : readPairs j cs with
  | error k => exact ⟨k, rfl⟩
  | ok bs' =>
      have hwith := length_of_readPairs h
      have hwithout := length_of_readPairs hread
      rw [List.filter_cons_of_pos (by simp [hc]), List.length_cons] at hwith
      omega

theorem ascii_of_decode {cs : List Char} {bs : Bytes} (h : decode cs = .ok bs) :
    ∀ c ∈ cs, ¬127 < c.toNat := by
  cases hplace : cs.findIdx? (fun c => 127 < c.toNat) with
  | some i =>
      rw [decode, hplace] at h
      cases h
  | none => exact fun c hc => by simpa using List.findIdx?_eq_none_iff.1 hplace c hc

/-! ## What is read as it stands -/

def Paired (cs : List Char) : Prop :=
  cs.take 2 ≠ ['0', 'X'] ∧ (dropLower0x cs).length % 2 = 0

instance (cs : List Char) : Decidable (Paired cs) := inferInstanceAs (Decidable (_ ∧ _))

theorem drop0x_of_take_ne {cs : List Char} (h : cs.take 2 ≠ ['0', 'X']) :
    drop0x cs = dropLower0x cs := by
  unfold drop0x
  split
  · rfl
  · exact absurd rfl h
  · rename_i hlower hupper
    unfold dropLower0x
    split
    · exact (hlower _ rfl).elim
    · rfl

/-- Of the texts that people write, those in pairs are read alike as they stand, and no other. -/
theorem decode_dropLower0x {cs : List Char} {bs : Bytes}
    (h : decode (padEven (drop0x cs)) = .ok bs) :
    (Paired cs → decode (dropLower0x cs) = .ok bs) ∧
      (¬Paired cs → ∃ i, decode (dropLower0x cs) = .error i) := by
  have hascii : ∀ c ∈ drop0x cs, ¬127 < c.toNat := by
    intro c hc
    apply ascii_of_decode h
    unfold padEven
    split
    · exact hc
    · exact List.mem_cons_of_mem _ hc
  by_cases hcapital : cs.take 2 = ['0', 'X']
  · refine ⟨fun hpaired => absurd hcapital hpaired.1, fun _ => ⟨1, ?_⟩⟩
    obtain ⟨rest, rfl⟩ : ∃ rest, cs = '0' :: 'X' :: rest :=
      ⟨cs.drop 2, by nth_rewrite 1 [← List.take_append_drop 2 cs]; rw [hcapital]; rfl⟩
    change ∀ c ∈ rest, ¬127 < c.toNat at hascii
    change decode ('0' :: 'X' :: rest) = _
    rw [decode_of_ascii]
    · rfl
    · intro c hc
      rw [List.mem_cons, List.mem_cons] at hc
      rcases hc with rfl | rfl | hc
      · decide
      · decide
      · exact hascii c hc
  · rw [drop0x_of_take_ne hcapital] at h hascii
    by_cases heven : (dropLower0x cs).length % 2 = 0
    · rw [padEven, if_pos heven] at h
      exact ⟨fun _ => h, fun hunpaired => absurd ⟨hcapital, heven⟩ hunpaired⟩
    · rw [padEven, if_neg heven, decode_of_ascii (by simpa using hascii)] at h
      refine ⟨fun hpaired => absurd hpaired.2 heven, fun _ => ?_⟩
      rw [decode_of_ascii hascii]
      exact error_of_readPairs_cons (by decide) h

end Hex

/-! ## Texts as bytes -/

theorem Value.bytesOfText_blank (bs : Bytes) {blank : String} (hblank : Text.Blank blank.toList) :
    Value.bytesOfText (Hex.encode0x bs ++ blank) = .ok bs := by
  rw [Value.bytesOfText, Hex.decodeLoose_encode0x bs hblank]

theorem Value.bytesOfText_encode0x (bs : Bytes) : Value.bytesOfText (Hex.encode0x bs) = .ok bs := by
  have h := Value.bytesOfText_blank bs (show Text.Blank "".toList by decide)
  rwa [String.append_empty] at h

end ContractAbi
