import ContractAbi.Text.Half

/-!
# Texts and what stands at their places

* `points_ofPoints`: what a text is written for stands at its places;
* `points_of_plain`: characters that are not reserved stand for themselves.
-/

namespace ContractAbi.Text

/-- The text holds none of the characters that do not stand for themselves. -/
def Plain (cs : List Char) : Prop :=
  ∀ c ∈ cs, isReserved c = false

def isAscii (s : String) : Bool :=
  s.toList.all fun c => c.toNat < 128

def Point.Proper : Point → Prop
  | .char _ => True
  | .half n => 0xd800 ≤ n ∧ n < 0xe000

variable {c : Char} {cs rest : List Char} {ps : List Point}

/-! ## Characters by their numbers -/

theorem toNat_ofNat {n : Nat} (h : n.isValidChar) : (Char.ofNat n).toNat = n := by
  rw [Char.ofNat, dif_pos h]
  rfl

theorem toNat_mark : mark.toNat = 0x10e800 := by
  decide

theorem isHalf_iff : isHalf c = true ↔ 0x10e000 ≤ c.toNat ∧ c.toNat < 0x10e800 := by
  simp [isHalf]

theorem eq_mark_iff : c = mark ↔ c.toNat = 0x10e800 := by
  rw [← toNat_mark, Char.toNat_inj]

theorem isReserved_iff : isReserved c = true ↔ 0x10e000 ≤ c.toNat ∧ c.toNat ≤ 0x10e800 := by
  rw [isReserved, Bool.or_eq_true, isHalf_iff, beq_iff_eq, eq_mark_iff]
  omega

theorem isCover_iff : isCover c = true ↔ 0x10f000 ≤ c.toNat ∧ c.toNat ≤ 0x10f800 := by
  simp [isCover]

theorem plain_of_lt (h : ∀ c ∈ cs, c.toNat < 0x10e000) : Plain cs := by
  intro c hc
  have hlt := h c hc
  rw [← Bool.not_eq_true, isReserved_iff]
  omega

theorem toNat_cover (h : isReserved c = true) : (cover c).toNat = c.toNat + 0x1000 := by
  rw [isReserved_iff] at h
  exact toNat_ofNat (.inr (by omega))

theorem isCover_cover (h : isReserved c = true) : isCover (cover c) = true := by
  rw [isCover_iff, toNat_cover h]
  rw [isReserved_iff] at h
  omega

theorem uncover_cover (h : isReserved c = true) : Char.ofNat ((cover c).toNat - 0x1000) = c := by
  rw [toNat_cover h, Nat.add_sub_cancel, Char.ofNat_toNat]

theorem not_half (c : Char) : ¬(0xd800 ≤ c.toNat ∧ c.toNat < 0xe000) := by
  have hvalid := c.valid
  have hnat : c.toNat = c.val.toNat := rfl
  rcases hvalid with h | ⟨h, -⟩
  · rw [hnat]
    omega
  · rw [hnat]
    omega

theorem Point.ofNat_toNat (c : Char) : Point.ofNat c.toNat = .char c := by
  rw [Point.ofNat, if_neg (not_half c), Char.ofNat_toNat]

theorem ofChar_of_not_reserved (h : isReserved c = false) : ofChar c = [c] := by
  rw [ofChar, h]
  rfl

theorem ofChar_of_lt (h : c.toNat < 0x10e000) : ofChar c = [c] :=
  ofChar_of_not_reserved <| plain_of_lt (List.forall_mem_singleton.2 h) c List.mem_cons_self

theorem pointOf_of_not_reserved (h : isReserved c = false) : pointOf c = .char c := by
  rw [isReserved, Bool.or_eq_false_iff] at h
  rw [pointOf, h.1]
  rfl

theorem ne_mark_of_not_reserved (h : isReserved c = false) : c ≠ mark := by
  rw [isReserved, Bool.or_eq_false_iff] at h
  exact beq_eq_false_iff_ne.1 h.2

theorem toNat_halfChar {n : Nat} (h : 0xd800 ≤ n ∧ n < 0xe000) :
    (halfChar n).toNat = n + 0x100800 :=
  toNat_ofNat (.inr (by omega))

theorem pointOf_halfChar {n : Nat} (h : 0xd800 ≤ n ∧ n < 0xe000) :
    pointOf (halfChar n) = .half n := by
  have hhalf : isHalf (halfChar n) = true := by
    rw [isHalf_iff, toNat_halfChar h]
    omega
  rw [pointOf, hhalf, if_pos rfl, toNat_halfChar h, Nat.add_sub_cancel]

theorem proper_ofNat (n : Nat) : (Point.ofNat n).Proper := by
  unfold Point.ofNat
  split
  · rename_i h
    exact h
  · trivial

/-! ## Places -/

theorem points_cons (h : c ≠ mark) (rest : List Char) :
    points (c :: rest) = pointOf c :: points rest := by
  cases rest with
  | nil => rfl
  | cons d rest => rw [points, if_neg fun hmark => h hmark.1]

theorem points_mark {d : Char} (h : isCover d = true) (rest : List Char) :
    points (mark :: d :: rest) = .char (Char.ofNat (d.toNat - 0x1000)) :: points rest := by
  rw [points, if_pos ⟨rfl, h⟩]

theorem proper_pointOf (c : Char) : (pointOf c).Proper := by
  unfold pointOf
  split
  · rename_i h
    rw [isHalf_iff] at h
    change 0xd800 ≤ _ ∧ _ < 0xe000
    omega
  · trivial

theorem proper_of_mem_points {p : Point} (h : p ∈ points cs) : p.Proper := by
  induction cs using points.induct with
  | case1 => exact absurd h List.not_mem_nil
  | case2 c => rw [List.mem_singleton.1 h]; exact proper_pointOf c
  | case3 c d rest hmark ih =>
      rw [points, if_pos hmark] at h
      rcases List.mem_cons.1 h with rfl | h
      · trivial
      · exact ih h
  | case4 c d rest hmark ih =>
      rw [points, if_neg hmark] at h
      rcases List.mem_cons.1 h with rfl | h
      · exact proper_pointOf c
      · exact ih h

/-- What points are written as is read as these points, whatever follows. -/
theorem points_append {p : Point} (hp : p.Proper) (rest : List Char) :
    points (p.chars ++ rest) = p :: points rest := by
  cases p with
  | char c =>
      cases h : isReserved c with
      | true =>
          rw [Point.chars, ofChar, if_pos h]
          exact (points_mark (isCover_cover h) rest).trans (by rw [uncover_cover h])
      | false =>
          rw [Point.chars, ofChar_of_not_reserved h]
          exact (points_cons (ne_mark_of_not_reserved h) rest).trans
            (by rw [pointOf_of_not_reserved h])
  | half n =>
      have hne : halfChar n ≠ mark := by
        rw [Ne, eq_mark_iff, toNat_halfChar hp]
        exact fun heq => absurd hp.2 (by omega)
      exact (points_cons hne rest).trans (by rw [pointOf_halfChar hp])

theorem points_ofPoints (h : ∀ p ∈ ps, p.Proper) : points (ps.flatMap Point.chars) = ps := by
  induction ps with
  | nil => rfl
  | cons p ps ih =>
      obtain ⟨hp, hps⟩ := List.forall_mem_cons.1 h
      rw [List.flatMap_cons, points_append hp, ih hps]

theorem points_of_plain (h : Plain cs) : points cs = cs.map .char := by
  induction cs with
  | nil => rfl
  | cons c cs ih =>
      obtain ⟨hc, hcs⟩ := List.forall_mem_cons.1 h
      rw [points_cons (ne_mark_of_not_reserved hc), pointOf_of_not_reserved hc, ih hcs,
        List.map_cons]

theorem flatMap_ofChar_of_plain (h : Plain cs) : cs.flatMap ofChar = cs := by
  induction cs with
  | nil => rfl
  | cons c cs ih =>
      obtain ⟨hc, hcs⟩ := List.forall_mem_cons.1 h
      rw [List.flatMap_cons, ofChar_of_not_reserved hc, ih hcs, List.singleton_append]

theorem ofChars_of_plain (h : Plain cs) : ofChars cs = String.ofList cs := by
  rw [ofChars, flatMap_ofChar_of_plain h]

theorem characters_of_plain {s : String} (h : Plain s.toList) : characters s = s.toList := by
  rw [characters, points_of_plain h, List.map_map]
  exact List.map_id s.toList

/-! ## Texts without halves -/

/-- No half of a pair stands in the text, and each mark stands in front of a cover. -/
def Whole : List Char → Prop
  | [] => True
  | c :: rest => isHalf c = false ∧
      (c = mark → ∃ d behind, isReserved d = true ∧ rest = cover d :: behind) ∧ Whole rest

theorem Whole.of_suffix (h : Whole cs) (hsuffix : rest <:+ cs) : Whole rest := by
  obtain ⟨front, rfl⟩ := hsuffix
  induction front with
  | nil => exact h
  | cons c front ih => exact ih h.2.2

theorem isHalf_mark : isHalf mark = false := by
  decide

theorem whole_mark {d : Char} (hd : isReserved d = true) (h : Whole rest) :
    Whole (mark :: cover d :: rest) := by
  have hlarge := isReserved_iff.1 hd
  have hhalf : isHalf (cover d) = false := by
    rw [← Bool.not_eq_true, isHalf_iff, toNat_cover hd]
    omega
  have hne : cover d ≠ mark := by
    rw [Ne, eq_mark_iff, toNat_cover hd]
    omega
  exact ⟨isHalf_mark, fun _ => ⟨d, rest, hd, rfl⟩, hhalf, fun heq => absurd heq hne, h⟩

theorem whole_flatMap_ofChar (cs : List Char) : Whole (cs.flatMap ofChar) := by
  induction cs with
  | nil => trivial
  | cons c cs ih =>
      rw [List.flatMap_cons]
      cases hc : isReserved c with
      | true =>
          rw [ofChar, if_pos hc]
          exact whole_mark hc ih
      | false =>
          rw [ofChar_of_not_reserved hc]
          have hparts := Bool.or_eq_false_iff.1 hc
          exact ⟨hparts.1, fun heq => absurd heq (ne_mark_of_not_reserved hc), ih⟩

/-! ## Texts without reserved characters -/

theorem plain_of_isAscii {s : String} (h : isAscii s = true) : Plain s.toList :=
  plain_of_lt fun c hc =>
    Nat.lt_trans (of_decide_eq_true (List.all_eq_true.1 h c hc)) (by decide)

end ContractAbi.Text
