import ContractAbi.Proofs.Value.JsonValue
import ContractAbi.Value.Access

/-!
# Parts of JSON values

JSON can carry the parts of what it carries, and the numbers that they give.

* `Value.nesting` and `Plain.of_nesting`: how deep a value is, and where it is carried;
* `plain_field`, `plain_require` and `plain_list_of_toItems`: fields and items;
* `Integer.natAbs_lt_of_read?`: how large a number is that a text spells;
* `plain_toWhole` and `proper_toDouble`: the numbers of a value.
-/

namespace ContractAbi

/-! ## Depth -/

namespace Value

mutual

/-- How many lists and objects stand one inside the other. -/
def nesting : Value → Nat
  | list items => nestingOfItems items + 1
  | object fields => nestingOfFields fields + 1
  | _ => 0
termination_by structural v => v

def nestingOfItems : List Value → Nat
  | [] => 0
  | v :: vs => max v.nesting (nestingOfItems vs)
termination_by structural vs => vs

def nestingOfFields : List (String × Value) → Nat
  | [] => 0
  | f :: fs => max (nestingOfField f) (nestingOfFields fs)
termination_by structural fs => fs

def nestingOfField : String × Value → Nat
  | (_, v) => v.nesting
termination_by structural f => f

end

theorem nestingOfItems_le_iff {items : List Value} {n : Nat} :
    nestingOfItems items ≤ n ↔ ∀ v ∈ items, v.nesting ≤ n := by
  induction items with
  | nil => simp [nestingOfItems]
  | cons v items ih => rw [nestingOfItems, Nat.max_le, ih, List.forall_mem_cons]

theorem nestingOfFields_le_iff {fields : List (String × Value)} {n : Nat} :
    nestingOfFields fields ≤ n ↔ ∀ f ∈ fields, f.2.nesting ≤ n := by
  induction fields with
  | nil => simp [nestingOfFields]
  | cons f fields ih =>
      obtain ⟨key, v⟩ := f
      rw [nestingOfFields, Nat.max_le, ih, List.forall_mem_cons, nestingOfField]

/-! ## Access -/

theorem field_eq_fieldOr (v : Value) (name : String) : v.field name = v.fieldOr name .null := by
  cases v <;> rfl

/-- A list has its items. Other values are made of what has no fields. -/
theorem toItems_cases {v : Value} {items : List Value} (h : v.toItems = .ok items) :
    v = .list items ∨ ∀ i ∈ items, ∀ fields, i ≠ .object fields := by
  cases v with
  | list found => exact .inl (congrArg Value.list (Except.ok.inj h))
  | text s =>
      rw [← Except.ok.inj h, pointTexts, List.forall_mem_map]
      exact .inr nofun
  | object found =>
      rw [← Except.ok.inj h, List.forall_mem_map]
      exact .inr nofun
  | bytes bs =>
      rw [← Except.ok.inj h, List.forall_mem_map]
      exact .inr nofun
  | _ => exact absurd h (by simp [toItems])

end Value

/-! ## Numbers in texts -/

namespace Integer

variable {cs : List Char} {s : String} {afterDigit : Bool} {acc k : Nat} {n : Int}

theorem isDigit_of_digitValue? {c : Char} {d : Nat} (h : Hex.digitValue? c = some d) (hd : d < 10) :
    c.isDigit = true := by
  unfold Hex.digitValue? at h
  rw [Char.isDigit_iff_toNat]
  dsimp only at h
  split_ifs at h with hdecimal hlower hupper
  · exact hdecimal
  · obtain rfl := Option.some.inj h
    omega
  · obtain rfl := Option.some.inj h
    omega

theorem readDigits_cons {base : Nat} {c : Char} (h : c ≠ '_') :
    readDigits base afterDigit acc (c :: cs) =
      (Hex.digitValue? c).bind fun d =>
        if d < base then readDigits base true (base * acc + d) cs else none := by
  rw [readDigits]
  · cases Hex.digitValue? c <;> rfl
  · exact h

theorem countDigits_cons {c : Char} (h : c ≠ '_') :
    countDigits afterDigit (c :: cs) =
      if c.isDigit then (countDigits true cs).map (· + 1)
      else if afterDigit then some 0
      else none := by
  rw [countDigits]
  exact h

theorem lt_of_readDigits (h : readDigits 10 afterDigit acc cs = some k) :
    ∃ count, countDigits afterDigit cs = some count ∧ k < (acc + 1) * 10 ^ count := by
  induction cs generalizing afterDigit acc with
  | nil =>
      obtain ⟨hafter, hacc⟩ := Option.ite_none_right_eq_some.1 h
      obtain rfl := Option.some.inj hacc
      exact ⟨0, if_pos hafter, by omega⟩
  | cons c cs ih =>
      by_cases hc : c = '_'
      · subst hc
        obtain ⟨hafter, h⟩ := Option.ite_none_right_eq_some.1 h
        obtain ⟨count, hcount, hlt⟩ := ih h
        exact ⟨count, (if_pos hafter).trans hcount, hlt⟩
      · rw [readDigits_cons hc] at h
        obtain ⟨d, hd, h⟩ := Option.bind_eq_some_iff.1 h
        obtain ⟨hten, h⟩ := Option.ite_none_right_eq_some.1 h
        obtain ⟨count, hcount, hlt⟩ := ih h
        refine ⟨count + 1, ?_, ?_⟩
        · rw [countDigits_cons hc, if_pos (isDigit_of_digitValue? hd hten), hcount]
          rfl
        · calc
            k < (10 * acc + d + 1) * 10 ^ count := hlt
            _ ≤ ((acc + 1) * 10) * 10 ^ count := Nat.mul_le_mul_right _ (by omega)
            _ = (acc + 1) * 10 ^ (count + 1) := by rw [Nat.mul_assoc, Nat.pow_succ']

theorem lt_of_readMagnitude (h : readMagnitude 10 cs = some k) :
    ∃ count, countDigits false cs = some count ∧ k < 10 ^ count := by
  have hdigits : readDigits 10 false 0 cs = some k := h
  obtain ⟨count, hcount, hlt⟩ := lt_of_readDigits hdigits
  rw [Nat.zero_add, Nat.one_mul] at hlt
  exact ⟨count, hcount, hlt⟩

theorem readMagnitude_of_read? (h : read? 10 s = some n) :
    readMagnitude 10 (dropSign (Text.trimBy Text.isAsciiBlank (simplify s.toList))) =
      some n.natAbs := by
  have hwhole : ∀ {o : Option Nat} {k : Int}, (o >>= fun a => some (a : Int)) = some k →
      o = some k.natAbs := by
    intro o k hk
    obtain ⟨a, ha, hcast⟩ := Option.bind_eq_some_iff.1 hk
    rw [ha, ← Option.some.inj hcast, Int.natAbs_natCast]
  unfold read? at h
  split at h
  · exact absurd h (by simp)
  · unfold dropSign
    split at h
    · obtain ⟨k, hk, rfl⟩ := Option.map_eq_some_iff.1 h
      rw [Int.natAbs_neg]
      exact hwhole hk
    · obtain ⟨k, hk, rfl⟩ := Option.map_eq_some_iff.1 h
      exact hwhole hk
    · obtain ⟨k, hk, rfl⟩ := Option.map_eq_some_iff.1 h
      exact hwhole hk

theorem natAbs_lt_of_read? (h : read? 10 s = some n) : n.natAbs < 10 ^ maxDigits := by
  obtain ⟨count, hcount, hlt⟩ := lt_of_readMagnitude (readMagnitude_of_read? h)
  have hfew : count ≤ maxDigits := by
    by_contra hmany
    have hexcess : excess? s = some count := by
      rw [excess?, hcount]
      exact Option.filter_some_pos (by simpa using hmany)
    rw [read?, hexcess] at h
    exact absurd h (by simp)
  exact hlt.trans_le (Nat.pow_le_pow_right (by decide) hfew)

end Integer

namespace JsonReader

open Value Binary64

variable {v w : Value} {name : String} {depth depth' : Nat}

theorem plain_list_iff {items : List Value} :
    Plain (depth + 1) (.list items) ↔ ∀ v ∈ items, Plain depth v := by
  rw [Plain]

theorem plain_object_iff {fields : List (String × Value)} :
    Plain (depth + 1) (.object fields) ↔
      (fields.map Prod.fst).Nodup ∧ (∀ key ∈ fields.map Prod.fst, Carried key) ∧
        ∀ f ∈ fields, Plain depth f.2 := by
  rw [Plain]

theorem plain_text_iff {s : String} : Plain depth (.text s) ↔ Carried s := by
  rw [Plain]

theorem carried_of_isAscii {s : String} (h : Text.isAscii s = true) : Carried s :=
  carried_of_plain (Text.plain_of_isAscii h)

theorem plain_text {s : String} (h : Text.isAscii s = true) : Plain depth (.text s) :=
  plain_text_iff.2 (carried_of_isAscii h)

theorem plain_object {fields : List (String × Value)} (hnodup : (fields.map Prod.fst).Nodup)
    (hascii : (fields.map Prod.fst).all Text.isAscii = true)
    (h : ∀ f ∈ fields, Plain depth f.2) : Plain (depth + 1) (.object fields) :=
  plain_object_iff.2
    ⟨hnodup, fun key hkey => carried_of_isAscii (List.all_eq_true.1 hascii key hkey), h⟩

theorem plain_null : Plain depth .null := by
  rw [Plain]
  trivial

theorem plain_bool (b : Bool) : Plain depth (.bool b) := by
  rw [Plain]
  trivial

theorem Plain.nesting_le (h : Plain depth v) : v.nesting ≤ depth := by
  induction depth generalizing v with
  | zero =>
      cases v with
      | list items =>
          rw [Plain] at h
          exact h.elim
      | object fields =>
          rw [Plain] at h
          exact h.elim
      | _ => exact Nat.le_refl 0
  | succ depth ih =>
      cases v with
      | list items =>
          rw [plain_list_iff] at h
          apply Nat.succ_le_succ
          exact nestingOfItems_le_iff.2 fun v hv => ih (h v hv)
      | object fields =>
          rw [plain_object_iff] at h
          apply Nat.succ_le_succ
          exact nestingOfFields_le_iff.2 fun f hf => ih (h.2.2 f hf)
      | _ => exact Nat.zero_le _

/-- A value that is carried somewhere is carried wherever there is room for it. -/
theorem Plain.of_nesting (h : Plain depth v) (hle : v.nesting ≤ depth') : Plain depth' v := by
  induction depth generalizing v depth' with
  | zero =>
      cases v with
      | list items =>
          rw [Plain] at h
          exact h.elim
      | object fields =>
          rw [Plain] at h
          exact h.elim
      | _ => rwa [Plain] at h ⊢
  | succ depth ih =>
      cases v with
      | list items =>
          rw [nesting] at hle
          obtain ⟨depth', rfl⟩ := Nat.exists_eq_add_of_le' (Nat.le_of_add_left_le hle)
          rw [plain_list_iff] at h ⊢
          have hitems := nestingOfItems_le_iff.1 (Nat.le_of_succ_le_succ hle)
          exact fun v hv => ih (h v hv) (hitems v hv)
      | object fields =>
          rw [nesting] at hle
          obtain ⟨depth', rfl⟩ := Nat.exists_eq_add_of_le' (Nat.le_of_add_left_le hle)
          rw [plain_object_iff] at h ⊢
          have hfields := nestingOfFields_le_iff.1 (Nat.le_of_succ_le_succ hle)
          exact ⟨h.1, h.2.1, fun f hf => ih (h.2.2 f hf) (hfields f hf)⟩
      | _ => rwa [Plain] at h ⊢

theorem Plain.mono (h : Plain depth v) (hle : depth ≤ depth') : Plain depth' v :=
  h.of_nesting (h.nesting_le.trans hle)

/-- Lists and objects are only carried where there is room for them. -/
theorem Plain.exists_depth (h : Plain depth v) (hv : v.nesting ≠ 0) : ∃ n, depth = n + 1 :=
  Nat.exists_eq_add_one_of_ne_zero fun hzero => hv (Nat.le_zero.1 (hzero ▸ h.nesting_le))

/-! ## Fields and items -/

section

variable {fields : List (String × Value)} {items : List Value}

theorem plain_of_lookup (h : Plain (depth + 1) (.object fields))
    (hv : lookup name fields = some v) : Plain depth v := by
  obtain ⟨f, hf, rfl⟩ := Option.map_eq_some_iff.1 hv
  exact (plain_object_iff.1 h).2.2 f (List.mem_of_find?_eq_some hf)

theorem plain_fieldOr {absent : Value} (habsent : Plain depth absent) (h : Plain (depth + 1) v)
    (hw : v.fieldOr name absent = .ok w) : Plain depth w := by
  cases v with
  | object fields =>
      rw [← Except.ok.inj hw]
      cases hfound : lookup name fields with
      | none => exact habsent
      | some found => exact plain_of_lookup h hfound
  | _ => exact absurd hw (by simp [fieldOr])

theorem plain_field (h : Plain (depth + 1) v) (hw : v.field name = .ok w) : Plain depth w :=
  plain_fieldOr plain_null h (field_eq_fieldOr v name ▸ hw)

theorem plain_require (h : Plain (depth + 1) v) (hw : v.require name = .ok w) : Plain depth w := by
  cases v with
  | object fields =>
      unfold require at hw
      dsimp only at hw
      split at hw
      · rename_i found hfound
        rw [← Except.ok.inj hw]
        exact plain_of_lookup h hfound
      · exact absurd hw (by simp)
  | _ => exact absurd hw (by simp [require])

theorem plain_list_of_toItems (h : Plain depth v) (hitems : v.toItems = .ok items) :
    Plain (depth + 1) (.list items) := by
  cases v with
  | list found =>
      rw [← Except.ok.inj hitems]
      exact h.mono (Nat.le_add_right _ _)
  | text s =>
      rw [← Except.ok.inj hitems, plain_list_iff, pointTexts, List.forall_mem_map]
      exact fun p hp => plain_text_iff.2 (carried_of_mem_points hp)
  | object found =>
      rw [← Except.ok.inj hitems, plain_list_iff, List.forall_mem_map]
      obtain ⟨depth, rfl⟩ := h.exists_depth (Nat.succ_ne_zero _)
      exact fun f hf => plain_text_iff.2 ((plain_object_iff.1 h).2.1 f.1 (List.mem_map_of_mem hf))
  | bytes bs =>
      rw [Plain] at h
      exact h.elim
  | _ => exact absurd hitems (by simp [toItems])

theorem plain_list_of_toItemsIfHeld (h : Plain depth v) (hitems : v.toItemsIfHeld = .ok items) :
    Plain (depth + 1) (.list items) := by
  unfold toItemsIfHeld at hitems
  split at hitems
  · exact plain_list_of_toItems h hitems
  · rw [← Except.ok.inj hitems, plain_list_iff]
    exact List.forall_mem_nil _

end

/-! ## Numbers -/

theorem plain_int_of_lt {n : Int} (h : n.natAbs < 10 ^ Integer.maxDigits) :
    Plain depth (.int n) := by
  rw [Plain]
  exact (Nat.length_toDigits_le_iff (by decide) (by decide)).2 h

theorem mul_two_pow_lt {m i k : Nat} (hm : m < 2 ^ 53) (hik : i ≤ k) :
    m * 2 ^ i < 2 ^ (53 + k) :=
  calc
    m * 2 ^ i < 2 ^ 53 * 2 ^ i := Nat.mul_lt_mul_of_pos_right hm (by positivity)
    _ ≤ 2 ^ 53 * 2 ^ k := Nat.mul_le_mul_left _ (Nat.pow_le_pow_right (by decide) hik)
    _ = 2 ^ (53 + k) := (Nat.pow_add 2 53 k).symm

/-- All doubles are below the power of two behind the greatest of them. -/
theorem natAbs_lt_of_truncate? {x : Binary64} {n : Int} (hx : x.Proper) (h : x.truncate? = some n) :
    n.natAbs < 2 ^ (53 + 971) := by
  cases x with
  | finite negative m e =>
      have hsame : (scaled m 1 e).1 / (scaled m 1 e).2 = n.natAbs := by
        unfold truncate? at h
        dsimp only at h
        rw [← Option.some.inj h]
        cases negative with
        | false => exact (Int.natAbs_natCast _).symm
        | true => exact ((Int.natAbs_neg _).trans (Int.natAbs_natCast _)).symm
      have hdouble : IsDouble m e := hx
      rw [← hsame, scaled]
      split
      · have hexponent : e.toNat ≤ 971 := by
          have hgreatest := hdouble.greatest
          omega
        rw [Nat.div_one]
        exact mul_two_pow_lt hdouble.below hexponent
      · have hbelow := mul_two_pow_lt hdouble.below (Nat.zero_le 971)
        rw [Nat.pow_zero, Nat.mul_one] at hbelow
        exact (Nat.div_le_self _ _).trans_lt hbelow
  | _ => exact absurd h (by simp [truncate?])

theorem two_pow_le_ten_pow {k : Nat} (h : k ≤ Integer.maxDigits) :
    2 ^ k ≤ 10 ^ Integer.maxDigits :=
  calc
    2 ^ k ≤ 10 ^ k := Nat.pow_le_pow_left (by decide) k
    _ ≤ 10 ^ Integer.maxDigits := Nat.pow_le_pow_right (by decide) h

theorem plain_toWhole {n : Int} (h : Plain depth v) (hn : v.toWhole = .ok n) :
    Plain depth' (.int n) := by
  cases v with
  | int k =>
      obtain rfl := Except.ok.inj hn
      rwa [Plain] at h ⊢
  | bool b =>
      apply plain_int_of_lt
      have hone : n.natAbs ≤ 1 := by
        rw [← Except.ok.inj hn]
        cases b <;> decide
      exact hone.trans_lt (Nat.one_lt_pow (by decide) (by decide))
  | float x =>
      apply plain_int_of_lt
      have htruncated : x.truncate? = some n := by
        cases x with
        | finite negative m e => exact congrArg some (Except.ok.inj hn)
        | _ => exact absurd hn (by simp [toWhole, truncate?])
      have hsize := natAbs_lt_of_truncate? (plain_float_iff.1 h) htruncated
      exact hsize.trans_le (two_pow_le_ten_pow (by decide))
  | text s =>
      apply plain_int_of_lt
      change wholeOfText (.text s) s = .ok n at hn
      unfold wholeOfText at hn
      split at hn
      · rename_i k hk
        rw [← Except.ok.inj hn]
        exact Integer.natAbs_lt_of_read? hk
      · split at hn <;> exact absurd hn (by simp)
  | bytes bs =>
      rw [Plain] at h
      exact h.elim
  | _ => exact absurd hn (by simp [toWhole])

theorem proper_toDouble {x : Binary64} (h : Plain depth v) (hx : v.toDouble = .ok x) :
    x.Proper := by
  cases v with
  | float y =>
      obtain rfl := Except.ok.inj hx
      exact plain_float_iff.1 h
  | int n =>
      unfold toDouble at hx
      dsimp only at hx
      split at hx
      · exact absurd hx (by simp)
      · rw [← Except.ok.inj hx]
        exact proper_ofInt n
  | bool b =>
      rw [← Except.ok.inj hx]
      exact proper_ofInt _
  | text s =>
      unfold toDouble at hx
      dsimp only at hx
      split at hx
      · rename_i y hy
        rw [← Except.ok.inj hx]
        exact proper_read? hy
      · exact absurd hx (by simp)
  | bytes bs =>
      rw [Plain] at h
      exact h.elim
  | _ => exact absurd hx (by simp [toDouble])

end JsonReader

end ContractAbi
