import ContractAbi.Evm.Opcode
import ContractAbi.Proofs.Text.HexPairs
import Mathlib.Data.List.Pairwise

/-!
# Opcodes by name

* `Opcode.name?_inj`: no two opcodes of the instruction set have one name;
* `Opcode.spelt?_name`: an opcode is told by its name, also outside the instruction set;
* `Opcode.namedSize?_of_name?`: the name of a push tells the size of its immediate.
-/

namespace ContractAbi

namespace Opcode

def candidates : List UInt8 :=
  (List.range 256).map UInt8.ofNat

def ofName? (s : String) : Option UInt8 :=
  candidates.find? fun op => name? op == some s

def unknownMark : List Char :=
  "UNKNOWN_0x".toList

def ofNumber? (s : String) : Option UInt8 :=
  if unknownMark.isPrefixOf s.toList then
    match Hex.decode (s.toList.drop unknownMark.length) with
    | .ok [op] => some op
    | _ => none
  else none

def spelt? (s : String) : Option UInt8 :=
  (ofName? s).orElse fun _ => ofNumber? s

variable {a b op : UInt8} {s t : String}

theorem mem_candidates (op : UInt8) : op ∈ candidates :=
  List.mem_map.2 ⟨op.toNat, List.mem_range.2 op.toNat_lt, UInt8.ofNat_toNat⟩

/-- The names of the instruction set differ from each other and from those of other opcodes. -/
theorem names_distinct : (candidates.filterMap name?).Nodup ∧
    ∀ s ∈ candidates.filterMap name?, unknownMark.isPrefixOf s.toList = false := by
  decide +kernel

theorem name?_inj (ha : name? a = some s) (hb : name? b = some s) : a = b := by
  have hdistinct := List.pairwise_filterMap.1 names_distinct.1
  have hsymm : Std.Symm fun a b : UInt8 => ∀ s, name? a = some s → ∀ t, name? b = some t → s ≠ t :=
    ⟨fun a b hab s hs t ht => (hab t ht s hs).symm⟩
  by_contra hne
  exact hdistinct.forall (mem_candidates a) (mem_candidates b) hne s ha s hb rfl

theorem ofName?_eq_some_iff : ofName? s = some op ↔ name? op = some s := by
  constructor
  · intro h
    simpa using List.find?_some h
  · intro h
    have hfound : (ofName? s).isSome := by
      rw [ofName?, List.find?_isSome]
      exact ⟨op, mem_candidates op, by simp [h]⟩
    obtain ⟨op', hop'⟩ := Option.isSome_iff_exists.1 hfound
    have hname : name? op' = some s := by simpa using List.find?_some hop'
    rw [hop', name?_inj hname h]

/-- The name of an opcode outside the instruction set is no name of the instruction set. -/
theorem ofName?_of_unknownMark (h : unknownMark.isPrefixOf s.toList = true) : ofName? s = none := by
  cases hname : ofName? s with
  | none => rfl
  | some op =>
      have hmem : s ∈ candidates.filterMap name? :=
        List.mem_filterMap.2 ⟨op, mem_candidates op, ofName?_eq_some_iff.1 hname⟩
      rw [names_distinct.2 s hmem] at h
      exact absurd h (by decide)

theorem spelt?_name (op : UInt8) : spelt? (name op) = some op := by
  unfold name
  cases hname : name? op with
  | some s =>
      rw [Option.getD_some, spelt?, ofName?_eq_some_iff.2 hname]
      rfl
  | none =>
      have hparts : unknownMark = "UNKNOWN_".toList ++ ['0', 'x'] := by decide
      have htext : ("UNKNOWN_" ++ Hex.encode0x [op]).toList = unknownMark ++ Hex.ofBytes [op] := by
        rw [String.toList_append, Hex.toList_encode0x, hparts, List.append_assoc]
        rfl
      rw [Option.getD_none]
      generalize "UNKNOWN_" ++ Hex.encode0x [op] = s at htext ⊢
      have hmark : unknownMark.isPrefixOf s.toList = true := by
        rw [htext, List.isPrefixOf_iff_prefix]
        exact List.prefix_append _ _
      have hdigits : s.toList.drop unknownMark.length = Hex.ofBytes [op] := by
        rw [htext, List.drop_left]
      rw [spelt?, ofName?_of_unknownMark hmark, Option.orElse_none, ofNumber?, if_pos hmark,
        hdigits, Hex.decode_ofBytes]

/-! ## What a name tells -/

theorem pushSize_eq (op : UInt8) :
    pushSize op = if 0x60 ≤ op.toNat ∧ op.toNat ≤ 0x7f then op.toNat - 0x5f else 0 := by
  unfold pushSize pushSizeOf
  split <;> split <;> omega

theorem isKnown_of_pushSize (h : 0 < pushSize op) : isKnown op = true := by
  rw [pushSize_eq] at h
  split at h
  · rename_i hrange
    unfold isKnown
    simp only [Bool.or_eq_true, Bool.and_eq_true, decide_eq_true_eq, beq_iff_eq]
    omega
  · exact absurd h (by simp)

theorem pushSize_of_not_isKnown (h : isKnown op = false) : pushSize op = 0 := by
  by_contra hsize
  rw [isKnown_of_pushSize (Nat.pos_of_ne_zero hsize)] at h
  exact Bool.noConfusion h

/-- The names of the instruction set tell which opcodes are pushes and how much a push takes. -/
theorem names_tell : ∀ op ∈ candidates, isKnown op = (name? op).isSome ∧
    ∀ s ∈ name? op, namesPush s = isPush op ∧
      namedSize? s = if 0 < pushSize op then some (pushSize op) else none := by
  decide +kernel

theorem isKnown_eq_isSome (op : UInt8) : isKnown op = (name? op).isSome :=
  (names_tell op (mem_candidates op)).1

theorem namesPush_of_name? (h : name? op = some s) : namesPush s = isPush op :=
  ((names_tell op (mem_candidates op)).2 s h).1

theorem namedSize?_of_name? (h : name? op = some s) :
    namedSize? s = if 0 < pushSize op then some (pushSize op) else none :=
  ((names_tell op (mem_candidates op)).2 s h).2

theorem namesPush_of_namedSize? {n : Nat} (h : namedSize? s = some n) : namesPush s = true := by
  unfold namedSize? at h
  split at h
  · rename_i hmark
    exact hmark.1
  · cases h

theorem name_eq_iff (ha : name? a = some s) (hb : name? b = some t) : s = t ↔ a = b := by
  constructor
  · rintro rfl
    exact name?_inj ha hb
  · rintro rfl
    exact Option.some.inj (ha.symm.trans hb)

end Opcode

end ContractAbi
