import ContractAbi.Proofs.Address
import ContractAbi.Proofs.Interface.Entry
import ContractAbi.Proofs.Text.HexPairs

/-!
# What selectors look like

A selector is `0x` and the digits of four bytes in lower case. One line end is let through behind a
selector that is given, and it stays.

* `Selector.exists_of_normalize`: what is accepted as a selector;
* `FunctionEntry.Spelt.exists_denotes`: functions whose selector is accepted;
* `Entry.selector_of_ofAbi`: where line ends of published selectors come from;
* `FunctionEntry.Spelt.eq_of_denotes`: two functions that start calls with the same bytes.
-/

namespace ContractAbi

namespace Selector

def HasLineEnd (s : String) : Prop :=
  s.toList.getLast? = some '\n'

instance (s : String) : Decidable (HasLineEnd s) :=
  inferInstanceAs (Decidable (s.toList.getLast? = some '\n'))

theorem hasLineEnd_append (s : String) : HasLineEnd (s ++ "\n") := by
  unfold HasLineEnd
  rw [String.toList_append]
  exact List.getLast?_concat

theorem not_hasLineEnd_encode0x (bs : Bytes) : ¬HasLineEnd (Hex.encode0x bs) := by
  intro h
  have hmem := List.mem_of_getLast? h
  rw [Hex.toList_encode0x, List.mem_cons, List.mem_cons] at hmem
  rcases hmem with hmem | hmem | hmem
  · exact absurd hmem (by decide)
  · exact absurd hmem (by decide)
  · exact absurd (Hex.mem_digits_of_mem_ofBytes hmem) (by decide)

theorem exists_dropLower0x (cs : List Char) : ∃ front, cs = front ++ Hex.dropLower0x cs := by
  unfold Hex.dropLower0x
  split
  · exact ⟨['0', 'x'], rfl⟩
  · exact ⟨[], rfl⟩

/-- What is accepted as a selector is spelt from four bytes. A line end stays if it was given. -/
theorem exists_of_normalize {v : Value} {s : String} (h : normalize v = .ok s) :
    ∃ bs : Bytes, bs.length = 4 ∧ (s = Hex.encode0x bs ∨
      s = Hex.encode0x bs ++ "\n" ∧ ∃ given, v = .text given ∧ HasLineEnd given) := by
  obtain ⟨given, ds, rfl, hds, rfl⟩ := normalize_eq_ok_iff.1 h
  unfold fixedHex? at hds
  dsimp only at hds
  split at hds
  · rename_i hfixed
    obtain ⟨hwidth, hdigits, htail⟩ := hfixed
    obtain rfl := Option.some.inj hds
    have hlength : ((Hex.dropLower0x given.toList).take 8).length = 2 * 4 := by
      rw [List.length_take]
      omega
    obtain ⟨bs, hbs, hlower⟩ := Hex.exists_ofBytes hlength (List.all_eq_true.1 hdigits)
    refine ⟨bs, hbs, ?_⟩
    have hsplit := List.take_append_drop 8 (Hex.dropLower0x given.toList)
    rcases htail with htail | htail
    · left
      rw [htail, List.append_nil] at hsplit
      rw [← hsplit, ← hlower, Hex.ofList_ofBytes]
    · right
      rw [htail] at hsplit
      constructor
      · apply String.toList_injective
        rw [← hsplit, List.map_append, ← hlower, String.toList_append, Hex.toList_encode0x,
          String.toList_ofList]
        rfl
      · refine ⟨given, rfl, ?_⟩
        obtain ⟨front, hfront⟩ := exists_dropLower0x given.toList
        unfold HasLineEnd
        rw [hfront, ← hsplit, ← List.append_assoc]
        exact List.getLast?_concat
  · exact absurd hds (by simp)

theorem spells_ofSignature (signature : String) : Hex.Spells 4 (ofSignature signature) := by
  refine ⟨(Keccak.hashText signature).take 4, ?_, rfl⟩
  rw [Keccak.hashText, List.length_take, Keccak.length_hash]
  rfl

end Selector

namespace FunctionEntry

/-- The bytes that calls of the function start with. -/
def Denotes (f : FunctionEntry) (bs : Bytes) : Prop :=
  Value.bytesOfText f.selector = .ok bs

theorem Denotes.unique {f : FunctionEntry} {bs bs' : Bytes} (h : f.Denotes bs)
    (h' : f.Denotes bs') : bs = bs' :=
  Except.ok.inj (h.symm.trans h')

theorem denotes_of_eq {f : FunctionEntry} {bs : Bytes}
    (h : f.selector = Hex.encode0x bs ∨ f.selector = Hex.encode0x bs ++ "\n") : f.Denotes bs := by
  unfold Denotes
  rcases h with h | h
  · rw [h, Value.bytesOfText_encode0x]
  · rw [h, Value.bytesOfText_blank bs (by decide)]

/-- A function whose selector is in its one spelling denotes four bytes. -/
theorem Spelt.exists_denotes {f : FunctionEntry} (h : f.Spelt) :
    ∃ bs : Bytes, bs.length = 4 ∧ f.Denotes bs ∧
      (f.selector = Hex.encode0x bs ∨ f.selector = Hex.encode0x bs ++ "\n") := by
  obtain ⟨bs, hbs, hform⟩ := Selector.exists_of_normalize h
  have hform : f.selector = Hex.encode0x bs ∨ f.selector = Hex.encode0x bs ++ "\n" :=
    hform.imp_right And.left
  exact ⟨bs, hbs, denotes_of_eq hform, hform⟩

theorem Spelt.spells_iff {f : FunctionEntry} (h : f.Spelt) :
    Hex.Spells 4 f.selector ↔ ¬Selector.HasLineEnd f.selector := by
  obtain ⟨bs, hbs, -, hform⟩ := h.exists_denotes
  constructor
  · rintro ⟨bs', -, hselector⟩
    rw [hselector]
    exact Selector.not_hasLineEnd_encode0x bs'
  · intro hnone
    rcases hform with hform | hform
    · exact ⟨bs, hbs, hform⟩
    · rw [hform] at hnone
      exact absurd (Selector.hasLineEnd_append _) hnone

/-- Two functions that denote the same bytes have the same selector, up to a line end. -/
theorem Spelt.eq_of_denotes {f g : FunctionEntry} {bs : Bytes} (hf : f.Spelt) (hg : g.Spelt)
    (h : f.Denotes bs) (h' : g.Denotes bs)
    (hends : Selector.HasLineEnd f.selector ↔ Selector.HasLineEnd g.selector) :
    f.selector = g.selector := by
  obtain ⟨b, -, hb, hform⟩ := hf.exists_denotes
  obtain ⟨c, -, hc, hform'⟩ := hg.exists_denotes
  rw [hb.unique h] at hform
  rw [hc.unique h'] at hform'
  rcases hform with hform | hform <;> rcases hform' with hform' | hform'
  · rw [hform, hform']
  · rw [hform, hform'] at hends
    exact absurd (hends.2 (Selector.hasLineEnd_append _)) (Selector.not_hasLineEnd_encode0x bs)
  · rw [hform, hform'] at hends
    exact absurd (hends.1 (Selector.hasLineEnd_append _)) (Selector.not_hasLineEnd_encode0x bs)
  · rw [hform, hform']

end FunctionEntry

namespace Entry

def StatesLineEnd (abi : Value) : Prop :=
  ∃ items item given, abi.toItems = .ok items ∧ item ∈ items ∧
    item.field "selector" = .ok (.text given) ∧ Selector.HasLineEnd given

/-- The selector of a published function is spelt from four bytes, unless a line end is stated. -/
theorem selector_of_ofAbi {abi : Value} {entries : List Entry} {f : FunctionEntry}
    (h : ofAbi abi = .ok entries) (hf : Entry.function f ∈ entries) :
    Hex.Spells 4 f.selector ∨ StatesLineEnd abi := by
  obtain ⟨items, item, hitems, hitem, hread⟩ := exists_read_of_ofAbi h hf
  obtain ⟨inputs, name, hread⟩ := readFunction_of_read hread
  obtain ⟨signature, given, outputs, mutability, hgiven, hmade⟩ := make_of_readFunction hread
  obtain ⟨bs, hbs, hform⟩ := Selector.exists_of_normalize (FunctionEntry.normalize_of_make hmade)
  rcases hform with hform | ⟨-, text, htext, hend⟩
  · exact .inl ⟨bs, hbs, hform⟩
  · by_cases hholds : given.holds = true
    · rw [if_pos hholds] at htext
      exact .inr ⟨items, item, text, hitems, hitem, htext ▸ hgiven, hend⟩
    · rw [if_neg hholds] at htext
      obtain ⟨bs', -, hsignature⟩ := Selector.spells_ofSignature signature
      obtain rfl := Value.text.inj htext
      rw [hsignature] at hend
      exact absurd hend (Selector.not_hasLineEnd_encode0x bs')

end Entry

end ContractAbi
