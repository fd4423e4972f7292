import ContractAbi.Interface.Skeleton
import ContractAbi.Proofs.Evm.Branches
import ContractAbi.Proofs.Evm.Code
import ContractAbi.Proofs.Evm.Window
import ContractAbi.Proofs.Text.HexPairs

/-!
# Code that grows

More bytes behind a code leave alone what was read from it, even where its last push was cut off,
and a wider window adds to the selectors and takes none away.

* `continues_scan` and `prefix_topics`: the table and the topics of a longer code;
* `extraction_grows`: both for code as a service gives it.
-/

namespace ContractAbi

/-! ## Tables and topics -/

namespace DispatchTable

/-- The table goes on from another one: selectors follow its selectors, and the place of a selector
that it has, or that it has none, is settled. -/
structure Continues (t t' : DispatchTable) : Prop where
  selectors : t.selectors <+: t'.selectors
  settled : ∀ x ∈ t.selectors, t'.target? x = t.target? x

theorem Continues.refl (t : DispatchTable) : t.Continues t :=
  ⟨List.prefix_refl _, fun _ _ => rfl⟩

theorem Continues.trans {t t' t'' : DispatchTable} (h : t.Continues t') (h' : t'.Continues t'') :
    t.Continues t'' where
  selectors := h.selectors.trans h'.selectors
  settled x hx := (h'.settled x (h.selectors.subset hx)).trans (h.settled x hx)

theorem Continues.of_eq {t t' : DispatchTable} (hselectors : t'.selectors = t.selectors)
    (htargets : t'.targets = t.targets) : t.Continues t' where
  selectors := hselectors ▸ List.prefix_refl _
  settled x _ := by rw [target?, target?, htargets]

end DispatchTable

namespace Dispatcher

namespace Scan

variable {s : Scan} {i : Instruction} {window : Int}

theorem continues_record (s : Scan) (c : Candidate) : s.table.Continues (s.record c) := by
  unfold record
  dsimp only
  split
  · exact .refl _
  · rename_i hnew
    refine ⟨List.prefix_append _ _, fun x hx => ?_⟩
    -- a selector that is known is not the new one
    have hne : Hex.encode0x c.value ≠ x := by
      rintro rfl
      simp [hx] at hnew
    unfold DispatchTable.target?
    rw [List.find?_append]
    split
    · simp [hne]
    · simp

theorem continues_step (window : Int) (s : Scan) (i : Instruction) :
    s.table.Continues (s.step window i).table := by
  rw [table_step]
  by_cases hjump : i.opcode = Opcode.jumpIf
  · rw [onKnown_of_jump hjump]
    cases s.candidate with
    | none => exact .refl _
    | some c => exact continues_record s c
  · exact .of_eq (selectors_onKnown hjump) (targets_onKnown hjump)

theorem continues_of_push (window : Int) (s : Scan) (i : Instruction)
    (h : 0 < Opcode.pushSize i.opcode) : (s.step window i).table.Continues s.table := by
  have hjump : i.opcode ≠ Opcode.jumpIf := ne_of_pushSize h (by decide)
  rw [table_step]
  exact .of_eq (selectors_onKnown hjump).symm (targets_onKnown hjump).symm

end Scan

theorem continues_scan (window : Int) (code rest : Bytes) :
    (scan code window).Continues (scan (code ++ rest) window) := by
  rw [scan_eq_foldl, scan_eq_foldl]
  exact foldl_append (r := fun s t : Scan => s.table.Continues t.table) (fun _ => .refl _) .trans
    (Scan.continues_step window) (Scan.continues_of_push window) Scan.initial code rest

end Dispatcher

namespace EventTopics

theorem prefix_step (s : Scan) (i : Instruction) : s.topics <+: (step s i).topics := by
  unfold step
  split
  · exact List.prefix_refl _
  · split
    · exact List.prefix_refl _
    · split
      · split
        · dsimp only
          split
          · exact List.prefix_refl _
          · exact List.prefix_append _ _
        · exact List.prefix_refl _
      · exact List.prefix_refl _

theorem topics_step_of_push (s : Scan) (i : Instruction) (h : 0 < Opcode.pushSize i.opcode) :
    (step s i).topics = s.topics := by
  have hdest : i.opcode ≠ Opcode.jumpDest := Dispatcher.ne_of_pushSize h (by decide)
  have hlog : Opcode.isTopicLog i.opcode = false := by
    rw [Opcode.pushSize_eq] at h
    unfold Opcode.isTopicLog
    split at h
    · simp only [Bool.and_eq_false_iff, decide_eq_false_iff_not]
      omega
    · exact absurd h (Nat.lt_irrefl _)
  rw [step, if_neg hdest, hlog]
  split <;> rfl

theorem prefix_topics (code rest : Bytes) : scan code <+: scan (code ++ rest) := by
  refine foldl_append (r := fun s t : Scan => s.topics <+: t.topics) (fun _ => List.prefix_refl _)
    List.IsPrefix.trans prefix_step (fun s i h => ?_) ⟨[], none⟩ code rest
  exact topics_step_of_push s i h ▸ List.prefix_refl _

end EventTopics

/-! ## Code as a service gives it -/

namespace Skeleton

open Dispatcher

theorem selectorDigits_text {s : String} (hnone : s ≠ "") (hlower : s ≠ "0x") (hupper : s ≠ "0X")
    (window : Int) : selectorDigits (.text s) window =
      (Code.ofValue (.text s)).map fun c => (scan c window).selectors.map Selector.digits := by
  have hgiven : (!(Value.text s).holds || (Value.text s).text? == some "0x" ||
      (Value.text s).text? == some "0X") = false := by
    simp [Value.holds, Value.text?, hnone, hlower, hupper]
  rw [selectorDigits, hgiven]
  rfl

/-- Whatever the window is, a text gives selectors if it gives code in hex. -/
theorem selectorDigits_cases (s : String) :
    (HexCode s ∧ ∃ code, ∀ window, selectorDigits (.text s) window =
      .ok ((scan code window).selectors.map Selector.digits)) ∨
    (¬HexCode s ∧ ∃ f, ∀ window, selectorDigits (.text s) window = .error f) := by
  by_cases hblank : s = "" ∨ s = "0x" ∨ s = "0X"
  · refine .inl ⟨by unfold HexCode; tauto, [], fun window => ?_⟩
    rw [scan_eq_foldl]
    rcases hblank with rfl | rfl | rfl
    · rfl
    · rfl
    · rfl
  · obtain ⟨hnone, hlower, hupper⟩ : s ≠ "" ∧ s ≠ "0x" ∧ s ≠ "0X" := by tauto
    have hdigits := selectorDigits_text hnone hlower hupper
    rcases Code.ofValue_text s with ⟨code, hcode, hread, hvalue⟩ | ⟨hread, f, hvalue⟩
    · refine .inl ⟨.inr (.inr (.inr ⟨code, hcode, hread⟩)), code, fun window => ?_⟩
      rw [hdigits, hvalue]
      rfl
    · refine .inr ⟨?_, f, fun window => ?_⟩
      · rintro (rfl | rfl | rfl | ⟨code, hcode, hread'⟩)
        · exact hnone rfl
        · exact hlower rfl
        · exact hupper rfl
        · exact hcode (hread code hread')
      · rw [hdigits, hvalue]
        rfl

/-- Bytes behind a code add selectors and topics behind those that are found in it, and leave the
places of its selectors alone. A wider window adds to the selectors, and it is the text alone that
decides whether code in hex can be read. -/
theorem extraction_grows {code : Bytes} (hcode : code ≠ []) (rest : Bytes) {narrow wide : Int}
    (hwindow : narrow ≤ wide) :
    (∃ found more, selectorsOfValue (.bytes code) = .ok found ∧
      selectorsOfValue (.bytes (code ++ rest)) = .ok (found ++ more) ∧
      ∀ x ∈ found, (scan (code ++ rest) defaultWindow).target? x =
        (scan code defaultWindow).target? x) ∧
    (∃ found more, topicsOfValue (.bytes code) = .ok found ∧
      topicsOfValue (.bytes (code ++ rest)) = .ok (found ++ more)) ∧
    ∀ s : String,
      (HexCode s ∧ ∃ few many, selectorDigits (.text s) narrow = .ok few ∧
        selectorDigits (.text s) wide = .ok many ∧ few ⊆ many) ∨
      (¬HexCode s ∧ ∃ f, selectorDigits (.text s) narrow = .error f ∧
        selectorDigits (.text s) wide = .error f) := by
  have hlonger : code ++ rest ≠ [] := List.append_ne_nil_of_left_ne_nil hcode _
  obtain ⟨⟨more, hmore⟩, hsettled⟩ := continues_scan defaultWindow code rest
  obtain ⟨later, hlater⟩ := EventTopics.prefix_topics code rest
  refine ⟨⟨_, more, ?_, ?_, hsettled⟩, ⟨EventTopics.scan code, later, ?_, ?_⟩, fun s => ?_⟩
  · rw [selectorsOfValue, Code.ofValue_bytes hcode]
    rfl
  · rw [selectorsOfValue, Code.ofValue_bytes hlonger, hmore]
    rfl
  · rw [topicsOfValue, Code.ofValue_bytes hcode]
    rfl
  · rw [topicsOfValue, Code.ofValue_bytes hlonger, hlater]
    rfl
  · rcases selectorDigits_cases s with ⟨hhex, code, hfound⟩ | ⟨hhex, f, hfault⟩
    · exact .inl ⟨hhex, _, _, hfound narrow, hfound wide,
        List.map_subset _ (selectors_subset hwindow)⟩
    · exact .inr ⟨hhex, f, hfault narrow, hfault wide⟩

def cutOff : Bytes :=
  [0x5f, 0x35, 0x63, 0x2d, 0xec, 0x55, 0xa6, 0x14, 0x61, 0x00, 0x10, 0x57, 0x63, 0xaa]

theorem extraction_grows_cutOff :
    cutOff ≠ [] ∧ (5 : Int) ≤ 20 ∧
      (∃ more, selectorsOfValue (.bytes (cutOff ++ [0xbb, 0xcc, 0xdd, 0x14, 0x61, 0, 0x20, 0x57])) =
        .ok ("0x2dec55a6" :: more)) ∧
      (scan (cutOff ++ [0xbb, 0xcc, 0xdd, 0x14, 0x61, 0, 0x20, 0x57]) defaultWindow).target?
        "0x2dec55a6" = some 16 ∧
      ∃ few many, selectorDigits (.text (Hex.encode0x cutOff)) 5 = .ok few ∧
        selectorDigits (.text (Hex.encode0x cutOff)) 20 = .ok many ∧ few ⊆ many := by
  have hcode : cutOff ≠ [] := by decide
  have hwindow : (5 : Int) ≤ 20 := by decide
  have hselectors : selectorsOfValue (.bytes cutOff) = .ok ["0x2dec55a6"] := by
    have hfound : (scan cutOff defaultWindow).selectors = ["0x2dec55a6"] := by decide +kernel
    rw [selectorsOfValue, Code.ofValue_bytes hcode]
    exact congrArg Except.ok hfound
  have htarget : (scan cutOff defaultWindow).target? "0x2dec55a6" = some 16 := by decide +kernel
  have hhex : HexCode (Hex.encode0x cutOff) :=
    .inr (.inr (.inr ⟨cutOff, hcode, Value.bytesOfText_encode0x cutOff⟩))
  obtain ⟨⟨found, more, hfound, hlonger, hsettled⟩, -, htexts⟩ :=
    extraction_grows hcode [0xbb, 0xcc, 0xdd, 0x14, 0x61, 0, 0x20, 0x57] hwindow
  obtain rfl : ["0x2dec55a6"] = found := Except.ok.inj (hselectors.symm.trans hfound)
  refine ⟨hcode, hwindow, ⟨more, hlonger⟩, ?_, ?_⟩
  · rw [hsettled "0x2dec55a6" (by simp), htarget]
  · rcases htexts (Hex.encode0x cutOff) with ⟨-, hdigits⟩ | ⟨hnot, -⟩
    · exact hdigits
    · exact absurd hhex hnot

end Skeleton

end ContractAbi
