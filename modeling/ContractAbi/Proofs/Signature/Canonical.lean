import ContractAbi.Proofs.Interface.ParamItem
import ContractAbi.Proofs.Signature
import ContractAbi.Proofs.Signature.Grammar

/-!
# The canonical text of a signature

A signature has one text, which is read as the same signature with its types spelt out.

* `exists_of_parse`: what a text that is read consists of;
* `parse_enclosed`: a name with a list of types in brackets is read;
* `canonical_form`: the canonical spelling of types, parameters and signatures.
-/

namespace ContractAbi.Signature

open Text TypeText

variable {sig : Signature} {s : String}

/-! ## Texts -/

/-- A text that is read has a name, and behind it a list of types in brackets. -/
theorem exists_of_parse (h : parse s = .ok sig) :
    isName sig.name.toList = true ∧ ∃ inner types, Balanced inner ∧
      splitChars inner = .ok types ∧ sig.inputs = types.map String.ofList := by
  obtain ⟨hproper, hspells⟩ := parse_eq_ok_iff.1 h
  generalize s.toList = cs at hspells
  obtain @⟨-, -, inner, -, -, -, -, -, hinner, -, -, -⟩ := hspells
  have hbalanced := balanced_of_lists hinner hproper.inputs
  obtain ⟨types, htypes, hinputs⟩ := (splitTexts_iff hbalanced).2 ⟨hinner, hproper.inputs⟩
  exact ⟨hproper.name, inner, types, hbalanced, htypes, hinputs.symm⟩

/-- A name and types in brackets behind it are read as they are. -/
theorem parse_enclosed {name inner : List Char} {types : List (List Char)}
    (hname : isName name = true) (hbalanced : Balanced inner)
    (htypes : splitChars inner = .ok types) :
    parse (String.ofList (name ++ '(' :: inner ++ [')'])) =
      .ok ⟨String.ofList name, types.map String.ofList, none⟩ := by
  obtain ⟨hlists, hproper⟩ := (splitTexts_iff hbalanced).1 ⟨types, htypes, rfl⟩
  apply parse_eq_ok_iff.2
  refine ⟨⟨by simpa using hname, hproper, by simp⟩, ?_⟩
  have hspells : Spells ⟨String.ofList name, types.map String.ofList, none⟩
      ([] ++ (String.ofList name).toList ++ [] ++ '(' :: inner ++ ')' :: [] ++ [] ++ []) :=
    .intro .nil .nil hlists .nil .absent .nil
  simpa using hspells

/-! ## The text of a signature -/

theorem text_eq (types : List (List Char)) (hinputs : sig.inputs = types.map String.ofList) :
    sig.text = String.ofList (sig.name.toList ++ '(' :: canonicalList types ++ [')']) := by
  apply String.toList_injective
  have hcanonical : (sig.inputs.map canonical).map String.toList = types.map canonicalChars := by
    rw [hinputs, List.map_map, List.map_map]
    refine List.map_congr_left fun t _ => ?_
    simp [canonical]
  simp [text, signature, canonicalList, hcanonical]

/-- The text of a signature that was read is read as that signature with its types spelt out. -/
theorem parse_text (h : parse s = .ok sig) :
    parse sig.text = .ok ⟨sig.name, sig.inputs.map canonical, none⟩ := by
  obtain ⟨hname, inner, types, hbalanced, htypes, hinputs⟩ := exists_of_parse h
  have hlist : Balanced (canonicalList types) :=
    (awaited?_congr (filter_isMark_canonicalList htypes) []).trans hbalanced
  have hspelt : (types.map canonicalChars).map String.ofList = sig.inputs.map canonical := by
    rw [hinputs, List.map_map, List.map_map]
    refine List.map_congr_left fun t _ => ?_
    simp [canonical]
  rw [text_eq types hinputs, parse_enclosed hname hlist (splitChars_canonicalList htypes), hspelt,
    String.ofList_toList]

theorem text_canonical (sig : Signature) (outputs : Option (List String)) :
    text ⟨sig.name, sig.inputs.map canonical, outputs⟩ = sig.text := by
  have hmap : (sig.inputs.map canonical).map canonical = sig.inputs.map canonical := by
    rw [List.map_map]
    exact List.map_congr_left fun t _ => canonical_canonical t
  rw [text, text, TypeText.signature, TypeText.signature, hmap]

/-- Types have one canonical spelling. It stays as it is, parameters that are built from a type
spell it so, also when they are written as items and read again, and the text of a signature is read
as the signature of that text. -/
theorem canonical_form :
    (∀ t : String, canonical (canonical t) = canonical t) ∧
    (∀ (name t : String) (indexed : Value) (p : Param),
      Param.ofType (.text name) t indexed = .ok p →
      p.canonicalType = .ok (canonical t) ∧
        ∃ q, Param.ofItem p.toItem = .ok q ∧ q.canonicalType = .ok (canonical t)) ∧
    (∀ (s : String) (sig : Signature), parse s = .ok sig →
      ∃ again, parse sig.text = .ok again ∧ again.name = sig.name ∧
        again.inputs = sig.inputs.map canonical ∧ again.text = sig.text ∧
        again.selector = sig.selector ∧ again.topic = sig.topic) := by
  refine ⟨canonical_canonical, fun name t indexed p hp => ?_, fun s sig h => ?_⟩
  · have hspelt := Param.canonicalType_ofType hp
    have hnamed := Param.named_ofType (Param.isName_text name) hp
    obtain ⟨q, hq, hrestores⟩ := Param.ofItem_toItem p hnamed
    exact ⟨hspelt, q, hq, hrestores.canonicalType.trans hspelt⟩
  · have htext := text_canonical sig none
    refine ⟨_, parse_text h, rfl, rfl, htext, ?_, ?_⟩
    · rw [selector, selector, htext]
    · rw [topic, topic, htext]

/-- A list of pairs beside a number, written with words and blanks. -/
theorem canonical_form_pairs :
    (∃ p, Param.ofType (.text "pairs") "tuple( uint , byte)[]" .null = .ok p ∧
      p.canonicalType = .ok "(uint256,bytes1)[]" ∧
      ∃ q, Param.ofItem p.toItem = .ok q ∧ q.canonicalType = .ok "(uint256,bytes1)[]") ∧
    ∃ sig again, parse " put( tuple(uint,byte)[], int )" = .ok sig ∧ parse sig.text = .ok again ∧
      again.name = "put" ∧ again.text = sig.text ∧ again.selector = sig.selector ∧
      again.topic = sig.topic := by
  obtain ⟨-, hparam, hparse⟩ := canonical_form
  have hspelt : canonical "tuple( uint , byte)[]" = "(uint256,bytes1)[]" := by decide +kernel
  have hput : parse " put( tuple(uint,byte)[], int )" =
      .ok ⟨"put", ["tuple(uint,byte)[]", "int"], none⟩ := rfl
  obtain ⟨again, htext, hname, -, hagain⟩ := hparse _ _ hput
  refine ⟨?_, _, again, hput, htext, hname, hagain⟩
  obtain ⟨p, hbuilt⟩ : ∃ p, Param.ofType (.text "pairs") "tuple( uint , byte)[]" .null = .ok p :=
    Except.exists_ok_of_isOk (by decide +kernel)
  obtain ⟨hp, q, hq, hqtype⟩ := hparam _ _ _ _ hbuilt
  exact ⟨p, hbuilt, hspelt ▸ hp, q, hq, hspelt ▸ hqtype⟩

end ContractAbi.Signature
