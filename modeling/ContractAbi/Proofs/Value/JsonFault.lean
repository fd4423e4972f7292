import ContractAbi.Proofs.Session.Invariant
import ContractAbi.Proofs.Text.Utf8
import ContractAbi.Proofs.Value.JsonDocument

/-!
# Documents that are not read

A document that is not read is either malformed, as a text or as bytes, or nested too deeply.

* `Value.meets_ofJson` and `Value.meets_ofJsonBytes`: there are no other faults;
* `JsonReader.readValue_brackets`: more open lists than may be nested are too deep;
* `Value.ofJsonBytes_nested`: so are lists that are closed again.
-/

namespace ContractAbi

inductive Fault.OfDocument : Fault → Prop
  | malformed {f : Fault} (h : f.isMalformed = true) : OfDocument f
  | tooDeep (inside : String) : OfDocument (.tooDeep inside)

theorem JsonReader.Stop.ofDocument_fault (cs : List Char) (stop : Stop) :
    (stop.fault cs).OfDocument := by
  cases stop with
  | wrong reason offset => exact .malformed rfl
  | longInteger digits => exact .malformed rfl
  | tooDeep inside => exact .tooDeep inside

namespace Value

theorem meets_ofJsonText [JsonReader.Stack] (s : String) :
    Except.Meets (fun _ => True) Fault.OfDocument (ofJsonText s) := by
  unfold ofJsonText
  dsimp only
  cases JsonReader.readDocument s.toList with
  | ok v => exact .ok trivial
  | error stop => exact .error (stop.ofDocument_fault _)

theorem meets_ofJson [JsonReader.Stack] (s : String) :
    Except.Meets (fun _ => True) Fault.OfDocument (ofJson s) := by
  unfold ofJson
  split
  · exact .error (JsonReader.Stop.ofDocument_fault _ _)
  · exact meets_ofJsonText s

theorem meets_ofJsonBytes [JsonReader.Stack] (bs : Bytes) :
    Except.Meets (fun _ => True) Fault.OfDocument (ofJsonBytes bs) := by
  unfold ofJsonBytes
  split
  · exact meets_ofJsonText _
  · exact .error (.malformed rfl)

end Value

/-! ## Lists in lists -/

namespace JsonReader

theorem readValue_brackets {fuel depth : Nat} (hfuel : 2 * depth < fuel) (offset : Nat)
    (tail : List Char) :
    readValue fuel depth ⟨offset, List.replicate (depth + 1) '[' ++ tail⟩ =
      .error (.tooDeep "array") := by
  induction depth generalizing fuel offset with
  | zero =>
      obtain ⟨fuel, rfl⟩ : ∃ k, fuel = k + 1 := ⟨fuel - 1, by omega⟩
      rw [readValue.eq_def]
      rfl
  | succ depth ih =>
      obtain ⟨fuel, rfl⟩ : ∃ k, fuel = k + 2 := ⟨fuel - 2, by omega⟩
      rw [List.replicate_succ, List.cons_append, readValue_list]
      have hinside : Cursor.skipSpace ⟨offset + 1, List.replicate (depth + 1) '[' ++ tail⟩ =
          ⟨offset + 1, List.replicate (depth + 1) '[' ++ tail⟩ := rfl
      have hopen : (List.replicate (depth + 1) '[' ++ tail).head? = some '[' := rfl
      rw [hinside]
      dsimp only
      rw [hopen, if_neg (by decide), readItems.eq_def]
      dsimp only
      rw [ih (by omega)]
      rfl

def nested (n : Nat) : List Char :=
  List.replicate n '[' ++ List.replicate n ']'

theorem readDocument_nested [JsonReader.Stack] {n : Nat} (h : maxDepth < n) :
    readDocument (nested n) = .error (.tooDeep "array") := by
  obtain ⟨k, rfl⟩ : ∃ k, n = maxDepth + 1 + k := ⟨n - (maxDepth + 1), by omega⟩
  have hsplit : nested (maxDepth + 1 + k) = List.replicate (maxDepth + 1) '[' ++
      (List.replicate k '[' ++ List.replicate (maxDepth + 1 + k) ']') := by
    rw [nested, List.replicate_add, List.append_assoc]
  have hspace : Cursor.skipSpace ⟨0, nested (maxDepth + 1 + k)⟩ =
      ⟨0, nested (maxDepth + 1 + k)⟩ := by
    rw [hsplit, List.replicate_succ]
    rfl
  have hlength : (nested (maxDepth + 1 + k)).length = 2 * (maxDepth + 1 + k) := by
    rw [nested, List.length_append, List.length_replicate, List.length_replicate]
    omega
  rw [readDocument, hspace, hsplit, readValue_brackets]
  · rfl
  · rw [← hsplit, hlength]
    omega

end JsonReader

namespace Value

open JsonReader

variable {n : Nat}

theorem ofJsonText_nested [JsonReader.Stack] (h : maxDepth < n) :
    ofJsonText (String.ofList (nested n)) = .error (.tooDeep "array") := by
  rw [ofJsonText, String.toList_ofList, readDocument_nested h]
  rfl

/-- Four characters of ASCII in front show that bytes are text in UTF-8. -/
theorem decodeDocument_nested (h : 4 ≤ n) :
    Encoding.decodeDocument (Utf8.encode (String.ofList (nested n))) =
      .ok (String.ofList (nested n)) := by
  have hascii : ∀ c ∈ (String.ofList (nested n)).toList, c.toNat < 128 := by
    intro c hc
    rw [String.toList_ofList, nested, List.mem_append] at hc
    rcases hc with hc | hc
    · rw [List.eq_of_mem_replicate hc]
      decide
    · rw [List.eq_of_mem_replicate hc]
      decide
  have hmark : Encoding.ofDocument (Utf8.encode (String.ofList (nested n))) = (.utf8, 0) := by
    obtain ⟨k, rfl⟩ : ∃ k, n = k + 4 := ⟨n - 4, by omega⟩
    rw [Utf8.encode_ascii hascii, String.toList_ofList, nested]
    rfl
  rw [Encoding.decodeDocument, hmark]
  exact Utf8.decodeHalves_encode hascii

theorem ofJsonBytes_nested [JsonReader.Stack] (h : maxDepth < n) :
    ofJsonBytes (Utf8.encode (String.ofList (nested n))) = .error (.tooDeep "array") := by
  have hfour : 4 ≤ n := le_trans Stack.four_le_maxDepth (Nat.le_of_lt h)
  rw [ofJsonBytes, decodeDocument_nested hfour]
  exact ofJsonText_nested h

end Value

end ContractAbi
