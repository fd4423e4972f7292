import ContractAbi.Address.Libraries
import ContractAbi.Proofs.Assembly.Run
import ContractAbi.Proofs.Assembly.Tables
import ContractAbi.Proofs.Interface.Merge

/-!
# The law of merging

What an assembly answers holds one entry for each key that the contract or one of its delegates
has. The place of a key is where it is seen first, its entry is that of the last delegate that has
it.

* `Entry.mergeLaw_merge`: merging obeys the law;
* `assembleAt_mergeLaw`: so does every assembly, and merges may be nested in any way.
-/

namespace ContractAbi

namespace Entry

/-- The entries of a contract and of the contracts that it delegates to, merged into one
interface. -/
structure MergeLaw (own : List Entry) (delegates : List (List Entry)) (merged : List Entry) :
    Prop where
  nodup : (keys merged).Nodup
  mem_keys : ∀ k, k ∈ keys merged ↔ k ∈ keys own ∨ ∃ d ∈ delegates, k ∈ keys d
  /-- An entry stands for its key if it is the last one of the last delegate that has the key, or
  the last own one where no delegate has it. -/
  mem_iff : ∀ e, e ∈ merged ↔
    (∃ before d after, delegates = before ++ d :: after ∧ lastOf? e.key d = some e ∧
      ∀ d' ∈ after, e.key ∉ keys d') ∨
    (lastOf? e.key own = some e ∧ ∀ d ∈ delegates, e.key ∉ keys d)
  /-- Of repeated keys the first one keeps its place. -/
  order : keys merged = (keys (own ++ delegates.flatten)).eraseDups

theorem mem_keys_flatten {k : EntryKey} {ds : List (List Entry)} :
    k ∈ keys ds.flatten ↔ ∃ d ∈ ds, k ∈ keys d := by
  simp [keys]

/-- The last entry of a key in lists that follow each other is that of the last list with it. -/
theorem lastOf?_flatten_eq_some_iff {k : EntryKey} {ds : List (List Entry)} {e : Entry} :
    lastOf? k ds.flatten = some e ↔
      ∃ before d after, ds = before ++ d :: after ∧ lastOf? k d = some e ∧
        ∀ d' ∈ after, k ∉ keys d' := by
  induction ds using List.reverseRecOn with
  | nil => simp [lastOf?]
  | append_singleton ds d ih =>
      rw [List.flatten_append, List.flatten_singleton, lastOf?_append, Option.or_eq_some_iff, ih]
      constructor
      · rintro (hd | ⟨hnone, before, d', after, rfl, hlast, hafter⟩)
        · exact ⟨ds, d, [], by simp, hd, by simp⟩
        · refine ⟨before, d', after ++ [d], by simp, hlast, fun x hx => ?_⟩
          rcases List.mem_append.1 hx with hx | hx
          · exact hafter x hx
          · rw [List.mem_singleton.1 hx]
            exact lastOf?_eq_none_iff.1 hnone
      · rintro ⟨before, d', after, hds, hlast, hafter⟩
        cases after using List.reverseRecOn with
        | nil =>
            obtain ⟨-, hd⟩ := List.append_inj' hds rfl
            obtain rfl := List.singleton_inj.1 hd
            exact .inl hlast
        | append_singleton after d'' =>
            rw [← List.cons_append, ← List.append_assoc] at hds
            obtain ⟨rfl, hd⟩ := List.append_inj' hds rfl
            obtain rfl := List.singleton_inj.1 hd
            refine .inr ⟨lastOf?_eq_none_iff.2 (hafter d (by simp)), before, d', after, rfl,
              hlast, fun x hx => hafter x (by simp [hx])⟩

theorem mem_iff_lastOf? {entries : List Entry} (h : (keys entries).Nodup) (e : Entry) :
    e ∈ entries ↔ lastOf? e.key entries = some e :=
  ⟨fun he => lastOf?_of_mem_of_nodup he h, mem_of_lastOf?⟩

theorem mergeLaw_merge (own : List Entry) (delegates : List (List Entry)) :
    MergeLaw own delegates (merge own delegates) where
  nodup := nodup_keys_dedupe _
  mem_keys k := by
    rw [keys_merge, List.mem_eraseDups, keys_append, List.mem_append, mem_keys_flatten]
  mem_iff e := by
    have hnodup : (keys (merge own delegates)).Nodup := nodup_keys_dedupe _
    rw [mem_iff_lastOf? hnodup, lastOf?_merge, lastOf?_append, Option.or_eq_some_iff,
      lastOf?_flatten_eq_some_iff, lastOf?_eq_none_iff, mem_keys_flatten]
    constructor
    · rintro (hlast | ⟨hnone, hown⟩)
      · exact .inl hlast
      · exact .inr ⟨hown, fun d hd hkey => hnone ⟨d, hd, hkey⟩⟩
    · rintro (hlast | ⟨hown, hnone⟩)
      · exact .inl hlast
      · exact .inr ⟨fun ⟨d, hd, hkey⟩ => hnone d hd hkey, hown⟩
  order := keys_merge own delegates

end Entry

namespace Assembler

open Entry

variable {assemble : String → Session Walk Reconstruction} {as : List String} {w w' : Walk}
  {found : List Reconstruction}

/-- Whatever was kept of delegates has been answered by an assembly. -/
theorem DelegateRun.answered (h : DelegateRun assemble as w found w') :
    ∀ d ∈ found, ∃ a w₁ w₂, (assemble a).Answers w₁ d w₂ := by
  induction h with
  | done w => simp
  | seen _ _ ih => exact ih
  | skipped _ _ _ ih => exact ih
  | entered _ hanswer _ ih =>
      intro d hd
      rcases List.mem_cons.1 hd with rfl | hd
      · exact ⟨_, _, _, hanswer⟩
      · exact ih d hd

/-- Every assembly that answers has merged its own entries and its delegates' by the law. Merging
merges is merging their parts, in whatever way these are nested. -/
theorem assembleAt_mergeLaw [AddressLibrary] :
    (∀ services options chain fuel depth address w r w',
      (assembleAt services options chain fuel depth address).Answers w r w' →
      ∃ own found, Gathers services options chain fuel depth address w own found w' ∧
        (∀ d ∈ found, (keys d.entries).Nodup) ∧
        MergeLaw own.completed (found.map Reconstruction.entries) r.entries) ∧
    (∀ a b c, merge (merge a [b]) [c] = merge a [merge b [c]] ∧
      merge (merge a [b]) [c] = merge a [b, c]) ∧
    (∀ a, merge a [a] = merge a []) ∧
    ∀ (own : List Entry) (parts : List (List Entry × List (List Entry))),
      merge own (parts.map fun p => merge p.1 p.2) =
        merge own (parts.flatMap fun p => p.1 :: p.2) := by
  refine ⟨?_, fun a b c => ⟨merge_assoc a b c, merge_merge_left a b [c]⟩, merge_self,
    merge_map_merge⟩
  intro services options chain fuel depth address w r w' h
  obtain ⟨own, proxy, found, hgathers, rfl⟩ := assembleAt_answers h
  refine ⟨own, found, hgathers, ?_, mergeLaw_merge _ _⟩
  cases hgathers with
  | alone _ => simp
  | following _ _ _ hrun =>
      intro d hd
      obtain ⟨a, w₁, w₂, hanswer⟩ := hrun.answered d hd
      obtain ⟨own, proxy, found, -, rfl⟩ := assembleAt_answers hanswer
      exact nodup_keys_dedupe _

def overlapTables : Tables :=
  let item (type mutability : String) : Value :=
    .object [("type", .text type), ("stateMutability", .text mutability)]
  { Tables.empty with
    codes := [("0x2222222222222222222222222222222222222222", .bytes [0xfe])]
    words := [(("0x1111111111111111111111111111111111111111",
        .text "0x360894a13ba1a3210667c828492db98dca3e2076cc3735a920a3ca505d382bbc"),
      .bytes (List.replicate 12 0 ++ List.replicate 20 0x22))]
    abis := [(.text "0x1111111111111111111111111111111111111111",
        .list [item "fallback" "payable", item "receive" "payable"]),
      (.text "0x2222222222222222222222222222222222222222",
        .list [item "receive" "view", item "constructor" "nonpayable"])] }

open AddressLibrary in
/-- A proxy and its implementation publish different items of the same type. -/
theorem assembleAt_mergeLaw_overlap :
    ∃ r w' own found,
      (assembleAt overlapTables.services .default (.int 1) 2 0
        "0x1111111111111111111111111111111111111111").Answers ⟨.empty, []⟩ r w' ∧
      Gathers overlapTables.services .default (.int 1) 2 0
        "0x1111111111111111111111111111111111111111" ⟨.empty, []⟩ own found w' ∧
      MergeLaw own.completed (found.map Reconstruction.entries) r.entries ∧
      keys r.entries = [⟨.other, .text "fallback"⟩, ⟨.other, .text "receive"⟩,
        ⟨.other, .text "constructor"⟩] := by
  obtain ⟨r, hr, hkeys⟩ := Except.exists_ok_of_toOption
    (show ((assembleAt overlapTables.services .default (.int 1) 2 0
        "0x1111111111111111111111111111111111111111" ⟨.empty, []⟩).1.result.toOption.map
        fun r => keys r.entries) = some [⟨.other, .text "fallback"⟩, ⟨.other, .text "receive"⟩,
          ⟨.other, .text "constructor"⟩] by decide +kernel)
  obtain ⟨own, found, hgathers, -, hlaw⟩ :=
    assembleAt_mergeLaw.1 _ _ _ _ _ _ _ _ _ ⟨hr, rfl⟩
  exact ⟨r, _, own, found, ⟨hr, rfl⟩, hgathers, hlaw, hkeys⟩

end Assembler

end ContractAbi
