import ContractAbi.Interface.Entry
import ContractAbi.Proofs.Distinct

/-!
# Merging entries

Two views tell everything of a merge: the keys in the order in which they are first seen, and the
last entry of each key.

* `keys_dedupe` and `lastOf?_dedupe`: what `dedupe` does to the two views;
* `eq_of_views`: entries without repeated keys are determined by them;
* `merge_assoc`, `merge_self` and `merge_map_merge`: the laws of merging, read off the views;
* `merge_map`: entries may be changed before or after merging, as long as they keep their keys.
-/

namespace ContractAbi.Entry

def keys (entries : List Entry) : List EntryKey :=
  entries.map key

def lastOf? (k : EntryKey) (entries : List Entry) : Option Entry :=
  entries.reverse.find? fun e => e.key == k

@[simp] theorem keys_nil : keys [] = [] := rfl

@[simp] theorem keys_append (a b : List Entry) : keys (a ++ b) = keys a ++ keys b :=
  List.map_append

theorem any_key_eq_decide_mem (entries : List Entry) (e : Entry) :
    (entries.any fun d => d.key == e.key) = decide (e.key ∈ keys entries) := by
  rw [Bool.eq_iff_iff]
  simp [keys]

/-! ## The two views of single steps -/

theorem lastOf?_append (k : EntryKey) (a b : List Entry) :
    lastOf? k (a ++ b) = (lastOf? k b).or (lastOf? k a) := by
  simp [lastOf?]

theorem lastOf?_singleton (k : EntryKey) (e : Entry) :
    lastOf? k [e] = if e.key = k then some e else none := by
  by_cases h : e.key = k <;> simp [lastOf?, h]

theorem lastOf?_eq_none_iff {k : EntryKey} {entries : List Entry} :
    lastOf? k entries = none ↔ k ∉ keys entries := by
  simp [lastOf?, keys]

theorem key_of_lastOf? {k : EntryKey} {entries : List Entry} {e : Entry}
    (h : lastOf? k entries = some e) : e.key = k := by
  simpa using List.find?_some h

theorem mem_of_lastOf? {k : EntryKey} {entries : List Entry} {e : Entry}
    (h : lastOf? k entries = some e) : e ∈ entries := by
  simpa using List.mem_of_find?_eq_some h

theorem lastOf?_of_mem_of_nodup {entries : List Entry} {e : Entry} (he : e ∈ entries)
    (hnodup : (keys entries).Nodup) : lastOf? e.key entries = some e := by
  cases h : lastOf? e.key entries with
  | none =>
      rw [lastOf?_eq_none_iff] at h
      exact absurd (List.mem_map_of_mem he) h
  | some d =>
      have hkey := key_of_lastOf? h
      have hmem := mem_of_lastOf? h
      rw [List.inj_on_of_nodup_map hnodup hmem he hkey]

/-- Putting an entry over the one of its key leaves all keys where they are. -/
theorem keys_overwrite (entries : List Entry) (e : Entry) :
    keys (entries.map fun d => if d.key == e.key then e else d) = keys entries := by
  unfold keys
  rw [List.map_map]
  apply List.map_congr_left
  intro d _
  by_cases h : d.key = e.key <;> simp [h]

theorem keys_put (entries : List Entry) (e : Entry) :
    keys (put entries e) =
      if e.key ∈ keys entries then keys entries else keys entries ++ [e.key] := by
  unfold put
  rw [any_key_eq_decide_mem]
  by_cases h : e.key ∈ keys entries
  · rw [if_pos h, if_pos (decide_eq_true h), keys_overwrite]
  · rw [if_neg h, if_neg (by simpa using h), keys_append]
    rfl

theorem lastOf?_overwrite (k : EntryKey) (entries : List Entry) (e : Entry)
    (he : e.key ∈ keys entries) :
    lastOf? k (entries.map fun d => if d.key == e.key then e else d) =
      if e.key = k then some e else lastOf? k entries := by
  unfold lastOf?
  rw [← List.map_reverse, List.find?_map]
  have hkeep : ((fun d : Entry => d.key == k) ∘ fun d => if d.key == e.key then e else d) =
      fun d => d.key == k := by
    funext d
    by_cases h : d.key = e.key <;> simp [h]
  rw [hkeep]
  cases h : entries.reverse.find? fun d => d.key == k with
  | none =>
      have hk : k ∉ keys entries := lastOf?_eq_none_iff.1 h
      have hne : e.key ≠ k := fun heq => hk (heq ▸ he)
      simp [hne]
  | some d =>
      have hd : d.key = k := by simpa using List.find?_some h
      by_cases hk : e.key = k
      · simp [hd, hk]
      · have hdk : d.key ≠ e.key := fun heq => hk (heq ▸ hd)
        simp [hk, hdk]

theorem lastOf?_put (k : EntryKey) (entries : List Entry) (e : Entry) :
    lastOf? k (put entries e) = if e.key = k then some e else lastOf? k entries := by
  unfold put
  rw [any_key_eq_decide_mem]
  by_cases h : e.key ∈ keys entries
  · simp only [h, decide_true, if_true]
    exact lastOf?_overwrite k entries e h
  · simp only [h, decide_false, Bool.false_eq_true, if_false]
    rw [lastOf?_append, lastOf?_singleton]
    split <;> simp

/-! ## The two views of deduplicated entries -/

theorem dedupe_concat (entries : List Entry) (e : Entry) :
    dedupe (entries ++ [e]) = put (dedupe entries) e := by
  simp [dedupe]

theorem keys_dedupe (entries : List Entry) : keys (dedupe entries) = (keys entries).eraseDups := by
  induction entries using List.reverseRecOn with
  | nil => rfl
  | append_singleton entries e ih =>
      have hlast : keys [e] = [e.key] := rfl
      rw [dedupe_concat, keys_put, ih, keys_append, hlast, eraseDups_concat]
      simp only [List.mem_eraseDups]

theorem lastOf?_dedupe (k : EntryKey) (entries : List Entry) :
    lastOf? k (dedupe entries) = lastOf? k entries := by
  induction entries using List.reverseRecOn with
  | nil => rfl
  | append_singleton entries e ih =>
      rw [dedupe_concat, lastOf?_put, ih, lastOf?_append, lastOf?_singleton]
      split <;> simp

theorem nodup_keys_dedupe (entries : List Entry) : (keys (dedupe entries)).Nodup := by
  rw [keys_dedupe]
  exact nodup_eraseDups _

/-- Entries without repeated keys are determined by their keys and the entry of each key. -/
theorem eq_of_views {a b : List Entry} (ha : (keys a).Nodup) (hkeys : keys a = keys b)
    (hlast : ∀ k, lastOf? k a = lastOf? k b) : a = b := by
  have hb : (keys b).Nodup := hkeys ▸ ha
  have hlength : a.length = b.length := by
    simpa [keys] using congrArg List.length hkeys
  apply List.ext_getElem hlength
  intro i hi hj
  have hkey : a[i].key = b[i].key := by
    have h := List.getElem_of_eq hkeys (i := i) (by simpa [keys] using hi)
    simpa [keys] using h
  have hleft := lastOf?_of_mem_of_nodup (List.getElem_mem hi) ha
  have hright := lastOf?_of_mem_of_nodup (List.getElem_mem hj) hb
  rw [hlast, hkey, hright] at hleft
  exact (Option.some.inj hleft).symm

theorem dedupe_congr {a b : List Entry} (hkeys : (keys a).eraseDups = (keys b).eraseDups)
    (hlast : ∀ k, lastOf? k a = lastOf? k b) : dedupe a = dedupe b := by
  apply eq_of_views (nodup_keys_dedupe a)
  · rw [keys_dedupe, keys_dedupe, hkeys]
  · intro k
    rw [lastOf?_dedupe, lastOf?_dedupe, hlast]

theorem dedupe_of_nodup {entries : List Entry} (h : (keys entries).Nodup) :
    dedupe entries = entries := by
  apply eq_of_views (nodup_keys_dedupe entries)
  · rw [keys_dedupe, eraseDups_of_nodup h]
  · exact fun k => lastOf?_dedupe k entries

/-! ## Deduplication inside of deduplication -/

theorem dedupe_dedupe_append (a b : List Entry) : dedupe (dedupe a ++ b) = dedupe (a ++ b) := by
  apply dedupe_congr
  · rw [keys_append, keys_append, keys_dedupe, List.eraseDups_append, List.eraseDups_append,
      eraseDups_of_nodup (nodup_eraseDups _)]
    congr 2
    unfold List.removeAll
    congr 1
    funext k
    simp [List.mem_eraseDups]
  · intro k
    rw [lastOf?_append, lastOf?_append, lastOf?_dedupe]

theorem dedupe_append_dedupe (a b : List Entry) : dedupe (a ++ dedupe b) = dedupe (a ++ b) := by
  apply dedupe_congr
  · rw [keys_append, keys_append, keys_dedupe, List.eraseDups_append, List.eraseDups_append]
    unfold List.removeAll
    rw [eraseDups_filter, eraseDups_filter, eraseDups_of_nodup (nodup_eraseDups _)]
  · intro k
    rw [lastOf?_append, lastOf?_append, lastOf?_dedupe]

/-! ## The laws of merging -/

theorem keys_merge (own : List Entry) (delegates : List (List Entry)) :
    keys (merge own delegates) = (keys (own ++ delegates.flatten)).eraseDups :=
  keys_dedupe _

theorem lastOf?_merge (k : EntryKey) (own : List Entry) (delegates : List (List Entry)) :
    lastOf? k (merge own delegates) = lastOf? k (own ++ delegates.flatten) :=
  lastOf?_dedupe k _

theorem merge_merge (own : List Entry) (ds ds' : List (List Entry)) :
    merge (merge own ds) ds' = merge own (ds ++ ds') := by
  unfold merge
  rw [dedupe_dedupe_append]
  simp

theorem merge_merge_left (a b : List Entry) (rest : List (List Entry)) :
    merge (merge a [b]) rest = merge a (b :: rest) :=
  merge_merge a [b] rest

theorem merge_merge_right (a b : List Entry) (c : List (List Entry)) :
    merge a [merge b c] = merge a (b :: c) := by
  unfold merge
  simp [dedupe_append_dedupe]

theorem merge_assoc (a b c : List Entry) : merge (merge a [b]) [c] = merge a [merge b [c]] := by
  rw [merge_merge_left, merge_merge_right]

theorem merge_self (a : List Entry) : merge a [a] = merge a [] := by
  unfold merge
  apply dedupe_congr
  · have hnone : (keys a).removeAll (keys a) = [] := by
      simp [List.removeAll]
    simp [List.eraseDups_append, hnone]
  · intro k
    simp [lastOf?_append]

/-- Delegates that are merges themselves count as their parts, one after the other. -/
theorem merge_map_merge (own : List Entry) (parts : List (List Entry × List (List Entry))) :
    merge own (parts.map fun p => merge p.1 p.2) =
      merge own (parts.flatMap fun p => p.1 :: p.2) := by
  induction parts using List.reverseRecOn with
  | nil => rfl
  | append_singleton parts p ih =>
      unfold merge at ih ⊢
      calc
        dedupe (own ++ ((parts ++ [p]).map fun p => dedupe (p.1 ++ p.2.flatten)).flatten)
            = dedupe (dedupe (own ++ (parts.map fun p => dedupe (p.1 ++ p.2.flatten)).flatten) ++
                dedupe (p.1 ++ p.2.flatten)) := by
              rw [dedupe_dedupe_append]
              simp
        _ = dedupe (dedupe (own ++ (parts.flatMap fun p => p.1 :: p.2).flatten) ++
                (p.1 ++ p.2.flatten)) := by
              rw [ih, dedupe_append_dedupe]
        _ = dedupe (own ++ ((parts ++ [p]).flatMap fun p => p.1 :: p.2).flatten) := by
              rw [dedupe_dedupe_append]
              simp

/-! ## Entries that keep their keys -/

section

variable {g : Entry → Entry} (hkey : ∀ e, (g e).key = e.key)

include hkey

theorem put_map (entries : List Entry) (e : Entry) :
    put (entries.map g) (g e) = (put entries e).map g := by
  have hany : ((entries.map g).any fun d => d.key == (g e).key) =
      entries.any fun d => d.key == e.key := by
    simp only [List.any_map, Function.comp_def, hkey]
  unfold put
  rw [hany]
  split
  · rw [List.map_map, List.map_map]
    apply List.map_congr_left
    intro d _
    simp only [Function.comp_apply, hkey]
    split <;> rfl
  · rw [List.map_append]
    rfl

theorem dedupe_map (entries : List Entry) : dedupe (entries.map g) = (dedupe entries).map g := by
  unfold dedupe
  rw [List.foldl_map]
  change entries.foldl (fun kept e => put kept (g e)) (List.map g []) = _
  apply List.foldl_hom
  exact put_map hkey

theorem merge_map (own : List Entry) (delegates : List (List Entry)) :
    merge (own.map g) (delegates.map (List.map g)) = (merge own delegates).map g := by
  unfold merge
  rw [← dedupe_map hkey, List.map_append, List.map_flatten]

end

end ContractAbi.Entry
