import ContractAbi.Proofs.Resolver.View
import ContractAbi.Source.Directory

/-!
# Ranking by number

The directory numbers its signatures, and ranks them by these numbers.

* `filter_ranking`: ranking keeps the order of what has the same number;
* `head?_eq_some_iff`: what comes first of a ranking, said of what is ranked;
* `findSome?_ranked`: what settles a search, among the elements of a document that are ranked.
-/

namespace ContractAbi.NumberedDirectory

open Resolver

/-! ## Ranking by number -/

section

variable {α : Type} {entries ranking : List (α × Int)} {e : α × Int}

def newer (a b : α × Int) : Bool :=
  b.2 ≤ a.2

theorem newer_trans (a b c : α × Int) (hab : newer a b = true) (hbc : newer b c = true) :
    newer a c = true := by
  simp only [newer, decide_eq_true_eq] at hab hbc ⊢
  omega

theorem newer_total (a b : α × Int) : (newer a b || newer b a) = true := by
  simp only [newer, Bool.or_eq_true, decide_eq_true_eq]
  omega

theorem filter_ranking (entries : List (α × Int)) (n : Int) :
    (entries.mergeSort newer).filter (·.2 == n) = entries.filter (·.2 == n) := by
  have hequal : (entries.filter (·.2 == n)).Pairwise fun a b => newer a b = true := by
    rw [List.pairwise_filter]
    apply List.pairwise_of_forall
    intro a b ha hb
    rw [beq_iff_eq] at ha hb
    simp [newer, ha, hb]
  have hwithin : (entries.filter (·.2 == n)).Sublist (entries.mergeSort newer) :=
    List.sublist_mergeSort newer_trans newer_total hequal List.filter_sublist
  have hfiltered := hwithin.filter (·.2 == n)
  rw [List.filter_filter, List.filter_congr fun a _ => Bool.and_self _] at hfiltered
  have hperm := (List.mergeSort_perm entries newer).filter (·.2 == n)
  exact (hfiltered.eq_of_length hperm.length_eq.symm).symm

theorem mem_ranking_iff (hstable : ∀ n, ranking.filter (·.2 == n) = entries.filter (·.2 == n)) :
    e ∈ ranking ↔ e ∈ entries := by
  have hboth : e ∈ ranking.filter (·.2 == e.2) ↔ e ∈ entries.filter (·.2 == e.2) := by
    rw [hstable]
  simpa using hboth

theorem le_of_mem_ranking {d : α × Int} {rest : List (α × Int)}
    (hranked : (d :: rest).Pairwise fun a b => b.2 ≤ a.2) (he : e ∈ d :: rest) : e.2 ≤ d.2 := by
  rcases List.mem_cons.1 he with rfl | hrest
  · exact Int.le_refl _
  · exact (List.pairwise_cons.1 hranked).1 e hrest

/-- Of the entries with the greatest number the one comes first that is listed first. -/
theorem filter_of_first {front back : List (α × Int)} (hfront : ∀ d ∈ front, d.2 < e.2) :
    (front ++ e :: back).filter (·.2 == e.2) = e :: back.filter (·.2 == e.2) := by
  have hnone : front.filter (·.2 == e.2) = [] := by
    rw [List.filter_eq_nil_iff]
    intro d hd
    have hlt := hfront d hd
    simp only [beq_iff_eq]
    omega
  rw [List.filter_append, hnone, List.nil_append, List.filter_cons_of_pos (by simp)]

/-- The first of a ranking is the one with the greatest number, and of these the one that is listed
first. -/
theorem head?_eq_some_iff (hranked : ranking.Pairwise fun a b => b.2 ≤ a.2)
    (hstable : ∀ n, ranking.filter (·.2 == n) = entries.filter (·.2 == n)) :
    ranking.head? = some e ↔
      ∃ front back, entries = front ++ e :: back ∧ (∀ d ∈ front, d.2 < e.2) ∧
        ∀ d ∈ back, d.2 ≤ e.2 := by
  constructor
  · intro hhead
    obtain ⟨rest, rfl⟩ := List.head?_eq_some_iff.1 hhead
    have hgreatest : ∀ d ∈ entries, d.2 ≤ e.2 := fun d hd =>
      le_of_mem_ranking hranked ((mem_ranking_iff hstable).2 hd)
    have hfirst := hstable e.2
    rw [List.filter_cons_of_pos (by simp)] at hfirst
    obtain ⟨front, back, rfl, hfront, -, -⟩ := List.filter_eq_cons_iff.1 hfirst.symm
    refine ⟨front, back, rfl, ?_, ?_⟩
    · intro d hd
      have hle := hgreatest d (List.mem_append_left _ hd)
      have hne : d.2 ≠ e.2 := by simpa using hfront d hd
      omega
    · intro d hd
      exact hgreatest d (List.mem_append_right _ (List.mem_cons_of_mem _ hd))
  · rintro ⟨front, back, rfl, hfront, hback⟩
    have he : e ∈ ranking := (mem_ranking_iff hstable).2 (by simp)
    cases ranking with
    | nil => exact absurd he List.not_mem_nil
    | cons d rest =>
        -- the first of the ranking has the same number, and both are the first with that number
        have habove : e.2 ≤ d.2 := le_of_mem_ranking hranked he
        have hbelow : d.2 ≤ e.2 := by
          rcases List.mem_append.1 ((mem_ranking_iff hstable).1 List.mem_cons_self) with hd | hd
          · exact Int.le_of_lt (hfront d hd)
          · rcases List.mem_cons.1 hd with rfl | hd
            · exact Int.le_refl _
            · exact hback d hd
        have hsame : d.2 = e.2 := by omega
        have hfirst := hstable e.2
        rw [filter_of_first hfront, List.filter_cons_of_pos (by simpa using hsame)] at hfirst
        rw [List.head?_cons, (List.cons.inj hfirst).1]

end

/-! ## Matches -/

/-- The number of an element: its `id`, of which truth values count as one and zero and everything
else that is not a whole number as zero. -/
def number (fields : List (String × Value)) : Int :=
  match Value.lookup "id" fields with
  | some (.int n) => n
  | some (.bool true) => 1
  | some (.bool false) => 0
  | _ => 0

/-- What an element settles of a key, with its number: the element is an object, its
`text_signature` is a text that spells a signature, and this has the key as its hash, or it cannot
be hashed. -/
def match? (kind : LookupKind) (key : String) : Value → Option (Except Fault Signature × Int)
  | .object fields =>
    match Value.lookup "text_signature" fields with
    | some (.text s) =>
      match Signature.parse s with
      | .ok sig =>
        match kind.hashed sig with
        | .ok computed => if computed = key then some (.ok sig, number fields) else none
        | .error f => some (.error f, number fields)
      | .error _ => none
    | _ => none
  | _ => none

variable {s : JsonService} {web : Web} {kind : LookupKind} {key : Value} {k : String}
  {fields : List (String × Value)} {results : List Value}

def told? (kind : LookupKind) (key : String) (e : String × Int) :
    Option (Except Fault Signature × Int) :=
  (settled? kind key (.text e.1)).map fun r => (r, e.2)

theorem number_eq (fields : List (String × Value)) :
    ((Value.lookup "id" fields).bind Value.int?).getD 0 = number fields := by
  unfold number
  cases Value.lookup "id" fields with
  | none => rfl
  | some v =>
      cases v with
      | bool b => cases b <;> rfl
      | _ => rfl

theorem match?_eq_bind (v : Value) : match? kind k v = ( entry? v).bind (told? kind k) := by
  cases v with
  | object fields =>
      unfold match? entry?
      dsimp only
      cases Value.lookup "text_signature" fields with
      | none => rfl
      | some text =>
          cases text with
          | text s =>
              unfold told? settled?
              rw [number_eq]
              dsimp only [Option.bind]
              cases Signature.parse s with
              | error f => rfl
              | ok sig =>
                  dsimp only
                  cases kind.hashed sig with
                  | error f => rfl
                  | ok computed =>
                      dsimp only
                      split <;> rfl
          | _ => rfl
  | _ => rfl

theorem snd_of_told? {e : String × Int} {d : Except Fault Signature × Int}
    (h : told? kind k e = some d) : d.2 = e.2 := by
  obtain ⟨r, -, rfl⟩ := Option.map_eq_some_iff.1 h
  rfl

theorem filter_told (entries : List (String × Int)) (n : Int) :
    (entries.filterMap (told? kind k)).filter (·.2 == n) =
      (entries.filter (·.2 == n)).filterMap (told? kind k) := by
  rw [List.filter_filterMap, List.filterMap_filter]
  apply List.filterMap_congr
  intro e _
  cases htold : told? kind k e with
  | none => simp
  | some d =>
      have hnumber := snd_of_told? htold
      simp [Option.filter, hnumber]

/-- The first candidate that settles the search is the first of the ranking that does. -/
theorem findSome?_ranked (results : List Value) :
    ((ranked results).map Value.text).findSome? (settled? kind k) =
      (((results.filterMap entry?).mergeSort newer).filterMap (told? kind k)).head?.map
        Prod.fst := by
  have hempty : settled? kind k (.text "") = none := rfl
  unfold ranked
  change ((((results.filterMap entry?).mergeSort newer).map Prod.fst |>.filter (· ≠ "")).map
    Value.text).findSome? (settled? kind k) = _
  induction (results.filterMap entry?).mergeSort newer with
  | nil => rfl
  | cons e rest ih =>
      rw [List.map_cons, List.filterMap_cons]
      unfold told?
      by_cases hname : e.1 = ""
      · rw [List.filter_cons_of_neg (by simpa using hname), hname, hempty]
        exact ih
      · rw [List.filter_cons_of_pos (by simpa using hname), List.map_cons, List.findSome?_cons]
        cases settled? kind k (.text e.1) with
        | none => exact ih
        | some r => rfl

end ContractAbi.NumberedDirectory
