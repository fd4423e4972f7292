import ContractAbi.Proofs.Resolver.View

/-!
# What one lookup does

A lookup that finds its key in the memo answers from there. Otherwise it goes through the sources
from the first one on and stops at the first that lists a candidate which is accepted.

* `Declines` and `Names`: what a source may have for a key;
* `outcome_search`: a search ends at the first source that names a signature, or asks all of them;
* `search_append`: sources behind that one do not matter;
* `resolve_known` and `resolve_unknown`: answering from the memo, and from the sources.
-/

namespace ContractAbi

theorem Traced.result_map {α β : Type} (f : α → β) (t : Traced α) :
    (f <$> t).result = t.result.map f := by
  obtain ⟨_ | _, events⟩ := t <;> rfl

namespace Resolver

variable {kind : LookupKind} {key : String} {source : SignatureSource}
  {sources before after : List SignatureSource} {sig : Signature} {memo : Memo}

/-! ## Sources -/

/-- The source names no signature for the key: it fails, or no candidate that it lists spells a
signature with the key as its hash, or one that cannot be hashed. -/
inductive Declines (kind : LookupKind) (key : String) (source : SignatureSource) : Prop
  | failed (h : offered? source kind key = none)
  | listed {v : Value} {items : List Value} (hoffer : offered? source kind key = some v)
      (hitems : v.toItems = .ok items) (hnone : ∀ c ∈ items, settled? kind key c = none)

/-- The source lists candidates, of which this signature is the first that has the key as its
hash. -/
def Names (kind : LookupKind) (key : String) (source : SignatureSource) (sig : Signature) : Prop :=
  ∃ v front s back, offered? source kind key = some v ∧
    v.toItems = .ok (front ++ .text s :: back) ∧ (∀ c ∈ front, settled? kind key c = none) ∧
    Signature.parse s = .ok sig ∧ kind.hashed sig = .ok key

/-- The source fails, or answers with a list in which all signatures can be hashed. -/
def Lists (kind : LookupKind) (key : String) (source : SignatureSource) : Prop :=
  ∀ v, offered? source kind key = some v → ∃ items, v = .list items ∧
    ∀ s sig, .text s ∈ items → Signature.parse s = .ok sig → Text.loneHalves? sig.text = none

theorem chosen_eq_none_iff {items : List Value} :
    chosen kind key items = .ok none ↔ ∀ c ∈ items, settled? kind key c = none := by
  rw [← List.findSome?_eq_none_iff, chosen]
  cases items.findSome? (settled? kind key) with
  | none => simp
  | some r => cases r <;> simp

theorem chosen_eq_some_iff {items : List Value} :
    chosen kind key items = .ok (some sig) ↔ ∃ front s back, items = front ++ .text s :: back ∧
      (∀ c ∈ front, settled? kind key c = none) ∧ Signature.parse s = .ok sig ∧
      kind.hashed sig = .ok key := by
  have hfirst : chosen kind key items = .ok (some sig) ↔
      items.findSome? (settled? kind key) = some (.ok sig) := by
    rw [chosen]
    cases items.findSome? (settled? kind key) with
    | none => simp
    | some r => cases r <;> simp
  rw [hfirst, List.findSome?_eq_some_iff]
  constructor
  · rintro ⟨front, c, back, rfl, hc, hfront⟩
    obtain ⟨s, parsed, rfl, hparse, ⟨hhash, hr⟩ | ⟨f, -, hr⟩⟩ := settled?_eq_some_iff.1 hc
    · obtain rfl := Except.ok.inj hr
      exact ⟨front, s, back, rfl, hfront, hparse, hhash⟩
    · exact absurd hr (by simp)
  · rintro ⟨front, s, back, rfl, hfront, hparse, hhash⟩
    exact ⟨front, .text s, back, rfl,
      settled?_eq_some_iff.2 ⟨s, sig, rfl, hparse, .inl ⟨hhash, rfl⟩⟩, hfront⟩

/-- A choice is made, if all signatures among the candidates can be hashed. -/
theorem exists_chosen {items : List Value} (h : ∀ s sig, .text s ∈ items →
    Signature.parse s = .ok sig → Text.loneHalves? sig.text = none) :
    ∃ found, chosen kind key items = .ok found := by
  rw [chosen]
  cases hfirst : items.findSome? (settled? kind key) with
  | none => exact ⟨none, rfl⟩
  | some r =>
      obtain ⟨v, hv, hsettled⟩ := List.exists_of_findSome?_eq_some hfirst
      obtain ⟨s, sig, rfl, hparse, ⟨-, rfl⟩ | ⟨f, hhashed, rfl⟩⟩ := settled?_eq_some_iff.1 hsettled
      · exact ⟨some sig, rfl⟩
      · have hok := hashed_eq_ok_iff.2 ⟨h s sig hv hparse, @rfl _ (kind.hash sig)⟩
        exact absurd (hok.symm.trans hhashed) (by simp)

theorem names_iff : Names kind key source sig ↔
    ∃ v items, offered? source kind key = some v ∧ v.toItems = .ok items ∧
      chosen kind key items = .ok (some sig) := by
  simp only [chosen_eq_some_iff]
  constructor
  · rintro ⟨v, front, s, back, hoffer, hitems, hfirst⟩
    exact ⟨v, _, hoffer, hitems, front, s, back, rfl, hfirst⟩
  · rintro ⟨v, items, hoffer, hitems, front, s, back, rfl, hfirst⟩
    exact ⟨v, front, s, back, hoffer, hitems, hfirst⟩

/-! ## Searches -/

theorem search_cons_failed (h : offered? source kind key = none) (rest : List SignatureSource) :
    (search kind key (source :: rest)).result =
      (search kind key rest).result.map fun l => ⟨l.signature, false, l.asked + 1⟩ := by
  rw [search, Traced.result_bind, result_query, Except.ok_bind, h]
  dsimp only
  rw [Traced.result_bind]
  cases (search kind key rest).result <;> rfl

theorem search_cons_listed {v : Value} {items : List Value}
    (hoffer : offered? source kind key = some v) (hitems : v.toItems = .ok items)
    (rest : List SignatureSource) :
    (search kind key (source :: rest)).result =
      chosen kind key items >>= fun found =>
        match found with
        | some sig => .ok ⟨some sig, true, 1⟩
        | none =>
          (search kind key rest).result.map fun l => ⟨l.signature, l.answered, l.asked + 1⟩ := by
  rw [search, Traced.result_bind, result_query, Except.ok_bind, hoffer]
  dsimp only
  rw [Traced.result_bind, Traced.result_ofExcept, hitems, Except.ok_bind, Traced.result_bind,
    result_pick]
  refine congrArg (chosen kind key items >>= ·) (funext fun found => ?_)
  cases found with
  | some sig => rfl
  | none =>
      dsimp only
      rw [Traced.result_bind]
      cases (search kind key rest).result <;> rfl

/-- How a search ends: at the first source that names a signature, or behind all sources. Then every
source has given an answer, or some source has not. -/
inductive Outcome (kind : LookupKind) (key : String) : List SignatureSource → Lookup → Prop
  | named {before : List SignatureSource} {source : SignatureSource} {sig : Signature}
      (hbefore : ∀ b ∈ before, Declines kind key b) (hnames : Names kind key source sig)
      (after : List SignatureSource) (answered : Bool) :
      Outcome kind key (before ++ source :: after) ⟨some sig, answered, before.length + 1⟩
  | exhausted {sources : List SignatureSource} (h : ∀ s ∈ sources, Declines kind key s) :
      Outcome kind key sources
        ⟨none, sources.all fun s => (offered? s kind key).isSome, sources.length⟩

theorem Outcome.behind {l : Lookup} (h : Outcome kind key sources l)
    (hsource : Declines kind key source) :
    Outcome kind key (source :: sources)
      ⟨l.signature, (offered? source kind key).isSome && l.answered, l.asked + 1⟩ := by
  cases h with
  | @named before named sig hbefore hnames after answered =>
      have hall : ∀ b ∈ source :: before, Declines kind key b :=
        List.forall_mem_cons.2 ⟨hsource, hbefore⟩
      exact .named hall hnames after _
  | exhausted h => exact .exhausted (List.forall_mem_cons.2 ⟨hsource, h⟩)

theorem outcome_search {l : Lookup} (h : (search kind key sources).result = .ok l) :
    Outcome kind key sources l := by
  induction sources generalizing l with
  | nil =>
      obtain rfl := Except.ok.inj h
      exact .exhausted (by simp)
  | cons source rest ih =>
      cases hoffer : offered? source kind key with
      | none =>
          rw [search_cons_failed hoffer] at h
          obtain ⟨found, hfound, rfl⟩ := Except.map_eq_ok_iff.1 h
          have hbehind := (ih hfound).behind (Declines.failed hoffer)
          rwa [hoffer] at hbehind
      | some v =>
          cases hitems : v.toItems with
          | error f =>
              rw [search, Traced.result_bind, result_query, Except.ok_bind, hoffer] at h
              dsimp only at h
              rw [Traced.result_bind, Traced.result_ofExcept, hitems] at h
              exact absurd h (by simp)
          | ok items =>
              rw [search_cons_listed hoffer hitems] at h
              obtain ⟨choice, hchosen, h⟩ := Except.bind_eq_ok_iff.1 h
              cases choice with
              | some sig =>
                  obtain rfl := Except.ok.inj h
                  have hnone : ∀ b ∈ ([] : List SignatureSource), Declines kind key b := by simp
                  exact .named hnone (names_iff.2 ⟨v, items, hoffer, hitems, hchosen⟩) rest true
              | none =>
                  obtain ⟨found, hfound, rfl⟩ := Except.map_eq_ok_iff.1 h
                  have hdeclines := Declines.listed hoffer hitems (chosen_eq_none_iff.1 hchosen)
                  have hbehind := (ih hfound).behind hdeclines
                  rw [hoffer] at hbehind
                  exact hbehind

/-- A search finds the same, and asks the same, whatever sources there are behind one that names a
signature. -/
theorem search_append (hnames : Names kind key source sig) (before after : List SignatureSource) :
    search kind key (before ++ source :: after) = search kind key (before ++ [source]) := by
  induction before with
  | nil =>
      obtain ⟨v, items, hoffer, hitems, hchosen⟩ := names_iff.1 hnames
      rw [List.nil_append, List.nil_append, search, search]
      refine Traced.bind_congr ((result_query source kind key).trans (by rw [hoffer])) ?_
      refine Traced.bind_congr hitems ?_
      exact Traced.bind_congr ((result_pick _ kind key items).trans hchosen) rfl
  | cons b rest ih =>
      rw [List.cons_append, List.cons_append, search, search, ih]

/-- A search answers, if the sources fail or answer with lists of what can be hashed. -/
theorem exists_search (h : ∀ s ∈ sources, Lists kind key s) :
    ∃ l, (search kind key sources).result = .ok l := by
  induction sources with
  | nil => exact ⟨_, rfl⟩
  | cons source rest ih =>
      obtain ⟨hsource, hrest⟩ := List.forall_mem_cons.1 h
      obtain ⟨found, hfound⟩ := ih hrest
      cases hoffer : offered? source kind key with
      | none =>
          rw [search_cons_failed hoffer, hfound]
          exact ⟨_, rfl⟩
      | some v =>
          obtain ⟨items, rfl, hhashable⟩ := hsource v hoffer
          obtain ⟨choice, hchosen⟩ := @exists_chosen kind key items hhashable
          rw [search_cons_listed hoffer rfl, hfound, hchosen]
          cases choice with
          | some sig => exact ⟨_, rfl⟩
          | none => exact ⟨_, rfl⟩

/-! ## The memo -/

theorem resolve_known {r : Option Signature} (h : memo.known? key = some r) :
    resolve sources kind key memo = (.answer r, memo) := by
  unfold resolve
  simp only [Bind.bind, Session.bind, Session.get, Traced.answer, h]
  rfl

/-- What a search leaves for its key: what it found, if that is final. -/
def learnt? (kind : LookupKind) (key : String) (sources : List SignatureSource) :
    Option (Option Signature) :=
  (search kind key sources).result.toOption.bind fun l =>
    if l.isFinal then some l.signature else none

/-- What is not remembered is searched for, with all that happens on the way. -/
theorem resolve_unknown (h : memo.known? key = none) :
    resolve sources kind key memo =
      (Lookup.signature <$> search kind key sources,
        ((learnt? kind key sources).map (memo.remember key)).getD memo) := by
  unfold resolve learnt?
  simp only [Bind.bind, Session.bind, Session.get, Traced.answer, h, Session.lift]
  cases hfound : (search kind key sources).result with
  | error f =>
      simp only [Functor.map, Traced.bind, hfound]
      rfl
  | ok l =>
      by_cases hfinal : l.isFinal = true
      · simp only [Functor.map, Traced.bind, hfound, Except.toOption, Option.bind, if_pos hfinal]
        rfl
      · simp only [Functor.map, Traced.bind, hfound, Except.toOption, Option.bind, if_neg hfinal]
        rfl

/-- A lookup leaves what it has learnt of its key, if nothing was known of it, and all else as it
was. -/
theorem known?_resolve (sources : List SignatureSource) (kind : LookupKind) (key : String)
    (memo : Memo) (k : String) :
    (resolve sources kind key memo).2.known? k =
      (memo.known? k).or (if key = k then learnt? kind key sources else none) := by
  cases hknown : memo.known? key with
  | some r =>
      rw [resolve_known hknown]
      split
      · rename_i hsame
        rw [← hsame, hknown]
        rfl
      · rw [Option.or_none]
  | none =>
      rw [resolve_unknown hknown]
      cases learnt? kind key sources with
      | none =>
          rw [ite_self, Option.or_none]
          rfl
      | some r =>
          change (memo.remember key r).known? k = _
          rw [Memo.known?_remember]
          split
          · rename_i hsame
            rw [← hsame, hknown]
            rfl
          · rw [Option.or_none]

theorem learnt?_eq_some_iff {r : Option Signature} : learnt? kind key sources = some r ↔
    ∃ l, (search kind key sources).result = .ok l ∧ l.isFinal = true ∧ l.signature = r := by
  unfold learnt?
  cases (search kind key sources).result with
  | error f => simp [Except.toOption]
  | ok l => simp [Except.toOption]

/-- The search finds the signature at the first source that names one. It asks the sources up to
that one, and those behind it do not matter. -/
def NamedFirst (kind : LookupKind) (key : String) (sources : List SignatureSource)
    (sig : Signature) : Prop :=
  ∃ before source after, sources = before ++ source :: after ∧
    (∀ b ∈ before, Declines kind key b) ∧ Names kind key source sig ∧
    (∃ answered, (search kind key sources).result = .ok ⟨some sig, answered, before.length + 1⟩) ∧
    ∀ others, search kind key (before ++ source :: others) = search kind key sources

theorem namedFirst_of_search {l : Lookup} (h : (search kind key sources).result = .ok l)
    (hsig : l.signature = some sig) : NamedFirst kind key sources sig := by
  cases outcome_search h with
  | @named before source named hbefore hnames after answered =>
      obtain rfl := Option.some.inj hsig
      refine ⟨before, source, after, rfl, hbefore, hnames, ⟨answered, h⟩, fun others => ?_⟩
      rw [search_append hnames before others, search_append hnames before after]
  | exhausted hall => exact absurd hsig (by simp)

/-- A search without a signature goes through all sources, and none of them names one. -/
theorem declines_of_search {l : Lookup} (h : (search kind key sources).result = .ok l)
    (hnone : l.signature = none) : (∀ s ∈ sources, Declines kind key s) ∧
      l.answered = sources.all fun s => (offered? s kind key).isSome := by
  cases outcome_search h with
  | named hbefore hnames after answered => exact absurd hnone (by simp)
  | exhausted hall => exact ⟨hall, rfl⟩

/-- That there is no signature is only learnt where every source gives an answer. -/
theorem answered_of_learnt? (h : learnt? kind key sources = some none) :
    ∀ s ∈ sources, (offered? s kind key).isSome = true ∧ Declines kind key s := by
  obtain ⟨l, hfound, hfinal, hnone⟩ := learnt?_eq_some_iff.1 h
  obtain ⟨hall, hanswered⟩ := declines_of_search hfound hnone
  have hevery : l.answered = true := by
    rw [Lookup.isFinal, hnone] at hfinal
    exact hfinal
  rw [hanswered, List.all_eq_true] at hevery
  exact fun s hs => ⟨hevery s hs, hall s hs⟩

/-- Nothing is learnt from a search without a signature in which some source fails. -/
theorem learnt?_eq_none {l : Lookup} (h : (search kind key sources).result = .ok l)
    (hnone : l.signature = none) (hfails : ∃ s ∈ sources, offered? s kind key = none) :
    learnt? kind key sources = none := by
  obtain ⟨s, hs, hfails⟩ := hfails
  cases hlearnt : learnt? kind key sources with
  | none => rfl
  | some r =>
      obtain ⟨l', hfound, -, rfl⟩ := learnt?_eq_some_iff.1 hlearnt
      obtain rfl := Except.ok.inj (h.symm.trans hfound)
      rw [hnone] at hlearnt
      obtain ⟨hsome, -⟩ := answered_of_learnt? hlearnt s hs
      rw [hfails] at hsome
      exact absurd hsome (by decide)

theorem not_declines_of_names (h : Names kind key source sig) : ¬Declines kind key source := by
  obtain ⟨v, items, hoffer, hitems, hchosen⟩ := names_iff.1 h
  intro hdeclines
  cases hdeclines with
  | failed hfailed => exact absurd (hoffer.symm.trans hfailed) (by simp)
  | @listed w others hoffer' hitems' hnone =>
      obtain rfl := Option.some.inj (hoffer.symm.trans hoffer')
      obtain rfl := Except.ok.inj (hitems.symm.trans hitems')
      exact absurd (hchosen.symm.trans (chosen_eq_none_iff.2 hnone)) (by simp)

end Resolver

end ContractAbi
