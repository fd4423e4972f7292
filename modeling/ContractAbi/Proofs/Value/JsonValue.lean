import ContractAbi.Proofs.Value.JsonDocument
import ContractAbi.Proofs.Value.JsonDouble

/-!
# What is read from JSON

JSON can carry whatever is read from a document without halves of pairs: two halves that it escapes
are read as a pair, numbers are doubles or have no more digits than they may, and no object has two
fields of one name.

* `carried_of_readText`: the texts that are read;
* `plain_float_iff`: the doubles that are carried;
* `nodup_ofFields`: the fields of an object;
* `plain_readNumber`: numbers;
* `readsPlain`: values, by induction on the steps that are taken;
* `plain_readDocument`: documents.
-/

namespace ContractAbi.JsonReader

open Text Value Binary64

variable {cs : List Char} {v : Value} {fuel depth : Nat} {c c' : Cursor}

/-! ## Texts -/

/-- What was read is `ps`, with its last character first; and behind the first half of a pair the
text does not go on with the second half. -/
structure ReadSoFar (acc cs : List Char) (ps : List Point) : Prop where
  written : acc.reverse = ps.flatMap Point.chars
  proper : ∀ p ∈ ps, p.Proper
  apart : ps.IsChain Apart
  behind : ∀ n, ps.getLast? = some (.half n) → isHighHalf n = true → LacksLow cs

section

variable {acc rest : List Char} {ps : List Point} {p : Point} {start offset first more : Nat}
  {s : String}

theorem readSoFar_nil (cs : List Char) : ReadSoFar [] cs [] where
  written := rfl
  proper := List.forall_mem_nil _
  apart := List.isChain_nil
  behind := nofun

theorem ReadSoFar.concat (h : ReadSoFar acc cs ps) (hp : p.Proper)
    (hlast : ∀ n, ps.getLast? = some (.half n) → Apart (.half n) p)
    (hbehind : ∀ n, p = .half n → isHighHalf n = true → LacksLow rest) :
    ReadSoFar (p.chars.reverse ++ acc) rest (ps ++ [p]) where
  written := by simp [h.written]
  proper q hq := by
    rcases List.mem_append.1 hq with hq | hq
    · exact h.proper q hq
    · rwa [List.mem_singleton.1 hq]
  apart := by
    refine List.isChain_append.2 ⟨h.apart, List.isChain_singleton p, ?_⟩
    intro q hq r hr
    obtain rfl := Option.some.inj hr
    cases q with
    | char c => exact apart_char c _
    | half n => exact hlast n hq
  behind n hn := hbehind n (by simpa using hn)

theorem ReadSoFar.concat_char (h : ReadSoFar acc cs ps) (c : Char) (rest : List Char) :
    ReadSoFar ((ofChar c).reverse ++ acc) rest (ps ++ [.char c]) :=
  h.concat (show (Point.char c).Proper from trivial) (fun _ _ => apart_of_char _ c) nofun

theorem ReadSoFar.carried (h : ReadSoFar acc cs ps) : Carried (String.ofList acc.reverse) :=
  ⟨ps, h.proper, h.apart, by rw [h.written, ofPoints]⟩

theorem eq_of_ofNat_eq_half {m n : Nat} (h : Point.ofNat m = .half n) : n = m := by
  unfold Point.ofNat at h
  split at h
  · exact (Point.half.inj h).symm
  · exact absurd h (by simp)

/-- What escaped units stand for is a half only if it is the first unit, and no second half of a
pair follows it. -/
theorem joinUnits_eq_some (h : joinUnits first rest = some (p, more)) :
    p.Proper ∧ ∀ n, p = .half n →
      n = first ∧ more = 0 ∧ (isHighHalf n = true → LacksLow rest) := by
  -- the first unit stands alone where no second half follows it
  have halone (hread : (Point.ofNat first, 0) = (p, more))
      (hlacks : isHighHalf first = true → LacksLow rest) :
      p.Proper ∧ ∀ n, p = .half n →
        n = first ∧ more = 0 ∧ (isHighHalf n = true → LacksLow rest) := by
    obtain ⟨rfl, rfl⟩ := Prod.mk.inj hread
    refine ⟨proper_ofNat first, fun n hn => ?_⟩
    obtain rfl := eq_of_ofNat_eq_half hn
    exact ⟨rfl, rfl, hlacks⟩
  unfold joinUnits at h
  cases hhigh : isHighHalf first with
  | false =>
      rw [hhigh, if_neg (by decide)] at h
      exact halone (Option.some.inj h) fun hhigh' => absurd (hhigh.symm.trans hhigh') (by decide)
  | true =>
      rw [hhigh, if_pos rfl] at h
      cases hunit : unitBehind? rest with
      | none =>
          rw [hunit] at h
          exact halone (Option.some.inj h) fun _ => lacksLow_of_none hunit
      | some unit =>
          rw [hunit] at h
          cases unit with
          | none => exact absurd h (by simp)
          | some second =>
              dsimp only at h
              split at h
              · obtain ⟨rfl, -⟩ := Prod.mk.inj (Option.some.inj h)
                exact ⟨trivial, nofun⟩
              · rename_i hlow
                refine halone (Option.some.inj h) fun _ unit hother => ?_
                rw [hunit] at hother
                exact ⟨second, (Option.some.inj hother).symm, Bool.eq_false_iff.2 hlow⟩

/-- The unit behind the text that was read is no second half, where a second half may not follow. -/
theorem LacksLow.isLowHalf (h : LacksLow ('\\' :: 'u' :: rest))
    (hfirst : fourDigits? rest = some first) : isLowHalf first = false := by
  have hlength : 4 < rest.length := by
    by_contra hshort
    rw [fourDigits?, if_pos (by omega)] at hfirst
    exact absurd hfirst (by simp)
  have hunit : unitBehind? ('\\' :: 'u' :: rest) = some (some first) := by
    rw [unitBehind?, if_pos hlength, hfirst]
  obtain ⟨n, hn, hlow⟩ := h _ hunit
  rwa [← Option.some.inj hn] at hlow

theorem isReserved_of_simpleEscape? {c d : Char} (h : simpleEscape? d = some c) :
    isReserved c = false := by
  unfold simpleEscape? at h
  split at h <;> first | (rw [← Option.some.inj h]; rfl) | exact absurd h (by simp)

theorem readText_cover {d : Char} (hd : isReserved d = true)
    (h : readText start fuel offset acc (cover d :: rest) = .ok (s, c')) :
    ∃ left, fuel = left + 1 ∧
      readText start left (offset + 1) (cover d :: acc) rest = .ok (s, c') := by
  have hlarge : 0x10f000 ≤ (cover d).toNat := (isCover_iff.1 (isCover_cover hd)).1
  have hother : ∀ c : Char, c.toNat < 0x10f000 → cover d ≠ c := by
    rintro c hc rfl
    omega
  obtain _ | fuel := fuel
  · rw [readText] at h
    exact absurd h (by simp)
  · rw [readText_plain (hother _ (by decide)) (by omega) (hother _ (by decide))] at h
    exact ⟨fuel, rfl, h⟩

theorem ReadSoFar.concat_unit (h : ReadSoFar acc ('\\' :: 'u' :: rest) ps)
    (hfirst : fourDigits? rest = some first)
    (hjoin : joinUnits first (rest.drop 4) = some (p, more)) :
    ReadSoFar (p.chars.reverse ++ acc) ((rest.drop 4).drop more) (ps ++ [p]) := by
  obtain ⟨hp, hhalf⟩ := joinUnits_eq_some hjoin
  refine h.concat hp ?_ ?_
  · intro n hlast _ m hn hm hhigh
    obtain rfl := Point.half.inj hn
    obtain ⟨rfl, -, -⟩ := hhalf m hm
    exact (h.behind n hlast hhigh).isLowHalf hfirst
  · intro n hn hhigh
    obtain ⟨-, rfl, hlacks⟩ := hhalf n hn
    exact hlacks hhigh

/-- A step of reading ends at the quote, or goes on behind what it has read. -/
theorem exists_step_of_readText (hread : ReadSoFar acc cs ps) (hwhole : Whole cs)
    (h : readText start fuel offset acc cs = .ok (s, c')) :
    (s = String.ofList acc.reverse ∧ Whole c'.rest) ∨
      ∃ left offset' acc' behind ps', left < fuel ∧ ReadSoFar acc' behind ps' ∧ Whole behind ∧
        readText start left offset' acc' behind = .ok (s, c') := by
  rw [readText.eq_def] at h
  obtain _ | fuel := fuel
  · exact absurd h (by simp)
  obtain _ | ⟨c, rest⟩ := cs
  · exact absurd h (by simp)
  obtain ⟨hhalf, hcover, hrest⟩ := hwhole
  dsimp only at h
  split_ifs at h with hquote hcontrol hslash
  · obtain ⟨rfl, rfl⟩ := Prod.mk.inj (Except.ok.inj h)
    exact .inl ⟨rfl, hrest⟩
  · by_cases hmark : c = mark
    · -- a mark and the cover behind it are read in two steps
      obtain ⟨d, behind, hd, rfl⟩ := hcover hmark
      subst hmark
      have hnext := hread.concat_char d behind
      rw [ofChar, if_pos hd, List.reverse_cons, List.reverse_singleton,
        List.singleton_append, List.cons_append, List.singleton_append] at hnext
      obtain ⟨left, rfl, hleft⟩ := readText_cover hd h
      exact .inr ⟨left, _, _, _, _, by omega, hnext, hrest.2.2, hleft⟩
    · have hreserved : isReserved c = false :=
        Bool.or_eq_false_iff.2 ⟨hhalf, beq_eq_false_iff_ne.2 hmark⟩
      have hnext := hread.concat_char c rest
      rw [ofChar_of_not_reserved hreserved] at hnext
      exact .inr ⟨fuel, _, _, _, _, Nat.lt_succ_self _, hnext, hrest, h⟩
  · rw [Decidable.not_not] at hslash
    subst hslash
    split at h
    · exact absurd h (by simp)
    · rename_i behind
      split at h
      · exact absurd h (by simp)
      · rename_i first hfirst
        split at h
        · exact absurd h (by simp)
        · rename_i p more hjoin
          have hleft : Whole ((behind.drop 4).drop more) := hrest.2.2.of_suffix
            ((List.drop_suffix _ _).trans (List.drop_suffix _ _))
          have hnext := hread.concat_unit hfirst hjoin
          exact .inr ⟨fuel, _, _, _, _, Nat.lt_succ_self _, hnext, hleft, h⟩
    · rename_i d behind _
      split at h
      · rename_i x hx
        have hnext := hread.concat_char x behind
        rw [ofChar_of_not_reserved (isReserved_of_simpleEscape? hx)] at hnext
        exact .inr ⟨fuel, _, _, _, _, Nat.lt_succ_self _, hnext, hrest.2.2, h⟩
      · exact absurd h (by simp)

theorem carried_of_readText (hread : ReadSoFar acc cs ps) (hwhole : Whole cs)
    (h : readText start fuel offset acc cs = .ok (s, c')) : Carried s ∧ Whole c'.rest := by
  induction fuel using Nat.strongRecOn generalizing offset acc cs ps with
  | ind fuel ih =>
      rcases exists_step_of_readText hread hwhole h with
        ⟨rfl, hrest⟩ | ⟨left, offset', acc', behind, ps', hless, hnext, hleft, h⟩
      · exact ⟨hread.carried, hrest⟩
      · exact ih left hless hnext hleft h

end

/-! ## Numbers -/

theorem plain_float {x : Binary64} (h : x.Proper) : Plain depth (.float x) := by
  rw [Plain]
  exact fun _ _ => reads_double h

theorem isDigit_of_mem_wholePart {d : Char} (h : d ∈ wholePart cs) : d.isDigit = true := by
  unfold wholePart at h
  split at h
  · rw [List.mem_singleton.1 h]
    rfl
  · exact List.mem_takeWhile_imp h

/-- A number that is read is a whole number without too many digits, or a double. -/
theorem readNumber_cases (h : readNumber c = .ok (v, c')) :
    (∃ n, v = .int n ∧ (Nat.toDigits 10 n.natAbs).length ≤ Integer.maxDigits) ∨
      ∃ x, v = .float x ∧ x.Proper := by
  unfold readNumber at h
  extract_lets negative body whole fraction exponent size n at h
  have hdigits : ∀ d ∈ whole, d.isDigit = true := fun d hd => isDigit_of_mem_wholePart hd
  split at h
  · exact absurd h (by simp [expectingValue])
  · rename_i hwhole
    split at h
    · split at h
      · exact absurd h (by simp)
      · rename_i hsize
        obtain ⟨rfl, -⟩ := Prod.mk.inj (Except.ok.inj h)
        have hlength := length_toDigits_digitsValue hdigits (by simpa using hwhole)
        have hsame : (if negative then -n else n).natAbs = digitsValue whole := by
          split
          · exact Int.natAbs_neg _
          · rfl
        refine .inl ⟨_, rfl, ?_⟩
        rw [hsame]
        omega
    · split at h
      · rename_i x hread
        obtain ⟨rfl, -⟩ := Prod.mk.inj (Except.ok.inj h)
        exact .inr ⟨x, rfl, proper_read? hread⟩
      · exact absurd h (by simp [expectingValue])

theorem exists_advance_of_readNumber (h : readNumber c = .ok (v, c')) :
    ∃ n, c' = c.advance n := by
  unfold readNumber at h
  extract_lets negative body whole fraction exponent size n at h
  split at h
  · exact absurd h (by simp [expectingValue])
  · split at h
    · split at h
      · exact absurd h (by simp)
      · exact ⟨size, (Prod.mk.inj (Except.ok.inj h)).2.symm⟩
    · split at h
      · exact ⟨size, (Prod.mk.inj (Except.ok.inj h)).2.symm⟩
      · exact absurd h (by simp [expectingValue])

theorem plain_readNumber (h : readNumber c = .ok (v, c')) : Plain depth v := by
  rcases readNumber_cases h with ⟨n, rfl, hn⟩ | ⟨x, rfl, hx⟩
  · rwa [Plain]
  · exact plain_float hx

/-! ## Words -/

theorem mem_words_of_readWord? (h : readWord? c = some (v, c')) : ∃ word, (word, v) ∈ words := by
  obtain ⟨⟨word, w⟩, hfound, hw⟩ := Option.map_eq_some_iff.1 h
  obtain ⟨rfl, -⟩ := Prod.mk.inj hw
  exact ⟨word, List.mem_of_find?_eq_some hfound⟩

theorem exists_advance_of_readWord? (h : readWord? c = some (v, c')) :
    ∃ n, c' = c.advance n := by
  obtain ⟨⟨word, w⟩, -, hw⟩ := Option.map_eq_some_iff.1 h
  exact ⟨_, (Prod.mk.inj hw).2.symm⟩

theorem plain_readWord? (h : readWord? c = some (v, c')) : Plain depth v := by
  obtain ⟨word, hword⟩ := mem_words_of_readWord? h
  simp only [words, List.mem_cons, Prod.mk.injEq, List.not_mem_nil, or_false] at hword
  rcases hword with ⟨-, rfl⟩ | ⟨-, rfl⟩ | ⟨-, rfl⟩ | ⟨-, rfl⟩ | ⟨-, rfl⟩ | ⟨-, rfl⟩
  · rw [Plain]
    trivial
  · rw [Plain]
    trivial
  · rw [Plain]
    trivial
  · exact plain_float trivial
  · exact plain_float trivial
  · exact plain_float trivial

/-! ## Fields -/

section

variable {key : String} {fields : List (String × Value)} {f : String × Value}

theorem mem_of_mem_insert (h : f ∈ Value.insert key v fields) : f = (key, v) ∨ f ∈ fields := by
  unfold Value.insert at h
  split at h
  · obtain ⟨g, hg, rfl⟩ := List.mem_map.1 h
    split
    · exact .inl rfl
    · exact .inr hg
  · rcases List.mem_append.1 h with h | h
    · exact .inr h
    · exact .inl (List.mem_singleton.1 h)

theorem nodup_insert (h : (fields.map Prod.fst).Nodup) :
    ((Value.insert key v fields).map Prod.fst).Nodup := by
  by_cases hkey : key ∈ fields.map Prod.fst
  · have hany : (fields.any fun f => f.1 == key) = true := by
      obtain ⟨f, hf, rfl⟩ := List.mem_map.1 hkey
      exact List.any_eq_true.2 ⟨f, hf, BEq.rfl⟩
    have hnames : (fields.map fun f => if f.1 == key then (key, v) else f).map Prod.fst =
        fields.map Prod.fst := by
      rw [List.map_map]
      apply List.map_congr_left
      intro f _
      by_cases hf : f.1 = key <;> simp [hf]
    rw [Value.insert, if_pos hany, hnames]
    exact h
  · rw [insert_of_not_mem hkey, List.map_append]
    apply List.nodup_append.2
    refine ⟨h, List.nodup_singleton _, ?_⟩
    intro k hk l hl heq
    rw [List.map_singleton, List.mem_singleton] at hl
    rw [heq, hl] at hk
    exact hkey hk

theorem mem_of_mem_ofFields (h : f ∈ Value.ofFields fields) : f ∈ fields := by
  induction fields using List.reverseRecOn with
  | nil => exact h
  | append_singleton fields g ih =>
      rw [Value.ofFields, List.foldl_append] at h
      rcases mem_of_mem_insert h with rfl | h
      · exact List.mem_append_right _ List.mem_cons_self
      · exact List.mem_append_left _ (ih h)

theorem nodup_ofFields (fields : List (String × Value)) :
    ((Value.ofFields fields).map Prod.fst).Nodup := by
  induction fields using List.reverseRecOn with
  | nil => exact List.nodup_nil
  | append_singleton fields g ih =>
      rw [Value.ofFields, List.foldl_append]
      exact nodup_insert ih

theorem plain_ofFields (h : ∀ f ∈ fields, Carried f.1 ∧ Plain depth f.2) :
    Plain (depth + 1) (.object (Value.ofFields fields)) := by
  rw [Plain]
  refine ⟨nodup_ofFields fields, List.forall_mem_map.2 fun f hf => ?_, fun f hf => ?_⟩
  · exact (h f (mem_of_mem_ofFields hf)).1
  · exact (h f (mem_of_mem_ofFields hf)).2

end

/-! ## Values -/

theorem whole_advance (h : Whole c.rest) (n : Nat) : Whole (c.advance n).rest :=
  h.of_suffix (List.drop_suffix n c.rest)

theorem whole_skipSpace (h : Whole c.rest) : Whole c.skipSpace.rest :=
  h.of_suffix (List.dropWhile_suffix _)

theorem carried_of_readQuoted {s : String} {rest : List Char} {start offset : Nat}
    (hwhole : Whole c.rest) (hquote : c.rest = '"' :: rest)
    (h : readText start fuel offset [] rest = .ok (s, c')) : Carried s ∧ Whole c'.rest := by
  rw [hquote] at hwhole
  exact carried_of_readText (readSoFar_nil rest) hwhole.2.2 h

/-- What is read with so much fuel is carried by JSON, with no more open lists and objects than
there may be. What is left of the document has no halves either. -/
structure ReadsPlain (fuel : Nat) : Prop where
  value : ∀ {depth c v c'}, Whole c.rest → readValue fuel depth c = .ok (v, c') →
    Plain depth v ∧ Whole c'.rest
  items : ∀ {depth c vs c'}, Whole c.rest → readItems fuel depth c = .ok (vs, c') →
    (∀ v ∈ vs, Plain depth v) ∧ Whole c'.rest
  fields : ∀ {depth c fs c'}, Whole c.rest → readFields fuel depth c = .ok (fs, c') →
    (∀ f ∈ fs, Carried f.1 ∧ Plain depth f.2) ∧ Whole c'.rest

theorem readsPlain_zero : ReadsPlain 0 where
  value _ h := by
    rw [readValue.eq_def] at h
    exact absurd h (by simp [expectingValue])
  items _ h := by
    rw [readItems.eq_def] at h
    exact absurd h (by simp [expectingValue])
  fields _ h := by
    rw [readFields.eq_def] at h
    exact absurd h (by simp [expectingValue])

theorem plain_readValue (ih : ReadsPlain fuel) (hwhole : Whole c.rest)
    (h : readValue (fuel + 1) depth c = .ok (v, c')) : Plain depth v ∧ Whole c'.rest := by
  have hinside := whole_skipSpace (whole_advance hwhole 1)
  rw [readValue.eq_def] at h
  dsimp only at h
  split at h
  · rename_i hquote
    obtain ⟨⟨s, behind⟩, hread, h⟩ := Except.bind_eq_ok_iff.1 h
    obtain ⟨rfl, rfl⟩ := Prod.mk.inj (Except.ok.inj h)
    rw [Plain]
    exact carried_of_readQuoted hwhole hquote hread
  · split at h
    · exact absurd h (by simp)
    · rename_i hdepth
      obtain ⟨depth, rfl⟩ := Nat.exists_eq_add_one_of_ne_zero hdepth
      split at h
      · obtain ⟨rfl, rfl⟩ := Prod.mk.inj (Except.ok.inj h)
        exact ⟨plain_ofFields (List.forall_mem_nil _), whole_advance hinside 1⟩
      · obtain ⟨⟨fields, behind⟩, hfields, h⟩ := Except.bind_eq_ok_iff.1 h
        obtain ⟨rfl, rfl⟩ := Prod.mk.inj (Except.ok.inj h)
        obtain ⟨hplain, hleft⟩ := ih.fields hinside hfields
        exact ⟨plain_ofFields hplain, hleft⟩
  · split at h
    · exact absurd h (by simp)
    · rename_i hdepth
      obtain ⟨depth, rfl⟩ := Nat.exists_eq_add_one_of_ne_zero hdepth
      split at h
      · obtain ⟨rfl, rfl⟩ := Prod.mk.inj (Except.ok.inj h)
        rw [Plain]
        exact ⟨List.forall_mem_nil _, whole_advance hinside 1⟩
      · obtain ⟨⟨items, behind⟩, hitems, h⟩ := Except.bind_eq_ok_iff.1 h
        obtain ⟨rfl, rfl⟩ := Prod.mk.inj (Except.ok.inj h)
        rw [Plain]
        exact ih.items hinside hitems
  · split at h
    · rename_i found hfound
      obtain rfl := Except.ok.inj h
      obtain ⟨n, rfl⟩ := exists_advance_of_readWord? hfound
      exact ⟨plain_readWord? hfound, whole_advance hwhole n⟩
    · obtain ⟨n, rfl⟩ := exists_advance_of_readNumber h
      exact ⟨plain_readNumber h, whole_advance hwhole n⟩

theorem plain_readItems (ih : ReadsPlain fuel) {vs : List Value} (hwhole : Whole c.rest)
    (h : readItems (fuel + 1) depth c = .ok (vs, c')) :
    (∀ v ∈ vs, Plain depth v) ∧ Whole c'.rest := by
  rw [readItems.eq_def] at h
  dsimp only at h
  obtain ⟨⟨v, behind⟩, hvalue, h⟩ := Except.bind_eq_ok_iff.1 h
  obtain ⟨hplain, hbehind⟩ := ih.value hwhole hvalue
  have hnext := whole_advance (whole_skipSpace hbehind) 1
  dsimp only at h
  split at h
  · obtain ⟨rfl, rfl⟩ := Prod.mk.inj (Except.ok.inj h)
    exact ⟨List.forall_mem_singleton.2 hplain, hnext⟩
  · obtain ⟨⟨rest, behind⟩, hrest, h⟩ := Except.bind_eq_ok_iff.1 h
    obtain ⟨rfl, rfl⟩ := Prod.mk.inj (Except.ok.inj h)
    obtain ⟨hothers, hleft⟩ := ih.items (whole_skipSpace hnext) hrest
    exact ⟨List.forall_mem_cons.2 ⟨hplain, hothers⟩, hleft⟩
  · exact absurd h (by simp)

theorem plain_readFields (ih : ReadsPlain fuel) {fs : List (String × Value)}
    (hwhole : Whole c.rest) (h : readFields (fuel + 1) depth c = .ok (fs, c')) :
    (∀ f ∈ fs, Carried f.1 ∧ Plain depth f.2) ∧ Whole c'.rest := by
  rw [readFields.eq_def] at h
  dsimp only at h
  split at h
  · rename_i hquote
    obtain ⟨⟨key, behind⟩, hkey, h⟩ := Except.bind_eq_ok_iff.1 h
    obtain ⟨hcarried, hbehind⟩ := carried_of_readQuoted hwhole hquote hkey
    dsimp only at h
    split at h
    · obtain ⟨⟨v, after⟩, hvalue, h⟩ := Except.bind_eq_ok_iff.1 h
      obtain ⟨hplain, hafter⟩ :=
        ih.value (whole_skipSpace (whole_advance (whole_skipSpace hbehind) 1)) hvalue
      have hnext := whole_advance (whole_skipSpace hafter) 1
      dsimp only at h
      split at h
      · obtain ⟨rfl, rfl⟩ := Prod.mk.inj (Except.ok.inj h)
        exact ⟨List.forall_mem_singleton.2 ⟨hcarried, hplain⟩, hnext⟩
      · obtain ⟨⟨rest, last⟩, hrest, h⟩ := Except.bind_eq_ok_iff.1 h
        obtain ⟨rfl, rfl⟩ := Prod.mk.inj (Except.ok.inj h)
        obtain ⟨hothers, hleft⟩ := ih.fields (whole_skipSpace hnext) hrest
        exact ⟨List.forall_mem_cons.2 ⟨⟨hcarried, hplain⟩, hothers⟩, hleft⟩
      · exact absurd h (by simp)
    · exact absurd h (by simp)
  · exact absurd h (by simp)

theorem readsPlain (fuel : Nat) : ReadsPlain fuel := by
  induction fuel with
  | zero => exact readsPlain_zero
  | succ fuel ih => exact ⟨plain_readValue ih, plain_readItems ih, plain_readFields ih⟩

theorem proper_of_readValue {x : Binary64} (h : readValue fuel depth c = .ok (.float x, c')) :
    x.Proper := by
  rw [readValue.eq_def] at h
  split at h
  · exact absurd h (by simp [expectingValue])
  · dsimp only at h
    split at h
    · obtain ⟨⟨s, behind⟩, -, h⟩ := Except.bind_eq_ok_iff.1 h
      exact absurd (Prod.mk.inj (Except.ok.inj h)).1 (by simp)
    · split_ifs at h
      · exact absurd (Prod.mk.inj (Except.ok.inj h)).1 (by simp)
      · obtain ⟨⟨fields, behind⟩, -, h⟩ := Except.bind_eq_ok_iff.1 h
        exact absurd (Prod.mk.inj (Except.ok.inj h)).1 (by simp)
    · split_ifs at h
      · exact absurd (Prod.mk.inj (Except.ok.inj h)).1 (by simp)
      · obtain ⟨⟨items, behind⟩, -, h⟩ := Except.bind_eq_ok_iff.1 h
        exact absurd (Prod.mk.inj (Except.ok.inj h)).1 (by simp)
    · split at h
      · rename_i found hfound
        obtain rfl := Except.ok.inj h
        obtain ⟨word, hword⟩ := mem_words_of_readWord? hfound
        simp only [words, List.mem_cons, Prod.mk.injEq, reduceCtorEq, and_false, false_or,
          Value.float.injEq, List.not_mem_nil, or_false] at hword
        rcases hword with ⟨-, rfl⟩ | ⟨-, rfl⟩ | ⟨-, rfl⟩ <;> trivial
      · rcases readNumber_cases h with ⟨n, hn, -⟩ | ⟨y, hy, hproper⟩
        · exact absurd hn (by simp)
        · rwa [Value.float.inj hy]

theorem plain_float_iff {x : Binary64} : Plain depth (.float x) ↔ x.Proper := by
  constructor
  · intro h
    rw [Plain] at h
    obtain ⟨offset, hread⟩ := h 0 0 0 [] ends_nil
    exact proper_of_readValue hread
  · exact plain_float

/-- JSON can carry what is read from a document without halves. -/
theorem plain_readDocument [JsonReader.Stack] (hwhole : Whole cs) (h : readDocument cs = .ok v) :
    Plain maxDepth v := by
  obtain ⟨⟨w, c⟩, hvalue, h⟩ := Except.bind_eq_ok_iff.1 h
  dsimp only at h
  split at h
  · obtain rfl := Except.ok.inj h
    have hstart : Whole (Cursor.skipSpace ⟨0, cs⟩).rest := whole_skipSpace hwhole
    exact ((readsPlain _).value hstart hvalue).1
  · exact absurd h (by simp)

theorem plain_ofJson [JsonReader.Stack] {s : String} (hwhole : Whole s.toList)
    (h : ofJson s = .ok v) :
    Plain maxDepth v := by
  unfold ofJson at h
  split at h
  · exact absurd h (by simp)
  · unfold ofJsonText at h
    dsimp only at h
    cases hread : readDocument s.toList with
    | ok found =>
        rw [hread] at h
        rw [← Except.ok.inj h]
        exact plain_readDocument hwhole hread
    | error stop =>
        rw [hread] at h
        exact absurd h (by simp [Except.mapError])

end ContractAbi.JsonReader
