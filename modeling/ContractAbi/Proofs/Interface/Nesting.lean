import ContractAbi.Proofs.Interface.TypeList

/-!
# Nested brackets

What lists of types look like, said without a scanner: brackets that enclose texts, and commas
between them. The three scanners agree with it: the one that looks for the bracket that closes
another, the one that counts depths, and the one that trims.

* `nested_iff`: a nested text is balanced, and has no comma outside of its brackets if none may
  stand there;
* `splitChars_eq_ok_iff`: a balanced text is split into types just if it lists them.
-/

namespace ContractAbi.TypeText

open Text

/-! ## Texts with brackets -/

/-- Brackets of both kinds are properly nested. Outside of all brackets commas may stand if `commas`
says so. -/
inductive Nested : (commas : Bool) → List Char → Prop
  | nil {commas} : Nested commas []
  | char {commas c rest} (hopener : closerOf? c = none) (hcloser : isCloser c = false)
      (hcomma : c = ',' → commas = true) (hrest : Nested commas rest) : Nested commas (c :: rest)
  | enclosed {commas opener closer inner rest} (hopener : closerOf? opener = some closer)
      (hinner : Nested true inner) (hrest : Nested commas rest) :
      Nested commas (opener :: inner ++ closer :: rest)

theorem Nested.of_false {commas : Bool} {cs : List Char} (h : Nested false cs) :
    Nested commas cs := by
  generalize hnone : false = without at h
  induction h with
  | nil => exact .nil
  | char hopener hcloser hcomma _ ih =>
      subst hnone
      exact .char hopener hcloser (fun h => absurd (hcomma h) (by simp)) (ih rfl)
  | enclosed hopener hinner _ _ ih => exact .enclosed hopener hinner (ih hnone)

theorem Nested.append {commas : Bool} {a b : List Char} (ha : Nested commas a)
    (hb : Nested commas b) : Nested commas (a ++ b) := by
  induction ha with
  | nil => exact hb
  | char hopener hcloser hcomma _ ih => exact .char hopener hcloser hcomma (ih hb)
  | enclosed hopener hinner _ _ ih =>
      rw [List.append_assoc, List.cons_append]
      exact .enclosed hopener hinner (ih hb)

theorem nested_intercalate {parts : List (List Char)} (h : ∀ p ∈ parts, Nested true p) :
    Nested true ([','].intercalate parts) := by
  induction parts with
  | nil => exact .nil
  | cons p parts ih =>
      obtain ⟨hp, hrest⟩ := List.forall_mem_cons.1 h
      cases parts with
      | nil =>
          rw [List.intercalate_singleton]
          exact hp
      | cons q parts =>
          rw [List.intercalate_cons_cons, List.append_assoc, List.singleton_append]
          exact hp.append (.char rfl rfl (fun _ => rfl) (ih hrest))

/-- A nested text that starts with a bracket has nested text inside of it. -/
theorem Nested.exists_enclosed {commas : Bool} {cs : List Char} (h : Nested commas cs)
    (hhead : cs.head? = some '(') :
    ∃ inner rest, cs = '(' :: inner ++ ')' :: rest ∧ Nested true inner := by
  cases h with
  | nil => exact absurd hhead (by simp)
  | char hopener =>
      obtain rfl := Option.some.inj hhead
      exact absurd hopener (by decide)
  | @enclosed _ _ closer inner rest hopener hinner _ =>
      obtain rfl := Option.some.inj hhead
      obtain rfl : ')' = closer := Option.some.inj hopener
      exact ⟨inner, rest, rfl, hinner⟩

theorem closerOf?_eq_some {c d : Char} (h : closerOf? c = some d) :
    (c = '(' ∧ d = ')') ∨ (c = '[' ∧ d = ']') := by
  unfold closerOf? at h
  split at h
  · exact .inl ⟨rfl, (Option.some.inj h).symm⟩
  · exact .inr ⟨rfl, (Option.some.inj h).symm⟩
  · exact absurd h (by simp)

theorem opens_iff {c : Char} : c = '(' ∨ c = '[' ↔ ∃ d, closerOf? c = some d := by
  constructor
  · rintro (rfl | rfl)
    · exact ⟨')', rfl⟩
    · exact ⟨']', rfl⟩
  · rintro ⟨d, hd⟩
    exact (closerOf?_eq_some hd).imp And.left And.left

theorem not_opens {c : Char} (h : closerOf? c = none) : ¬(c = '(' ∨ c = '[') := by
  intro hopen
  obtain ⟨d, hd⟩ := opens_iff.1 hopen
  exact absurd h (by simp [hd])

theorem isCloser_of_closerOf? {c d : Char} (h : closerOf? c = some d) :
    closerOf? d = none ∧ isCloser d = true := by
  rcases closerOf?_eq_some h with ⟨-, rfl⟩ | ⟨-, rfl⟩ <;> decide

/-- A character that closes a bracket takes away the closer that was awaited last. -/
theorem awaited?_closer {d : Char} (hopen : closerOf? d = none) (hclose : isCloser d = true)
    (stack cs : List Char) : awaited? (d :: stack) (d :: cs) = awaited? stack cs := by
  rw [awaited?_cons, hopen]
  simp [hclose]

theorem awaited?_append (stack a b : List Char) :
    awaited? stack (a ++ b) = (awaited? stack a).bind fun left => awaited? left b := by
  induction a generalizing stack with
  | nil => rfl
  | cons c a ih =>
      rw [List.cons_append, awaited?_cons, awaited?_cons]
      cases closerOf? c with
      | some d => exact ih _
      | none =>
          cases isCloser c with
          | false => exact ih _
          | true =>
              cases stack with
              | nil => rfl
              | cons d stack =>
                  by_cases hcd : c = d
                  · simp only [hcd, if_true]
                    exact ih _
                  · simp [hcd]

theorem Nested.awaited_eq {commas : Bool} {cs : List Char} (h : Nested commas cs)
    (stack : List Char) : awaited? stack cs = some stack := by
  induction h generalizing stack with
  | nil => rfl
  | char hopener hcloser _ _ ih =>
      rw [awaited?_cons, hopener, hcloser]
      exact ih stack
  | @enclosed _ opener closer inner rest hopener _ _ ihinner ihrest =>
      obtain ⟨hopen, hclose⟩ := isCloser_of_closerOf? hopener
      rw [List.cons_append, awaited?_cons, hopener]
      dsimp only
      rw [awaited?_append, ihinner, Option.bind_some, awaited?_closer hopen hclose]
      exact ihrest stack

theorem Nested.balanced {commas : Bool} {cs : List Char} (h : Nested commas cs) : Balanced cs :=
  h.awaited_eq []

theorem Nested.isSingle_append {commas : Bool} {cs : List Char} (h : Nested commas cs)
    {depth : Nat} (hdepth : commas = true → depth ≠ 0) (rest : List Char) :
    IsSingle depth (cs ++ rest) ↔ IsSingle depth rest := by
  induction h generalizing depth rest with
  | nil => exact Iff.rfl
  | @char _ c cs hopener hcloser hcomma _ ih =>
      have hinside : ¬(c = ',' ∧ depth = 0) := fun h => hdepth (hcomma h.1) h.2
      rw [List.cons_append, isSingle_cons, if_neg (not_opens hopener), hcloser,
        if_neg (by simp), ih hdepth]
      exact and_iff_right hinside
  | @enclosed _ opener closer inner tail hopener _ _ ihinner ihrest =>
      have hopen : opener = '(' ∨ opener = '[' := opens_iff.2 ⟨closer, hopener⟩
      obtain ⟨hnone, hclose⟩ := isCloser_of_closerOf? hopener
      have htext : opener :: inner ++ closer :: tail ++ rest =
          opener :: (inner ++ (closer :: (tail ++ rest))) := by simp
      rw [htext, isSingle_cons, if_pos hopen, ihinner (by simp), isSingle_cons,
        if_neg (not_opens hnone), if_pos hclose]
      exact ihrest hdepth rest

/-- The text up to the closer that was awaited first, and what follows it. -/
theorem exists_of_awaited? {stack cs : List Char} {d : Char}
    (h : awaited? (stack ++ [d]) cs = some []) :
    ∃ inner rest, cs = inner ++ d :: rest ∧ awaited? stack inner = some [] ∧ Balanced rest := by
  induction cs generalizing stack with
  | nil => exact absurd h (by simp [awaited?])
  | cons c cs ih =>
      -- a character that is read leaves the rest to the hypothesis for the brackets behind it
      have hnext : ∀ {stack' : List Char}, awaited? (stack' ++ [d]) cs = some [] →
          (∀ inner, awaited? stack (c :: inner) = awaited? stack' inner) →
          ∃ inner rest, c :: cs = inner ++ d :: rest ∧ awaited? stack inner = some [] ∧
            Balanced rest := by
        intro stack' hrest hstep
        obtain ⟨inner, rest, rfl, hinner, hbalanced⟩ := ih hrest
        exact ⟨c :: inner, rest, rfl, (hstep inner).trans hinner, hbalanced⟩
      rw [awaited?_cons] at h
      cases hc : closerOf? c with
      | some e =>
          rw [hc] at h
          have hpushed : awaited? (e :: stack ++ [d]) cs = some [] := h
          refine hnext hpushed fun inner => ?_
          rw [awaited?_cons, hc]
      | none =>
          rw [hc] at h
          dsimp only at h
          cases hcloser : isCloser c with
          | false =>
              rw [hcloser, if_neg (by simp)] at h
              refine hnext h fun inner => ?_
              rw [awaited?_cons, hc, hcloser]
              rfl
          | true =>
              rw [hcloser, if_pos rfl] at h
              cases stack with
              | nil =>
                  rw [List.nil_append] at h
                  dsimp only at h
                  split at h
                  · rename_i hcd
                    exact ⟨[], cs, by rw [hcd]; rfl, rfl, h⟩
                  · exact absurd h (by simp)
              | cons e stack =>
                  rw [List.cons_append] at h
                  dsimp only at h
                  split at h
                  · rename_i hce
                    refine hnext h fun inner => ?_
                    rw [awaited?_cons, hc, hcloser]
                    simp [hce]
                  · exact absurd h (by simp)

/-- Nesting is what the stack of awaited closers and the count of open brackets find. -/
theorem nested_iff {commas : Bool} {cs : List Char} :
    Nested commas cs ↔ Balanced cs ∧ (commas = false → IsSingle 0 cs) := by
  constructor
  · intro h
    refine ⟨h.balanced, fun hcommas => ?_⟩
    have hend : IsSingle 0 [] := rfl
    rw [← List.append_nil cs]
    exact (h.isSingle_append (by simp [hcommas]) []).2 hend
  · rintro ⟨hbalanced, hsingle⟩
    -- by the length of the text, since what stands inside of a bracket is no part of its rest
    induction hn : cs.length using Nat.strong_induction_on generalizing commas cs with
    | _ n ih =>
      cases cs with
      | nil => exact .nil
      | cons c cs =>
          rw [List.length_cons] at hn
          unfold Balanced at hbalanced
          rw [awaited?_cons] at hbalanced
          cases hopener : closerOf? c with
          | none =>
              rw [hopener] at hbalanced
              dsimp only at hbalanced
              cases hcloser : isCloser c with
              | true => exact absurd hbalanced (by simp [hcloser])
              | false =>
                  rw [hcloser, if_neg (by simp)] at hbalanced
                  have hrest : commas = false → ¬(c = ',' ∧ 0 = 0) ∧ IsSingle 0 cs := by
                    intro h
                    have hwhole := hsingle h
                    rwa [isSingle_cons, if_neg (not_opens hopener), hcloser,
                      if_neg (by simp)] at hwhole
                  refine .char hopener hcloser (fun hcomma => ?_) ?_
                  · by_contra hnot
                    exact (hrest (by simpa using hnot)).1 ⟨hcomma, rfl⟩
                  · exact ih cs.length (by omega) hbalanced (fun h => (hrest h).2) rfl
          | some closer =>
              rw [hopener] at hbalanced
              have hclosed : awaited? ([] ++ [closer]) cs = some [] := hbalanced
              obtain ⟨inner, rest, rfl, hinner, hrest⟩ := exists_of_awaited? hclosed
              rw [List.length_append, List.length_cons] at hn
              obtain ⟨hnone, hclose⟩ := isCloser_of_closerOf? hopener
              have hinside : Nested true inner := ih inner.length (by omega) hinner (by simp) rfl
              refine .enclosed hopener hinside (ih rest.length (by omega) hrest (fun h => ?_) rfl)
              have hwhole := hsingle h
              rw [isSingle_cons, if_pos (opens_iff.2 ⟨closer, hopener⟩),
                hinside.isSingle_append (by simp), isSingle_cons,
                if_neg (not_opens hnone), if_pos hclose] at hwhole
              exact hwhole

instance (cs : List Char) : Decidable (Balanced cs) :=
  inferInstanceAs (Decidable (awaited? [] cs = some []))

theorem isSingle_iff {cs : List Char} : IsSingle 0 cs ↔ splitTop? 0 cs = some [cs] :=
  ⟨splitTop?_of_isSingle, fun h => (isSingle_of_splitTop? h).1⟩

instance (commas : Bool) (cs : List Char) : Decidable (Nested commas cs) :=
  decidable_of_iff (Balanced cs ∧ (commas = false → splitTop? 0 cs = some [cs])) (by
    rw [nested_iff, isSingle_iff])

theorem eq_nil_of_isSingle {cs stack left : List Char} (h : IsSingle stack.length cs)
    (hleft : awaited? stack cs = some left) : left = [] := by
  induction cs generalizing stack with
  | nil =>
      obtain rfl := Option.some.inj hleft
      exact List.eq_nil_of_length_eq_zero h
  | cons c cs ih =>
      rw [awaited?_cons] at hleft
      rw [isSingle_cons] at h
      cases hopener : closerOf? c with
      | some closer =>
          rw [if_pos (opens_iff.2 ⟨closer, hopener⟩)] at h
          rw [hopener] at hleft
          exact @ih (closer :: stack) h hleft
      | none =>
          rw [if_neg (not_opens hopener)] at h
          rw [hopener] at hleft
          dsimp only at hleft
          cases hcloser : isCloser c with
          | false =>
              rw [hcloser, if_neg (by simp)] at h hleft
              exact ih h.2 hleft
          | true =>
              rw [hcloser, if_pos rfl] at h hleft
              cases stack with
              | nil => exact absurd h (by simp)
              | cons d stack =>
                  dsimp only at hleft
                  split at hleft
                  · exact ih h hleft
                  · exact absurd hleft (by simp)

theorem balanced_of_intercalate {parts : List (List Char)} (hparts : ∀ p ∈ parts, IsSingle 0 p)
    (h : Balanced ([','].intercalate parts)) : ∀ p ∈ parts, Balanced p := by
  induction parts with
  | nil => simp
  | cons p parts ih =>
      cases parts with
      | nil => simpa using h
      | cons q parts =>
          rw [List.intercalate_cons_cons, List.append_assoc, List.singleton_append] at h
          unfold Balanced at h
          rw [awaited?_append] at h
          obtain ⟨left, hleft, hrest⟩ := Option.bind_eq_some_iff.1 h
          obtain rfl := @eq_nil_of_isSingle p [] _ (hparts p List.mem_cons_self) hleft
          exact List.forall_mem_cons.2
            ⟨hleft, ih (fun r hr => hparts r (List.mem_cons_of_mem _ hr)) hrest⟩

/-! ## Lists of types -/

/-- A type as a list gives it: it is not empty, has no blanks at its ends, and its brackets are
properly nested, with all of its commas inside of them. -/
structure IsType (t : List Char) : Prop where
  nested : Nested false t
  filled : t ≠ []
  trimmed : trim t = t

instance (t : List Char) : Decidable (IsType t) :=
  decidable_of_iff (Nested false t ∧ t ≠ [] ∧ trim t = t)
    ⟨fun h => ⟨h.1, h.2.1, h.2.2⟩, fun h => ⟨h.nested, h.filled, h.trimmed⟩⟩

def Padded (t p : List Char) : Prop :=
  ∃ a b, Blank a ∧ Blank b ∧ p = a ++ t ++ b

/-- The texts that list types: blanks where there are none, or else the types with blanks around
them and commas between them. -/
inductive Lists : List (List Char) → List Char → Prop
  | none {cs} (hblank : Blank cs) : Lists [] cs
  | one {t p} (hfirst : Padded t p) : Lists [t] p
  | more {t u types p cs} (hfirst : Padded t p) (hrest : Lists (u :: types) cs) :
      Lists (t :: u :: types) (p ++ ',' :: cs)

variable {t p cs : List Char} {types : List (List Char)}

theorem nested_of_blank {commas : Bool} {cs : List Char} (h : Blank cs) : Nested commas cs := by
  induction cs with
  | nil => exact .nil
  | cons c cs ih =>
      obtain ⟨hc, hcs⟩ := List.forall_mem_cons.1 h
      have hplain : isMark c = false := by
        cases hmark : isMark c with
        | false => rfl
        | true => exact absurd hc (by simp [isBlank_of_isMark hmark])
      obtain ⟨hopener, hcloser, hcomma⟩ : closerOf? c = none ∧ isCloser c = false ∧ c ≠ ',' := by
        simpa [isMark, and_assoc] using hplain
      exact .char hopener hcloser (fun h => absurd h hcomma) (ih hcs)

theorem Padded.self (t : List Char) : Padded t t :=
  ⟨[], [], .nil, .nil, by simp⟩

theorem padded_trim (p : List Char) : Padded (trim p) p :=
  exists_trim p

theorem Padded.nested {commas : Bool} (h : Padded t p) (ht : Nested commas t) :
    Nested commas p := by
  obtain ⟨a, b, ha, hb, rfl⟩ := h
  exact ((nested_of_blank ha).append ht).append (nested_of_blank hb)

theorem Padded.trim_eq (h : Padded t p) : trim p = trim t := by
  obtain ⟨a, b, ha, hb, rfl⟩ := h
  exact trim_around ha hb t

theorem Lists.nested (h : Lists types cs) (htypes : ∀ t ∈ types, Nested false t) :
    Nested true cs := by
  induction h with
  | none hblank => exact nested_of_blank hblank
  | one hfirst => exact hfirst.nested (htypes _ List.mem_cons_self).of_false
  | more hfirst _ ih =>
      obtain ⟨ht, hrest⟩ := List.forall_mem_cons.1 htypes
      exact (hfirst.nested ht.of_false).append (.char rfl rfl (fun _ => rfl) (ih hrest))

/-! Blanks around a list belong to its first and its last type. -/

theorem Lists.blank_append {a : List Char} (ha : Blank a) (h : Lists types cs) :
    Lists types (a ++ cs) := by
  have hpad : ∀ {t p}, Padded t p → Padded t (a ++ p) := by
    rintro t p ⟨b, c, hb, hc, rfl⟩
    exact ⟨a ++ b, c, ha.append hb, hc, by simp⟩
  cases h with
  | none hblank => exact .none (ha.append hblank)
  | one hfirst => exact .one (hpad hfirst)
  | more hfirst hrest =>
      rw [← List.append_assoc]
      exact .more (hpad hfirst) hrest

theorem Lists.append_blank {b : List Char} (hb : Blank b) (h : Lists types cs) :
    Lists types (cs ++ b) := by
  induction h with
  | none hblank => exact .none (hblank.append hb)
  | one hfirst =>
      obtain ⟨a, c, ha, hc, rfl⟩ := hfirst
      exact .one ⟨a, c ++ b, ha, hc.append hb, by simp⟩
  | more hfirst _ ih =>
      rw [List.append_assoc, List.cons_append]
      exact .more hfirst ih

theorem Lists.exists_core (h : Lists types cs) (htypes : ∀ t ∈ types, IsType t)
    (hne : types ≠ []) : ∃ a core b, Blank a ∧ Blank b ∧ cs = a ++ core ++ b ∧
      Lists types core ∧ trim core = core ∧ core ≠ [] := by
  induction h with
  | none => exact absurd rfl hne
  | one hfirst =>
      obtain ⟨a, b, ha, hb, rfl⟩ := hfirst
      have ht := htypes _ List.mem_cons_self
      exact ⟨a, _, b, ha, hb, rfl, .one (.self _), ht.trimmed, ht.filled⟩
  | @more t u types p cs hfirst _ ih =>
      obtain ⟨a, b, ha, hb, rfl⟩ := hfirst
      obtain ⟨ht, hrest⟩ := List.forall_mem_cons.1 htypes
      obtain ⟨a', core, b', ha', hb', rfl, hlists, htrim, hcore⟩ := ih hrest (by simp)
      have hpadded : Padded t (t ++ b) := ⟨[], b, .nil, hb, rfl⟩
      refine ⟨a, t ++ (b ++ ',' :: a') ++ core, b', ha, hb', by simp, ?_, ?_, by simp⟩
      · have hmore := Lists.more hpadded (hlists.blank_append ha')
        simpa using hmore
      · exact trim_enclosed ht.trimmed htrim ht.filled hcore _

/-- Where a list gives types, they are found between its commas. -/
theorem Lists.exists_parts (h : Lists types cs) (htypes : ∀ t ∈ types, IsType t)
    (hne : types ≠ []) : ∃ parts, splitTop? 0 cs = some parts ∧ parts.map trim = types := by
  have hsingle : ∀ {t p}, Padded t p → IsType t → IsSingle 0 p ∧ trim p = t := fun hp ht =>
    ⟨(nested_iff.1 (hp.nested ht.nested)).2 rfl, hp.trim_eq.trans ht.trimmed⟩
  induction h with
  | none => exact absurd rfl hne
  | @one t p hfirst =>
      obtain ⟨hp, htrim⟩ := hsingle hfirst (htypes _ List.mem_cons_self)
      exact ⟨[p], splitTop?_of_isSingle hp, by simp [htrim]⟩
  | @more t u types p cs hfirst _ ih =>
      obtain ⟨ht, hrest⟩ := List.forall_mem_cons.1 htypes
      obtain ⟨hp, htrim⟩ := hsingle hfirst ht
      obtain ⟨parts, hparts, hmap⟩ := ih hrest (by simp)
      refine ⟨p :: parts, ?_, by rw [List.map_cons, htrim, hmap]⟩
      rw [splitTop?_append_of_isSingle hp, hparts]
      rfl

theorem Lists.splitChars (h : Lists types cs) (htypes : ∀ t ∈ types, IsType t) :
    splitChars cs = .ok types := by
  by_cases hne : types = []
  · subst hne
    cases h with
    | none hblank =>
        rw [TypeText.splitChars, trim_of_blank hblank]
        rfl
  · obtain ⟨a, core, b, ha, hb, rfl, hlists, htrim, hcore⟩ := h.exists_core htypes hne
    obtain ⟨parts, hparts, rfl⟩ := hlists.exists_parts htypes hne
    have hfull : ¬((parts.map trim).any List.isEmpty = true) := by
      rw [List.any_eq_true]
      rintro ⟨t, ht, hempty⟩
      exact (htypes t ht).filled (List.isEmpty_iff.1 hempty)
    rw [TypeText.splitChars, trim_around ha hb, htrim]
    dsimp only
    rw [if_neg (by simpa using hcore), hparts]
    dsimp only
    rw [if_neg hfull]

theorem lists_intercalate {parts : List (List Char)} (hne : parts ≠ []) :
    Lists (parts.map trim) ([','].intercalate parts) := by
  induction parts with
  | nil => exact absurd rfl hne
  | cons p parts ih =>
      cases parts with
      | nil =>
          rw [List.intercalate_singleton]
          exact .one (padded_trim p)
      | cons q parts =>
          rw [List.intercalate_cons_cons, List.append_assoc, List.singleton_append]
          exact .more (padded_trim p) (ih (by simp))

theorem lists_of_splitChars (hbalanced : Balanced cs) (h : splitChars cs = .ok types) :
    Lists types cs ∧ ∀ t ∈ types, IsType t := by
  obtain ⟨a, b, ha, hb, hcs⟩ := exists_trim cs
  rcases splitChars_eq_ok h with ⟨hblank, rfl⟩ | ⟨parts, hne, hjoin, rfl, hparts⟩
  · refine ⟨.none ?_, by simp⟩
    rw [hcs, hblank, List.append_nil]
    exact ha.append hb
  · constructor
    · rw [hcs, hjoin]
      exact ((lists_intercalate hne).blank_append ha).append_blank hb
    · have hjoined : Balanced ([','].intercalate parts) := by
        rw [← hjoin]
        exact (awaited?_congr (filter_isMark_trim cs) []).trans hbalanced
      have heach := balanced_of_intercalate (fun p hp => (hparts p hp).1) hjoined
      intro t ht
      obtain ⟨p, hp, rfl⟩ := List.mem_map.1 ht
      have hmarks := filter_isMark_trim p
      have hnested : Nested false (trim p) := nested_iff.2
        ⟨(awaited?_congr hmarks []).trans (heach p hp),
          fun _ => (isSingle_congr hmarks 0).2 (hparts p hp).1⟩
      exact ⟨hnested, (hparts p hp).2, trim_trim p⟩

theorem splitChars_eq_ok_iff (hbalanced : Balanced cs) :
    splitChars cs = .ok types ↔ Lists types cs ∧ ∀ t ∈ types, IsType t :=
  ⟨lists_of_splitChars hbalanced, fun h => h.1.splitChars h.2⟩

end ContractAbi.TypeText
