import ContractAbi.Proofs.Number.Shortest
import ContractAbi.Proofs.Text.Hex

/-!
# Decimals as text

The text that is written for a double spells it, and is read as what it spells.

* `DecimalText`: digits with a point, an exponent or both, and the double that they spell;
* `read?_signed`: they are read as that double;
* `laysOut_layOut`: all layouts of digits are such texts, and spell the same;
* `exists_renderFinite`: so are the texts that are written for doubles.
-/

namespace ContractAbi.Binary64

/-! ## Decimals -/

/-- Digits with a point and digits behind it, with an exponent, or both. No zero stands in front of
another digit. -/
structure DecimalText where
  whole : List Char
  fraction : List Char
  exponent : Option (Bool × List Char)
  whole_digits : ∀ d ∈ whole, d.isDigit = true
  fraction_digits : ∀ d ∈ fraction, d.isDigit = true
  exponent_digits : ∀ x ∈ exponent, x.2 ≠ [] ∧ ∀ d ∈ x.2, d.isDigit = true
  leading : whole = ['0'] ∨ ∃ c cs, whole = c :: cs ∧ c ≠ '0'
  marked : fraction ≠ [] ∨ exponent ≠ none

namespace DecimalText

variable (t : DecimalText)

def fractionChars : List Char :=
  if t.fraction.isEmpty then [] else '.' :: t.fraction

def exponentChars : List Char :=
  match t.exponent with
  | none => []
  | some (negative, ds) => 'e' :: (if negative then '-' else '+') :: ds

def chars : List Char :=
  t.whole ++ (t.fractionChars ++ t.exponentChars)

def power : Int :=
  match t.exponent with
  | none => 0
  | some (negative, ds) => if negative then -(digitsValue ds : Int) else digitsValue ds

def value (negative : Bool) : Binary64 :=
  ofDecimal negative (digitsValue (t.whole ++ t.fraction)) (t.power - t.fraction.length)

theorem exists_whole : ∃ c cs, t.whole = c :: cs ∧ c.isDigit = true := by
  have hdigits := t.whole_digits
  rcases t.leading with hzero | ⟨c, cs, hwhole, -⟩
  · exact ⟨'0', [], hzero, rfl⟩
  · rw [hwhole] at hdigits
    exact ⟨c, cs, hwhole, hdigits c List.mem_cons_self⟩

end DecimalText

/-! ## Reading -/

section

variable {ds rest cs : List Char}

theorem takeWhile_digits (hds : ∀ d ∈ ds, d.isDigit = true)
    (hrest : ∀ c, rest.head? = some c → c.isDigit = false) :
    (ds ++ rest).takeWhile Char.isDigit = ds := by
  have hnone : rest.takeWhile Char.isDigit = [] := by
    cases rest with
    | nil => rfl
    | cons c rest => rw [List.takeWhile_cons, hrest c rfl, if_neg (by decide)]
  rw [List.takeWhile_append_of_pos hds, hnone, List.append_nil]

theorem dropWhile_digits (hds : ∀ d ∈ ds, d.isDigit = true)
    (hrest : ∀ c, rest.head? = some c → c.isDigit = false) :
    (ds ++ rest).dropWhile Char.isDigit = rest := by
  rw [List.dropWhile_append_of_pos hds]
  cases rest with
  | nil => rfl
  | cons c rest => rw [List.dropWhile_cons, hrest c rfl, if_neg (by decide)]

theorem spanDigits_append (hds : ∀ d ∈ ds, d.isDigit = true)
    (hrest : ∀ c, rest.head? = some c → c.isDigit = false) :
    spanDigits (ds ++ rest) = (ds, rest) := by
  rw [spanDigits, takeWhile_digits hds hrest, dropWhile_digits hds hrest]

def IsVisible (c : Char) : Prop :=
  32 < c.toNat ∧ c.toNat < 127 ∧ c ≠ '_'

theorem isVisible_of_isDigit {c : Char} (h : c.isDigit = true) : IsVisible c := by
  have hrange : 48 ≤ c.toNat ∧ c.toNat ≤ 57 := Char.isDigit_iff_toNat.1 h
  refine ⟨by omega, by omega, ?_⟩
  rintro rfl
  exact absurd hrange.2 (by decide)

theorem dropWhile_of_not {p : Char → Bool} (h : ∀ c ∈ cs, p c = false) : cs.dropWhile p = cs := by
  cases cs with
  | nil => rfl
  | cons c cs => rw [List.dropWhile_cons, h c List.mem_cons_self, if_neg (by decide)]

theorem simplify_of_isVisible (h : ∀ c ∈ cs, IsVisible c) : Integer.simplify cs = cs := by
  unfold Integer.simplify
  conv_rhs => rw [← List.map_id cs]
  apply List.map_congr_left
  intro c hc
  obtain ⟨-, hascii, -⟩ := h c hc
  exact if_pos (by omega)

theorem trimBy_of_isVisible (h : ∀ c ∈ cs, IsVisible c) :
    Text.trimBy Text.isAsciiBlank cs = cs := by
  have hblank : ∀ c ∈ cs, Text.isAsciiBlank c = false := by
    intro c hc
    obtain ⟨hlow, -, -⟩ := h c hc
    simp only [Text.isAsciiBlank, Bool.or_eq_false_iff, Bool.and_eq_false_iff,
      decide_eq_false_iff_not, beq_eq_false_iff_ne]
    omega
  have hreverse : ∀ c ∈ cs.reverse, Text.isAsciiBlank c = false :=
    fun c hc => hblank c (List.mem_reverse.1 hc)
  rw [Text.trimBy, dropWhile_of_not hblank, dropWhile_of_not hreverse, List.reverse_reverse]

theorem underscoresPlaced_of_isVisible (before : Option Char) (h : ∀ c ∈ cs, IsVisible c) :
    underscoresPlaced before cs = true := by
  induction cs generalizing before with
  | nil => rfl
  | cons c cs ih =>
      obtain ⟨-, -, hc⟩ := h c List.mem_cons_self
      rw [underscoresPlaced.eq_def]
      split
      · rfl
      · rename_i heq
        exact absurd (List.cons.inj heq).1 hc
      · rename_i heq
        obtain ⟨rfl, rfl⟩ := List.cons.inj heq
        exact ih _ fun d hd => h d (List.mem_cons_of_mem _ hd)

theorem filter_of_isVisible (h : ∀ c ∈ cs, IsVisible c) : cs.filter (· ≠ '_') = cs := by
  rw [List.filter_eq_self]
  intro c hc
  obtain ⟨-, -, hne⟩ := h c hc
  simpa using hne

theorem ofList_ne_word {c : Char} (hc : c.isDigit = true) (cs : List Char) {w : Char}
    (hw : w.isDigit = false) (ws : List Char) :
    String.ofList ((c :: cs).map Char.toLower) ≠ String.ofList (w :: ws) := by
  intro h
  have hrange : 48 ≤ c.toNat ∧ c.toNat ≤ 57 := Char.isDigit_iff_toNat.1 hc
  have hlower : c.toLower = c := by
    rcases Hex.toLower_cases c with hsame | hupper
    · exact hsame
    · omega
  have hchars := String.ofList_injective h
  rw [List.map_cons, hlower] at hchars
  rw [(List.cons.inj hchars).1, hw] at hc
  exact absurd hc (by decide)

end

namespace DecimalText

variable (t : DecimalText)

theorem fraction_eq : t.fractionChars = '.' :: t.fraction ∨
    (t.fractionChars = [] ∧ t.fraction = []) := by
  unfold fractionChars
  cases t.fraction with
  | nil => exact .inr ⟨rfl, rfl⟩
  | cons c cs => exact .inl rfl

theorem readExponent?_chars : readExponent? t.exponentChars = some t.power := by
  have hdigits := t.exponent_digits
  unfold exponentChars power
  cases hexponent : t.exponent with
  | none => rfl
  | some x =>
      obtain ⟨negative, ds⟩ := x
      obtain ⟨hne, hds⟩ := hdigits (negative, ds) hexponent
      have hempty : ds.isEmpty = false := by simpa using hne
      have hall : ds.all Char.isDigit = true := List.all_eq_true.2 hds
      cases negative <;> simp [readExponent?, hempty, hall]

theorem head?_exponentChars (c : Char) (h : t.exponentChars.head? = some c) : c = 'e' := by
  unfold exponentChars at h
  split at h
  · exact absurd h (by simp)
  · exact (Option.some.inj h).symm

theorem not_isDigit_exponentChars (c : Char) (h : t.exponentChars.head? = some c) :
    c.isDigit = false := by
  rw [t.head?_exponentChars c h]
  rfl

theorem not_isDigit_behind (c : Char) (h : (t.fractionChars ++ t.exponentChars).head? = some c) :
    c.isDigit = false := by
  rcases t.fraction_eq with hfraction | ⟨hfraction, -⟩
  · rw [hfraction] at h
    obtain rfl := Option.some.inj h
    rfl
  · rw [hfraction] at h
    exact t.not_isDigit_exponentChars c h

theorem readMagnitude?_chars (negative : Bool) :
    readMagnitude? negative t.chars = some (t.value negative) := by
  have hwhole : t.whole.isEmpty = false := by
    obtain ⟨c, cs, hwhole, -⟩ := t.exists_whole
    rw [hwhole]
    rfl
  unfold readMagnitude? chars value
  rw [spanDigits_append t.whole_digits t.not_isDigit_behind]
  have hpower := t.readExponent?_chars
  rcases t.fraction_eq with hfraction | ⟨hfraction, hnone⟩
  · have hspan := spanDigits_append t.fraction_digits t.not_isDigit_exponentChars
    rw [hfraction, List.cons_append]
    simp only [hspan, hwhole, hpower]
    rfl
  · have hhead := t.head?_exponentChars
    rw [hfraction, hnone, List.nil_append]
    generalize t.exponentChars = cs at *
    cases cs with
    | nil =>
        simp only [hwhole, hpower]
        rfl
    | cons c cs =>
        obtain rfl := hhead c rfl
        split
        rename_i heq
        obtain ⟨rfl, rfl⟩ := Prod.mk.inj heq
        split
        rename_i heq
        split at heq
        · rename_i hpoint
          exact absurd (List.cons.inj hpoint).1 (by decide)
        · obtain ⟨rfl, rfl⟩ := Prod.mk.inj heq
          rw [hwhole, hpower]
          rfl

theorem isVisible_chars : ∀ c ∈ t.chars, IsVisible c := by
  have hmarks : IsVisible '.' ∧ IsVisible 'e' ∧ IsVisible '+' ∧ IsVisible '-' := by
    unfold IsVisible
    decide
  obtain ⟨hpoint, he, hplus, hminus⟩ := hmarks
  intro c hc
  rcases List.mem_append.1 hc with hc | hc
  · exact isVisible_of_isDigit (t.whole_digits c hc)
  · rcases List.mem_append.1 hc with hc | hc
    · rcases t.fraction_eq with hfraction | ⟨hfraction, -⟩
      · rw [hfraction] at hc
        rcases List.mem_cons.1 hc with rfl | hc
        · exact hpoint
        · exact isVisible_of_isDigit (t.fraction_digits c hc)
      · rw [hfraction] at hc
        exact absurd hc List.not_mem_nil
    · have hdigits := t.exponent_digits
      unfold exponentChars at hc
      split at hc
      · exact absurd hc List.not_mem_nil
      · rename_i negative ds hexponent
        rcases List.mem_cons.1 hc with rfl | hc
        · exact he
        · rcases List.mem_cons.1 hc with rfl | hc
          · cases negative
            · exact hplus
            · exact hminus
          · exact isVisible_of_isDigit ((hdigits (negative, ds) hexponent).2 c hc)

def signed (negative : Bool) : List Char :=
  if negative then '-' :: t.chars else t.chars

/-- The text of a decimal is read as the double that it spells. -/
theorem read?_signed (negative : Bool) :
    read? (String.ofList (t.signed negative)) = some (t.value negative) := by
  have hvisible := t.isVisible_chars
  have hmagnitude := t.readMagnitude?_chars negative
  obtain ⟨c, cs, hwhole, hdigit⟩ := t.exists_whole
  have hchars : t.chars = c :: (cs ++ (t.fractionChars ++ t.exponentChars)) := by
    rw [chars, hwhole, List.cons_append]
  have hsigned : ∀ d ∈ t.signed negative, IsVisible d := by
    intro d hd
    unfold signed at hd
    split at hd
    · rcases List.mem_cons.1 hd with rfl | hd
      · unfold IsVisible
        decide
      · exact hvisible d hd
    · exact hvisible d hd
  have hinf : String.ofList (t.chars.map Char.toLower) ≠ "inf" := by
    rw [hchars]
    exact ofList_ne_word hdigit _ (w := 'i') rfl ['n', 'f']
  have hinfinity : String.ofList (t.chars.map Char.toLower) ≠ "infinity" := by
    rw [hchars]
    exact ofList_ne_word hdigit _ (w := 'i') rfl ['n', 'f', 'i', 'n', 'i', 't', 'y']
  have hnan : String.ofList (t.chars.map Char.toLower) ≠ "nan" := by
    rw [hchars]
    exact ofList_ne_word hdigit _ (w := 'n') rfl ['a', 'n']
  have hplaced := underscoresPlaced_of_isVisible none hsigned
  unfold read?
  rw [String.toList_ofList, simplify_of_isVisible hsigned, trimBy_of_isVisible hsigned]
  dsimp only
  rw [if_pos hplaced]
  cases negative with
  | true =>
      have hminus : t.signed true = '-' :: t.chars := if_pos rfl
      rw [hminus]
      split
      · rename_i heq
        obtain rfl := (List.cons.inj heq).2
        rw [if_neg (not_or.2 ⟨hinf, hinfinity⟩), if_neg hnan, filter_of_isVisible hvisible,
          hmagnitude]
      · rename_i heq
        exact absurd (List.cons.inj heq).1 (by decide)
      · rename_i hne _
        exact absurd rfl (hne t.chars)
  | false =>
      have hbare : t.signed false = t.chars := if_neg (by decide)
      rw [hbare]
      split
      · rename_i heq
        rw [hchars] at heq
        rw [(List.cons.inj heq).1] at hdigit
        exact absurd hdigit (by decide)
      · rename_i heq
        rw [hchars] at heq
        rw [(List.cons.inj heq).1] at hdigit
        exact absurd hdigit (by decide)
      · rw [if_neg (not_or.2 ⟨hinf, hinfinity⟩), if_neg hnan, filter_of_isVisible hvisible,
          hmagnitude]

end DecimalText

/-! ## Layouts -/

section

variable {c : Char} {cs : List Char}

/-- The decimal that some digits lay out spells them with the point in its place. -/
def LaysOut (ds : List Char) (point : Int) (chars : List Char) : Prop :=
  ∃ t : DecimalText, t.chars = chars ∧
    ∀ s, t.value s = ofDecimal s (digitsValue ds) (point - ds.length)

theorem laysOut_behind (hds : ∀ d ∈ c :: cs, d.isDigit = true) (k : Nat) :
    LaysOut (c :: cs) (-k) (['0', '.'] ++ List.replicate k '0' ++ c :: cs) := by
  have hfraction : ∀ d ∈ List.replicate k '0' ++ c :: cs, d.isDigit = true := by
    intro d hd
    rcases List.mem_append.1 hd with hd | hd
    · rw [(List.mem_replicate.1 hd).2]
      rfl
    · exact hds d hd
  refine ⟨⟨['0'], List.replicate k '0' ++ c :: cs, none, List.forall_mem_singleton.2 rfl, hfraction,
    nofun, .inl rfl, .inl (by simp)⟩, ?_, ?_⟩
  · simp [DecimalText.chars, DecimalText.fractionChars, DecimalText.exponentChars]
  · intro s
    have hdigits : digitsValue (['0'] ++ (List.replicate k '0' ++ c :: cs)) =
        digitsValue (c :: cs) := by
      have hzeros : ['0'] ++ List.replicate k '0' = List.replicate (k + 1) '0' := rfl
      rw [← List.append_assoc, hzeros, digitsValue_append, digitsValue_zeros]
      omega
    have hpower : (0 : Int) - (List.replicate k '0' ++ c :: cs).length = -k - (c :: cs).length := by
      rw [List.length_append, List.length_replicate]
      omega
    unfold DecimalText.value DecimalText.power
    dsimp only
    rw [hdigits, hpower]

theorem laysOut_before (hc : c ≠ '0') (hds : ∀ d ∈ c :: cs, d.isDigit = true) (k : Nat) :
    LaysOut (c :: cs) ((c :: cs).length + k)
      (c :: cs ++ List.replicate k '0' ++ ['.', '0']) := by
  have hwhole : ∀ d ∈ c :: cs ++ List.replicate k '0', d.isDigit = true := by
    intro d hd
    rcases List.mem_append.1 hd with hd | hd
    · exact hds d hd
    · rw [(List.mem_replicate.1 hd).2]
      rfl
  refine ⟨⟨c :: cs ++ List.replicate k '0', ['0'], none, hwhole, List.forall_mem_singleton.2 rfl,
    nofun, .inr ⟨c, _, rfl, hc⟩, .inl (by simp)⟩, ?_, ?_⟩
  · simp [DecimalText.chars, DecimalText.fractionChars, DecimalText.exponentChars]
  · intro s
    have hdigits : digitsValue (c :: cs ++ List.replicate k '0' ++ ['0']) =
        digitsValue (c :: cs) * 10 ^ (k + 1) := by
      rw [List.append_assoc, ← List.replicate_succ', digitsValue_append, digitsValue_zeros,
        List.length_replicate, Nat.add_zero]
    have hpower : (0 : Int) - (['0'] : List Char).length =
        ((c :: cs).length + k : Int) - (c :: cs).length - (k + 1 : Nat) := by
      rw [List.length_singleton]
      omega
    unfold DecimalText.value DecimalText.power
    dsimp only
    rw [hdigits, hpower, ofDecimal_zeros]

theorem laysOut_between (hc : c ≠ '0') (hds : ∀ d ∈ c :: cs, d.isDigit = true) {n : Nat}
    (hn : 0 < n) (hlt : n < (c :: cs).length) :
    LaysOut (c :: cs) n ((c :: cs).take n ++ ['.'] ++ (c :: cs).drop n) := by
  have hdrop : (c :: cs).drop n ≠ [] := by
    rw [Ne, List.drop_eq_nil_iff]
    omega
  have htake : (c :: cs).take n = c :: cs.take (n - 1) := by
    obtain ⟨k, rfl⟩ := Nat.exists_eq_add_one_of_ne_zero hn.ne'
    rfl
  refine ⟨⟨(c :: cs).take n, (c :: cs).drop n, none, fun d hd => hds d (List.mem_of_mem_take hd),
    fun d hd => hds d (List.mem_of_mem_drop hd), nofun, .inr ⟨c, _, htake, hc⟩, .inl hdrop⟩,
    ?_, ?_⟩
  · have hempty : ((c :: cs).drop n).isEmpty = false := by simpa using hdrop
    unfold DecimalText.chars DecimalText.fractionChars DecimalText.exponentChars
    dsimp only
    rw [hempty, if_neg (by decide), List.append_nil, List.append_assoc]
    rfl
  · intro s
    have hpower : (0 : Int) - ((c :: cs).drop n).length = n - (c :: cs).length := by
      rw [List.length_drop]
      omega
    unfold DecimalText.value DecimalText.power
    dsimp only
    rw [List.take_append_drop, hpower]

theorem padded_digits (n : Nat) :
    let size := Nat.toDigits 10 n
    let padded := if size.length < 2 then '0' :: size else size
    padded ≠ [] ∧ (∀ d ∈ padded, d.isDigit = true) ∧ digitsValue padded = n := by
  dsimp only
  split
  · refine ⟨List.cons_ne_nil _ _, ?_, ?_⟩
    · intro d hd
      rcases List.mem_cons.1 hd with rfl | hd
      · rfl
      · exact isDigit_of_mem_toDigits hd
    · exact digitsValue_toDigits n
  · exact ⟨Nat.toDigits_ne_nil, fun d hd => isDigit_of_mem_toDigits hd, digitsValue_toDigits n⟩

theorem laysOut_exponent (hc : c ≠ '0') (hds : ∀ d ∈ c :: cs, d.isDigit = true) (point : Int)
    {padded : List Char} (hne : padded ≠ []) (hall : ∀ d ∈ padded, d.isDigit = true)
    (hvalue : digitsValue padded = (point - 1).natAbs) :
    LaysOut (c :: cs) point ((c :: cs).take 1 ++
      (if (c :: cs).length ≤ 1 then [] else '.' :: (c :: cs).drop 1) ++
      ['e', if point - 1 < 0 then '-' else '+'] ++ padded) := by
  refine ⟨⟨[c], cs, some (decide (point - 1 < 0), padded),
    List.forall_mem_singleton.2 (hds c List.mem_cons_self),
    fun d hd => hds d (List.mem_cons_of_mem _ hd), ?_, .inr ⟨c, [], rfl, hc⟩, .inr (by simp)⟩,
    ?_, ?_⟩
  · intro x hx
    obtain rfl := Option.mem_some_iff.1 hx
    exact ⟨hne, hall⟩
  · unfold DecimalText.chars DecimalText.fractionChars DecimalText.exponentChars
    cases cs <;> simp
  · intro s
    have hpower : (if decide (point - 1 < 0) = true then -(digitsValue padded : Int)
        else digitsValue padded) = point - 1 := by
      rw [hvalue]
      split
      · rename_i hneg
        rw [decide_eq_true_eq] at hneg
        omega
      · rename_i hneg
        rw [decide_eq_true_eq] at hneg
        omega
    have hlength : point - 1 - cs.length = point - (c :: cs).length := by
      rw [List.length_cons]
      omega
    unfold DecimalText.value DecimalText.power
    dsimp only
    rw [hpower, hlength, List.singleton_append]

/-- Whatever layout is chosen for digits, it spells them with the point in its place. -/
theorem laysOut_layOut (hc : c ≠ '0') (hds : ∀ d ∈ c :: cs, d.isDigit = true) (point : Int) :
    LaysOut (c :: cs) point (layOut (c :: cs) point) := by
  unfold layOut
  split
  · split
    · rename_i hpoint
      obtain ⟨k, hk⟩ : ∃ k : Nat, point = -(k : Int) := ⟨(-point).toNat, by omega⟩
      rw [hk, neg_neg, Int.toNat_natCast]
      exact laysOut_behind hds k
    · rename_i hpoint
      obtain ⟨n, rfl⟩ := Int.eq_ofNat_of_zero_le (not_le.1 hpoint).le
      dsimp only
      rw [Int.toNat_natCast]
      split
      · rename_i hle
        obtain ⟨k, rfl⟩ := Nat.exists_eq_add_of_le hle
        rw [Nat.add_sub_cancel_left, Nat.cast_add]
        exact laysOut_before hc hds k
      · rename_i hlt
        exact laysOut_between hc hds (by omega) (by omega)
  · obtain ⟨hne, hall, hvalue⟩ := padded_digits (point - 1).natAbs
    exact laysOut_exponent hc hds point hne hall hvalue

end

/-! ## Doubles -/

theorem exists_renderFinite {m : Nat} {e : Int} (s : Bool) (h : IsDouble m e) :
    ∃ t : DecimalText, renderFinite s m e = String.ofList (t.signed s) ∧
      t.value s = finite s m e := by
  unfold renderFinite
  rcases Nat.eq_zero_or_pos m with rfl | hm
  · have he : e = -1074 := h.full.resolve_right (by norm_num)
    refine ⟨⟨['0'], ['0'], none, List.forall_mem_singleton.2 rfl, List.forall_mem_singleton.2 rfl,
      nofun, .inl rfl, .inl (by simp)⟩, rfl, ?_⟩
    rw [he]
    rfl
  · obtain ⟨c, cs, point, hshortest, hc, hds, hvalue⟩ := exists_shortest h hm
    obtain ⟨t, hchars, hspelt⟩ := laysOut_layOut hc hds point
    refine ⟨t, ?_, (hspelt s).trans (hvalue s)⟩
    rw [if_neg hm.ne', hshortest, DecimalText.signed, hchars]

theorem proper_readMagnitude? {negative : Bool} {cs : List Char} {x : Binary64}
    (h : readMagnitude? negative cs = some x) : x.Proper := by
  unfold readMagnitude? at h
  dsimp only at h
  split at h
  all_goals
    split at h
    · exact absurd h (by simp)
    · obtain ⟨e, -, rfl⟩ := Option.map_eq_some_iff.1 h
      exact proper_ofDecimal _ _ _

theorem proper_read? {s : String} {x : Binary64} (h : read? s = some x) : x.Proper := by
  unfold read? at h
  dsimp only at h
  split_ifs at h
  · obtain rfl := Option.some.inj h
    trivial
  · obtain rfl := Option.some.inj h
    trivial
  · exact proper_readMagnitude? h

end ContractAbi.Binary64
