import ContractAbi.Proofs.Interface.Nesting
import ContractAbi.Proofs.Session.Invariant
import ContractAbi.Signature

/-!
# The grammar of signatures

Which texts are signatures, said without a reader: a name, types in brackets, and at will types of
outputs in brackets, with blanks wherever they may stand.

* `Spells`: the texts of a signature;
* `parse_eq_ok_iff`: reading finds a signature just if the text spells it;
* `parse_grammar`: the reader accepts the grammar and nothing else.
-/

namespace ContractAbi.Signature

open Text TypeText

/-! ## Texts of signatures -/

/-- The texts that state outputs: none where nothing is said of them, or else types in brackets, at
will behind the word `returns`. -/
inductive SpellsOutputs : Option (List String) → List Char → Prop
  | absent : SpellsOutputs none []
  | bare {types inner} (hinner : Lists (types.map String.toList) inner) :
      SpellsOutputs (some types) ('(' :: inner ++ [')'])
  | returns {types gap inner} (hgap : Blank gap) (hinner : Lists (types.map String.toList) inner) :
      SpellsOutputs (some types) ("returns".toList ++ gap ++ ('(' :: inner ++ [')']))

/-- The texts of a signature: its name, its inputs in brackets and its outputs, with blanks around
each of these. -/
inductive Spells (sig : Signature) : List Char → Prop
  | intro {before gap inner behind clause after} (hbefore : Blank before) (hgap : Blank gap)
      (hinner : Lists (sig.inputs.map String.toList) inner) (hbehind : Blank behind)
      (hclause : SpellsOutputs sig.outputs clause) (hafter : Blank after) :
      Spells sig (before ++ sig.name.toList ++ gap ++ '(' :: inner ++ ')' :: behind ++ clause ++
        after)

structure WellFormed (sig : Signature) : Prop where
  name : isName sig.name.toList = true
  inputs : ∀ t ∈ sig.inputs, IsType t.toList
  outputs : ∀ types, sig.outputs = some types → ∀ t ∈ types, IsType t.toList

variable {sig : Signature} {s : String} {pre inner tail cs text rest clause : List Char}
  {outputs : Option (List String)}

/-! ## Names -/

theorem isNameChar_of_mem {name : List Char} (h : isName name = true) :
    ∀ c ∈ name, isNameChar c = true := by
  cases name with
  | nil => exact absurd h (by simp [isName])
  | cons c cs =>
      obtain ⟨hstart, hrest⟩ : isNameStart c = true ∧ ∀ d ∈ cs, isNameChar d = true := by
        simpa [isName] using h
      refine List.forall_mem_cons.2 ⟨?_, hrest⟩
      rcases Bool.or_eq_true_iff.1 hstart with halpha | hdollar
      · rcases Bool.or_eq_true_iff.1 halpha with halpha | hline
        · have halnum : c.isAlphanum = true := Bool.or_eq_true_iff.2 (.inl halpha)
          simp [isNameChar, halnum]
        · simp [isNameChar, hline]
      · simp [isNameChar, hdollar]

theorem toNat_of_isAlphanum {c : Char} (h : c.isAlphanum = true) :
    48 ≤ c.toNat ∧ c.toNat ≤ 122 := by
  have hbetween : ∀ {low high : UInt32}, c.val ≥ low → c.val ≤ high →
      low.toNat ≤ c.toNat ∧ c.toNat ≤ high.toNat := fun hlow hhigh =>
    ⟨UInt32.le_iff_toNat_le.1 hlow, UInt32.le_iff_toNat_le.1 hhigh⟩
  have hrange : (65 ≤ c.toNat ∧ c.toNat ≤ 90) ∨ (97 ≤ c.toNat ∧ c.toNat ≤ 122) ∨
      (48 ≤ c.toNat ∧ c.toNat ≤ 57) := by
    rcases Bool.or_eq_true_iff.1 h with halpha | hdigit
    · rcases Bool.or_eq_true_iff.1 halpha with hupper | hlower
      · obtain ⟨hlow, hhigh⟩ := of_decide_eq_true hupper
        exact .inl (hbetween hlow hhigh)
      · obtain ⟨hlow, hhigh⟩ := Bool.and_eq_true_iff.1 hlower
        exact .inr (.inl (hbetween (of_decide_eq_true hlow) (of_decide_eq_true hhigh)))
    · exact .inr (.inr (Char.isDigit_iff_toNat.1 hdigit))
  omega

theorem isBlank_of_isNameChar {c : Char} (h : isNameChar c = true) : isBlank c = false := by
  have hrange : c.toNat = 36 ∨ (48 ≤ c.toNat ∧ c.toNat ≤ 122) := by
    simp only [isNameChar, Bool.or_eq_true, beq_iff_eq] at h
    rcases h with (h | rfl) | rfl
    · exact .inr (toNat_of_isAlphanum h)
    · decide
    · decide
  unfold isBlank
  simp only [Bool.or_eq_false_iff, Bool.and_eq_false_iff, decide_eq_false_iff_not,
    beq_eq_false_iff_ne]
  omega

theorem isBlank_of_mem_name {name : List Char} (h : isName name = true) :
    ∀ c ∈ name, isBlank c = false :=
  fun c hc => isBlank_of_isNameChar (isNameChar_of_mem h c hc)

theorem notMem_name {name : List Char} (h : isName name = true) : '(' ∉ name := by
  intro hmem
  exact absurd (isNameChar_of_mem h _ hmem) (by decide)

theorem name_ne_nil {name : List Char} (h : isName name = true) : name ≠ [] := by
  rintro rfl
  exact absurd h (by decide)

/-! ## What stands between brackets -/

theorem between_enclosed (pre inner tail : List Char) :
    between (pre ++ '(' :: inner ++ ')' :: tail) pre.length (pre.length + 1 + inner.length) =
      inner := by
  have hlength : pre.length + 1 + inner.length - (pre.length + 1) = inner.length := by omega
  have hdrop : (pre ++ '(' :: inner ++ ')' :: tail).drop (pre.length + 1) =
      inner ++ ')' :: tail := by
    rw [← List.drop_drop, List.append_assoc, List.drop_left]
    rfl
  rw [between, List.drop_take, hlength, hdrop, List.take_left]

theorem exists_enclosed {start stop : Nat} (hstart : (cs.drop start).head? = some '(')
    (h : closing? cs start = some stop) : ∃ inner tail,
      cs = cs.take start ++ '(' :: inner ++ ')' :: tail ∧ Balanced inner ∧
        stop = start + 1 + inner.length := by
  obtain ⟨inner, tail, hdrop, hstop, hbalanced⟩ := exists_of_closing? hstart h
  refine ⟨inner, tail, ?_, hbalanced, hstop⟩
  rw [List.append_assoc, ← hdrop, List.take_append_drop]

theorem trim_brackets (inner : List Char) :
    trim ('(' :: inner ++ [')']) = '(' :: inner ++ [')'] := by
  have hopener : trim ['('] = ['('] := by decide
  have hcloser : trim [')'] = [')'] := by decide
  exact trim_enclosed hopener hcloser (by simp) (by simp) inner

theorem exists_of_clause {stop : Nat} (hhead : clause.head? = some '(')
    (hstop : closing? clause 0 = some stop) (hend : stop + 1 = clause.length) :
    ∃ inner, clause = '(' :: inner ++ [')'] ∧ Balanced inner ∧ between clause 0 stop = inner := by
  have hfirst : (clause.drop 0).head? = some '(' := hhead
  obtain ⟨inner, tail, hclause, hbalanced, hplace⟩ := exists_enclosed hfirst hstop
  rw [List.take_zero, List.nil_append] at hclause
  have hlength : clause.length = inner.length + tail.length + 2 := by
    rw [hclause]
    simp
    omega
  obtain rfl : tail = [] := List.eq_nil_of_length_eq_zero (by omega)
  refine ⟨inner, hclause, hbalanced, ?_⟩
  have hbetween := between_enclosed [] inner []
  rw [List.nil_append, List.length_nil, ← hclause, ← hplace] at hbetween
  exact hbetween

theorem splitTexts_iff (hbalanced : Balanced inner) {types : List String} :
    (∃ found, splitChars inner = .ok found ∧ found.map String.ofList = types) ↔
      Lists (types.map String.toList) inner ∧ ∀ t ∈ types, IsType t.toList := by
  constructor
  · rintro ⟨found, hfound, rfl⟩
    obtain ⟨hlists, htypes⟩ := (splitChars_eq_ok_iff hbalanced).1 hfound
    have htexts : (found.map String.ofList).map String.toList = found := by
      rw [List.map_map]
      exact List.map_id'' (fun _ => String.toList_ofList) found
    rw [htexts]
    exact ⟨hlists, by simpa using htypes⟩
  · rintro ⟨hlists, htypes⟩
    refine ⟨_, (splitChars_eq_ok_iff hbalanced).2 ⟨hlists, by simpa using htypes⟩, ?_⟩
    rw [List.map_map]
    exact List.map_id'' (fun _ => String.ofList_toList) types

theorem balanced_of_lists {types : List String} (hlists : Lists (types.map String.toList) inner)
    (htypes : ∀ t ∈ types, IsType t.toList) : Balanced inner := by
  refine (hlists.nested ?_).balanced
  rintro _ hu
  obtain ⟨t, ht, rfl⟩ := List.mem_map.1 hu
  exact (htypes t ht).nested

/-! ## Outputs -/

theorem behindWord?_returns (tail : List Char) :
    behindWord? "returns" ("returns".toList ++ tail) = some (trim tail) := rfl

/-- The word `returns` can be taken off a text in one way only. -/
theorem behindWord?_eq_some (h : behindWord? "returns" rest = some clause) :
    ∃ tail, rest = "returns".toList ++ tail ∧ clause = trim tail := by
  unfold behindWord? at h
  split at h
  · rename_i hprefix
    obtain ⟨tail, rfl⟩ := List.isPrefixOf_iff_prefix.1 hprefix
    have hdrop : ("returns".toList ++ tail).drop "returns".length = tail := rfl
    exact ⟨tail, rfl, by rw [← Option.some.inj h, hdrop]⟩
  · exact absurd h (by simp)

def parseClause (text clause : List Char) : Except Fault (Option (List String)) := do
  if clause.isEmpty then return none
  if clause.head? ≠ some '(' then fail .trailing text
  else
    match closing? clause 0 with
    | some stop =>
      if stop + 1 = clause.length then
        return some ((← splitChars (between clause 0 stop)).map String.ofList)
      else fail .malformedOutputs text
    | none => fail .malformedOutputs text

theorem parseOutputs_eq (text rest : List Char) :
    parseOutputs text rest =
      match behindWord? "returns" rest with
      | some clause =>
        if clause.head? = some '(' then parseClause text clause else fail .malformedReturns text
      | none => parseClause text rest := by
  unfold parseOutputs
  cases behindWord? "returns" rest with
  | none => rfl
  | some clause =>
      dsimp only
      split <;> rfl

theorem parseClause_eq_ok_iff :
    parseClause text clause = .ok outputs ↔ (clause = [] ∧ outputs = none) ∨
      ∃ types inner, outputs = some types ∧ clause = '(' :: inner ++ [')'] ∧
        Lists (types.map String.toList) inner ∧ ∀ t ∈ types, IsType t.toList := by
  constructor
  · intro h
    unfold parseClause at h
    split at h
    · rename_i hempty
      exact .inl ⟨List.isEmpty_iff.1 hempty, (Except.ok.inj h).symm⟩
    · split at h
      · exact absurd h (by simp [fail])
      · rename_i hhead
        split at h
        · rename_i stop hstop
          split at h
          · rename_i hend
            obtain ⟨found, hfound, h⟩ := Except.bind_eq_ok_iff.1 h
            obtain rfl := Except.ok.inj h
            obtain ⟨inner, hclause, hbalanced, hbetween⟩ :=
              exists_of_clause (by simpa using hhead) hstop hend
            rw [hbetween] at hfound
            exact .inr ⟨_, inner, rfl, hclause, (splitTexts_iff hbalanced).1 ⟨found, hfound, rfl⟩⟩
          · exact absurd h (by simp [fail])
        · exact absurd h (by simp [fail])
  · rintro (⟨rfl, rfl⟩ | ⟨types, inner, rfl, rfl, hlists, htypes⟩)
    · rfl
    · have hbalanced := balanced_of_lists hlists htypes
      have hstop := closing?_enclosed hbalanced [] []
      have hbetween := between_enclosed [] inner []
      rw [List.nil_append, List.length_nil] at hstop hbetween
      have hend : 0 + 1 + inner.length + 1 = ('(' :: inner ++ [')']).length := by
        simp
        omega
      obtain ⟨found, hfound, rfl⟩ := (splitTexts_iff hbalanced).2 ⟨hlists, htypes⟩
      unfold parseClause
      rw [if_neg (by simp), if_neg (by simp), hstop]
      dsimp only
      rw [if_pos hend, hbetween, hfound]
      rfl

/-- What is read behind the inputs spells the outputs that are found. -/
theorem parseOutputs_eq_ok_iff (htrim : trim rest = rest) :
    parseOutputs text rest = .ok outputs ↔ SpellsOutputs outputs rest ∧
      ∀ types, outputs = some types → ∀ t ∈ types, IsType t.toList := by
  rw [parseOutputs_eq]
  constructor
  · intro h
    cases hword : behindWord? "returns" rest with
    | none =>
        rw [hword] at h
        rcases parseClause_eq_ok_iff.1 h with ⟨rfl, rfl⟩ | ⟨types, inner, rfl, rfl, hlists, htypes⟩
        · exact ⟨.absent, by simp⟩
        · exact ⟨.bare hlists, by rintro _ ⟨⟩; exact htypes⟩
    | some clause =>
        rw [hword] at h
        dsimp only at h
        split at h
        · rename_i hhead
          obtain ⟨tail, rfl, rfl⟩ := behindWord?_eq_some hword
          rcases parseClause_eq_ok_iff.1 h with
            ⟨hnil, -⟩ | ⟨types, inner, rfl, hclause, hlists, htypes⟩
          · exact absurd hhead (by simp [hnil])
          · obtain ⟨gap, after, hgap, hafter, htail⟩ := exists_trim tail
            have hfull : "returns".toList ++ tail =
                "returns".toList ++ gap ++ ('(' :: inner ++ [')']) := by
              rw [← htrim, htail, hclause, ← List.append_assoc, ← List.append_assoc,
                trim_append_blank _ hafter]
              exact trim_enclosed (by decide) (trim_brackets inner) (by decide) (by simp) gap
            rw [hfull]
            exact ⟨.returns hgap hlists, by rintro _ ⟨⟩; exact htypes⟩
        · exact absurd h (by simp [fail])
  · rintro ⟨hspells, htypes⟩
    cases hspells with
    | absent => rfl
    | @bare types inner hinner =>
        have hword : behindWord? "returns" ('(' :: inner ++ [')']) = none := rfl
        rw [hword]
        exact parseClause_eq_ok_iff.2 (.inr ⟨types, inner, rfl, rfl, hinner, htypes _ rfl⟩)
    | @returns types gap inner hgap hinner =>
        have hword : behindWord? "returns" ("returns".toList ++ gap ++ ('(' :: inner ++ [')'])) =
            some ('(' :: inner ++ [')']) := by
          rw [List.append_assoc, behindWord?_returns, trim_blank_append hgap, trim_brackets]
        rw [hword]
        dsimp only
        rw [if_pos (by simp)]
        exact parseClause_eq_ok_iff.2 (.inr ⟨types, inner, rfl, rfl, hinner, htypes _ rfl⟩)

theorem SpellsOutputs.trim_eq (h : SpellsOutputs outputs clause) : trim clause = clause := by
  cases h with
  | absent => rfl
  | bare => exact trim_brackets _
  | returns => exact trim_enclosed (by decide) (trim_brackets _) (by decide) (by simp) _

/-! ## Signatures -/

theorem parseChars_enclosed (hpre : '(' ∉ pre) (hne : pre ≠ []) (hbalanced : Balanced inner)
    (tail : List Char) :
    parseChars (pre ++ '(' :: inner ++ ')' :: tail) =
      if isName (trim pre) then do
        let inputs ← splitChars inner
        let outputs ← parseOutputs (pre ++ '(' :: inner ++ ')' :: tail) (trim tail)
        return ⟨String.ofList (trim pre), inputs.map String.ofList, outputs⟩
      else fail .invalidName (pre ++ '(' :: inner ++ ')' :: tail) := by
  have hplace : (pre ++ '(' :: inner ++ ')' :: tail).idxOf '(' = pre.length := by
    rw [List.append_assoc, List.idxOf_append_of_notMem hpre]
    simp
  have hplaced : ¬(pre.length = 0 ∨ (pre ++ '(' :: inner ++ ')' :: tail).length ≤ pre.length) := by
    simp [hne]
  have hname : (pre ++ '(' :: inner ++ ')' :: tail).take pre.length = pre := by
    rw [List.append_assoc, List.take_left]
  have hdrop : (pre ++ '(' :: inner ++ ')' :: tail).drop (pre.length + 1 + inner.length + 1) =
      tail := by
    have htext : pre ++ '(' :: inner ++ ')' :: tail = (pre ++ '(' :: inner ++ [')']) ++ tail := by
      simp
    have hlength : pre.length + 1 + inner.length + 1 = (pre ++ '(' :: inner ++ [')']).length := by
      simp
      omega
    rw [htext, hlength, List.drop_left]
  unfold parseChars
  dsimp only
  rw [hplace, if_neg hplaced, hname, closing?_enclosed hbalanced pre tail]
  dsimp only
  rw [between_enclosed, hdrop]
  cases isName (trim pre) <;> rfl

theorem exists_of_parseChars (h : parseChars cs = .ok sig) : ∃ pre inner tail,
    cs = pre ++ '(' :: inner ++ ')' :: tail ∧ '(' ∉ pre ∧ pre ≠ [] ∧ Balanced inner := by
  unfold parseChars at h
  dsimp only at h
  split at h
  · exact absurd h (by simp [fail])
  · rename_i hplace
    split at h
    · exact absurd h (by simp [fail])
    · split at h
      · exact absurd h (by simp [fail])
      · rename_i stop hstop
        have hstart : cs.idxOf '(' < cs.length := by omega
        have hhead : (cs.drop (cs.idxOf '(')).head? = some '(' := by
          rw [List.head?_drop, List.getElem?_eq_getElem hstart, List.getElem_idxOf]
        obtain ⟨inner, tail, hcs, hbalanced, -⟩ := exists_enclosed hhead hstop
        refine ⟨cs.take (cs.idxOf '('), inner, tail, hcs, ?_, ?_, hbalanced⟩
        · intro hmem
          have hfirst : (cs.take (cs.idxOf '(') ++ cs.drop (cs.idxOf '(')).idxOf '(' =
              (cs.take (cs.idxOf '(')).idxOf '(' := List.idxOf_append_of_mem hmem
          have hlt := List.idxOf_lt_length_of_mem hmem
          rw [List.take_append_drop] at hfirst
          rw [← hfirst, List.length_take] at hlt
          omega
        · intro hnil
          have hlength := congrArg List.length hnil
          rw [List.length_take, List.length_nil] at hlength
          omega

theorem notMem_blank {gap : List Char} (h : Blank gap) : '(' ∉ gap := by
  intro hmem
  exact absurd (h _ hmem) (by decide)

theorem spells_of_parse (h : parse s = .ok sig) : WellFormed sig ∧ Spells sig s.toList := by
  obtain ⟨before, after, hbefore, hafter, htext⟩ := exists_trim s.toList
  unfold parse at h
  obtain ⟨pre, inner, tail, hcs, hpre, hne, hbalanced⟩ := exists_of_parseChars h
  rw [hcs, parseChars_enclosed hpre hne hbalanced] at h
  split at h
  · rename_i hname
    obtain ⟨found, hfound, h⟩ := Except.bind_eq_ok_iff.1 h
    obtain ⟨outputs, houtputs, h⟩ := Except.bind_eq_ok_iff.1 h
    obtain rfl := Except.ok.inj h
    obtain ⟨hlists, hinputs⟩ := (splitTexts_iff hbalanced).1 ⟨found, hfound, rfl⟩
    obtain ⟨hclause, hproper⟩ := (parseOutputs_eq_ok_iff (trim_trim tail)).1 houtputs
    obtain ⟨lead, gap, hlead, hgap, hname'⟩ := exists_trim pre
    obtain ⟨behind, last, hbehind, hlast, htail⟩ := exists_trim tail
    refine ⟨⟨by simpa using hname, hinputs, hproper⟩, ?_⟩
    have hfull : s.toList = before ++ lead ++ trim pre ++ gap ++ '(' :: inner ++ ')' :: behind ++
        trim tail ++ (last ++ after) :=
      calc s.toList = before ++ (pre ++ '(' :: inner ++ ')' :: tail) ++ after := by
            rw [← hcs]
            exact htext
        _ = before ++ (lead ++ trim pre ++ gap ++ '(' :: inner ++
              ')' :: (behind ++ trim tail ++ last)) ++ after := by rw [← hname', ← htail]
        _ = _ := by simp
    have hspells : Spells ⟨String.ofList (trim pre), found.map String.ofList, outputs⟩
        (before ++ lead ++ (String.ofList (trim pre)).toList ++ gap ++ '(' :: inner ++
          ')' :: behind ++ trim tail ++ (last ++ after)) :=
      .intro (hbefore.append hlead) hgap hlists hbehind hclause (hlast.append hafter)
    rwa [String.toList_ofList, ← hfull] at hspells
  · exact absurd h (by simp [fail])

theorem parse_of_spells (hproper : WellFormed sig) (h : Spells sig s.toList) :
    parse s = .ok sig := by
  generalize htext : s.toList = cs at h
  cases h with
  | @intro before gap inner behind clause after hbefore hgap hinner hbehind hclause hafter =>
      have hname := hproper.name
      have hsolid : trim sig.name.toList = sig.name.toList :=
        trim_of_solid (isBlank_of_mem_name hname)
      have hbalanced := balanced_of_lists hinner hproper.inputs
      -- up to the closing bracket nothing is trimmed
      have hcore : trim (sig.name.toList ++ (gap ++ '(' :: inner) ++ [')']) =
          sig.name.toList ++ (gap ++ '(' :: inner) ++ [')'] :=
        trim_enclosed hsolid (by decide) (name_ne_nil hname) (by simp) _
      obtain ⟨tail, htail, hrest⟩ :=
        exists_trim_append hcore (by simp) (behind ++ clause ++ after)
      have hclause' : trim tail = clause := by
        rw [hrest, trim_around hbehind hafter, hclause.trim_eq]
      have htrim : trim s.toList = sig.name.toList ++ gap ++ '(' :: inner ++ ')' :: tail := by
        have hsplit : s.toList = before ++
            (sig.name.toList ++ (gap ++ '(' :: inner) ++ [')'] ++ (behind ++ clause ++ after)) := by
          rw [htext]
          simp
        rw [hsplit, trim_blank_append hbefore, htail]
        simp
      have hpre : '(' ∉ sig.name.toList ++ gap := by
        rw [List.mem_append, not_or]
        exact ⟨notMem_name hname, notMem_blank hgap⟩
      have hpre' : trim (sig.name.toList ++ gap) = sig.name.toList := by
        rw [trim_append_blank _ hgap, hsolid]
      obtain ⟨found, hfound, hinputs⟩ := (splitTexts_iff hbalanced).2 ⟨hinner, hproper.inputs⟩
      have houtputs : parseOutputs (trim s.toList) clause = .ok sig.outputs :=
        (parseOutputs_eq_ok_iff hclause.trim_eq).2 ⟨hclause, hproper.outputs⟩
      rw [htrim] at houtputs
      rw [parse, htrim, parseChars_enclosed hpre (by simp [name_ne_nil hname]) hbalanced, hpre',
        if_pos hname, hfound, Except.ok_bind, hclause', houtputs, hinputs, String.ofList_toList]
      rfl

theorem parse_eq_ok_iff : parse s = .ok sig ↔ WellFormed sig ∧ Spells sig s.toList :=
  ⟨spells_of_parse, fun h => parse_of_spells h.1 h.2⟩

/-! ## Texts that are refused -/

def Refused (e : Fault) : Prop :=
  ∃ cause, e = .malformed cause

theorem meets_fail {α : Type} {P : α → Prop} (cause : SignatureFault) (text : List Char) :
    Except.Meets P Refused (fail cause text) :=
  .error ⟨_, rfl⟩

theorem meets_splitChars (cs : List Char) :
    Except.Meets (fun _ => True) Refused (splitChars cs) := by
  unfold splitChars
  dsimp only
  split
  · exact .ok trivial
  · split
    · exact .error ⟨_, rfl⟩
    · split
      · exact .error ⟨_, rfl⟩
      · exact .ok trivial

theorem meets_parseClause (text clause : List Char) :
    Except.Meets (fun _ => True) Refused (parseClause text clause) := by
  unfold parseClause
  split
  · exact .ok trivial
  · split
    · exact meets_fail _ _
    · split
      · split
        · exact (meets_splitChars _).bind fun _ _ => .ok trivial
        · exact meets_fail _ _
      · exact meets_fail _ _

theorem meets_parseOutputs (text rest : List Char) :
    Except.Meets (fun _ => True) Refused (parseOutputs text rest) := by
  rw [parseOutputs_eq]
  split
  · split
    · exact meets_parseClause _ _
    · exact meets_fail _ _
  · exact meets_parseClause _ _

theorem meets_parse (s : String) : Except.Meets (fun _ => True) Refused (parse s) := by
  unfold parse parseChars
  dsimp only
  split
  · exact meets_fail _ _
  · split
    · exact meets_fail _ _
    · split
      · exact meets_fail _ _
      · refine (meets_splitChars _).bind fun _ _ => ?_
        exact (meets_parseOutputs _ _).bind fun _ _ => .ok trivial

/-! ## Reading is the grammar -/

/-- A text is read as a signature just if the signature is well formed and the text spells it, with
whatever blanks there may be. Every other text is refused for its form. -/
theorem parse_grammar (s : String) :
    (∀ sig, parse s = .ok sig ↔ WellFormed sig ∧ Spells sig s.toList) ∧
    ((∀ sig, ¬(WellFormed sig ∧ Spells sig s.toList)) →
      ∃ cause, parse s = .error (.malformed cause)) := by
  refine ⟨fun sig => parse_eq_ok_iff, fun hnone => ?_⟩
  cases hparse : parse s with
  | ok sig => exact absurd (parse_eq_ok_iff.1 hparse) (hnone sig)
  | error e =>
      obtain ⟨cause, rfl⟩ := (meets_parse s).of_error hparse
      exact ⟨cause, rfl⟩

/-- A text with blanks and outputs that spells a signature with a nested list, and a text that ends
with a comma and spells none. -/
theorem parse_grammar_spaced :
    parse " put ( (uint, byte )[] ,int )returns ( bool ) " =
      .ok ⟨"put", ["(uint, byte )[]", "int"], some ["bool"]⟩ ∧
    ∃ cause, parse "put(int,)" = .error (.malformed cause) := by
  constructor
  · have hspells : Spells ⟨"put", ["(uint, byte )[]", "int"], some ["bool"]⟩
        ([' '] ++ "put".toList ++ [' '] ++ '(' :: " (uint, byte )[] ,int ".toList ++
          ')' :: [] ++ ("returns".toList ++ [' '] ++ ('(' :: " bool ".toList ++ [')'])) ++
            [' ']) := by
      have hblank : Blank [' '] := by decide
      refine .intro hblank hblank ?_ .nil (.returns hblank ?_) hblank
      · exact .more (p := " (uint, byte )[] ".toList) ⟨[' '], [' '], hblank, hblank, rfl⟩
          (.one ⟨[], [' '], .nil, hblank, rfl⟩)
      · exact .one ⟨[' '], [' '], hblank, hblank, rfl⟩
    exact ((parse_grammar _).1 _).2 ⟨⟨by decide, by decide, by decide⟩, hspells⟩
  · refine (parse_grammar _).2 fun sig hsig => ?_
    have hread := ((parse_grammar _).1 sig).2 hsig
    have hrefused : parse "put(int,)" = .error _ := rfl
    rw [hrefused] at hread
    exact absurd hread (by simp)

end ContractAbi.Signature
