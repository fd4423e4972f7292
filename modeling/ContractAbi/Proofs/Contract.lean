import ContractAbi.Contract
import ContractAbi.Proofs.Cache
import ContractAbi.Proofs.Interface.Param
import ContractAbi.Proofs.Interface.ResultItem
import ContractAbi.Proofs.Selector
import Mathlib.Data.List.Nodup
import Mathlib.Data.List.Perm.Basic

/-!
# Which function a caller gets

A caller who names a function gets the one that is meant, or is told that none or more than one is.
The order in which the interface lists its functions has no say in it, as long as no two of them
have one selector.

* `eq_singleton_iff` and `one_lt_length_iff`: what a list holds, whatever its order;
* `byName_chosen` and `firstOf_selected`: what a name gives, and what a selector;
* `byName_perm` and `find_perm`: the order does not matter;
* `choosable_of_regular`: results that are read or assembled are such interfaces;
* `find_chooses`: all of it together.
-/

namespace ContractAbi

namespace Contract

/-! ## The only one, and more than one -/

section Only

variable {α : Type*} {p : α → Prop} {l : List α}

def Only (p : α → Prop) (a : α) : Prop :=
  p a ∧ ∀ b, p b → b = a

def Several (p : α → Prop) : Prop :=
  ∃ a b, p a ∧ p b ∧ a ≠ b

theorem exists_only (hsome : ∃ a, p a) (hfew : ¬Several p) : ∃ a, Only p a := by
  obtain ⟨a, ha⟩ := hsome
  refine ⟨a, ha, fun b hb => ?_⟩
  by_contra hne
  exact hfew ⟨b, a, hb, ha, hne⟩

theorem not_several {a : α} (h : Only p a) : ¬Several p := by
  rintro ⟨b, c, hb, hc, hne⟩
  exact hne ((h.2 b hb).trans (h.2 c hc).symm)

theorem eq_singleton_iff (hl : l.Nodup) (hp : ∀ b, b ∈ l ↔ p b) {a : α} :
    l = [a] ↔ Only p a := by
  constructor
  · intro h
    have hmem : ∀ b, p b ↔ b = a := fun b => by rw [← hp, h, List.mem_singleton]
    exact ⟨(hmem a).2 rfl, fun b hb => (hmem b).1 hb⟩
  · rintro ⟨ha, honly⟩
    rw [← List.perm_singleton, List.perm_ext_iff_of_nodup hl (List.nodup_singleton a)]
    intro b
    rw [hp, List.mem_singleton]
    exact ⟨honly b, fun hb => hb ▸ ha⟩

theorem one_lt_length_iff (hl : l.Nodup) (hp : ∀ b, b ∈ l ↔ p b) :
    1 < l.length ↔ Several p := by
  match l, hl with
  | [], _ =>
      refine iff_of_false (by simp) ?_
      rintro ⟨a, _, ha, _⟩
      exact absurd ((hp a).2 ha) List.not_mem_nil
  | [a], hl => exact iff_of_false (by simp) (not_several ((eq_singleton_iff hl hp).1 rfl))
  | a :: b :: rest, hl =>
      have hne : a ≠ b := fun h => (List.nodup_cons.1 hl).1 (by simp [h])
      exact iff_of_true (by simp) ⟨a, b, (hp a).1 (by simp), (hp b).1 (by simp), hne⟩

end Only

/-! ## By name -/

def Named (r : Reconstruction) (name : String) (f : FunctionEntry) : Prop :=
  f ∈ r.functions ∧ f.name = .text name

def Taking (r : Reconstruction) (name : String) (count : Nat) (f : FunctionEntry) : Prop :=
  Named r name f ∧ f.inputs.length = count

def Spellable (f : FunctionEntry) : Prop :=
  ∃ text, f.signature = .ok text

theorem spellable_of_typed {f : FunctionEntry} (h : ∀ p ∈ f.inputs, p.Typed) : Spellable f :=
  Param.Typed.exists_signature f.name h

/-- Results that are read or assembled have selectors of their own and functions that can be
spelt. -/
theorem choosable_of_regular {r : Reconstruction} (h : r.Regular) :
    (r.functions.map FunctionEntry.selector).Nodup ∧ ∀ f ∈ r.functions, Spellable f := by
  constructor
  · exact List.pairwise_map.2 h.pairwise_selector
  · intro f hf
    exact (h.of_mem hf).signature

def named (functions : List FunctionEntry) (name : Value) : List FunctionEntry :=
  functions.filter fun f => f.name.same name

def taking (functions : List FunctionEntry) (name : Value) (count : Nat) : List FunctionEntry :=
  (named functions name).filter fun f => f.inputs.length == count

theorem partCount_list (args : List Value) : partCount (.list args) = .ok args.length := by
  cases args <;> rfl

def spelling (f : FunctionEntry) : String :=
  f.signature.toOption.getD ""

theorem mapM_signature {functions : List FunctionEntry} (h : ∀ f ∈ functions, Spellable f) :
    functions.mapM FunctionEntry.signature = .ok (functions.map spelling) := by
  apply Except.mapM_eq_ok_map
  intro f hf
  obtain ⟨text, htext⟩ := h f hf
  rw [spelling, htext]
  rfl

theorem byName_eq (functions : List FunctionEntry) (name args : Value) :
    byName functions name args = (do
      if (named functions name).length ≤ 1 then firstOf name.plain (named functions name)
      else
        let count ← partCount args
        match taking functions name count with
        | [f] => return f
        | _ =>
          throw (.ambiguous name.plain (← (named functions name).mapM FunctionEntry.signature))) :=
  rfl

section Name

variable {r : Reconstruction} {name : String} {args : List Value}

theorem mem_named {f : FunctionEntry} :
    f ∈ named r.functions (.text name) ↔ Named r name f := by
  rw [named, List.mem_filter, Named, ← Value.same_text_iff, Value.same, Value.same, beq_iff_eq,
    beq_iff_eq, eq_comm (a := f.name.unified)]

theorem mem_taking {f : FunctionEntry} {count : Nat} :
    f ∈ taking r.functions (.text name) count ↔ Taking r name count f := by
  rw [taking, List.mem_filter, mem_named, beq_iff_eq, Taking]

theorem nodup_named (hr : r.functions.Nodup) (name : Value) : (named r.functions name).Nodup :=
  hr.filter _

theorem nodup_taking (hr : r.functions.Nodup) (name : Value) (count : Nat) :
    (taking r.functions name count).Nodup :=
  (nodup_named hr name).filter _

theorem byName_of_none (h : ∀ f, ¬Named r name f) :
    byName r.functions (.text name) (.list args) = .error (.functionNotFound name) := by
  have hnone : named r.functions (.text name) = [] :=
    List.eq_nil_iff_forall_not_mem.2 fun f hf => h f (mem_named.1 hf)
  rw [byName_eq, hnone]
  rfl

theorem byName_of_only (hr : r.functions.Nodup) {f : FunctionEntry} (h : Only (Named r name) f) :
    byName r.functions (.text name) (.list args) = .ok f := by
  have honly := (eq_singleton_iff (nodup_named hr _) fun _ => mem_named).2 h
  rw [byName_eq, honly]
  rfl

/-- Of several functions the one that takes as many arguments as are given. -/
theorem byName_of_taking (hr : r.functions.Nodup) (hseveral : Several (Named r name))
    {f : FunctionEntry} (h : Only (Taking r name args.length) f) :
    byName r.functions (.text name) (.list args) = .ok f := by
  have hmany := (one_lt_length_iff (nodup_named hr _) fun _ => mem_named).2 hseveral
  have honly := (eq_singleton_iff (nodup_taking hr _ _) fun _ => mem_taking).2 h
  rw [byName_eq, if_neg (by omega), partCount_list, Except.ok_bind, honly]
  rfl

theorem byName_of_ambiguous (hr : r.functions.Nodup) (hspelt : ∀ f ∈ r.functions, Spellable f)
    (hseveral : Several (Named r name)) (h : ¬∃ f, Only (Taking r name args.length) f) :
    ∃ candidates, byName r.functions (.text name) (.list args) =
      .error (.ambiguous name candidates) := by
  have hmany := (one_lt_length_iff (nodup_named hr _) fun _ => mem_named).2 hseveral
  have hnamed : ∀ f ∈ named r.functions (.text name), Spellable f := fun f hf =>
    hspelt f (mem_named.1 hf).1
  rw [byName_eq, if_neg (by omega), partCount_list, Except.ok_bind]
  split
  · rename_i f honly
    exact absurd ⟨f, (eq_singleton_iff (nodup_taking hr _ _) fun _ => mem_taking).1 honly⟩ h
  · exact ⟨_, by rw [mapM_signature hnamed]; rfl⟩

/-- What a name and a number of arguments come to: the only function of the name, or of several
the only one that takes as many; and else the fault that says which of the two is amiss. -/
structure ChosenByName (r : Reconstruction) (name : String) (count : Nat)
    (choice : Except Fault FunctionEntry) : Prop where
  found : ∀ f, choice = .ok f ↔ Only (Named r name) f ∨ Only (Taking r name count) f
  ambiguous : (∃ shown candidates, choice = .error (.ambiguous shown candidates)) ↔
    Several (Named r name) ∧ ¬∃ f, Only (Taking r name count) f
  absent : (∃ wanted, choice = .error (.functionNotFound wanted)) ↔ ∀ f, ¬Named r name f

theorem chosenByName_of_ok {f : FunctionEntry} {count : Nat}
    (h : Only (Named r name) f ∨ Several (Named r name) ∧ Only (Taking r name count) f) :
    ChosenByName r name count (.ok f) := by
  have hf : Named r name f := by
    rcases h with h | ⟨-, h⟩
    · exact h.1
    · exact h.1.1
  refine ⟨fun g => ⟨?_, ?_⟩, ?_, ?_⟩
  · rintro hg
    rw [← Except.ok.inj hg]
    exact h.imp id And.right
  · rintro (hg | hg)
    · rw [hg.2 f hf]
    · rcases h with h | ⟨-, h⟩
      · rw [h.2 g hg.1.1]
      · rw [hg.2 f h.1]
  · refine iff_of_false (by simp) ?_
    rintro ⟨hseveral, hnone⟩
    rcases h with h | ⟨-, h⟩
    · exact not_several h hseveral
    · exact hnone ⟨f, h⟩
  · exact iff_of_false (by simp) fun hnone => hnone f hf

theorem byName_chosen (hr : r.functions.Nodup) (hspelt : ∀ f ∈ r.functions, Spellable f) :
    ChosenByName r name args.length (byName r.functions (.text name) (.list args)) := by
  by_cases hsome : ∃ f, Named r name f
  · by_cases hseveral : Several (Named r name)
    · by_cases htaking : ∃ f, Only (Taking r name args.length) f
      · obtain ⟨f, hf⟩ := htaking
        rw [byName_of_taking hr hseveral hf]
        exact chosenByName_of_ok (.inr ⟨hseveral, hf⟩)
      · obtain ⟨candidates, hcandidates⟩ := byName_of_ambiguous hr hspelt hseveral htaking
        rw [hcandidates]
        refine ⟨fun g => iff_of_false (by simp) ?_,
          iff_of_true ⟨name, candidates, rfl⟩ ⟨hseveral, htaking⟩, iff_of_false (by simp) ?_⟩
        · rintro (hg | hg)
          · exact not_several hg hseveral
          · exact htaking ⟨g, hg⟩
        · exact fun hnone => hnone _ hsome.choose_spec
    · obtain ⟨f, hf⟩ := exists_only hsome hseveral
      rw [byName_of_only hr hf]
      exact chosenByName_of_ok (.inl hf)
  · have hnone : ∀ f, ¬Named r name f := fun f hf => hsome ⟨f, hf⟩
    rw [byName_of_none hnone]
    refine ⟨fun g => iff_of_false (by simp) ?_, iff_of_false (by simp) ?_,
      iff_of_true ⟨name, rfl⟩ hnone⟩
    · rintro (hg | hg)
      · exact hnone g hg.1
      · exact hnone g hg.1.1
    · rintro ⟨⟨f, _, hf, _⟩, -⟩
      exact hnone f hf

end Name

/-! ## By selector -/

def selected (functions : List FunctionEntry) (selector : String) : List FunctionEntry :=
  functions.filter fun f => f.selector == selector

theorem mem_selected {functions : List FunctionEntry} {selector : String} {f : FunctionEntry} :
    f ∈ selected functions selector ↔ f ∈ functions ∧ f.selector = selector := by
  rw [selected, List.mem_filter, beq_iff_eq]

structure ChosenBySelector (r : Reconstruction) (selector : String)
    (choice : Except Fault FunctionEntry) : Prop where
  found : ∀ f, choice = .ok f ↔ f ∈ r.functions ∧ f.selector = selector
  absent : choice = .error (.functionNotFound selector) ↔ ∀ f ∈ r.functions, f.selector ≠ selector

theorem find_of_selector (r : Reconstruction) {selector : Value} {s : String}
    (h : Selector.normalize selector = .ok s) (name signature args : Value) :
    find r ⟨name, signature, selector, args⟩ = firstOf s (selected r.functions s) := by
  rw [find, if_pos (Selector.holds_of_normalize h), h]
  rfl

section Selector

variable {functions : List FunctionEntry}

theorem only_selected (hselectors : (functions.map FunctionEntry.selector).Nodup)
    {f : FunctionEntry} (hf : f ∈ functions) :
    Only (fun g => g ∈ functions ∧ g.selector = f.selector) f :=
  ⟨⟨hf, rfl⟩, fun _ hg => List.inj_on_of_nodup_map hselectors hg.1 hf hg.2⟩

theorem selected_eq_singleton (hselectors : (functions.map FunctionEntry.selector).Nodup)
    {f : FunctionEntry} (hf : f ∈ functions) : selected functions f.selector = [f] :=
  (eq_singleton_iff (hselectors.of_map.filter _) fun _ => mem_selected).2
    (only_selected hselectors hf)

theorem length_selected_le (hselectors : (functions.map FunctionEntry.selector).Nodup)
    (selector : String) : (selected functions selector).length ≤ 1 := by
  by_contra hmany
  have hlength : 1 < (selected functions selector).length := by omega
  obtain ⟨f, g, ⟨hf, hfs⟩, ⟨hg, hgs⟩, hne⟩ :=
    (one_lt_length_iff (hselectors.of_map.filter _) fun _ => mem_selected).1 hlength
  exact hne (List.inj_on_of_nodup_map hselectors hf hg (hfs.trans hgs.symm))

theorem firstOf_selected {r : Reconstruction}
    (hselectors : (r.functions.map FunctionEntry.selector).Nodup) (selector : String) :
    ChosenBySelector r selector (firstOf selector (selected r.functions selector)) := by
  by_cases hsome : ∃ f ∈ r.functions, f.selector = selector
  · obtain ⟨f, hf, rfl⟩ := hsome
    rw [selected_eq_singleton hselectors hf]
    refine ⟨fun g => ⟨?_, fun hg => ?_⟩, iff_of_false nofun fun hnone => hnone f hf rfl⟩
    · intro hg
      rw [← Except.ok.inj hg]
      exact ⟨hf, rfl⟩
    · rw [(only_selected hselectors hf).2 g hg]
      rfl
  · have hnone : ∀ f ∈ r.functions, f.selector ≠ selector := fun f hf hs => hsome ⟨f, hf, hs⟩
    have hempty : selected r.functions selector = [] :=
      List.eq_nil_iff_forall_not_mem.2 fun f hf =>
        hnone f (mem_selected.1 hf).1 (mem_selected.1 hf).2
    rw [hempty]
    exact ⟨fun g => iff_of_false nofun fun hg => hnone g hg.1 hg.2, iff_of_true rfl hnone⟩

end Selector

/-! ## In any order -/

/-- The same function or the same fault, where a fault may list its candidates in another order. -/
inductive Alike : Except Fault FunctionEntry → Except Fault FunctionEntry → Prop
  | same (x) : Alike x x
  | ambiguous (name) {candidates candidates' : List String} (h : candidates.Perm candidates') :
      Alike (.error (.ambiguous name candidates)) (.error (.ambiguous name candidates'))

theorem firstOf_perm {functions functions' : List FunctionEntry} (h : functions.Perm functions')
    (hfew : functions.length ≤ 1) (wanted : String) :
    firstOf wanted functions = firstOf wanted functions' := by
  match functions with
  | [] => rw [h.nil_eq]
  | [f] => rw [List.singleton_perm.1 h]
  | _ :: _ :: _ => exact absurd hfew (by simp)

theorem byName_perm {functions functions' : List FunctionEntry} (h : functions.Perm functions')
    (hspelt : ∀ f ∈ functions, Spellable f) (name args : Value) :
    Alike (byName functions name args) (byName functions' name args) := by
  have hnamed : (named functions name).Perm (named functions' name) := h.filter _
  have hspelt' : ∀ f ∈ functions', Spellable f := fun f hf => hspelt f (h.mem_iff.2 hf)
  have hnames := mapM_signature fun f (hf : f ∈ named functions name) =>
    hspelt f (List.mem_filter.1 hf).1
  have hnames' := mapM_signature fun f (hf : f ∈ named functions' name) =>
    hspelt' f (List.mem_filter.1 hf).1
  rw [byName_eq, byName_eq, ← hnamed.length_eq]
  split
  · rename_i hfew
    rw [firstOf_perm hnamed hfew]
    exact .same _
  · cases partCount args with
    | error f => exact .same _
    | ok count =>
        have htaking : (taking functions name count).Perm (taking functions' name count) :=
          hnamed.filter _
        rw [Except.ok_bind, Except.ok_bind]
        split
        · rename_i f honly
          rw [honly] at htaking
          rw [← List.singleton_perm.1 htaking]
          exact .same _
        · rename_i hmany
          split
          · rename_i f honly
            rw [honly] at htaking
            exact (hmany f (List.perm_singleton.1 htaking)).elim
          · rw [hnames, hnames']
            exact .ambiguous _ (hnamed.map spelling)

theorem find_perm {r : Reconstruction} {entries' : List Entry} (h : r.entries.Perm entries')
    (hselectors : (r.functions.map FunctionEntry.selector).Nodup)
    (hspelt : ∀ f ∈ r.functions, Spellable f) (s : Selection)
    (hs : s.selector.holds = true ∨ s.signature.holds = false) :
    Alike (find r s) (find { r with entries := entries' } s) := by
  have hfunctions : r.functions.Perm ({ r with entries := entries' } : Reconstruction).functions :=
    h.filterMap _
  rw [find, find]
  split
  · cases Selector.normalize s.selector with
    | error f => exact .same _
    | ok selector =>
        have hselected := hfunctions.filter fun f => f.selector == selector
        rw [Except.ok_bind, Except.ok_bind,
          firstOf_perm hselected (length_selected_le hselectors selector)]
        exact .same _
  · rename_i hselector
    have hsignature : ¬s.signature.holds = true := by simp [hs.resolve_left hselector]
    rw [if_neg hsignature, if_neg hsignature]
    split
    · exact byName_perm hfunctions hspelt s.name s.args
    · exact .same _

/-! ## All together -/

/-- A name gives its only function, or of several the only one that takes the arguments, and else a
fault that tells none from too many. A selector overrides signature and name, and a signature the
name. By name and by selector, the order of the entries does not matter. This is so for results that
are read or assembled, and for all others with selectors of their own and types that can be spelt,
since the fault spells the candidates. -/
theorem find_chooses (r : Reconstruction)
    (hr : r.Regular ∨
      (r.functions.map FunctionEntry.selector).Nodup ∧ ∀ f ∈ r.functions, Spellable f) :
    (∀ (name : String) (signature selector : Value) (args : List Value), name ≠ "" →
      signature.holds = false → selector.holds = false →
      ChosenByName r name args.length (find r ⟨.text name, signature, selector, .list args⟩)) ∧
    (∀ (name signature selector args : Value) (s : String), Selector.normalize selector = .ok s →
      ChosenBySelector r s (find r ⟨name, signature, selector, args⟩)) ∧
    (∀ name name' signature signature' selector args args', selector.holds = true →
      find r ⟨name, signature, selector, args⟩ = find r ⟨name', signature', selector, args'⟩) ∧
    (∀ name name' signature selector selector' args args', signature.holds = true →
      selector.holds = false → selector'.holds = false →
      find r ⟨name, signature, selector, args⟩ = find r ⟨name', signature, selector', args'⟩) ∧
    (∀ entries', r.entries.Perm entries' →
      ∀ s : Selection, s.selector.holds = true ∨ s.signature.holds = false →
        Alike (find r s) (find { r with entries := entries' } s)) := by
  obtain ⟨hselectors, hspelt⟩ := hr.elim choosable_of_regular id
  refine ⟨?_, ?_, ?_, ?_, fun entries' h s => find_perm h hselectors hspelt s⟩
  · intro name signature selector args hname hsignature hselector
    have hholds : (Value.text name).holds = true := by simpa [Value.holds] using hname
    have hfind : find r ⟨.text name, signature, selector, .list args⟩ =
        byName r.functions (.text name) (.list args) := by
      rw [find, if_neg (by simp [hselector]), if_neg (by simp [hsignature]), if_pos hholds]
    rw [hfind]
    exact byName_chosen hselectors.of_map hspelt
  · intro name signature selector args s hs
    rw [find_of_selector r hs]
    exact firstOf_selected hselectors s
  · intro name name' signature signature' selector args args' hselector
    rw [find, find, if_pos hselector, if_pos hselector]
  · intro name name' signature selector selector' args args' hsignature hselector hselector'
    have hno : ¬selector.holds = true := by simp [hselector]
    have hno' : ¬selector'.holds = true := by simp [hselector']
    rw [find, find, if_neg hno, if_pos hsignature, if_neg hno', if_pos hsignature]

/-! ## Two withdrawals -/

def amount : Param :=
  .mk (.text "amount") (.text "uint256") none .null .null

def receiver : Param :=
  .mk (.text "receiver") (.text "address") none .null .null

def withdrawal : FunctionEntry :=
  ⟨"0x2e1a7d4d", .text "withdraw", [amount], [], defaultMutability⟩

def withdrawalTo : FunctionEntry :=
  ⟨"0x00f714ce", .text "withdraw", [amount, receiver], [], defaultMutability⟩

def vault : Reconstruction :=
  ⟨.text "0x1111111111111111111111111111111111111111", .int 1,
    [.function withdrawalTo, .function withdrawal], codeSource, none, []⟩

theorem mem_vault {f : FunctionEntry} :
    f ∈ vault.functions ↔ f = withdrawalTo ∨ f = withdrawal := by
  change f ∈ [withdrawalTo, withdrawal] ↔ _
  simp

/-- One argument chooses between the two, and without any they are ambiguous. -/
theorem find_chooses_vault :
    (vault.functions.map FunctionEntry.selector).Nodup ∧
      (∀ f ∈ vault.functions, Spellable f) ∧
      find vault ⟨.text "withdraw", .null, .null, .list [.int 1]⟩ = .ok withdrawal ∧
      (∃ shown candidates, find vault ⟨.text "withdraw", .null, .null, .list []⟩ =
        .error (.ambiguous shown candidates)) ∧
      find vault ⟨.null, .null, .text "2E1A7D4D", .null⟩ = .ok withdrawal := by
  have hselectors : (vault.functions.map FunctionEntry.selector).Nodup := by decide
  have hamount : amount.Typed := .mk _ _ none _ _ nofun
  have hreceiver : receiver.Typed := .mk _ _ none _ _ nofun
  have hspelt : ∀ f ∈ vault.functions, Spellable f := by
    intro f hf
    apply spellable_of_typed
    rcases mem_vault.1 hf with rfl | rfl
    · intro p hp
      rcases List.mem_pair.1 hp with rfl | rfl
      · exact hamount
      · exact hreceiver
    · intro p hp
      rw [List.mem_singleton.1 hp]
      exact hamount
  obtain ⟨hname, hselector, -⟩ := find_chooses vault (.inr ⟨hselectors, hspelt⟩)
  have hwithdrawal : Named vault "withdraw" withdrawal := ⟨mem_vault.2 (.inr rfl), rfl⟩
  have hwithdrawalTo : Named vault "withdraw" withdrawalTo := ⟨mem_vault.2 (.inl rfl), rfl⟩
  refine ⟨hselectors, hspelt, ?_, ?_, ?_⟩
  · have hchosen := hname "withdraw" .null .null [.int 1] (by decide) rfl rfl
    refine (hchosen.found withdrawal).2 (.inr ⟨⟨hwithdrawal, rfl⟩, ?_⟩)
    rintro f ⟨⟨hf, -⟩, hcount⟩
    rcases mem_vault.1 hf with rfl | rfl
    · cases hcount
    · rfl
  · have hchosen := hname "withdraw" .null .null [] (by decide) rfl rfl
    refine hchosen.ambiguous.2 ⟨⟨withdrawal, withdrawalTo, hwithdrawal, hwithdrawalTo, ?_⟩, ?_⟩
    · intro h
      cases congrArg FunctionEntry.inputs h
    · rintro ⟨f, ⟨⟨hf, -⟩, hcount⟩, -⟩
      rcases mem_vault.1 hf with rfl | rfl
      · cases hcount
      · cases hcount
  · have hchosen := hselector .null .null (.text "2E1A7D4D") .null "0x2e1a7d4d" rfl
    exact (hchosen.found withdrawal).2 ⟨mem_vault.2 (.inr rfl), rfl⟩

end Contract

end ContractAbi
