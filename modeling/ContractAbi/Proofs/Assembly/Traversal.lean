import ContractAbi.Proofs.Assembly.Run
import ContractAbi.Proofs.Chain.Delegates
import ContractAbi.Proofs.Session.Trace

/-!
# From contract to contract

What holds of each contract that an assembly enters, and of what comes between, holds of all that it
comes to, if it holds of runs that are put together from runs.

* `Sequential`: what holds of runs that are put together;
* `Sequential.followDelegation`: the contracts that are delegated to;
* `Sequential.assembleAt`: all contracts.
-/

namespace ContractAbi.Assembler

/-- What holds of a run from one walk to another while only questions of the kind `R` are asked and
no contract is entered, and of two such runs one after the other. -/
structure Sequential (R : Request → Prop) (T : Walk → List Event → Walk → Prop) : Prop where
  asks : ∀ {w es w'}, (∀ e ∈ es, e.AsksOnly R) → w'.visited = w.visited → T w es w'
  append : ∀ {w es w₁ es' w'}, T w es w₁ → T w₁ es' w' → T w (es ++ es') w'

variable {services : Services} {options : Options} {chain : Value} {address : String}

def enter (services : Services) (options : Options) (chain : Value) (depth : Nat)
    (address : String) : Session Walk Own := do
  .lift ⟨.ok (), [.entered address depth]⟩
  .modify (Walk.enter · address)
  .focus Walk.memory (fun m w => { w with memory := m }) (ownEntries services options address chain)

theorem assembleAt_eq_enter [AddressLibrary] (fuel depth : Nat) (address : String) :
    assembleAt services options chain fuel depth address = (do
      let own ← enter services options chain depth address
      let (proxy, found) ← delegationsOf services options chain fuel depth address own
      return ⟨.text address, chain, Entry.merge own.completed (found.map Reconstruction.entries),
        own.sourceKind, proxy, own.selectors.map .text⟩) := by
  rw [assembleAt_eq, enter]
  simp only [bind_assoc]

namespace Sequential

variable {R : Request → Prop} {T : Walk → List Event → Walk → Prop}
  {assemble : String → Session Walk Reconstruction} {own : Own}

theorem none (hT : Sequential R T) (w : Walk) : T w [] w :=
  hT.asks (by simp) rfl

theorem lift {α : Type} (hT : Sequential R T) {t : Traced α} (h : t.Asks R) (w : Walk) :
    (Session.lift t).Leads T w :=
  hT.asks h rfl

theorem delegate (hT : Sequential R T) {a : String}
    (h : ∀ w, Address.fold a ∉ w.visited → (assemble a).Leads T w) (w : Walk) :
    (delegate assemble a).Leads T w := by
  unfold Assembler.delegate Session.Leads
  rw [Session.run_bind_get]
  by_cases hseen : Address.fold a ∈ w.visited
  · rw [if_pos (by simpa using hseen)]
    exact hT.asks ((Session.asks_note _ _ _).bind (fun _ => Session.asks_pure _) w) rfl
  · rw [if_neg (by simpa using hseen)]
    have hattempt : (assemble a).attempt.Leads T w := h w hseen
    refine hattempt.bind hT.append hT.none fun result _ => ?_
    split
    · exact hT.none _
    · exact hT.asks ((Session.asks_note _ _ _).bind (fun _ => Session.asks_pure _) _) rfl
    · exact hT.none _

theorem delegates (hT : Sequential R T) {as : List String}
    (h : ∀ a ∈ as, ∀ w, Address.fold a ∉ w.visited → (assemble a).Leads T w) (w : Walk) :
    (delegates assemble as).Leads T w := by
  induction as generalizing w with
  | nil => exact hT.none w
  | cons a rest ih =>
      unfold Assembler.delegates
      refine (hT.delegate (h a List.mem_cons_self) w).bind hT.append hT.none fun found _ => ?_
      refine (ih (fun b hb => h b (List.mem_cons_of_mem _ hb)) _).bind hT.append hT.none
        fun more _ => ?_
      exact hT.none _

/-- The contracts that are delegated to are given in the one spelling of their addresses. -/
theorem followDelegation [AddressLibrary] (hT : Sequential R T)
    (hdetect : ∀ selectors code,
      (Proxy.detect options.proxy services.reader (.text address) selectors code).Asks R)
    (hfacets : ∀ selectors, (Proxy.detectFacets services.reader address selectors).Asks R)
    (h : ∀ a, Address.IsSpelt a → ∀ w, Address.fold a ∉ w.visited → (assemble a).Leads T w)
    (w : Walk) : (followDelegation services options assemble address own).Leads T w := by
  unfold Assembler.followDelegation
  refine (hT.lift (hdetect _ _) w).bind hT.append hT.none fun info hinfo => ?_
  have himplementation : ∀ a ∈ (info.bind fun i => i.implementation.text?).toList,
      Address.IsSpelt a := by
    intro a ha
    obtain ⟨i, hi, ha⟩ := Option.bind_eq_some_iff.1 (Option.mem_toList.1 ha)
    exact (Proxy.spelt_detect _ _ _ _).of_ok hinfo i hi a ha
  refine (hT.delegates (fun a ha => h a (himplementation a ha)) _).bind hT.append hT.none
    fun implementation _ => ?_
  refine (hT.lift (hfacets _) _).bind hT.append hT.none fun facets hfound => ?_
  split
  · exact hT.none _
  · refine (hT.lift (Traced.asks_note _ _ _) _).bind hT.append hT.none fun _ _ => ?_
    have hspelt := (Proxy.spelt_detectFacets _ _).of_ok hfound
    refine (hT.delegates (fun a ha => h a (hspelt a ha).1) _).bind hT.append hT.none
      fun others _ => ?_
    exact hT.none _

/-- What holds whenever a contract is entered holds all through an assembly. -/
theorem assembleAt [AddressLibrary] (hT : Sequential R T)
    (henter : ∀ depth address w, (enter services options chain depth address).Leads T w)
    (hdetect : ∀ address selectors code,
      (Proxy.detect options.proxy services.reader (.text address) selectors code).Asks R)
    (hfacets : ∀ address selectors, (Proxy.detectFacets services.reader address selectors).Asks R)
    (fuel depth : Nat) (w : Walk) :
    (assembleAt services options chain fuel depth address).Leads T w := by
  induction fuel generalizing depth address w with
  | zero =>
      rw [assembleAt_eq_enter]
      refine (henter depth address w).bind hT.append hT.none fun own _ => ?_
      exact hT.none _
  | succ fuel ih =>
      rw [assembleAt_eq_enter]
      refine (henter depth address w).bind hT.append hT.none fun own _ => ?_
      refine (hT.followDelegation (hdetect address) (hfacets address)
        (fun a _ w _ => ih (depth + 1) w) _).bind hT.append hT.none fun _ _ => ?_
      exact hT.none _

end Sequential

end ContractAbi.Assembler
