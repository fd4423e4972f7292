import ContractAbi.Proofs.Session.Trace
import ContractAbi.Resolver

/-!
# What a resolver asks

A resolver asks nobody but its sources, and these for the keys that it is to resolve only.

* `Resolver.asks_search`: looking one key up;
* `Resolver.asks_enrich` and `Resolver.asks_resolveEvents`: naming functions and events.
-/

namespace ContractAbi.Resolver

variable {R : Request → Prop} {sources : List SignatureSource}

theorem asks_query {source : SignatureSource} (kind : LookupKind) (key : String)
    (h : (source.candidates kind key).Asks R) : (query source kind key).Asks R := by
  unfold query
  refine h.attempt.bind fun result => ?_
  split
  · exact Traced.asks_pure _
  · exact Traced.asks_pure _
  · exact (Traced.asks_note _ _ _).bind fun _ => Traced.asks_pure _
  · exact (Traced.asks_note _ _ _).bind fun _ => Traced.asks_pure _
  · exact (Traced.asks_note _ _ _).bind fun _ => Traced.asks_pure _

theorem asks_pick (source : String) (kind : LookupKind) (key : String) (candidates : List Value) :
    (pick source kind key candidates).Asks R := by
  induction candidates with
  | nil => exact Traced.asks_answer _
  | cons v rest ih =>
      cases v with
      | text s =>
          unfold pick
          split
          · exact (Traced.asks_note _ _ _).bind fun _ => ih
          · refine (Traced.asks_ofExcept _).bind fun computed => ?_
            split
            · exact (Traced.asks_note _ _ _).bind fun _ => ih
            · exact Traced.asks_pure _
      | _ => exact (Traced.asks_note _ _ _).bind fun _ => ih

def SourcesAsk (R : Request → Prop) (kind : LookupKind) (key : String)
    (sources : List SignatureSource) : Prop :=
  ∀ source ∈ sources, (source.candidates kind key).Asks R

theorem asks_search {kind : LookupKind} {key : String} (h : SourcesAsk R kind key sources) :
    (search kind key sources).Asks R := by
  induction sources with
  | nil => exact Traced.asks_answer _
  | cons source rest ih =>
      have hrest := ih fun s hs => h s (List.mem_cons_of_mem _ hs)
      unfold search
      refine (asks_query kind key (h source List.mem_cons_self)).bind fun found => ?_
      cases found with
      | none => exact hrest.bind fun _ => Traced.asks_pure _
      | some candidates =>
          refine (Traced.asks_ofExcept _).bind fun items => ?_
          refine (asks_pick _ _ _ _).bind fun sig => ?_
          cases sig with
          | none => exact hrest.bind fun _ => Traced.asks_pure _
          | some sig => exact (Traced.asks_note _ _ _).bind fun _ => Traced.asks_pure _

theorem asks_schedule {kind : LookupKind} (limit : Nat) {keys : List String}
    (h : ∀ key ∈ keys, SourcesAsk R kind key sources) :
    (schedule sources kind limit keys).Asks R := by
  induction keys with
  | nil => exact Session.asks_pure _
  | cons key rest ih =>
      have ih := ih fun k hk => h k (List.mem_cons_of_mem _ hk)
      unfold schedule
      refine (Session.asks_modify _).bind fun _ => Session.asks_get.bind fun s => ?_
      have hrest : ∀ sig : Except Fault (Option Signature), (pure sig >>= fun sig => do
          return sig :: (← schedule sources kind limit rest) : Session Schedule _).Asks R :=
        fun sig => (Session.asks_pure sig).bind fun _ => ih.bind fun _ => Session.asks_pure _
      split
      · exact hrest _
      · refine (Session.asks_lift (asks_search (h key List.mem_cons_self)).attempt).bind
          fun result => ?_
        split
        · exact hrest _
        · exact (Session.asks_modify _).bind fun _ => hrest _

theorem asks_resolveKeys (limit : Int) {kind : LookupKind} {keys : List Value}
    (h : ∀ v ∈ keys, ∀ key, kind.normalize v = .ok key → SourcesAsk R kind key sources) :
    (resolveKeys sources limit kind keys).Asks R := by
  unfold resolveKeys
  refine Session.asks_ofExcept_bind fun spelt hspelt => ?_
  have hasked : ∀ key ∈ spelt, SourcesAsk R kind key sources := by
    intro key hkey
    obtain ⟨v, hv, hnormalize⟩ := Except.exists_of_mem_mapM hspelt hkey
    exact h v hv key hnormalize
  have hall : (resolveAll sources kind limit spelt).Asks R := by
    unfold resolveAll
    split
    · exact Session.asks_fail _
    · refine Session.Asks.bind (fun memo => ?_) fun found => Session.asks_ofExcept _
      exact asks_schedule limit.toNat hasked _
  have hwithin : (within kind (resolveAll sources kind limit spelt)).Asks R := by
    cases kind <;> exact hall.focus
  exact hwithin.bind fun _ => Session.asks_pure _

theorem asks_enrich (limit : Int) {functions : List FunctionEntry}
    (h : ∀ f ∈ functions, ∀ key, Selector.normalize (.text f.selector) = .ok key →
      SourcesAsk R .function key sources) :
    (enrich sources limit functions).Asks R := by
  unfold enrich
  refine (asks_resolveKeys limit fun v hv => ?_).bind fun found => ?_
  · obtain ⟨f, hf, rfl⟩ := List.mem_map.1 hv
    exact h f (List.mem_filter.1 hf).1
  · refine (Session.asks_ofExcept _).bind fun enriched => ?_
    dsimp only
    split
    · exact (Session.asks_note _ _ _).bind fun _ => Session.asks_pure _
    · exact Session.asks_pure _

theorem asks_resolveEvents (limit : Int) {topics : List Value}
    (h : ∀ v ∈ topics, ∀ key, Topic.normalize v = .ok key → SourcesAsk R .event key sources) :
    (resolveEvents sources limit topics).Asks R := by
  unfold resolveEvents
  exact (asks_resolveKeys limit h).bind fun _ => Session.asks_ofExcept _

end ContractAbi.Resolver
