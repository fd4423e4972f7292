import ContractAbi.Proofs.Assembly.Requests
import ContractAbi.Proofs.Assembly.Traversal
import ContractAbi.Proofs.Chain.Requests

/-!
# Orderly walks

Whatever the contracts of a chain delegate to, an assembly enters each address once and none
deeper than it may. It asks the loaders once for each address that it has entered, and looks for
delegates of those only that do not lie at the limit.

* `Services.observed`: services of which each question is recorded;
* `entries`, `fetches` and `probes`: what the events say of addresses, loaders and delegates;
* `Orderly`: what the events of an assembly and the addresses that it has entered have to do with
  each other;
* `orderly_assembleAt`: an assembly is orderly, whether it answers or fails.
-/

namespace ContractAbi

/-! ## Services whose questions are recorded -/

def Traced.asking (t : Traced α) (r : Request) : Traced α :=
  ⟨t.result, [.request r]⟩

def ChainReader.observed (r : ChainReader) : ChainReader where
  code address := (r.code address).asking (.code address)
  storage address slot := (r.storage address slot).asking (.storage address (slot.int?.getD 0))
  call address data := (r.call address data).asking (.call address data)
  chainId := r.chainId.asking .chainId

def SignatureSource.observed (s : SignatureSource) : SignatureSource where
  name := s.name
  candidates kind key := (s.candidates kind key).asking <|
    match kind with
    | .function => .lookup s.name key
    | .event => .lookupEvent s.name key

def AbiLoader.observed (l : AbiLoader) : AbiLoader where
  name := l.name
  fetch address chain := (l.fetch address chain).asking (.fetch l.name address chain)

theorem Traced.asks_asking {t : Traced α} {r : Request} {R : Request → Prop} (h : R r) :
    (t.asking r).Asks R := by
  intro e he
  obtain rfl := List.mem_singleton.1 he
  exact h

/-! ## Events -/

def Event.entered? : Event → Option (String × Nat)
  | .entered address depth => some (address, depth)
  | _ => none

def Event.fetched? : Event → Option (String × Value × Value)
  | .request (.fetch loader address chain) => some (loader, address, chain)
  | _ => none

def Event.probed? : Event → Option String
  | .request (.storage address _) => some address
  | .request (.call address data) => if data = Proxy.facetsCall then some address else none
  | _ => none

namespace Assembler

def Services.observed (s : Services) : Services where
  reader := s.reader.observed
  sources := s.sources.map SignatureSource.observed
  loaders := s.loaders.map AbiLoader.observed
  now := s.now

variable {services : Services} {options : Options} {chain : Value} {fuel depth limit : Nat}
  {address : String}

def entries (es : List Event) : List (String × Nat) :=
  es.filterMap Event.entered?

def fetches (es : List Event) : List (String × Value × Value) :=
  es.filterMap Event.fetched?

def probes (es : List Event) : List String :=
  es.filterMap Event.probed?

@[simp] theorem entries_append (es es' : List Event) :
    entries (es ++ es') = entries es ++ entries es' :=
  List.filterMap_append

@[simp] theorem fetches_append (es es' : List Event) :
    fetches (es ++ es') = fetches es ++ fetches es' :=
  List.filterMap_append

@[simp] theorem probes_append (es es' : List Event) :
    probes (es ++ es') = probes es ++ probes es' :=
  List.filterMap_append

/-- A question that is for no loader, and looks for delegates of the given addresses only. -/
def Calm (probing : List String) (r : Request) : Prop :=
  Event.fetched? (.request r) = none ∧ ∀ a, Event.probed? (.request r) = some a → a ∈ probing

def round (services : Services) (address : String) (chain : Value) :
    List (String × Value × Value) :=
  services.loaders.map fun loader => (loader.name, .text address, chain)

/-! ## Orderly walks -/

/-- Events on the way from one walk to another. Addresses are entered once each and no deeper than
the limit; the loaders are asked once for each of them; delegates are looked for of addresses that
are entered above the limit, and of those that are given. -/
structure Orderly (services : Services) (chain : Value) (limit : Nat) (probing : List String)
    (w : Walk) (es : List Event) (w' : Walk) : Prop where
  visited : w'.visited = ((entries es).map fun p => Address.fold p.1).reverse ++ w.visited
  distinct : w.visited.Nodup → w'.visited.Nodup
  depth : ∀ p ∈ entries es, p.2 ≤ limit
  fetches : fetches es = (entries es).flatMap fun p => round services p.1 chain
  probes : ∀ a ∈ probes es, a ∈ probing ∨ ∃ d < limit, (a, d) ∈ entries es

variable {probing : List String} {w w' : Walk} {es : List Event}

theorem entries_of_asks {R : Request → Prop} (h : ∀ e ∈ es, e.AsksOnly R) : entries es = [] := by
  refine List.filterMap_eq_nil_iff.2 fun e he => ?_
  have hasks := h e he
  cases e with
  | entered _ _ => exact hasks.elim
  | _ => rfl

theorem fetches_of_calm (h : ∀ e ∈ es, e.AsksOnly (Calm probing)) : fetches es = [] := by
  refine List.filterMap_eq_nil_iff.2 fun e he => ?_
  have hcalm := h e he
  cases e with
  | request r => exact hcalm.1
  | _ => rfl

theorem probes_of_calm (h : ∀ e ∈ es, e.AsksOnly (Calm probing)) :
    ∀ a ∈ probes es, a ∈ probing := by
  intro a ha
  obtain ⟨e, he, hprobed⟩ := List.mem_filterMap.1 ha
  have hcalm := h e he
  cases e with
  | request r => exact hcalm.2 a hprobed
  | _ => exact absurd hprobed (by simp [Event.probed?])

theorem Orderly.of_entries_nil (hentries : entries es = []) (hfetches : Assembler.fetches es = [])
    (hprobes : ∀ a ∈ Assembler.probes es, a ∈ probing) (hw : w'.visited = w.visited) :
    Orderly services chain limit probing w es w' where
  visited := by rw [hentries, hw]; rfl
  distinct hnodup := by rw [hw]; exact hnodup
  depth p hp := absurd hp (by simp [hentries])
  fetches := by rw [hfetches, hentries]; rfl
  probes a ha := .inl (hprobes a ha)

theorem Orderly.of_calm (h : ∀ e ∈ es, e.AsksOnly (Calm probing)) (w : Walk)
    (hw : w'.visited = w.visited) : Orderly services chain limit probing w es w' :=
  .of_entries_nil (entries_of_asks h) (fetches_of_calm h) (probes_of_calm h) hw

theorem Orderly.none (w : Walk) : Orderly services chain limit probing w [] w :=
  .of_calm (by simp) w rfl

theorem Orderly.append {w₁ : Walk} {es' : List Event}
    (hfirst : Orderly services chain limit probing w es w₁)
    (hrest : Orderly services chain limit probing w₁ es' w') :
    Orderly services chain limit probing w (es ++ es') w' where
  visited := by
    rw [hrest.visited, hfirst.visited, entries_append, List.map_append, List.reverse_append,
      List.append_assoc]
  distinct hnodup := hrest.distinct (hfirst.distinct hnodup)
  depth p hp := by
    rw [entries_append] at hp
    exact (List.mem_append.1 hp).elim (hfirst.depth p) (hrest.depth p)
  fetches := by
    rw [fetches_append, entries_append, List.flatMap_append, hfirst.fetches, hrest.fetches]
  probes a ha := by
    rw [probes_append] at ha
    rw [entries_append]
    rcases List.mem_append.1 ha with ha | ha
    · exact (hfirst.probes a ha).imp_right fun ⟨d, hd, h⟩ => ⟨d, hd, List.mem_append_left _ h⟩
    · exact (hrest.probes a ha).imp_right fun ⟨d, hd, h⟩ => ⟨d, hd, List.mem_append_right _ h⟩

theorem Orderly.mono (h : Orderly services chain limit [] w es w') :
    Orderly services chain limit probing w es w' :=
  { h with probes := fun a ha => .inr ((h.probes a ha).resolve_left List.not_mem_nil) }

/-- Once an address above the limit is entered, its delegates may be looked for. -/
theorem Orderly.append_probing {w₁ : Walk} {es' : List Event}
    (hentered : (address, depth) ∈ entries es) (hdepth : depth < limit)
    (hfirst : Orderly services chain limit [] w es w₁)
    (hrest : Orderly services chain limit [address] w₁ es' w') :
    Orderly services chain limit [] w (es ++ es') w' := by
  have h := hfirst.mono.append hrest
  refine { h with probes := fun a ha => .inr ?_ }
  rcases h.probes a ha with ha | ha
  · obtain rfl := List.mem_singleton.1 ha
    exact ⟨depth, hdepth, by rw [entries_append]; exact List.mem_append_left _ hentered⟩
  · exact ha

/-! ## One contract -/

structure AsksLoaders (asked : List (String × Value × Value)) (es : List Event) : Prop where
  entries : entries es = []
  fetches : fetches es = asked
  probes : probes es = []

theorem AsksLoaders.of_calm (h : ∀ e ∈ es, e.AsksOnly (Calm [])) : AsksLoaders [] es where
  entries := entries_of_asks h
  fetches := fetches_of_calm h
  probes := List.eq_nil_iff_forall_not_mem.2 fun a ha =>
    absurd (probes_of_calm h a ha) List.not_mem_nil

theorem AsksLoaders.append {asked asked' : List (String × Value × Value)} {es' : List Event}
    (h : AsksLoaders asked es) (h' : AsksLoaders asked' es') :
    AsksLoaders (asked ++ asked') (es ++ es') where
  entries := by rw [entries_append, h.entries, h'.entries]; rfl
  fetches := by rw [fetches_append, h.fetches, h'.fetches]
  probes := by rw [probes_append, h.probes, h'.probes]; rfl

theorem AsksLoaders.flatMap {α : Type} {asked : α → List (String × Value × Value)}
    {events : α → List Event} (h : ∀ x, AsksLoaders (asked x) (events x)) (xs : List α) :
    AsksLoaders (xs.flatMap asked) (xs.flatMap events) := by
  induction xs with
  | nil => exact ⟨rfl, rfl, rfl⟩
  | cons x rest ih => exact (h x).append ih

theorem asksLoaders_tryFetch (loader : AbiLoader) (address chain : Value) :
    AsksLoaders [(loader.name, address, chain)]
      (AbiLoader.tryFetch loader.observed address chain).events := by
  obtain ⟨rest, hevents, hrest⟩ :
      ∃ rest, (AbiLoader.tryFetch loader.observed address chain).events =
        [.request (.fetch loader.name address chain)] ++ rest ∧
          ∀ e ∈ rest, e.AsksOnly (Calm []) := by
    refine Traced.events_bind_of_asks (loader.observed.fetch address chain).attempt
      fun result => ?_
    split
    · exact Traced.asks_pure _
    · exact (Traced.asks_note _ _ _).bind fun _ => Traced.asks_pure _
    · exact (Traced.asks_note _ _ _).bind fun _ => Traced.asks_pure _
    · exact (Traced.asks_note _ _ _).bind fun _ => Traced.asks_pure _
  have hasked : AsksLoaders [(loader.name, address, chain)]
      [.request (.fetch loader.name address chain)] := ⟨rfl, rfl, rfl⟩
  rw [hevents]
  exact hasked.append (.of_calm hrest)

theorem asksLoaders_published (services : Services) (address : String) (chain : Value) :
    AsksLoaders (round services address chain)
      (published services.observed address chain).events := by
  have hround : AsksLoaders (round services address chain)
      (services.observed.loaders.mapM fun loader =>
        AbiLoader.tryFetch loader (.text address) chain).events := by
    rw [Traced.events_mapM_of_answers fun loader _ => AbiLoader.result_tryFetch loader _ _,
      Services.observed, List.flatMap_map, round, List.map_eq_flatMap]
    exact .flatMap (fun loader => asksLoaders_tryFetch loader _ _) _
  obtain ⟨notes, hloaded, hnotes⟩ :
      ∃ notes, (AbiLoader.loadVerified services.observed.loaders (.text address) chain).events =
        (services.observed.loaders.mapM fun loader =>
          AbiLoader.tryFetch loader (.text address) chain).events ++ notes ∧
          ∀ e ∈ notes, e.AsksOnly (Calm []) := by
    refine Traced.events_bind_of_asks _ fun answers => ?_
    split
    · exact (Traced.asks_note _ _ _).bind fun _ => Traced.asks_pure _
    · exact Traced.asks_pure _
  obtain ⟨rest, hpublished, hrest⟩ :
      ∃ rest, (published services.observed address chain).events =
        (AbiLoader.loadVerified services.observed.loaders (.text address) chain).events ++ rest ∧
          ∀ e ∈ rest, e.AsksOnly (Calm []) := by
    refine Traced.events_bind_of_asks _ fun found => ?_
    split
    · exact Traced.asks_pure _
    · split
      · exact Traced.asks_pure _
      · exact (Traced.asks_note _ _ _).bind fun _ => Traced.asks_pure _
  rw [hpublished, hloaded]
  simpa using (hround.append (.of_calm hnotes)).append (.of_calm hrest)

theorem calm_sources (services : Services) (kind : LookupKind) (key : String) :
    Resolver.SourcesAsk (Calm probing) kind key services.observed.sources := by
  intro source hsource
  obtain ⟨s, -, rfl⟩ := List.mem_map.1 hsource
  cases kind <;> exact Traced.asks_asking ⟨rfl, fun a ha => absurd ha (by simp [Event.probed?])⟩

theorem calm_code (services : Services) (address : String) :
    (services.observed.reader.code address).Asks (Calm probing) :=
  Traced.asks_asking ⟨rfl, fun a ha => absurd ha (by simp [Event.probed?])⟩

/-- Finding a contract's own entries asks each loader once, and looks for no delegates. -/
theorem asksLoaders_ownEntries (services : Services) (options : Options) (address : String)
    (chain : Value) (m : Resolver.Memory) :
    AsksLoaders (round services address chain)
      (ownEntries services.observed options address chain m).1.events := by
  obtain ⟨rest, hevents, hrest⟩ :
      ∃ rest, (ownEntries services.observed options address chain m).1.events =
        (published services.observed address chain).events ++ rest ∧
          ∀ e ∈ rest, e.AsksOnly (Calm []) := by
    refine Session.events_bind_of_asks (.lift (published services.observed address chain))
      (fun found => ?_) m
    split
    · exact Session.asks_pure _
    · refine (Session.asks_lift (asks_getCode chain (calm_code services address))).bind
        fun code => ?_
      exact (asks_fromCode fun kind key _ => calm_sources services kind key).bind
        fun _ => Session.asks_pure _
  rw [hevents]
  simpa using (asksLoaders_published services address chain).append (.of_calm hrest)

theorem searches_observed (services : Services) (address : String) :
    Proxy.Searches (Calm [address]) services.observed.reader address where
  code _ := Traced.asks_asking ⟨rfl, fun _ ha => absurd ha (by simp [Event.probed?])⟩
  beacon _ := Traced.asks_asking ⟨rfl, fun _ ha =>
    absurd ha (by simp [Event.probed?, Proxy.implementationCall_ne_facetsCall])⟩
  slot _ := Traced.asks_asking
    ⟨rfl, fun _ ha => List.mem_singleton.2 (Option.some.inj ha).symm⟩
  facets := Traced.asks_asking
    ⟨rfl, fun a ha => List.mem_singleton.2 (by simpa [Event.probed?] using ha.symm)⟩

/-! ## Delegation -/

theorem entries_enter (services : Services) (options : Options) (chain : Value) (depth : Nat)
    (address : String) (w : Walk) :
    entries (enter services.observed options chain depth address w).1.events =
      [(address, depth)] :=
  congrArg ((address, depth) :: ·)
    (asksLoaders_ownEntries services options address chain w.memory).entries

theorem orderly_enter (hdepth : depth ≤ limit) (hnew : Address.fold address ∉ w.visited) :
    (enter services.observed options chain depth address).Leads
      (Orderly services chain limit []) w := by
  have hentered := entries_enter services options chain depth address w
  obtain ⟨-, hfetches, hprobes⟩ :=
    asksLoaders_ownEntries services options address chain w.memory
  exact
    { visited := by rw [hentered]; rfl
      distinct := fun hnodup => List.nodup_cons.2 ⟨hnew, hnodup⟩
      depth := fun p hp => by
        rw [hentered, List.mem_singleton] at hp
        rw [hp]
        exact hdepth
      fetches := by
        rw [hentered, List.flatMap_singleton]
        exact hfetches
      probes := fun a ha => by
        have hnone : probes (enter services.observed options chain depth address w).1.events =
            [] := hprobes
        rw [hnone] at ha
        exact absurd ha List.not_mem_nil }

theorem sequential_orderly :
    Sequential (Calm probing) (Orderly services chain limit probing) where
  asks h hw := .of_calm h _ hw
  append := .append

/-- An assembly is orderly from its entry on, whether it answers or fails. -/
theorem orderly_assembleAt [AddressLibrary] {w : Walk} (hlimit : depth + fuel = limit)
    (hspelt : Address.IsSpelt address) (hnew : Address.fold address ∉ w.visited) :
    (assembleAt services.observed options chain fuel depth address).Leads
      (Orderly services chain limit []) w := by
  induction fuel generalizing depth address w with
  | zero =>
      rw [assembleAt_eq_enter]
      refine (orderly_enter (by omega) hnew).bind .append .none fun own _ => ?_
      exact .none _
  | succ fuel ih =>
      rw [assembleAt_eq_enter]
      have henter : (enter services.observed options chain depth address).Leads
          (fun w es w' => Orderly services chain limit [] w es w' ∧ (address, depth) ∈ entries es)
          w :=
        ⟨orderly_enter (by omega) hnew, by rw [entries_enter]; exact List.mem_cons_self⟩
      refine henter.bind (fun ⟨hfirst, hmem⟩ hrest => hfirst.append_probing hmem (by omega) hrest)
        .none fun own _ => ?_
      have hsearches : ∀ place, Address.checksum (.text address) = .ok place →
          Proxy.Searches (Calm [address]) services.observed.reader place := by
        intro place hplace
        rw [Address.eq_of_checksum hspelt hplace]
        exact searches_observed services address
      refine (sequential_orderly.followDelegation
        (fun _ _ => Proxy.asks_detect _ _ _ hsearches)
        (fun _ => Proxy.asks_detectFacets _ (searches_observed services address))
        (fun a ha w hnew => ?_) _).bind .append .none fun _ _ => .none _
      exact (ih (by omega) ha hnew).mono

end Assembler

end ContractAbi
