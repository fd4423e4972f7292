import ContractAbi.Proofs.Assembly.Tables
import ContractAbi.Proofs.Evm.EventTopics
import ContractAbi.Proofs.Resolver.Reach
import ContractAbi.Proofs.Signature

/-!
# Hash integrity

Nothing that signature databases answer can add, drop or re-key an entry of an interface that is
read off code, and a name is only taken with types that hash to the key.

* `result_fromCode`: the entries of a code, by what is told of its selectors and topics;
* `fromCode_integrity`: their keys are those of the code, and their signatures hash to them.
-/

namespace ContractAbi.Assembler

open Resolver

variable {services : Services} {options : Options} {address : String} {code : Bytes}
  {m m' : Memory}

/-! ## Entries from code -/

def Options.topics (o : Options) (code : Bytes) : List String :=
  if o.resolveEvents then EventTopics.scan code else []

def entriesOf (say : LookupKind → String → Except Fault (Option Signature)) (options : Options)
    (code : Bytes) : Except Fault (List Entry) := do
  let functions ← enriched say options.concurrency (Skeleton.functions code)
  let events ←
    if (options.topics code).isEmpty then pure []
    else eventsOf say options.concurrency ((options.topics code).map .text)
  return functions.map .function ++ events.map .event

/-- The functions of a code come first, then the events of its topics. -/
theorem exists_of_entriesOf {say : LookupKind → String → Except Fault (Option Signature)}
    {entries : List Entry} (h : entriesOf say options code = .ok entries) :
    ∃ functions events,
      enriched say options.concurrency (Skeleton.functions code) = .ok functions ∧
      (events = [] ∨
        eventsOf say options.concurrency ((options.topics code).map .text) = .ok events) ∧
      entries = functions.map .function ++ events.map .event := by
  unfold entriesOf at h
  obtain ⟨functions, hfunctions, h⟩ := Except.bind_eq_ok_iff.1 h
  dsimp only at h
  split at h
  · exact ⟨functions, [], hfunctions, .inl rfl, (Except.ok.inj h).symm⟩
  · obtain ⟨events, hevents, h⟩ := Except.bind_eq_ok_iff.1 h
    exact ⟨functions, events, hfunctions, .inr hevents, (Except.ok.inj h).symm⟩

def lookUp (services : Services) (options : Options) (code : Bytes) :
    Session Memory (List Entry) := do
  let functions ← enrich services.sources options.concurrency (Skeleton.functions code)
  let events ←
    if (options.topics code).isEmpty then pure []
    else resolveEvents services.sources options.concurrency ((options.topics code).map .text)
  return functions.map .function ++ events.map .event

theorem fromCode_eq_lookUp : fromCode services options address code = (do
    if (Skeleton.functions code).isEmpty then
      .note .warning origin
        ("No dispatcher recognised in bytecode of " ++ address ++ ", no interface recoverable")
    lookUp services options code) :=
  rfl

theorem result_lookUp (m : Memory) :
    (lookUp services options code m).1.result =
      entriesOf (tells services.sources m) options code := by
  unfold lookUp entriesOf
  rw [Session.result_bind, result_enrich]
  refine congrArg (enriched _ _ (Skeleton.functions code) >>= ·) (funext fun functions => ?_)
  by_cases htopics : (options.topics code).isEmpty = true
  · rw [if_pos htopics, if_pos htopics]
    rfl
  · rw [if_neg htopics, if_neg htopics, Session.result_bind, result_resolveEvents,
      tells_enrich]
    rfl

theorem tells_lookUp : (lookUp services options code).Keeps (tells services.sources) := by
  unfold lookUp
  refine (tells_enrich _ _).bind fun functions => ?_
  by_cases htopics : (options.topics code).isEmpty = true
  · rw [if_pos htopics]
    exact Session.keeps_pure _ _
  · rw [if_neg htopics]
    exact (tells_resolveEvents _ _).bind fun _ => Session.keeps_pure _ _

theorem result_fromCode (m : Memory) :
    (fromCode services options address code m).1.result =
      entriesOf (tells services.sources m) options code := by
  rw [fromCode_eq_lookUp]
  split
  · rw [Session.result_bind_of_ok _ (Session.result_note _ _ _ m)]
    exact result_lookUp m
  · exact result_lookUp m

theorem tells_fromCode :
    (fromCode services options address code).Keeps (tells services.sources) := by
  rw [fromCode_eq_lookUp]
  split
  · exact (Session.keeps_lift _ _).bind fun _ => tells_lookUp
  · exact tells_lookUp

/-! ## Functions -/

/-- A function is as the code alone tells it, or its signature hashes to its selector. -/
def Faithful (code : Bytes) (selector : String) (f : FunctionEntry) : Prop :=
  f.selector = selector ∧
    (f = .unresolved selector (.text (Skeleton.mutability code
        (Dispatcher.scan code Dispatcher.defaultWindow) selector)) ∨
      ∃ t, f.signature = .ok t ∧ Selector.hashed t = .ok selector)

/-- What is found for a function leaves it as it is, or gives it a signature that hashes to its
selector. -/
theorem applyFound_eq_ok {found : List (String × Option Signature)} {f f' : FunctionEntry}
    (hfound : ∀ key sig, (key, some sig) ∈ found →
      Selector.normalize (.text key) = .ok key ∧ Vouched .function key sig)
    (h : applyFound found f = .ok f') :
    f' = f ∨ (f'.selector = f.selector ∧
      ∃ t, f'.signature = .ok t ∧ Selector.hashed t = .ok f.selector) := by
  unfold applyFound at h
  cases hfind : found.reverse.find? fun e => e.1 == f.selector with
  | none =>
      rw [hfind] at h
      exact .inl (Except.ok.inj h).symm
  | some e =>
      obtain ⟨key, o⟩ := e
      rw [hfind] at h
      cases o with
      | none => exact .inl (Except.ok.inj h).symm
      | some sig =>
          have hkey : key = f.selector := by simpa using List.find?_some hfind
          subst hkey
          obtain ⟨hspelt, ⟨s, hparse⟩, hhash⟩ :=
            hfound _ sig (List.mem_reverse.1 (List.mem_of_find?_eq_some hfind))
          exact .inr ⟨Signature.selector_applyTo hspelt h, sig.text,
            Signature.signature_applyTo (Signature.isName_of_parse hparse) h, hhash⟩

theorem faithful_enriched {say : LookupKind → String → Except Fault (Option Signature)}
    {limit : Int} {functions : List FunctionEntry}
    (hsay : ∀ key sig, say .function key = .ok (some sig) → Vouched .function key sig)
    (h : enriched say limit (Skeleton.functions code) = .ok functions) :
    List.Forall₂ (Faithful code) (Skeleton.selectors code) functions := by
  unfold enriched at h
  obtain ⟨found, hfound, h⟩ := Except.bind_eq_ok_iff.1 h
  have hvouched : ∀ key sig, (key, some sig) ∈ found →
      Selector.normalize (.text key) = .ok key ∧ Vouched .function key sig := by
    intro key sig hmem
    obtain ⟨⟨v, -, hspelt⟩, hanswer⟩ := mem_signatures hfound hmem
    exact ⟨Selector.normalize_normalize hspelt, hsay key sig hanswer⟩
  unfold Skeleton.functions at h
  rw [Except.mapM_eq_ok_iff, List.forall₂_map_left_iff] at h
  refine h.imp fun selector f hf => ?_
  rcases applyFound_eq_ok hvouched hf with rfl | ⟨hselector, t, hsignature, hhash⟩
  · exact ⟨rfl, .inl rfl⟩
  · exact ⟨hselector, .inr ⟨t, hsignature, hhash⟩⟩

/-! ## Events -/

/-- The topics of which a signature was found, with their signatures. -/
theorem map_fst_filterMap (found : List (String × Option Signature)) :
    ((found.filterMap fun (topic, sig) => sig.map fun s => (topic, s)).map Prod.fst).Sublist
      (found.map Prod.fst) := by
  induction found with
  | nil => exact List.Sublist.slnil
  | cons e rest ih =>
      obtain ⟨topic, o⟩ := e
      cases o with
      | none => exact ih.cons topic
      | some sig => exact ih.cons_cons topic

/-- The events that are found have topics of the code, in their order, and signatures that hash to
these. -/
theorem sublist_eventsOf {say : LookupKind → String → Except Fault (Option Signature)}
    {limit : Int} {topics : List String} {events : List EventEntry}
    (htopics : ∀ t ∈ topics, Topic.normalize (.text t) = .ok t)
    (hsay : ∀ key sig, say .event key = .ok (some sig) → Vouched .event key sig)
    (h : eventsOf say limit (topics.map .text) = .ok events) :
    (events.map EventEntry.topic).Sublist topics ∧
      ∀ e ∈ events, ∃ t, e.signature = .ok t ∧ Topic.hashed t = .ok e.topic := by
  unfold eventsOf at h
  obtain ⟨found, hfound, h⟩ := Except.bind_eq_ok_iff.1 h
  -- each event comes from a topic with the signature that was found for it
  have hevent : ∀ {p : String × Signature} {e : EventEntry},
      p ∈ (found.filterMap fun (topic, sig) => sig.map fun s => (topic, s)) →
      p.2.toEvent (.text p.1) = .ok e →
      e.topic = p.1 ∧ e.signature = .ok p.2.text ∧ Topic.hashed p.2.text = .ok p.1 := by
    rintro ⟨topic, sig⟩ e hp he
    obtain ⟨⟨t, o⟩, hmem, hpair⟩ := List.mem_filterMap.1 hp
    obtain ⟨s, rfl, hboth⟩ := Option.map_eq_some_iff.1 hpair
    obtain ⟨rfl, rfl⟩ := Prod.mk.inj hboth
    obtain ⟨⟨v, hv, hspelt⟩, hanswer⟩ := mem_signatures hfound hmem
    exact ⟨Signature.topic_toEvent (Topic.normalize_normalize hspelt) he,
      Signature.signature_toEvent he, (hsay _ _ hanswer).2⟩
  refine ⟨?_, fun e he => ?_⟩
  · have hkeys : found.map Prod.fst = topics := map_fst_signatures hfound htopics
    rw [← hkeys, Except.map_eq_of_mapM h fun p hp e he => (hevent hp he).1]
    exact map_fst_filterMap found
  · obtain ⟨p, hp, hbuilt⟩ := Except.exists_of_mem_mapM h he
    obtain ⟨htopic, hsignature, hhash⟩ := hevent hp hbuilt
    exact ⟨p.2.text, hsignature, hhash.trans (congrArg Except.ok htopic.symm)⟩

theorem filterMap_function? (functions : List FunctionEntry) (events : List EventEntry) :
    (functions.map Entry.function ++ events.map Entry.event).filterMap Entry.function? =
      functions := by
  simp [List.filterMap_map, Function.comp_def, Entry.function?]

theorem filterMap_event? (functions : List FunctionEntry) (events : List EventEntry) :
    (functions.map Entry.function ++ events.map Entry.event).filterMap Entry.event? = events := by
  simp [List.filterMap_map, Function.comp_def, Entry.event?]

/-- Whatever signature databases answer, the functions of a code are those of its selectors and its
events are among those of its topics, and what is said of them hashes to these. -/
theorem fromCode_integrity {entries : List Entry} (hm : Reachable m)
    (h : (fromCode services options address code).Answers m entries m') :
    List.Forall₂ (Faithful code) (Skeleton.selectors code) (entries.filterMap Entry.function?) ∧
      (entries.filterMap Entry.function?).map FunctionEntry.selector = Skeleton.selectors code ∧
      ((entries.filterMap Entry.event?).map EventEntry.topic).Sublist (EventTopics.scan code) ∧
      ∀ e ∈ entries.filterMap Entry.event?,
        ∃ t, e.signature = .ok t ∧ Topic.hashed t = .ok e.topic := by
  have hresult := h.1
  rw [result_fromCode] at hresult
  unfold entriesOf at hresult
  obtain ⟨functions, hfunctions, hresult⟩ := Except.bind_eq_ok_iff.1 hresult
  have hsay : ∀ kind key sig, tells services.sources m kind key = .ok (some sig) →
      Vouched kind key sig :=
    fun _ _ _ => hm.vouched.of_tells_some fun _ _ _ => verdict_some
  have hfaithful : List.Forall₂ (Faithful code) (Skeleton.selectors code) functions :=
    faithful_enriched (fun key sig => hsay .function key sig) hfunctions
  have hselectors : functions.map FunctionEntry.selector = Skeleton.selectors code := by
    have hequal := List.forall₂_map_right_iff.2 (hfaithful.imp fun _ _ hf => hf.1.symm)
    rw [List.forall₂_eq_eq_eq] at hequal
    exact hequal.symm
  by_cases htopics : (options.topics code).isEmpty = true
  · rw [if_pos htopics, Except.pure_eq_ok, Except.ok_bind] at hresult
    obtain rfl := Except.ok.inj hresult
    rw [filterMap_function?, filterMap_event?]
    exact ⟨hfaithful, hselectors, List.nil_sublist _, by simp⟩
  · rw [if_neg htopics] at hresult
    obtain ⟨events, hevents, hresult⟩ := Except.bind_eq_ok_iff.1 hresult
    obtain rfl := Except.ok.inj hresult
    rw [filterMap_function?, filterMap_event?]
    have hscan : (options.topics code).Sublist (EventTopics.scan code) := by
      unfold Options.topics
      split
      · exact List.Sublist.refl _
      · exact List.nil_sublist _
    obtain ⟨hsublist, hhash⟩ := sublist_eventsOf
      (fun t ht => EventTopics.normalize_of_mem_scan (hscan.subset ht))
      (fun key sig => hsay .event key sig) hevents
    exact ⟨hfaithful, hselectors, hsublist.trans hscan, hhash⟩

def nestedCode : Bytes :=
  [0x60, 0x00, 0x35, 0x63, 0x63, 0x87, 0x49, 0x60, 0x14, 0x61, 0x00, 0x10, 0x57, 0x7f,
    0x8c, 0xb6, 0xd1, 0x1c, 0x07, 0xe5, 0x80, 0x0b, 0x14, 0x35, 0x95, 0xcc, 0x76, 0x85, 0xe0, 0x41,
    0xfe, 0xa0, 0xc7, 0x86, 0x9d, 0x9b, 0x1b, 0x32, 0x1d, 0x26, 0x95, 0x41, 0xfa, 0xeb, 0x8c, 0xb9,
    0xa1]

def nestedTables : Tables :=
  { Tables.empty with
    signatures :=
      ⟨[("0x63874960", [.text "g()", .text "f((uint,byte)[])"])],
        [("0x8cb6d11c07e5800b143595cc7685e041fea0c7869d9b1b321d269541faeb8cb9",
          [.text "E()", .text "E(tuple(uint256,byte)[])"])]⟩ }

/-- Code that compares one selector and logs one topic, and candidates for both. -/
theorem fromCode_integrity_nested :
    ∃ entries m',
      (fromCode nestedTables.services .default "" nestedCode).Answers .empty entries m' ∧
      List.Forall₂ (Faithful nestedCode) (Skeleton.selectors nestedCode)
        (entries.filterMap Entry.function?) ∧
      (∀ e ∈ entries.filterMap Entry.event?,
        ∃ t, e.signature = .ok t ∧ Topic.hashed t = .ok e.topic) ∧
      entries.map Entry.key = [⟨.function, .text "0x63874960"⟩, ⟨.event, .text
        "0x8cb6d11c07e5800b143595cc7685e041fea0c7869d9b1b321d269541faeb8cb9"⟩] := by
  obtain ⟨entries, hentries, hkeys⟩ := Except.exists_ok_of_toOption
    (show ((fromCode nestedTables.services .default "" nestedCode .empty).1.result.toOption.map
        (List.map Entry.key)) = some [⟨.function, .text "0x63874960"⟩, ⟨.event, .text
          "0x8cb6d11c07e5800b143595cc7685e041fea0c7869d9b1b321d269541faeb8cb9"⟩]
      by rw [result_fromCode]; decide +kernel)
  obtain ⟨hfunctions, -, -, hevents⟩ := fromCode_integrity .empty ⟨hentries, rfl⟩
  exact ⟨entries, _, ⟨hentries, rfl⟩, hfunctions, hevents, hkeys⟩

end ContractAbi.Assembler
