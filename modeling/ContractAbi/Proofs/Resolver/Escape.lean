import ContractAbi.Proofs.Fault
import ContractAbi.Proofs.Resolver.Digestible

/-!
# Candidates that lookups cannot use

Nothing catches the failures of going through candidates and of making entries from them. Where the
entries of a code are put together, what was told of its keys could be used.

* `tellable_unannounced`: failures of lookups are of kinds that nothing announces;
* `builds_of_enriched` and `builds_of_eventsOf`: signatures that entries were made from build.
-/

namespace ContractAbi.Resolver

variable {say : LookupKind → String → Except Fault (Option Signature)} {limit : Int}
  {kind : LookupKind} {key : String} {sig : Signature} {code : Bytes}

/-! ## Failures of lookups -/

theorem buildsOr_unannounced (kind : LookupKind) (sig : Signature) :
    BuildsOr Fault.Unannounced kind sig :=
  ⟨Param.unannounced_ofTypes _ _, fun _ _ _ => Param.unannounced_ofTypes _ _⟩

theorem unannounced_of_hashed {f : Fault} (h : kind.hashed sig = .error f) : f.Unannounced := by
  have hhashable : ∀ {s : String} {g : String → String},
      (Text.hashable s).map g = .error f → f.Unannounced := by
    intro s g hs
    unfold Text.hashable at hs
    split at hs
    · rw [← Except.error.inj hs]
      exact Fault.unannounced_malformed _
    · exact absurd hs (by simp)
  cases kind with
  | function => exact hhashable h
  | event => exact hhashable h

theorem unannounced_chosen (kind : LookupKind) (key : String) (items : List Value) :
    Except.Meets (fun _ => True) Fault.Unannounced (chosen kind key items) := by
  unfold chosen
  cases hfirst : items.findSome? (settled? kind key) with
  | none => exact .ok trivial
  | some r =>
      obtain ⟨v, -, hv⟩ := List.exists_of_findSome?_eq_some hfirst
      obtain ⟨s, sig, -, -, ⟨-, rfl⟩ | ⟨f, hf, rfl⟩⟩ := settled?_eq_some_iff.1 hv
      · exact .ok trivial
      · exact .error (unannounced_of_hashed hf)

theorem unannounced_verdict (kind : LookupKind) (key : String) (sources : List SignatureSource) :
    Except.Meets (fun _ => True) Fault.Unannounced (verdict kind key sources) := by
  induction sources with
  | nil => exact .ok trivial
  | cons source rest ih =>
      unfold verdict
      cases offered? source kind key with
      | none => exact ih
      | some candidates =>
          refine (Value.unannounced_toItems candidates).bind fun items _ => ?_
          refine (unannounced_chosen kind key items).bind fun found _ => ?_
          split
          · exact .ok trivial
          · exact ih

theorem tellable_unannounced (sources : List SignatureSource) (m : Memory) :
    Tellable Fault.Unannounced (tells sources m) := by
  intro kind key _
  have htold : Except.Meets (fun _ => True) Fault.Unannounced (tells sources m kind key) := by
    unfold tells view
    split
    · exact .ok trivial
    · exact unannounced_verdict kind key sources
  exact htold.mono (fun _ _ sig _ => buildsOr_unannounced kind sig) fun _ h => h

/-! ## Signatures that entries were made from -/

theorem builds_of_applyTo {f f' : FunctionEntry} (h : sig.applyTo f = .ok f') :
    Builds .function sig := by
  unfold Signature.applyTo at h
  cases houtputs : sig.outputs with
  | none =>
      simp only [houtputs, Except.pure_eq_ok, Except.ok_bind] at h
      obtain ⟨inputs, hinputs, -⟩ := Except.bind_eq_ok_iff.1 h
      exact ⟨⟨inputs, hinputs⟩, fun _ types htypes => absurd (houtputs.symm.trans htypes) nofun⟩
  | some types =>
      simp only [houtputs, Except.pure_eq_ok, Except.ok_bind] at h
      obtain ⟨outputs, hbuilt, h⟩ := Except.bind_eq_ok_iff.1 h
      obtain ⟨inputs, hinputs, -⟩ := Except.bind_eq_ok_iff.1 h
      refine ⟨⟨inputs, hinputs⟩, fun _ others hothers => ?_⟩
      obtain rfl := Option.some.inj (houtputs.symm.trans hothers)
      exact ⟨outputs, hbuilt⟩

theorem builds_of_toEvent {topic : Value} {e : EventEntry} (h : sig.toEvent topic = .ok e) :
    Builds .event sig := by
  unfold Signature.toEvent at h
  obtain ⟨inputs, hinputs, -⟩ := Except.bind_eq_ok_iff.1 h
  exact ⟨⟨inputs, hinputs⟩, nofun⟩

theorem exists_mem_of_signatures {keys : List Value} {found : List (String × Option Signature)}
    (h : signatures say limit kind keys = .ok found) (hmem : .text key ∈ keys)
    (hkey : kind.normalize (.text key) = .ok key) :
    ∃ o, (key, o) ∈ found ∧ say kind key = .ok o := by
  unfold signatures at h
  obtain ⟨spelt, hspelt, h⟩ := Except.bind_eq_ok_iff.1 h
  split at h
  · exact absurd h (by simp)
  · obtain ⟨answers, hanswers, h⟩ := Except.bind_eq_ok_iff.1 h
    obtain rfl := Except.ok.inj h
    obtain ⟨other, hother, hspelling⟩ := Except.exists_mem_zip_of_mapM hspelt hmem
    obtain rfl := Except.ok.inj (hkey.symm.trans hspelling)
    exact Except.exists_mem_zip_of_mapM hanswers (List.of_mem_zip hother).2

/-- What is told of the selectors of a code whose functions are put together. -/
theorem builds_of_enriched {functions : List FunctionEntry}
    (h : enriched say limit (Skeleton.functions code) = .ok functions)
    (hkey : key ∈ Skeleton.selectors code) :
    ∃ o, say .function key = .ok o ∧ ∀ sig, o = some sig → Builds .function sig := by
  unfold enriched at h
  obtain ⟨found, hfound, h⟩ := Except.bind_eq_ok_iff.1 h
  obtain ⟨f, hf, hselector, hunresolved⟩ : ∃ f ∈ Skeleton.functions code,
      f.selector = key ∧ f.resolved = false :=
    ⟨_, List.mem_map.2 ⟨key, hkey, rfl⟩, rfl,
      by simp [FunctionEntry.resolved, FunctionEntry.unresolved]⟩
  have hpending : Value.text key ∈ pending (Skeleton.functions code) := by
    refine List.mem_map.2 ⟨f, List.mem_filter.2 ⟨hf, ?_⟩, by rw [hselector]⟩
    rw [hunresolved]
    rfl
  obtain ⟨o, hmem, htold⟩ :=
    exists_mem_of_signatures hfound hpending (Dispatcher.normalize_of_mem_selectors hkey)
  refine ⟨o, htold, fun sig hsig => ?_⟩
  subst hsig
  obtain ⟨f', -, hbuilt⟩ := Except.exists_mem_zip_of_mapM h hf
  unfold applyFound at hbuilt
  -- the entry that is found for the selector holds what is told of it
  cases hfind : found.reverse.find? fun e => e.1 == f.selector with
  | none =>
      rw [List.find?_eq_none] at hfind
      exact absurd (hfind _ (List.mem_reverse.2 hmem)) (by simp [hselector])
  | some e =>
      obtain ⟨other, o⟩ := e
      have hother : other = key := by simpa [hselector] using List.find?_some hfind
      subst hother
      have hsame := (mem_signatures hfound
        (List.mem_reverse.1 (List.mem_of_find?_eq_some hfind))).2
      obtain rfl := Except.ok.inj (htold.symm.trans hsame)
      rw [hfind] at hbuilt
      exact builds_of_applyTo hbuilt

theorem builds_of_eventsOf {topics : List String} {events : List EventEntry}
    (h : eventsOf say limit (topics.map .text) = .ok events) (hmem : key ∈ topics)
    (hkey : Topic.normalize (.text key) = .ok key) :
    ∃ o, say .event key = .ok o ∧ ∀ sig, o = some sig → Builds .event sig := by
  unfold eventsOf at h
  obtain ⟨found, hfound, h⟩ := Except.bind_eq_ok_iff.1 h
  obtain ⟨o, hpair, htold⟩ :=
    exists_mem_of_signatures hfound (List.mem_map.2 ⟨key, hmem, rfl⟩) hkey
  refine ⟨o, htold, fun sig hsig => ?_⟩
  subst hsig
  obtain ⟨e, -, hbuilt⟩ := Except.exists_mem_zip_of_mapM h
    (List.mem_filterMap.2 ⟨(key, some sig), hpair, rfl⟩)
  exact builds_of_toEvent hbuilt

end ContractAbi.Resolver
