import ContractAbi.Proofs.Interface.ResultItem
import ContractAbi.Proofs.Interface.Selectors
import ContractAbi.Proofs.Value.PlainPart

/-!
# Items that are read and written

What is read from an item that JSON can carry is written as such an item. It may be one level
deeper, since lists are written also where the first item has none.

* `Param.plain_ofItem`: parameters, by induction on the item;
* `Entry.plain_read`: entries, one case for each kind;
* `Entry.plain_ofAbi`: interfaces;
* `Reconstruction.plain_ofItem`: results.
-/

namespace ContractAbi

open JsonReader Value

/-! ## Selectors -/

namespace Selector

variable {v : Value} {s : String}

theorem isAscii_digits (bs : Bytes) {tail : List Char}
    (htail : tail.all (fun c => c.toNat < 128) = true) :
    (Hex.ofBytes bs ++ tail).all (fun c => c.toNat < 128) = true := by
  have hall : ∀ c ∈ Hex.digits, c.toNat < 128 := Hex.forall_of_all (by decide)
  rw [List.all_append, htail, Bool.and_true, List.all_eq_true]
  exact fun c hc => decide_eq_true (hall c (Hex.mem_digits_of_mem_ofBytes hc))

/-- What is accepted as a selector is `0x` with digits of ASCII and perhaps a line end. -/
theorem exists_digits_of_normalize (h : normalize v = .ok s) :
    ∃ cs, s.toList = '0' :: 'x' :: cs ∧ cs.all (fun c => c.toNat < 128) = true := by
  obtain ⟨bs, -, rfl | ⟨rfl, -⟩⟩ := exists_of_normalize h
  · exact ⟨_, Hex.toList_encode0x bs, by simpa using @isAscii_digits bs [] rfl⟩
  · refine ⟨Hex.ofBytes bs ++ ['\n'], ?_, isAscii_digits bs (by decide)⟩
    rw [String.toList_append, Hex.toList_encode0x]
    rfl

theorem isAscii_of_normalize (h : normalize v = .ok s) : Text.isAscii s = true := by
  obtain ⟨cs, hs, hcs⟩ := exists_digits_of_normalize h
  rw [Text.isAscii, hs, List.all_cons, List.all_cons, hcs]
  rfl

theorem isAscii_placeholder (h : normalize v = .ok s) : Text.isAscii (placeholder s) = true := by
  obtain ⟨cs, hs, hcs⟩ := exists_digits_of_normalize h
  have hdigits : (digits s).toList = cs := by
    rw [digits, hs, String.toList_ofList]
    rfl
  rw [Text.isAscii, placeholder, String.toList_append, hdigits, List.all_append, hcs]
  rfl

end Selector

/-! ## Parameters -/

namespace Param

variable {depth : Nat}

theorem nodup_itemFields (name type indexed internalType : Value)
    (components : Option (List Value)) :
    ((itemFields name type components indexed internalType).map Prod.fst).Nodup := by
  unfold itemFields
  cases components <;> cases internalType.holds <;> cases indexed.isNull <;> simp

theorem ascii_itemFields (name type indexed internalType : Value)
    (components : Option (List Value)) :
    ((itemFields name type components indexed internalType).map Prod.fst).all Text.isAscii =
      true := by
  unfold itemFields
  cases components <;> cases internalType.holds <;> cases indexed.isNull <;> simp [Text.isAscii]

theorem plain_itemFields {name type indexed internalType : Value} {components : Option (List Value)}
    (hname : Plain depth name) (htype : Plain depth type) (hindexed : Plain depth indexed)
    (hinternal : Plain depth internalType)
    (hcomponents : ∀ items, components = some items → Plain depth (.list items)) :
    Plain (depth + 1) (.object (itemFields name type components indexed internalType)) := by
  refine plain_object (nodup_itemFields _ _ _ _ _) (ascii_itemFields _ _ _ _ _) ?_
  intro f hf
  unfold itemFields at hf
  simp only [List.mem_append, List.mem_cons, List.not_mem_nil, or_false] at hf
  rcases hf with (((rfl | rfl) | hf) | hf) | hf
  · exact hname
  · exact htype
  · split at hf
    · rw [List.mem_singleton.1 hf]
      exact hinternal
    · exact absurd hf List.not_mem_nil
  · split at hf
    · rw [List.mem_singleton.1 hf]
      exact hcomponents _ rfl
    · exact absurd hf List.not_mem_nil
  · split at hf
    · exact absurd hf List.not_mem_nil
    · rw [List.mem_singleton.1 hf]
      exact hindexed

theorem plain_toItems_nil : Plain (depth + 1) (toItems []) := by
  rw [toItems, toItemList, plain_list_iff]
  exact List.forall_mem_nil _

def ComponentsPlain (depth : Nat) (components : Option (List Param)) : Prop :=
  ∀ ps, components = some ps → Plain depth (toItems ps)

theorem componentsPlain_none : ComponentsPlain depth none :=
  nofun

theorem componentsPlain_nil : ComponentsPlain (depth + 1) (some []) := by
  intro ps hps
  rw [← Option.some.inj hps]
  exact plain_toItems_nil

mutual

theorem plain_ofItem : ∀ (v : Value) {depth : Nat} {p : Param}, Plain depth v → ofItem v = .ok p →
    Plain (depth + 1) p.toItem
  | .object fields, depth, p, hplain, h => by
      obtain ⟨depth, rfl⟩ := hplain.exists_depth (Nat.succ_ne_zero _)
      unfold ofItem at h
      obtain ⟨components, hcomponents, h⟩ := Except.bind_eq_ok_iff.1 h
      -- what is one level inside has room for one more level where it is written
      have hget : ∀ name absent, Plain depth absent →
          Plain (depth + 1) ((lookup name fields).getD absent) := fun name absent habsent =>
        (plain_fieldOr habsent hplain rfl).mono (Nat.le_succ _)
      obtain rfl := Except.ok.inj h
      rw [toItem_mk]
      apply plain_itemFields
      · split
        · exact hget _ _ plain_null
        · exact plain_text rfl
      · exact hget _ _ (plain_text rfl)
      · exact hget _ _ plain_null
      · exact hget _ _ plain_null
      · intro items hitems
        cases components with
        | none => exact absurd hitems (by simp [itemsOfComponents])
        | some ps =>
            rw [← Option.some.inj hitems]
            exact plain_componentsOf fields (plain_object_iff.1 hplain).2.2 hcomponents ps rfl
  | .null, _, _, _, h | .bool _, _, _, _, h | .int _, _, _, _, h | .float _, _, _, _, h
  | .text _, _, _, _, h | .bytes _, _, _, _, h | .list _, _, _, _, h => absurd h (by simp [ofItem])
termination_by structural v => v

theorem plain_componentsOf : ∀ (fields : List (String × Value)) {depth : Nat}
    {components : Option (List Param)}, (∀ f ∈ fields, Plain depth f.2) →
    componentsOf fields = .ok components → ComponentsPlain (depth + 1) components
  | [], _, components, _, h => by
      obtain rfl := Except.ok.inj h
      exact componentsPlain_none
  | f :: fs, _, components, hplain, h => by
      obtain ⟨hf, hfs⟩ := List.forall_mem_cons.1 hplain
      unfold componentsOf at h
      obtain ⟨found, hfound, h⟩ := Except.bind_eq_ok_iff.1 h
      cases found with
      | some found =>
          obtain rfl := Except.ok.inj h
          exact plain_componentsOfField f hf hfound
      | none => exact plain_componentsOf fs hfs h
termination_by structural fields => fields

theorem plain_componentsOfField : ∀ (f : String × Value) {depth : Nat}
    {components : Option (List Param)}, Plain depth f.2 →
    componentsOfField f = .ok (some components) → ComponentsPlain (depth + 1) components
  | (k, v), _, components, hplain, h => by
      unfold componentsOfField at h
      split at h
      · obtain ⟨found, hfound, hsome⟩ := Except.map_eq_ok_iff.1 h
        obtain rfl := Option.some.inj hsome
        exact plain_componentsOfValue v hplain hfound
      · exact absurd h (by simp)
termination_by structural f => f

theorem plain_componentsOfValue : ∀ (v : Value) {depth : Nat} {components : Option (List Param)},
    Plain depth v → componentsOfValue v = .ok components → ComponentsPlain (depth + 1) components
  | .null, _, components, _, h => by
      obtain rfl := Except.ok.inj h
      exact componentsPlain_none
  | .list items, depth, components, hplain, h => by
      obtain ⟨depth, rfl⟩ := hplain.exists_depth (Nat.succ_ne_zero _)
      obtain ⟨found, hfound, rfl⟩ := Except.map_eq_ok_iff.1 h
      intro ps hps
      rw [← Option.some.inj hps, toItems, plain_list_iff]
      exact plain_ofItemList items (plain_list_iff.1 hplain) hfound
  | .text s, _, components, _, h => by
      unfold componentsOfValue at h
      split at h
      · obtain rfl := Except.ok.inj h
        exact componentsPlain_nil
      · exact absurd h (by simp)
  | .object fields, _, components, _, h => by
      unfold componentsOfValue at h
      split at h
      · obtain rfl := Except.ok.inj h
        exact componentsPlain_nil
      · exact absurd h (by simp)
  | .bytes bs, _, components, hplain, _ => by
      rw [Plain] at hplain
      exact hplain.elim
  | .bool _, _, _, _, h | .int _, _, _, _, h | .float _, _, _, _, h =>
      absurd h (by simp [componentsOfValue])
termination_by structural v => v

theorem plain_ofItemList : ∀ (vs : List Value) {depth : Nat} {ps : List Param},
    (∀ v ∈ vs, Plain depth v) → ofItemList vs = .ok ps →
    ∀ item ∈ toItemList ps, Plain (depth + 1) item
  | [], _, ps, _, h => by
      obtain rfl := Except.ok.inj h
      exact List.forall_mem_nil _
  | v :: vs, _, ps, hplain, h => by
      obtain ⟨hv, hvs⟩ := List.forall_mem_cons.1 hplain
      unfold ofItemList at h
      obtain ⟨p, hp, h⟩ := Except.bind_eq_ok_iff.1 h
      obtain ⟨rest, hrest, h⟩ := Except.bind_eq_ok_iff.1 h
      obtain rfl := Except.ok.inj h
      rw [toItemList, List.forall_mem_cons]
      exact ⟨plain_ofItem v hv hp, plain_ofItemList vs hvs hrest⟩
termination_by structural vs => vs

end

theorem eq_nil_of_ofItemList {vs : List Value} {ps : List Param}
    (hvs : ∀ v ∈ vs, ∀ fields, v ≠ .object fields) (h : ofItemList vs = .ok ps) : vs = [] := by
  cases vs with
  | nil => rfl
  | cons v vs =>
      unfold ofItemList at h
      obtain ⟨p, hp, -⟩ := Except.bind_eq_ok_iff.1 h
      cases v with
      | object fields => exact absurd rfl (hvs _ List.mem_cons_self fields)
      | _ => exact absurd hp (by simp [ofItem])

theorem plain_ofItems {v : Value} {ps : List Param} (hplain : Plain depth v)
    (h : ofItems v = .ok ps) : Plain (depth + 1) (toItems ps) := by
  obtain ⟨items, hitems, hread⟩ := Except.bind_eq_ok_iff.1 h
  unfold toItemsIfHeld at hitems
  split at hitems
  · -- texts and objects have parts too, but none that is read as a parameter
    rcases toItems_cases hitems with rfl | hothers
    · have hcomponents : componentsOfValue (.list items) = .ok (some ps) :=
        congrArg (Except.map some) hread
      exact plain_componentsOfValue _ hplain hcomponents ps rfl
    · obtain rfl := eq_nil_of_ofItemList hothers hread
      obtain rfl := Except.ok.inj hread
      exact plain_toItems_nil
  · obtain rfl := Except.ok.inj hitems
    obtain rfl := Except.ok.inj hread
    exact plain_toItems_nil

end Param

namespace Entry

variable {depth : Nat} {item name mutability : Value} {inputs : List Param} {e : Entry}

theorem plain_mutabilityOf (hplain : Plain (depth + 1) item)
    (h : mutabilityOf item = .ok mutability) : Plain depth mutability := by
  unfold mutabilityOf at h
  obtain ⟨stated, hstated, h⟩ := Except.bind_eq_ok_iff.1 h
  split at h
  · rw [← Except.ok.inj h]
    exact plain_field hplain hstated
  · obtain ⟨constant, -, h⟩ := Except.bind_eq_ok_iff.1 h
    split at h
    · rw [← Except.ok.inj h]
      exact plain_text rfl
    · obtain ⟨payable, -, h⟩ := Except.bind_eq_ok_iff.1 h
      split at h <;> rw [← Except.ok.inj h] <;> exact plain_text rfl

theorem plain_function {f : FunctionEntry} (hselector : Text.isAscii f.selector = true)
    (hname : Plain depth f.name) (hinputs : Plain depth (Param.toItems f.inputs))
    (houtputs : Plain depth (Param.toItems f.outputs)) (hmutability : Plain depth f.mutability) :
    Plain (depth + 1) (function f).toItem := by
  refine plain_object (by simp) (by simp [Text.isAscii]) ?_
  simp only [List.forall_mem_cons]
  exact ⟨plain_text rfl, hname, plain_text hselector, hinputs, houtputs, hmutability, by simp⟩

theorem plain_event {e : EventEntry} (hname : Plain depth e.name)
    (hinputs : Plain depth (Param.toItems e.inputs)) : Plain (depth + 1) (event e).toItem := by
  refine plain_object (by simp) (by simp [Text.isAscii]) ?_
  simp only [List.forall_mem_cons]
  exact ⟨plain_text rfl, hname, hinputs, plain_bool _, by simp⟩

theorem plain_error {e : ErrorEntry} (hname : Plain depth e.name)
    (hinputs : Plain depth (Param.toItems e.inputs)) : Plain (depth + 1) (error e).toItem := by
  refine plain_object (by simp) (by simp [Text.isAscii]) ?_
  simp only [List.forall_mem_cons]
  exact ⟨plain_text rfl, hname, hinputs, by simp⟩

theorem plain_other {o : OtherEntry} (htype : Plain depth o.type)
    (hinputs : Plain depth (Param.toItems o.inputs)) (hmutability : Plain depth o.mutability) :
    Plain (depth + 1) (other o).toItem := by
  rw [toItem, OtherEntry.toItem]
  split
  · refine plain_object (by simp) (by simp [Text.isAscii]) ?_
    simp only [List.cons_append, List.nil_append, List.forall_mem_cons]
    exact ⟨htype, hmutability, hinputs, by simp⟩
  · refine plain_object (by simp) (by simp [Text.isAscii]) ?_
    simp only [List.append_nil, List.forall_mem_cons]
    exact ⟨htype, hmutability, by simp⟩

theorem plain_readFunction (hplain : Plain (depth + 1) item) (hname : Plain depth name)
    (hinputs : Plain (depth + 1) (Param.toItems inputs))
    (h : readFunction item inputs name = .ok (.entry e)) : Plain (depth + 2) e.toItem := by
  unfold readFunction at h
  obtain ⟨signature, -, h⟩ := Except.bind_eq_ok_iff.1 h
  obtain ⟨stated, -, h⟩ := Except.bind_eq_ok_iff.1 h
  obtain ⟨items, hitems, h⟩ := Except.bind_eq_ok_iff.1 h
  obtain ⟨outputs, houtputs, h⟩ := Except.bind_eq_ok_iff.1 h
  obtain ⟨mutability, hmutability, h⟩ := Except.bind_eq_ok_iff.1 h
  obtain ⟨f, hf, h⟩ := Except.bind_eq_ok_iff.1 h
  obtain rfl := Reading.entry.inj (Except.ok.inj h)
  unfold FunctionEntry.make at hf
  obtain ⟨selector, hselector, hf⟩ := Except.bind_eq_ok_iff.1 hf
  obtain rfl := Except.ok.inj hf
  apply plain_function
  · exact Selector.isAscii_of_normalize hselector
  · split
    · exact hname.mono (Nat.le_succ _)
    · exact plain_text (Selector.isAscii_placeholder hselector)
  · exact hinputs
  · exact Param.plain_ofItems (plain_field hplain hitems) houtputs
  · exact (plain_mutabilityOf hplain hmutability).mono (Nat.le_succ _)

theorem plain_readEvent (hname : Plain depth name)
    (hinputs : Plain (depth + 1) (Param.toItems inputs))
    (h : readEvent item inputs name = .ok (.entry e)) : Plain (depth + 2) e.toItem := by
  unfold readEvent at h
  obtain ⟨anonymous, -, h⟩ := Except.bind_eq_ok_iff.1 h
  obtain ⟨made, hmade, h⟩ := Except.bind_eq_ok_iff.1 h
  obtain rfl := Reading.entry.inj (Except.ok.inj h)
  unfold EventEntry.make at hmade
  rw [if_neg (by simp [holds])] at hmade
  obtain ⟨signature, -, hmade⟩ := Except.bind_eq_ok_iff.1 hmade
  obtain ⟨topic, -, hmade⟩ := Except.bind_eq_ok_iff.1 hmade
  obtain rfl := Except.ok.inj hmade
  exact plain_event (hname.mono (Nat.le_succ _)) hinputs

theorem plain_readError (hname : Plain depth name)
    (hinputs : Plain (depth + 1) (Param.toItems inputs))
    (h : readError inputs name = .entry e) : Plain (depth + 2) e.toItem := by
  unfold readError at h
  split at h
  · rename_i made hmade
    obtain rfl := Reading.entry.inj h
    unfold ErrorEntry.make at hmade
    obtain ⟨signature, -, hmade⟩ := Except.bind_eq_ok_iff.1 hmade
    obtain ⟨selector, -, hmade⟩ := Except.bind_eq_ok_iff.1 hmade
    obtain rfl := Except.ok.inj hmade
    exact plain_error (hname.mono (Nat.le_succ _)) hinputs
  · exact absurd h (by simp)

theorem plain_read (hplain : Plain depth item) (h : read item = .ok (.entry e)) :
    Plain (depth + 1) e.toItem := by
  unfold read at h
  obtain ⟨kind, hkind, h⟩ := Except.bind_eq_ok_iff.1 h
  obtain ⟨stated, hstated, h⟩ := Except.bind_eq_ok_iff.1 h
  obtain ⟨inputs, hinputs, h⟩ := Except.bind_eq_ok_iff.1 h
  cases item with
  | object fields =>
      obtain ⟨depth, rfl⟩ := hplain.exists_depth (Nat.succ_ne_zero _)
      have hinputs := Param.plain_ofItems (plain_field hplain hstated) hinputs
      split at h
      · obtain ⟨name, hname, -, h⟩ := holds_of_named h
        exact plain_readFunction hplain (plain_field hplain hname) hinputs h
      · obtain ⟨name, hname, -, h⟩ := holds_of_named h
        exact plain_readEvent (plain_field hplain hname) hinputs h
      · obtain ⟨name, hname, -, h⟩ := holds_of_named h
        exact plain_readError (plain_field hplain hname) hinputs (Except.ok.inj h)
      · obtain ⟨mutability, hmutability, h⟩ := Except.bind_eq_ok_iff.1 h
        obtain rfl := Reading.entry.inj (Except.ok.inj h)
        have htype := plain_fieldOr (plain_text rfl) hplain hkind
        have hmutability := plain_mutabilityOf hplain hmutability
        exact plain_other (htype.mono (Nat.le_succ _)) hinputs (hmutability.mono (Nat.le_succ _))
  | _ => exact absurd hkind (by simp [fieldOr])

theorem plain_ofAbi {abi : Value} {entries : List Entry} (hplain : Plain depth abi)
    (h : ofAbi abi = .ok entries) : Plain (depth + 1) (toAbi entries) := by
  obtain ⟨items, hitems, h⟩ := Except.bind_eq_ok_iff.1 h
  obtain ⟨readings, hreadings, h⟩ := Except.bind_eq_ok_iff.1 h
  obtain ⟨all, hall, h⟩ := Except.bind_eq_ok_iff.1 h
  obtain rfl := Except.ok.inj h
  rw [toAbi, plain_list_iff, List.forall_mem_map]
  intro e he
  obtain ⟨item, hitem, hread⟩ :=
    Except.exists_of_mem_mapM hreadings (mem_ofReadings hall (mem_of_mem_dedupe he))
  rcases toItems_cases hitems with rfl | hothers
  · obtain ⟨depth, rfl⟩ := hplain.exists_depth (Nat.succ_ne_zero _)
    exact plain_read (plain_list_iff.1 hplain item hitem) hread
  · cases item with
    | object fields => exact absurd rfl (hothers _ hitem fields)
    | _ => exact absurd hread (by simp [read, fieldOr])

end Entry

/-! ## Results -/

theorem ProxyInfo.plain_ofItem {depth : Nat} {v : Value} {p : ProxyInfo} (hplain : Plain depth v)
    (h : ofItem v = .ok p) : Plain (depth + 1) p.toItem := by
  obtain ⟨implementation, himplementation, h⟩ := Except.bind_eq_ok_iff.1 h
  obtain ⟨kind, hkind, h⟩ := Except.bind_eq_ok_iff.1 h
  obtain ⟨stated, hstated, h⟩ := Except.bind_eq_ok_iff.1 h
  obtain ⟨facets, hfacets, h⟩ := Except.bind_eq_ok_iff.1 h
  obtain rfl := Except.ok.inj h
  cases v with
  | object fields =>
      obtain ⟨depth, rfl⟩ := hplain.exists_depth (Nat.succ_ne_zero _)
      have himplementation := plain_field hplain himplementation
      have hkind := plain_fieldOr (plain_text rfl) hplain hkind
      have hfacets := plain_list_of_toItemsIfHeld (plain_field hplain hstated) hfacets
      refine plain_object (by simp) (by simp [Text.isAscii]) ?_
      simp only [List.forall_mem_cons]
      exact ⟨himplementation.mono (Nat.le_succ _), hkind.mono (Nat.le_succ _), hfacets,
        by simp⟩
  | _ => exact absurd himplementation (by simp [field])

namespace Reconstruction

variable {depth : Nat}

theorem plain_readProxy {info : Value} {proxy : Option ProxyInfo} (hplain : Plain depth info)
    (h : readProxy info = .ok proxy) :
    Plain (depth + 1) ((proxy.map ProxyInfo.toItem).getD .null) := by
  unfold readProxy at h
  split at h
  · obtain ⟨p, hp, rfl⟩ := Except.map_eq_ok_iff.1 h
    exact ProxyInfo.plain_ofItem hplain hp
  · obtain rfl := Except.ok.inj h
    exact plain_null

theorem plain_ofItem {v : Value} {r : Reconstruction} (hplain : Plain depth v)
    (h : ofItem v = .ok r) : Plain (depth + 1) r.toItem := by
  rw [ofItem_eq] at h
  obtain ⟨address, haddress, h⟩ := Except.bind_eq_ok_iff.1 h
  obtain ⟨id, hid, h⟩ := Except.bind_eq_ok_iff.1 h
  obtain ⟨chain, hchain, h⟩ := Except.bind_eq_ok_iff.1 h
  obtain ⟨abi, habi, h⟩ := Except.bind_eq_ok_iff.1 h
  obtain ⟨entries, hentries, h⟩ := Except.bind_eq_ok_iff.1 h
  obtain ⟨source, hsource, h⟩ := Except.bind_eq_ok_iff.1 h
  obtain ⟨info, hinfo, h⟩ := Except.bind_eq_ok_iff.1 h
  obtain ⟨proxy, hproxy, h⟩ := Except.bind_eq_ok_iff.1 h
  obtain ⟨stated, hstated, h⟩ := Except.bind_eq_ok_iff.1 h
  obtain ⟨selectors, hselectors, h⟩ := Except.bind_eq_ok_iff.1 h
  obtain rfl := Except.ok.inj h
  cases v with
  | object fields =>
      obtain ⟨depth, rfl⟩ := hplain.exists_depth (Nat.succ_ne_zero _)
      have haddress := plain_require hplain haddress
      have hchain : Plain (depth + 1) (.int chain) :=
        plain_toWhole (plain_require hplain hid) hchain
      have hentries : Plain (depth + 1) (Entry.toAbi entries) := by
        split at hentries
        · exact Entry.plain_ofAbi (plain_field hplain habi) hentries
        · obtain rfl := Except.ok.inj hentries
          exact plain_list_iff.2 (List.forall_mem_nil _)
      have hsource := plain_require hplain hsource
      have hproxy := plain_readProxy (plain_field hplain hinfo) hproxy
      have hselectors := plain_list_of_toItemsIfHeld (plain_field hplain hstated) hselectors
      refine plain_object (by simp) (by simp [Text.isAscii]) ?_
      simp only [List.forall_mem_cons]
      exact ⟨haddress.mono (Nat.le_succ _), hchain, hsource.mono (Nat.le_succ _), hproxy,
        hselectors, hentries, by simp⟩
  | _ => exact absurd haddress (by simp [require])

end Reconstruction

end ContractAbi
