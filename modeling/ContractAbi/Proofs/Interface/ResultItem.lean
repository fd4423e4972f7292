import ContractAbi.Interface.Result
import ContractAbi.Proofs.Interface.EntryItem

/-!
# Results as items

* `ProxyInfo.ofItem_toItem`: what a contract delegates to is read as it was written;
* `Reconstruction.ofItem_toItem`: so is a result with regular entries, up to the sort of number that
  its chain is;
* `Reconstruction.regular_of_ofItem`: results that are read are such results;
* `Reconstruction.Regular.pairwise_selector`: their functions have selectors of their own.
-/

namespace ContractAbi

open Value

theorem ProxyInfo.ofItem_toItem (p : ProxyInfo) : ofItem p.toItem = .ok p := by
  have himplementation : p.toItem.field "implementationAddress" = .ok p.implementation := rfl
  have hkind : p.toItem.fieldOr "kind" (.text "") = .ok p.kind := rfl
  have hfacets : p.toItem.field "facets" = .ok (.list p.facets) := rfl
  have hitems : (Value.list p.facets).toItemsIfHeld = .ok p.facets := by
    cases h : p.facets <;> rfl
  rw [ofItem, himplementation, Except.ok_bind, hkind, Except.ok_bind, hfacets, Except.ok_bind,
    hitems]
  rfl

/-! ## Functions among entries -/

theorem Entry.eq_of_function? {e : Entry} {f : FunctionEntry} (h : e.function? = some f) :
    e = .function f := by
  cases e with
  | function g => exact congrArg Entry.function (Option.some.inj h)
  | _ => exact absurd h (by simp [function?])

theorem Entry.mem_function? {entries : List Entry} {f : FunctionEntry} :
    f ∈ entries.filterMap Entry.function? ↔ Entry.function f ∈ entries := by
  rw [List.mem_filterMap]
  constructor
  · rintro ⟨e, he, hf⟩
    exact eq_of_function? hf ▸ he
  · intro h
    exact ⟨_, h, rfl⟩

/-! ## Results -/

namespace Reconstruction

/-- A result with regular entries of different keys, for a chain that is a number in some form. -/
structure Regular (r : Reconstruction) : Prop where
  chain : ∃ n, r.chainId.toWhole = .ok n
  entries : ∀ e ∈ r.entries, e.Regular
  nodup : (Entry.keys r.entries).Nodup

theorem Regular.of_mem {r : Reconstruction} (h : r.Regular) {f : FunctionEntry}
    (hf : f ∈ r.functions) : f.Regular :=
  h.entries _ (Entry.mem_function?.1 hf)

/-- Functions have keys of their own, so no two have the same selector. -/
theorem Regular.pairwise_selector {r : Reconstruction} (h : r.Regular) :
    r.functions.Pairwise fun f g => f.selector ≠ g.selector := by
  have hkeys : r.entries.Pairwise fun d e => d.key ≠ e.key := List.pairwise_map.1 h.nodup
  unfold functions
  rw [List.pairwise_filterMap]
  refine hkeys.imp fun {d e} hne f hf g hg hsame => hne ?_
  rw [Entry.eq_of_function? hf, Entry.eq_of_function? hg]
  simp [Entry.key, Entry.kind, Entry.keyName, hsame]

def onChain (r : Reconstruction) (n : Int) : Reconstruction :=
  { r with chainId := .int n }

/-- The second result is written like the first on a chain, and its entries have the same keys in
the same order. -/
structure Restores (r : Reconstruction) (n : Int) (r' : Reconstruction) : Prop where
  chain : r'.chainId = .int n
  keys : Entry.keys r'.entries = Entry.keys r.entries
  toItem : r'.toItem = (r.onChain n).toItem

theorem onChain_of_int {r : Reconstruction} {n : Int} (h : r.chainId = .int n) :
    r.onChain n = r := by
  rw [onChain, ← h]

theorem Restores.toItem_of_int {r r' : Reconstruction} {n k : Int} (h : r.Restores n r')
    (hchain : r.chainId.toWhole = .ok n) (hint : r.chainId = .int k) : r'.toItem = r.toItem := by
  obtain rfl : k = n := by
    rw [hint] at hchain
    exact Except.ok.inj hchain
  rw [h.toItem, onChain_of_int hint]

def readProxy (info : Value) : Except Fault (Option ProxyInfo) :=
  if info.holds then (ProxyInfo.ofItem info).map some else .ok none

theorem readProxy_toItem (p : Option ProxyInfo) :
    readProxy ((p.map ProxyInfo.toItem).getD .null) = .ok p := by
  cases p with
  | none => rfl
  | some p => exact congrArg (Except.map some) p.ofItem_toItem

theorem ofItem_eq (v : Value) : ofItem v = (do
    let address ← v.require "address"
    let chain ← (← v.require "chainId").toWhole
    let abi ← v.field "abi"
    let entries ← Entry.ofAbi (if abi.holds then abi else .list [])
    let source ← v.require "sourceKind"
    let proxy ← readProxy (← v.field "proxyInfo")
    let selectors ← (← v.field "selectors").toItemsIfHeld
    return ⟨address, .int chain, entries, source, proxy, selectors⟩) := by
  unfold ofItem readProxy
  iterate 7 refine bind_congr fun _ => ?_
  dsimp only
  split <;> rfl

theorem ofItem_toItem {r : Reconstruction} (h : r.Regular) {n : Int}
    (hchain : r.chainId.toWhole = .ok n) :
    ∃ r', ofItem r.toItem = .ok r' ∧ r.Restores n r' := by
  obtain ⟨entries, hentries, hkeys, habi⟩ := Entry.ofAbi_toAbi h.entries h.nodup
  have hread : Entry.ofAbi (if (Entry.toAbi r.entries).holds then Entry.toAbi r.entries else
      .list []) = .ok entries := by
    -- an empty list is read like no list at all
    cases hempty : r.entries with
    | nil => rwa [hempty] at hentries
    | cons e rest => rwa [hempty] at hentries
  have hselectors : (Value.list r.selectors).toItemsIfHeld = .ok r.selectors := by
    cases h : r.selectors <;> rfl
  refine ⟨⟨r.address, .int n, entries, r.sourceKind, r.proxy, r.selectors⟩, ?_, rfl, hkeys, ?_⟩
  · have haddress : r.toItem.require "address" = .ok r.address := rfl
    have hid : r.toItem.require "chainId" = .ok r.chainId := rfl
    have hfield : r.toItem.field "abi" = .ok (Entry.toAbi r.entries) := rfl
    have hsource : r.toItem.require "sourceKind" = .ok r.sourceKind := rfl
    have hproxy : r.toItem.field "proxyInfo" =
        .ok ((r.proxy.map ProxyInfo.toItem).getD .null) := rfl
    have hlist : r.toItem.field "selectors" = .ok (.list r.selectors) := rfl
    rw [ofItem_eq, haddress, Except.ok_bind, hid, Except.ok_bind, hchain, Except.ok_bind, hfield,
      Except.ok_bind, hread, Except.ok_bind, hsource, Except.ok_bind, hproxy, Except.ok_bind,
      readProxy_toItem, Except.ok_bind, hlist, Except.ok_bind, hselectors]
    rfl
  · simp only [toItem, onChain, habi]

theorem regular_of_ofItem {v : Value} {r : Reconstruction} (h : ofItem v = .ok r) :
    r.Regular ∧ ∃ n, r.chainId = .int n := by
  rw [ofItem_eq] at h
  obtain ⟨address, -, h⟩ := Except.bind_eq_ok_iff.1 h
  obtain ⟨id, -, h⟩ := Except.bind_eq_ok_iff.1 h
  obtain ⟨chain, -, h⟩ := Except.bind_eq_ok_iff.1 h
  obtain ⟨abi, -, h⟩ := Except.bind_eq_ok_iff.1 h
  obtain ⟨entries, hentries, h⟩ := Except.bind_eq_ok_iff.1 h
  obtain ⟨source, -, h⟩ := Except.bind_eq_ok_iff.1 h
  obtain ⟨info, -, h⟩ := Except.bind_eq_ok_iff.1 h
  obtain ⟨proxy, -, h⟩ := Except.bind_eq_ok_iff.1 h
  obtain ⟨items, -, h⟩ := Except.bind_eq_ok_iff.1 h
  obtain ⟨selectors, -, h⟩ := Except.bind_eq_ok_iff.1 h
  obtain rfl := Except.ok.inj h
  exact ⟨⟨⟨chain, rfl⟩, Entry.regular_of_ofAbi hentries, Entry.nodup_keys_ofAbi hentries⟩, chain,
    rfl⟩

end Reconstruction

end ContractAbi
