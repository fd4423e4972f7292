import ContractAbi.Proofs.Assembly.Run
import ContractAbi.Proofs.Interface.Merge
import Mathlib.Data.List.Perm.Subperm

/-!
# The graph of delegations

Where every question has one answer, the contracts of a chain form a graph: each address has its
own entries, or none, and delegates.

* `Graph.Trail`: ways through the graph that come to no address twice;
* `Graph.Open`: what is reached without going on from an address at the limit;
* `Graph.Covers`: keys that hold all that is open, and nothing from beyond the limit;
* `Graph.Covers.mem_iff`: where no address lies both at the limit and above it, these are the keys
  of all addresses up to the limit;
* `graphOf` and `mem_delegatesAt`: the graph that services tell of.
-/

namespace ContractAbi.Assembler

structure Graph where
  own : String → Except Fault Own
  Delegates : String → String → Prop

namespace Graph

variable {g : Graph} {root : String} {limit : Nat}

/-- A way from the root, with the last address in front. No address comes twice. -/
inductive Trail (g : Graph) (root : String) : List String → Prop
  | root : Trail g root [root]
  | step {x y rest} (h : Trail g root (x :: rest)) (hdelegates : g.Delegates x y)
      (hnew : ∀ z ∈ x :: rest, Address.fold z ≠ Address.fold y) : Trail g root (y :: x :: rest)

/-- The end of a trail with as many delegations as may be followed. -/
def AtLimit (g : Graph) (root : String) (limit : Nat) (x : String) : Prop :=
  ∃ rest, g.Trail root (x :: rest) ∧ rest.length = limit

/-- What is reached from the root over addresses that do not lie at the limit. -/
inductive Open (g : Graph) (root : String) (limit : Nat) : String → Prop
  | root : Open g root limit root
  | step {x y} (h : Open g root limit x) (hopen : ¬g.AtLimit root limit x)
      (hdelegates : g.Delegates x y) : Open g root limit y

/-- No address at the end of a trail that is shorter than the limit lies at the limit too. -/
def Settled (g : Graph) (root : String) (limit : Nat) : Prop :=
  ∀ x rest, g.Trail root (x :: rest) → rest.length < limit → ¬g.AtLimit root limit x

/-- Keys that hold those of each address that is open, and none but those of addresses within the
limit. -/
structure Covers (g : Graph) (root : String) (limit : Nat) (keys : List EntryKey) : Prop where
  complete : ∀ x, g.Open root limit x → ∀ own, g.own x = .ok own →
    ∀ k ∈ Entry.keys own.entries, k ∈ keys
  sound : ∀ k ∈ keys, ∃ x rest own, g.Trail root (x :: rest) ∧ rest.length ≤ limit ∧
    g.own x = .ok own ∧ k ∈ Entry.keys own.entries

theorem open_of_trail (hsettled : g.Settled root limit) {x : String} {rest : List String}
    (h : g.Trail root (x :: rest)) (hlength : rest.length ≤ limit) : g.Open root limit x := by
  induction rest generalizing x with
  | nil =>
      cases h with
      | root => exact .root
  | cons y rest ih =>
      cases h with
      | step h hdelegates hnew =>
          rw [List.length_cons] at hlength
          exact .step (ih h (by omega)) (hsettled _ _ h (by omega)) hdelegates

theorem Covers.mem_iff {keys : List EntryKey} (h : g.Covers root limit keys)
    (hsettled : g.Settled root limit) (k : EntryKey) :
    k ∈ keys ↔ ∃ x rest own, g.Trail root (x :: rest) ∧ rest.length ≤ limit ∧
      g.own x = .ok own ∧ k ∈ Entry.keys own.entries := by
  constructor
  · exact h.sound k
  · rintro ⟨x, rest, own, htrail, hlength, hown, hk⟩
    exact h.complete x (open_of_trail hsettled htrail hlength) own hown k hk

/-- Keys that stay within a limit are all there with a greater limit that settles the graph. -/
theorem Covers.subset {limit' : Nat} {keys keys' : List EntryKey} (hle : limit ≤ limit')
    (h : g.Covers root limit keys) (h' : g.Covers root limit' keys')
    (hsettled : g.Settled root limit') {k : EntryKey} (hk : k ∈ keys) : k ∈ keys' := by
  obtain ⟨x, rest, own, htrail, hlength, hown, hk⟩ := h.sound k hk
  exact (h'.mem_iff hsettled k).2 ⟨x, rest, own, htrail, Nat.le_trans hlength hle, hown, hk⟩

theorem Trail.nodup {way : List String} (h : g.Trail root way) : way.Nodup := by
  induction h with
  | root => exact List.nodup_singleton root
  | step _ _ hnew ih =>
      exact List.nodup_cons.2 ⟨fun hmem => hnew _ hmem rfl, ih⟩

/-- A limit that is no less than the number of addresses settles the graph. -/
theorem settled_of_length_le {places : List String} (hroot : root ∈ places)
    (hclosed : ∀ x ∈ places, ∀ y, g.Delegates x y → y ∈ places) (hlimit : places.length ≤ limit) :
    g.Settled root limit := by
  have hmem : ∀ way, g.Trail root way → ∀ x ∈ way, x ∈ places := by
    intro way h
    induction h with
    | root =>
        intro x hx
        rwa [List.mem_singleton.1 hx]
    | @step x y _ _ hdelegates _ ih =>
        intro z hz
        rcases List.mem_cons.1 hz with rfl | hz
        · exact hclosed x (ih x List.mem_cons_self) z hdelegates
        · exact ih z hz
  rintro x _ _ _ ⟨rest, htrail, hlength⟩
  have hle := (htrail.nodup.subperm (hmem _ htrail)).length_le
  rw [List.length_cons, hlength] at hle
  omega

end Graph

/-! ## The graph of services -/

/-- What the contract at an address delegates to: the implementation that is found, or one of the
facets. -/
inductive DelegatesTo [AddressLibrary]
    (settings : Proxy.Settings) (reader : ChainReader) (address : String)
    (own : Own) (delegate : String) : Prop
  | implementation {info}
      (h : (Proxy.detect settings reader (.text address) (own.selectors.map .text)
        own.codeValue).result = .ok (some info))
      (hdelegate : info.implementation.text? = some delegate)
  | facet {facets}
      (h : (Proxy.detectFacets reader address (own.selectors.map .text)).result = .ok facets)
      (hdelegate : delegate ∈ facets)

def graphOf [AddressLibrary] (services : Services) (options : Options) (chain : Value) : Graph where
  own address := (ownEntries services options address chain .empty).1.result
  Delegates x y := ∃ own,
    (ownEntries services options x chain .empty).1.result = .ok own ∧
      DelegatesTo options.proxy services.reader x own y

def delegatesAt [AddressLibrary]
    (services : Services) (options : Options) (chain : Value) (address : String) :
    Except Fault (List String) := do
  let own ← (ownEntries services options address chain .empty).1.result
  let info ← (Proxy.detect options.proxy services.reader (.text address)
    (own.selectors.map .text) own.codeValue).result
  let facets ← (Proxy.detectFacets services.reader address (own.selectors.map .text)).result
  return delegateAddresses info facets

variable {services : Services} {options : Options} {chain : Value} {address : String}

theorem mem_delegateAddresses [AddressLibrary]
    {own : Own} {info : Option ProxyInfo} {facets : List String}
    (hown : (graphOf services options chain).own address = .ok own)
    (hinfo : (Proxy.detect options.proxy services.reader (.text address)
      (own.selectors.map .text) own.codeValue).result = .ok info)
    (hfacets : (Proxy.detectFacets services.reader address
      (own.selectors.map .text)).result = .ok facets) (y : String) :
    y ∈ delegateAddresses info facets ↔
      (graphOf services options chain).Delegates address y := by
  unfold delegateAddresses
  rw [List.mem_append, Option.mem_toList, Option.bind_eq_some_iff]
  constructor
  · rintro (⟨i, rfl, hy⟩ | hy)
    · exact ⟨own, hown, .implementation hinfo hy⟩
    · exact ⟨own, hown, .facet hfacets hy⟩
  · rintro ⟨own', hown', hdelegates⟩
    obtain rfl := Except.ok.inj (hown'.symm.trans hown)
    cases hdelegates with
    | @implementation i h hy =>
        rw [h] at hinfo
        exact .inl ⟨i, (Except.ok.inj hinfo).symm, hy⟩
    | facet h hy =>
        rw [h] at hfacets
        obtain rfl := Except.ok.inj hfacets
        exact .inr hy

theorem mem_delegatesAt [AddressLibrary] {found : List String}
    (h : delegatesAt services options chain address = .ok found) (y : String) :
    y ∈ found ↔ (graphOf services options chain).Delegates address y := by
  obtain ⟨own, hown, h⟩ := Except.bind_eq_ok_iff.1 h
  obtain ⟨info, hinfo, h⟩ := Except.bind_eq_ok_iff.1 h
  obtain ⟨facets, hfacets, h⟩ := Except.bind_eq_ok_iff.1 h
  obtain rfl := Except.ok.inj h
  exact mem_delegateAddresses hown hinfo hfacets y

end ContractAbi.Assembler
