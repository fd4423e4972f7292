import ContractAbi.Address.Libraries
import ContractAbi.Proofs.Source.Newest
import ContractAbi.Proofs.Source.Registries

/-!
# What comes of asking directories and registries

Whatever the web has for a question, a directory lists texts of its document in their order, a
registry gives an interface or none, or the service is unavailable. There is one exception, which is
a document that is nested too deeply.

* `NumberedDirectory.closed_lookup` and `ListedDirectory.closed_lookup`: directories;
* `closed_services`: directories and registries together.
-/

namespace ContractAbi

open Value

variable {s : JsonService} {web : Web} {kind : LookupKind} {key address chain : Value}
  {k a : String}

/-! ## The numbered directory -/

namespace NumberedDirectory

/-- The texts of elements in the order of their rank: the greater number first, in the order of the
list where they have one number, and without those that are empty. -/
def Ranks (results : List Value) (texts : List String) : Prop :=
  ∃ ranking : List (String × Int),
    (ranking.Pairwise fun a b => b.2 ≤ a.2) ∧
    (∀ n, ranking.filter (·.2 == n) = (results.filterMap entry?).filter (·.2 == n)) ∧
    texts = (ranking.map Prod.fst).filter (· ≠ "")

theorem ranks_ranked (results : List Value) : Ranks results (ranked results) := by
  refine ⟨(results.filterMap entry?).mergeSort newer, ?_, filter_ranking _, rfl⟩
  apply (List.pairwise_mergeSort newer_trans newer_total _).imp
  intro a b h
  simpa [newer] using h

/-- Elements that are listed in the order of their numbers keep it. -/
theorem ranked_of_pairwise {results : List Value} (entries : List (String × Int))
    (h : results.filterMap entry? = entries) (hentries : entries.Pairwise fun a b => b.2 ≤ a.2) :
    ranked results = (entries.map Prod.fst).filter (· ≠ "") := by
  have hsorted : entries.mergeSort newer = entries :=
    List.mergeSort_of_pairwise (by simpa [newer] using hentries)
  change (((results.filterMap entry?).mergeSort newer).map Prod.fst).filter (· ≠ "") = _
  rw [h, hsorted]

def question (key : String) : Option (List (String × Value)) :=
  some [("hex_signature", .text key)]

theorem closed_signatures (s : JsonService) (document : Value) :
    Closed s.name
      (fun texts => ∃ results, document.part "results" = .list results ∧ Ranks results texts)
      (fun _ => False) (signatures s document) := by
  unfold signatures
  split
  · split
    · rename_i fields results hresults
      exact .of_ok ⟨results, part_of_lookup hresults, ranks_ranked results⟩
    · exact .of_unavailable _
  · exact .of_unavailable _

def Answers [JsonReader.Stack] (s : JsonService) (web : Web) (kind : LookupKind) (key : String)
    (texts : List String) : Prop :=
  ∃ document results, s.Gives web (path kind) (question key) document ∧
    document.part "results" = .list results ∧ Ranks results texts

theorem closed_lookup [JsonReader.Stack] (hweb : web.Ordinary) (hkey : kind.normalize key = .ok k) :
    Closed s.name (Answers s web kind k) (s.Escapes web (path kind) (question k))
      (lookup s web kind key).result := by
  unfold lookup
  rw [Traced.result_bind, Traced.result_ofExcept, hkey, Except.ok_bind]
  refine closed_reading hweb fun document hdocument => ?_
  refine (closed_signatures s document).congr (fun texts _ h => ?_) fun _ => Iff.rfl
  obtain ⟨results, hresults, hranks⟩ := h
  rcases hdocument with hgives | ⟨hallowed, -⟩
  · exact ⟨document, results, hgives, hresults, hranks⟩
  · cases hallowed

end NumberedDirectory

/-! ## The listed directory -/

namespace ListedDirectory

def question (kind : LookupKind) (key : String) : Option (List (String × Value)) :=
  some [(field kind, .text key), ("filter", .text "true")]

def path : String := "/signature-database/v1/lookup"

/-- The names of what a document lists for a key, in its order, and none where it lists nothing. -/
def Lists (kind : LookupKind) (key : String) (document : Value) (texts : List String) : Prop :=
  (document.part "ok").holds = true ∧
    (∀ found, document.Leads ["result", field kind, key] (.list found) →
      texts = found.filterMap matchName?) ∧
    ((∀ found, ¬document.Leads ["result", field kind, key] (.list found)) → texts = [])

theorem closed_signatures (s : JsonService) (kind : LookupKind) (key : String) (document : Value) :
    Closed s.name (Lists kind key document) (fun _ => False) (signatures s kind key document) := by
  unfold signatures
  split
  · rename_i hok
    have hholds : (document.part "ok").holds = true := by
      cases document with
      | object fields => exact hok
      | _ => cases hok
    obtain ⟨w, hpath, hleads, honly⟩ := document.exists_atPath "result" [field kind, key]
    change document.atPath (.text "result") [.text (field kind), .text key] = .ok w at hpath
    rw [hpath, Except.ok_bind]
    split
    · rename_i hempty
      refine .of_ok ⟨hholds, fun found hfound => ?_, fun _ => rfl⟩
      have hlist : w = .list found := honly _ hfound
      rw [hlist] at hempty
      cases found with
      | nil => rfl
      | cons v vs => cases hempty
    · rename_i hheld
      have hheld : w.holds = true := by simpa using hheld
      split
      · rename_i found _
        refine .of_ok ⟨hholds, fun found' hfound => ?_, fun hnone => ?_⟩
        · have hsame : Value.list found = .list found' := honly _ hfound
          rw [Value.list.inj hsame]
        · exact absurd (hleads hheld) (hnone found)
      · exact .of_unavailable _
  · exact .of_unavailable _

def Answers [JsonReader.Stack] (s : JsonService) (web : Web) (kind : LookupKind) (key : String)
    (texts : List String) : Prop :=
  ∃ document, s.Gives web path (question kind key) document ∧ Lists kind key document texts

theorem closed_lookup [JsonReader.Stack] (hweb : web.Ordinary) (hkey : kind.normalize key = .ok k) :
    Closed s.name (Answers s web kind k) (s.Escapes web path (question kind k))
      (lookup s web kind key).result := by
  unfold lookup
  rw [Traced.result_bind, Traced.result_ofExcept, hkey, Except.ok_bind]
  refine closed_reading hweb fun document hdocument => ?_
  refine (closed_signatures s kind k document).congr (fun texts _ h => ?_) fun _ => Iff.rfl
  rcases hdocument with hgives | ⟨hallowed, -⟩
  · exact ⟨document, hgives, h⟩
  · cases hallowed

end ListedDirectory

/-! ## All of them -/

/-- Whatever the web has for a question, a directory answers a key with the texts of the document in
their order, a registry answers an address with no interface or with the one that the document
offers, or the service is unavailable. Only two things come through besides: that no address on the
web can be formed for the question, and that a document is nested too deeply; and they always do. -/
theorem closed_services [JsonReader.Stack] [AddressLibrary] {web : Web} (hweb : web.Ordinary) :
    (∀ (s : JsonService) (kind : LookupKind) (key : Value) (k : String),
      kind.normalize key = .ok k →
      Closed s.name (NumberedDirectory.Answers s web kind k)
        (s.Escapes web (NumberedDirectory.path kind) (NumberedDirectory.question k))
        (NumberedDirectory.lookup s web kind key).result) ∧
    (∀ (s : JsonService) (kind : LookupKind) (key : Value) (k : String),
      kind.normalize key = .ok k →
      Closed s.name (ListedDirectory.Answers s web kind k)
        (s.Escapes web ListedDirectory.path (ListedDirectory.question kind k))
        (ListedDirectory.lookup s web kind key).result) ∧
    (∀ (s : JsonService) (address chain : Value) (a : String),
      Address.checksum address = .ok a →
      Closed s.name (AbiLoader.Repository.Answers s web a chain)
        (s.Escapes web (AbiLoader.Repository.path chain a) AbiLoader.Repository.question)
        (AbiLoader.Repository.fetch s web address chain).result) ∧
    (∀ (s : JsonService) (key : String) (address chain : Value) (a : String),
      Address.checksum address = .ok a →
      Closed s.name (AbiLoader.Explorer.Answers s web key a chain)
        (AbiLoader.Explorer.Escapes s web key a chain)
        (AbiLoader.Explorer.fetch s web key address chain).result) :=
  ⟨fun _ _ _ _ hkey => NumberedDirectory.closed_lookup hweb hkey,
    fun _ _ _ _ hkey => ListedDirectory.closed_lookup hweb hkey,
    fun _ _ _ _ haddress => AbiLoader.Repository.closed_fetch hweb haddress,
    fun _ key _ _ _ haddress => AbiLoader.Explorer.closed_fetch hweb key haddress⟩

open JsonReader.Stack in
open AddressLibrary in
/-- Two elements are listed in the order of their numbers. -/
theorem closed_services_mixed : ∃ web : Web, web.Ordinary ∧
    (NumberedDirectory.lookup NumberedDirectory.site web .function (.text "26121FF0")).result =
      .ok ["g()", "f()"] ∧
    NumberedDirectory.Answers NumberedDirectory.site web .function "0x26121ff0" ["g()", "f()"] ∧
    ∀ f, ¬NumberedDirectory.site.Escapes web (NumberedDirectory.path .function)
      (NumberedDirectory.question "0x26121ff0") f := by
  obtain ⟨body, hbody⟩ := NumberedDirectory.exists_mixedDocument
  have hweb : Web.Ordinary fun _ => .ok ⟨200, body⟩ := nofun
  have hkey : LookupKind.function.normalize (.text "26121FF0") = .ok "0x26121ff0" := rfl
  have hgives : NumberedDirectory.site.Gives (fun _ => .ok ⟨200, body⟩)
      (NumberedDirectory.path .function) (NumberedDirectory.question "0x26121ff0")
      (.object NumberedDirectory.mixedDocument) :=
    ⟨_, ⟨rfl, _, NumberedDirectory.address_site, rfl, rfl⟩, rfl, hbody⟩
  have hlookup : (NumberedDirectory.lookup NumberedDirectory.site (fun _ => .ok ⟨200, body⟩)
      .function (.text "26121FF0")).result = .ok ["g()", "f()"] := by
    unfold NumberedDirectory.lookup
    rw [Traced.result_bind, Traced.result_ofExcept, hkey, Except.ok_bind, Traced.result_bind]
    have hdocument := hgives.result_getJson false
    unfold NumberedDirectory.question at hdocument
    have hranked : NumberedDirectory.ranked
        [.object [("text_signature", .text "g()"), ("id", .int 9)],
          .object [("text_signature", .text "f()"), ("id", .bool true)]] = ["g()", "f()"] :=
      NumberedDirectory.ranked_of_pairwise [("g()", 9), ("f()", 1)] rfl (by decide)
    rw [hdocument, Except.ok_bind, ← hranked]
    rfl
  have hclosed := (closed_services hweb).1 NumberedDirectory.site _ _ _ hkey
  refine ⟨_, hweb, hlookup, hclosed.answer _ hlookup, fun f hf => ?_⟩
  have herror := hclosed.escape f hf
  rw [hlookup] at herror
  cases herror

open JsonReader.Stack in
/-- Lists in lists that are too many are not reported as a failure of the service. -/
theorem lookup_nested :
    (NumberedDirectory.lookup NumberedDirectory.site
      (fun _ => .ok ⟨200, Utf8.encode (String.ofList (JsonReader.nested 1200))⟩) .function
      (.text "0x26121ff0")).result = .error (.tooDeep "array") := by
  have hweb : Web.Ordinary
      fun _ => .ok ⟨200, Utf8.encode (String.ofList (JsonReader.nested 1200))⟩ := nofun
  have hkey : LookupKind.function.normalize (.text "0x26121ff0") = .ok "0x26121ff0" := rfl
  apply (NumberedDirectory.closed_lookup hweb hkey).escape
  exact .tooDeep ⟨rfl, _, NumberedDirectory.address_site, rfl, rfl⟩ rfl
    (Value.ofJsonBytes_nested (by decide))

end ContractAbi
