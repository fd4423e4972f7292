import ContractAbi.Proofs.Selector
import ContractAbi.Proofs.Source.Http
import ContractAbi.Proofs.Source.Ranking

/-!
# The newest match

Of the signatures that the directory lists the newest that is right counts. What it lists besides,
be it malformed or a signature of another key, makes no difference, unless it is a newer signature
that cannot be hashed.

* `result_resolveKey`: what a resolver answers that asks the directory alone;
* `newest_match`: that the newest of the elements that settle the search counts.
-/

namespace ContractAbi.NumberedDirectory

open Resolver

variable {s : JsonService} {web : Web} {kind : LookupKind} {key : Value} {k : String}
  {fields : List (String × Value)} {results : List Value}

/-! ## The directory alone -/

theorem getJson_of_response [JsonReader.Stack] {path : String}
    {params : Option (List (String × Value))} {url : Url}
    {r : WebResponse} {document : Value} (hlimit : s.isOver = false)
    (haddress : s.address path params = .ok url) (habsolute : url.isAbsolute = true)
    (hresponse : web url.text = .ok r) (hstatus : r.status = 200)
    (hbody : Value.ofJsonBytes r.body = .ok document) :
    (s.getJson web path params false).result = .ok document :=
  JsonService.Gives.result_getJson
    ⟨r, ⟨hlimit, url, haddress, habsolute, hresponse⟩, hstatus, hbody⟩ false

theorem offered?_directory [JsonReader.Stack] (hkey : kind.normalize (.text k) = .ok k)
    (hanswer : (s.getJson web (path kind) (some [("hex_signature", .text k)]) false).result =
      .ok (.object fields))
    (hresults : Value.lookup "results" fields = some (.list results)) :
    offered? (directorySource name (lookup s web)) kind k =
      some (.list ((ranked results).map .text)) := by
  have hlookup : (lookup s web kind (.text k)).result = .ok (ranked results) := by
    unfold lookup
    rw [Traced.result_bind, Traced.result_ofExcept, hkey, Except.ok_bind, Traced.result_bind,
      hanswer, Except.ok_bind, Traced.result_ofExcept]
    simp only [signatures, hresults]
  unfold offered?
  dsimp only [directorySource]
  rw [Traced.result_bind, hlookup]
  rfl

theorem normalize_normalize (hkey : kind.normalize key = .ok k) :
    kind.normalize (.text k) = .ok k := by
  cases kind with
  | function => exact Selector.normalize_normalize hkey
  | event => exact Topic.normalize_normalize hkey

/-- What is answered where these elements settle the search, one after the other. -/
def answerOf (settling : List (Except Fault Signature × Int)) : Except Fault (Option Signature) :=
  match settling.head? with
  | some e => e.1.map some
  | none => .ok none

/-- A resolver that asks the directory alone, and has nothing in its memory, answers with the first
of the ranking that settles the search. -/
theorem result_resolveKey [JsonReader.Stack] (hkey : kind.normalize key = .ok k)
    (hanswer : (s.getJson web (path kind) (some [("hex_signature", .text k)]) false).result =
      .ok (.object fields))
    (hresults : Value.lookup "results" fields = some (.list results)) :
    (resolveKey [directorySource name (lookup s web)] kind key .empty).1.result =
      answerOf (((results.filterMap entry?).mergeSort newer).filterMap (told? kind k)) := by
  have hoffered := offered?_directory (normalize_normalize hkey) hanswer hresults
  have hview : view [directorySource name (lookup s web)] kind [] k =
      chosen kind k ((ranked results).map Value.text) := by
    change verdict kind k _ = _
    have hitems : (Value.list ((ranked results).map .text)).toItems =
        .ok ((ranked results).map .text) := rfl
    unfold verdict
    rw [hoffered]
    dsimp only
    rw [hitems, Except.ok_bind]
    cases chosen kind k ((ranked results).map Value.text) with
    | error f => rfl
    | ok found => cases found <;> rfl
  have hchosen : chosen kind k ((ranked results).map Value.text) =
      answerOf (((results.filterMap entry?).mergeSort newer).filterMap (told? kind k)) := by
    rw [chosen, findSome?_ranked, answerOf]
    cases (((results.filterMap entry?).mergeSort newer).filterMap (told? kind k)).head? <;> rfl
  rw [← hchosen, ← hview, ← result_resolve]
  unfold resolveKey
  rw [Session.result_bind, Session.result_ofExcept, hkey, Except.ok_bind]
  cases kind with
  | function => exact Session.result_focus _ _ _ _
  | event => exact Session.result_focus _ _ _ _

/-- The earliest of those with the greatest number. -/
def Newest {α : Type} (numbered : List (α × Int)) (a : α) : Prop :=
  ∃ front number back, numbered = front ++ (a, number) :: back ∧
    (∀ e ∈ front, e.2 < number) ∧ ∀ e ∈ back, e.2 ≤ number

theorem pairwise_told (entries : List (String × Int)) :
    ((entries.mergeSort newer).filterMap (told? kind k)).Pairwise fun a b => b.2 ≤ a.2 := by
  rw [List.pairwise_filterMap]
  apply (List.pairwise_mergeSort newer_trans newer_total entries).imp
  intro a b hnewer c hc d hd
  rw [snd_of_told? hc, snd_of_told? hd]
  simpa [newer] using hnewer

theorem filterMap_told (results : List Value) :
    (results.filterMap entry?).filterMap (told? kind k) = results.filterMap (match? kind k) := by
  rw [List.filterMap_filterMap]
  apply List.filterMap_congr
  intro r _
  exact (match?_eq_bind r).symm

/-- The first of the ranking that settles the search is the newest element that does. -/
theorem head?_told_iff {r : Except Fault Signature} (results : List Value) :
    (((results.filterMap entry?).mergeSort newer).filterMap (told? kind k)).head?.map Prod.fst =
      some r ↔ Newest (results.filterMap (match? kind k)) r := by
  have hstable : ∀ n,
      (((results.filterMap entry?).mergeSort newer).filterMap (told? kind k)).filter (·.2 == n) =
        (results.filterMap (match? kind k)).filter (·.2 == n) := by
    intro n
    rw [← filterMap_told, filter_told, filter_told, filter_ranking]
  have hfirst : ∀ n,
      (((results.filterMap entry?).mergeSort newer).filterMap (told? kind k)).head? =
        some (r, n) ↔ _ := fun n => head?_eq_some_iff (pairwise_told _) hstable
  rw [Option.map_eq_some_iff]
  constructor
  · rintro ⟨⟨_, n⟩, hhead, rfl⟩
    obtain ⟨front, back, hentries⟩ := (hfirst n).1 hhead
    exact ⟨front, n, back, hentries⟩
  · rintro ⟨front, n, back, hentries⟩
    exact ⟨(r, n), (hfirst n).2 ⟨front, back, hentries⟩, rfl⟩

theorem answerOf_eq_iff {settling : List (Except Fault Signature × Int)} :
    (∀ sig, answerOf settling = .ok (some sig) ↔ settling.head?.map Prod.fst = some (.ok sig)) ∧
      (∀ f, answerOf settling = .error f ↔ settling.head?.map Prod.fst = some (.error f)) ∧
      (answerOf settling = .ok none ↔ settling = []) := by
  cases settling with
  | nil => simp [answerOf]
  | cons e rest =>
      obtain ⟨r, n⟩ := e
      cases r <;> simp [answerOf]

/-- What is answered: the newest match. There is none where no element matches, and a failure where
the newest element that settles the search cannot be hashed. -/
theorem resolveKey_newest [JsonReader.Stack] (hkey : kind.normalize key = .ok k)
    (hanswer : (s.getJson web (path kind) (some [("hex_signature", .text k)]) false).result =
      .ok (.object fields))
    (hresults : Value.lookup "results" fields = some (.list results)) :
    ∃ answer,
      (resolveKey [directorySource name (lookup s web)] kind key .empty).1.result = answer ∧
      (∀ sig, answer = .ok (some sig) ↔ Newest (results.filterMap (match? kind k)) (.ok sig)) ∧
      (∀ f, answer = .error f ↔ Newest (results.filterMap (match? kind k)) (.error f)) ∧
      (answer = .ok none ↔ ∀ r ∈ results, match? kind k r = none) := by
  refine ⟨_, result_resolveKey hkey hanswer hresults, ?_, ?_, ?_⟩
  · intro sig
    rw [answerOf_eq_iff.1, head?_told_iff]
  · intro f
    rw [answerOf_eq_iff.2.1, head?_told_iff]
  · have hperm := (List.mergeSort_perm (results.filterMap entry?) newer).filterMap (told? kind k)
    rw [filterMap_told] at hperm
    rw [answerOf_eq_iff.2.2, ← List.filterMap_eq_nil_iff]
    exact ⟨fun h => (h ▸ hperm).nil_eq.symm, fun h => (h ▸ hperm).eq_nil⟩

/-- A resolver that asks the directory alone, and has nothing in its memory, answers with the newest
of the elements that match the key, and with none where no element does. It fails where a signature
that cannot be hashed is newer than the matches. Other elements make no difference: another document
with the same of these gives the same answer. -/
theorem newest_match [JsonReader.Stack] (hkey : kind.normalize key = .ok k)
    (hanswer : (s.getJson web (path kind) (some [("hex_signature", .text k)]) false).result =
      .ok (.object fields))
    (hresults : Value.lookup "results" fields = some (.list results)) :
    ∃ answer,
      (resolveKey [directorySource name (lookup s web)] kind key .empty).1.result = answer ∧
      (∀ sig, answer = .ok (some sig) ↔ Newest (results.filterMap (match? kind k)) (.ok sig)) ∧
      (∀ f, answer = .error f ↔ Newest (results.filterMap (match? kind k)) (.error f)) ∧
      (answer = .ok none ↔ ∀ r ∈ results, match? kind k r = none) ∧
      ∀ web' fields' results',
        (s.getJson web' (path kind) (some [("hex_signature", .text k)]) false).result =
          .ok (.object fields') →
        Value.lookup "results" fields' = some (.list results') →
        results'.filterMap (match? kind k) = results.filterMap (match? kind k) →
        (resolveKey [directorySource name (lookup s web')] kind key .empty).1.result = answer := by
  obtain ⟨answer, hresolved, hsome, hfailed, hnone⟩ := resolveKey_newest hkey hanswer hresults
  refine ⟨answer, hresolved, hsome, hfailed, hnone, ?_⟩
  intro web' fields' results' hanswer' hresults' hsame
  obtain ⟨answer', hresolved', hsome', hfailed', hnone'⟩ :=
    resolveKey_newest hkey hanswer' hresults'
  rw [hresolved']
  rcases answer with f | _ | sig
  · rw [hfailed', hsame]
    exact (hfailed f).1 rfl
  · rw [hnone', ← List.filterMap_eq_nil_iff, hsame, List.filterMap_eq_nil_iff]
    exact hnone.1 rfl
  · rw [hsome', hsame]
    exact (hsome sig).1 rfl

def site : JsonService :=
  ⟨name, defaultBase, .null, defaultAgent⟩

theorem address_site : site.address (path .function)
    (some [("hex_signature", .text "0x26121ff0")]) =
    .ok ⟨"https", "", "www.4byte.directory", none, path .function,
      some "hex_signature=0x26121ff0", none⟩ := by
  have hread : Url.read (site.base ++ path .function) =
      .ok ⟨"https", "", "www.4byte.directory", none, path .function, none, none⟩ := rfl
  have hauthority : Url.authority ⟨"https", "", "www.4byte.directory", none, path .function, none,
      none⟩ = "www.4byte.directory" := by
    have hcolon : "www.4byte.directory".contains ':' = false := by
      rw [String.contains_char_eq]
      decide
    simp [Url.authority, Host.text, hcolon]
  unfold JsonService.address
  rw [hread]
  change (do
    let url ← (Url.withQuery ⟨"https", "", "www.4byte.directory", none, path .function, none, none⟩
      (JsonService.query [("hex_signature", .text "0x26121ff0")])).mapError Fault.invalidUrl
    url.checkHost.mapError Fault.invalidHost
    return url) = _
  unfold Url.withQuery Url.written
  rw [hauthority]
  rfl

def mixedDocument : List (String × Value) :=
  [("results", .list [.object [("text_signature", .text "g()"), ("id", .int 9)],
    .object [("text_signature", .text "f()"), ("id", .bool true)]])]

def brokenDocument : List (String × Value) :=
  [("results", .list [.object [("text_signature", .text (Text.ofPoints
      [.char 'g', .char '(', .half 0xd800, .char ')'])), ("id", .int 9)],
    .object [("text_signature", .text "f()"), ("id", .int 1)]])]

def asciiBody (s : String) : Bytes :=
  s.toList.map fun c => UInt8.ofNat c.toNat

theorem exists_document [JsonReader.Stack] {t : String}
    (h : (Value.ofJsonBytes (asciiBody t)).toOption.map id = some (.object fields)) :
    ∃ body, Value.ofJsonBytes body = .ok (.object fields) := by
  obtain ⟨document, hbody, rfl⟩ := Except.exists_ok_of_toOption h
  exact ⟨_, hbody⟩

open JsonReader.Stack in
theorem exists_mixedDocument : ∃ body, Value.ofJsonBytes body = .ok (.object mixedDocument) :=
  exists_document (t := "\x7b\"results\":[\x7b\"text_signature\":\"g()\",\"id\":9\x7d," ++
    "\x7b\"text_signature\":\"f()\",\"id\":true\x7d]\x7d") (by decide +kernel)

open JsonReader.Stack in
theorem exists_brokenDocument : ∃ body, Value.ofJsonBytes body = .ok (.object brokenDocument) :=
  exists_document (t := "\x7b\"results\":[\x7b\"text_signature\":\"g(\\ud800)\",\"id\":9\x7d," ++
    "\x7b\"text_signature\":\"f()\",\"id\":1\x7d]\x7d") (by decide +kernel)

theorem getJson_site [JsonReader.Stack] {body : Bytes}
    (hbody : Value.ofJsonBytes body = .ok (.object fields)) :
    (site.getJson (fun _ => .ok ⟨200, body⟩) (path .function)
      (some [("hex_signature", .text "0x26121ff0")]) false).result = .ok (.object fields) :=
  getJson_of_response rfl address_site rfl rfl rfl hbody

theorem match?_of_hashed {t : String} {sig : Signature}
    (htext : Value.lookup "text_signature" fields = some (.text t))
    (hparse : Signature.parse t = .ok sig) (hhashed : kind.hashed sig = .ok k) :
    match? kind k (.object fields) = some (.ok sig, number fields) := by
  unfold match?
  dsimp only
  rw [htext]
  dsimp only
  rw [hparse]
  dsimp only
  rw [hhashed]
  exact if_pos rfl

theorem match?_of_unhashable {t : String} {sig : Signature} {f : Fault}
    (htext : Value.lookup "text_signature" fields = some (.text t))
    (hparse : Signature.parse t = .ok sig) (hhashed : kind.hashed sig = .error f) :
    match? kind k (.object fields) = some (.error f, number fields) := by
  unfold match?
  dsimp only
  rw [htext]
  dsimp only
  rw [hparse]
  dsimp only
  rw [hhashed]

theorem match?_f (given : Value) :
    match? .function "0x26121ff0" (.object [("text_signature", .text "f()"), ("id", given)]) =
      some (.ok ⟨"f", [], none⟩, number [("text_signature", .text "f()"), ("id", given)]) := by
  obtain ⟨sig, hparse, rfl⟩ : ∃ sig, Signature.parse "f()" = .ok sig ∧ sig = ⟨"f", [], none⟩ :=
    Except.exists_ok_of_toOption (f := id) (by decide +kernel)
  obtain ⟨computed, hhashed, rfl⟩ : ∃ computed,
      LookupKind.function.hashed ⟨"f", [], none⟩ = .ok computed ∧ computed = "0x26121ff0" :=
    Except.exists_ok_of_toOption (f := id) (by decide +kernel)
  exact match?_of_hashed rfl hparse hhashed

open JsonReader.Stack in
/-- The newest signature that is listed hashes to another key, so the older one counts. -/
theorem newest_match_older : ∃ web,
    (site.getJson web (path .function)
      (some [("hex_signature", .text "0x26121ff0")]) false).result = .ok (.object mixedDocument) ∧
    (resolveKey [directorySource name (lookup site web)] .function (.text "26121FF0")
      .empty).1.result = .ok (some ⟨"f", [], none⟩) := by
  have hkey : LookupKind.function.normalize (.text "26121FF0") = .ok "0x26121ff0" := rfl
  obtain ⟨body, hbody⟩ := exists_mixedDocument
  have hanswer := getJson_site hbody
  have hother : match? .function "0x26121ff0"
      (.object [("text_signature", .text "g()"), ("id", .int 9)]) = none :=
    Option.isNone_iff_eq_none.1 (by decide +kernel)
  obtain ⟨answer, hresolved, hsome, -⟩ := newest_match hkey hanswer rfl
  rw [List.filterMap_cons_none hother, List.filterMap_cons_some (match?_f _),
    List.filterMap_nil] at hsome
  rw [(hsome _).2 ⟨[], 1, [], rfl, by simp, by simp⟩] at hresolved
  exact ⟨_, hanswer, hresolved⟩

open JsonReader.Stack in
/-- The newest signature cannot be hashed, so there is no answer, although an older one matches. -/
theorem unhashable_hides_match : ∃ web,
    (site.getJson web (path .function)
      (some [("hex_signature", .text "0x26121ff0")]) false).result = .ok (.object brokenDocument) ∧
    match? .function "0x26121ff0" (.object [("text_signature", .text "f()"), ("id", .int 1)]) =
      some (.ok ⟨"f", [], none⟩, 1) ∧
    (resolveKey [directorySource name (lookup site web)] .function (.text "26121FF0")
      .empty).1.result = .error (.malformed (.loneHalves ⟨0xd800, 2, 3⟩)) := by
  have hkey : LookupKind.function.normalize (.text "26121FF0") = .ok "0x26121ff0" := rfl
  obtain ⟨body, hbody⟩ := exists_brokenDocument
  have hanswer := getJson_site hbody
  refine ⟨_, hanswer, match?_f (.int 1), ?_⟩
  obtain ⟨broken, hparse, hhalf⟩ := Except.exists_ok_of_toOption
    (show (Signature.parse
      (Text.ofPoints [.char 'g', .char '(', .half 0xd800, .char ')'])).toOption.map
        (fun sig => Text.loneHalves? sig.text) = some (some ⟨0xd800, 2, 3⟩) by decide +kernel)
  have hhashed : LookupKind.function.hashed broken =
      .error (.malformed (.loneHalves ⟨0xd800, 2, 3⟩)) := by
    change (Text.hashable broken.text).map Selector.ofSignature = _
    unfold Text.hashable
    rw [hhalf]
    rfl
  obtain ⟨answer, hresolved, -, hfailed, -⟩ := resolveKey_newest hkey hanswer rfl
  rw [List.filterMap_cons_some (match?_of_unhashable rfl hparse hhashed),
    List.filterMap_cons_some (match?_f _), List.filterMap_nil] at hfailed
  rw [hresolved]
  exact (hfailed _).2 ⟨[], 9, [(_, 1)], rfl, by simp, by simp⟩

end ContractAbi.NumberedDirectory
