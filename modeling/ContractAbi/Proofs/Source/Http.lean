import ContractAbi.Proofs.Session.Run
import ContractAbi.Proofs.Value.JsonFault
import ContractAbi.Source.Http

/-!
# What comes of a question to a service

A question is answered by a document, or the service is unavailable, or one of a few failures comes
through that are not turned into the service's own.

* `Web.Ordinary`: a web that fails in no other way than by being slow or broken;
* `JsonService.Delivers` and `JsonService.Gives`: the response to a question, and its document;
* `JsonService.Escapes`: the failures that come through;
* `JsonService.closed_getJson`: nothing else comes of a question.
-/

namespace ContractAbi

/-- Whatever goes wrong on the way is that there is no answer in time, or that the way is broken. -/
def Web.Ordinary (web : Web) : Prop :=
  ∀ url f, web url = .error f →
    (∃ text, f = .timeout text) ∨ ∃ label text, f = .transport label text

/-- What comes of asking a source: an answer that is `good`, or that the source is unavailable; and
the failures that `escapes` names are those that come through. -/
structure Closed {α : Type} (source : String) (good : α → Prop) (escapes : Fault → Prop)
    (result : Except Fault α) : Prop where
  answer : ∀ a, result = .ok a → good a
  failure : ∀ f, result = .error f → (∃ reason, f = .unavailable source reason) ∨ escapes f
  escape : ∀ f, escapes f → result = .error f

namespace Closed

variable {α β : Type} {source : String} {good good' : α → Prop} {escapes escapes' : Fault → Prop}

theorem of_ok {a : α} (h : good a) : Closed source good (fun _ => False) (.ok a) :=
  ⟨fun _ hb => Except.ok.inj hb ▸ h, nofun, nofun⟩

theorem of_unavailable (reason : String) :
    Closed source good (fun _ => False) (.error (.unavailable source reason)) :=
  ⟨nofun, fun _ hf => .inl ⟨reason, (Except.error.inj hf).symm⟩, nofun⟩

/-- A failure of any kind may come through where nothing is promised of it. -/
theorem of_self (result : Except Fault α) :
    Closed source (fun a => result = .ok a) (fun f => result = .error f) result :=
  ⟨fun _ => id, fun _ => .inr, fun _ => id⟩

theorem congr {result : Except Fault α} (h : Closed source good escapes result)
    (hgood : ∀ a, result = .ok a → good a → good' a) (hescapes : ∀ f, escapes' f ↔ escapes f) :
    Closed source good' escapes' result where
  answer a ha := hgood a ha (h.answer a ha)
  failure f hf := (h.failure f hf).imp id (hescapes f).2
  escape f hf := h.escape f ((hescapes f).1 hf)

/-- One after the other: what comes through is what comes through of the first, or of the second
after an answer of the first. -/
theorem bind {x : Except Fault α} {f : α → Except Fault β} {good'' : β → Prop}
    {more : α → Fault → Prop} (hx : Closed source good escapes x)
    (hf : ∀ a, x = .ok a → good a → Closed source good'' (more a) (f a)) :
    Closed source good'' (fun e => escapes e ∨ ∃ a, x = .ok a ∧ more a e) (x >>= f) := by
  cases x with
  | error e =>
      refine ⟨nofun, fun e' he => ?_, ?_⟩
      · rw [← Except.error.inj he]
        exact (hx.failure e rfl).imp id .inl
      · rintro e' (h | ⟨a, ha, -⟩)
        · rw [Except.error.inj (hx.escape e' h)]
          rfl
        · cases ha
  | ok a =>
      have ha := hf a rfl (hx.answer a rfl)
      refine ⟨fun b hb => ha.answer b hb, fun e he => ?_, ?_⟩
      · exact (ha.failure e he).imp id fun h => .inr ⟨a, rfl, h⟩
      · rintro e (h | ⟨b, hb, h⟩)
        · cases hx.escape e h
        · cases hb
          exact ha.escape e h

end Closed

namespace JsonService

variable [JsonReader.Stack] (s : JsonService) (web : Web) (path : String)
  (params : Option (List (String × Value)))

def Delivers (r : WebResponse) : Prop :=
  s.isOver = false ∧ ∃ url, s.address path params = .ok url ∧ url.isAbsolute = true ∧
    web url.text = .ok r

def Gives (document : Value) : Prop :=
  ∃ r, s.Delivers web path params r ∧ r.status = 200 ∧ Value.ofJsonBytes r.body = .ok document

def Lacks : Prop :=
  ∃ r, s.Delivers web path params r ∧ r.status = 404

/-- The failures of a question that come through as they are: no address on the web can be formed
for it, or one that does not say where to go; or the response holds a document that is nested too
deeply. -/
inductive Escapes : Fault → Prop
  | unaddressed {f : Fault} (hlimit : s.isOver = false) (h : s.address path params = .error f) :
      Escapes f
  | relative {url : Url} {r : WebResponse} (hlimit : s.isOver = false)
      (h : s.address path params = .ok url) (hrelative : url.isAbsolute = false)
      (hresponse : web url.text = .ok r) : Escapes (.malformed (.noScheme url.text))
  | tooDeep {r : WebResponse} {inside : String} (h : s.Delivers web path params r)
      (hstatus : r.status = 200) (hbody : Value.ofJsonBytes r.body = .error (.tooDeep inside)) :
      Escapes (.tooDeep inside)

variable {s web path params}

omit [JsonReader.Stack] in
theorem Delivers.unique {r r' : WebResponse} (h : s.Delivers web path params r)
    (h' : s.Delivers web path params r') : r' = r := by
  obtain ⟨-, url, haddress, -, hresponse⟩ := h
  obtain ⟨-, url', haddress', -, hresponse'⟩ := h'
  obtain rfl : url = url' := Except.ok.inj (haddress.symm.trans haddress')
  exact Except.ok.inj (hresponse'.symm.trans hresponse)

theorem closed_document (allowed : Bool) (r : WebResponse) :
    Closed s.name
      (fun v => r.status = 200 ∧ Value.ofJsonBytes r.body = .ok v ∨
        allowed = true ∧ r.status = 404 ∧ v = .null)
      (fun f => r.status = 200 ∧ Value.ofJsonBytes r.body = .error f ∧ f.isMalformed = false)
      (s.document allowed r) := by
  unfold document
  split
  · rename_i hmissing
    simp only [Bool.and_eq_true, decide_eq_true_eq] at hmissing
    refine (Closed.of_ok (.inr ⟨hmissing.1, hmissing.2, rfl⟩)).congr (fun _ _ => id) fun f => ?_
    exact iff_of_false (fun h => absurd (hmissing.2.symm.trans h.1) (by decide)) id
  · split
    · rename_i hstatus
      exact (Closed.of_unavailable _).congr (fun _ _ => id) fun f =>
        iff_of_false (fun h => hstatus h.1) id
    · rename_i hstatus
      have hgood : r.status = 200 := by simpa using hstatus
      cases hbody : Value.ofJsonBytes r.body with
      | ok v =>
          exact (Closed.of_ok (.inl ⟨hgood, rfl⟩)).congr (fun _ _ => id) fun f =>
            iff_of_false (fun h => nomatch h.2.1) id
      | error f =>
          dsimp only
          cases hf : f.isMalformed with
          | true =>
              exact (Closed.of_unavailable _).congr (fun _ _ => id) fun f' =>
                iff_of_false (fun h => by
                  rw [← Except.error.inj h.2.1, hf] at h
                  exact absurd h.2.2 (by decide)) id
          | false =>
              refine ⟨nofun, fun f' hf' => .inr ?_, fun f' hf' => hf'.2.1⟩
              rw [← Except.error.inj hf']
              exact ⟨hgood, rfl, hf⟩

theorem Gives.unique {v v' : Value} (h : s.Gives web path params v)
    (h' : s.Gives web path params v') : v' = v := by
  obtain ⟨r, hr, -, hbody⟩ := h
  obtain ⟨r', hr', -, hbody'⟩ := h'
  rw [hr.unique hr'] at hbody'
  exact Except.ok.inj (hbody'.symm.trans hbody)

def received (s : JsonService) (web : Web) (allowed : Bool) (url : Url) : Except Fault Value :=
  match web url.text with
  | .ok r =>
    if url.isAbsolute then s.document allowed r else .error (.malformed (.noScheme url.text))
  | .error f => .error (s.failure f)

theorem result_getJson (allowed : Bool) :
    (s.getJson web path params allowed).result =
      if s.isOver then .error (s.failure (.timeout ""))
      else s.address path params >>= s.received web allowed := by
  unfold getJson
  split
  · rfl
  · have hasked : ∀ url, (Traced.ask (.get url s.agent)).result = .ok () := fun _ => rfl
    change ((Traced.ofExcept (s.address path params)) >>= fun url => _).result = _
    rw [Traced.result_bind, Traced.result_ofExcept]
    refine congrArg (s.address path params >>= ·) (funext fun url => ?_)
    rw [Traced.result_bind, hasked, Except.ok_bind, received]
    cases web url.text with
    | error f => rfl
    | ok r =>
        dsimp only
        split <;> rfl

theorem Gives.result_getJson {v : Value} (h : s.Gives web path params v) (allowed : Bool) :
    (s.getJson web path params allowed).result = .ok v := by
  obtain ⟨r, ⟨hlimit, url, haddress, habsolute, hresponse⟩, hstatus, hbody⟩ := h
  rw [JsonService.result_getJson, if_neg (by simp [hlimit]), haddress, Except.ok_bind, received,
    hresponse]
  dsimp only
  rw [if_pos habsolute, document, if_neg (by simp [hstatus]), if_neg (by simp [hstatus]), hbody]

def Passes (web : Web) (url : Url) (f : Fault) : Prop :=
  ∃ r, web url.text = .ok r ∧
    (url.isAbsolute = false ∧ f = .malformed (.noScheme url.text) ∨
      url.isAbsolute = true ∧ r.status = 200 ∧ Value.ofJsonBytes r.body = .error f ∧
        f.isMalformed = false)

theorem closed_received (hweb : web.Ordinary) (allowed : Bool) (url : Url) :
    Closed s.name
      (fun v => ∃ r, web url.text = .ok r ∧ url.isAbsolute = true ∧
        (r.status = 200 ∧ Value.ofJsonBytes r.body = .ok v ∨
          allowed = true ∧ r.status = 404 ∧ v = .null))
      (Passes web url) (s.received web allowed url) := by
  unfold Passes received
  cases hresponse : web url.text with
  | error f =>
      obtain ⟨reason, hreason⟩ : ∃ reason, s.failure f = .unavailable s.name reason := by
        rcases hweb _ f hresponse with ⟨text, rfl⟩ | ⟨label, text, rfl⟩
        · exact ⟨_, rfl⟩
        · exact ⟨_, rfl⟩
      dsimp only
      rw [hreason]
      exact (Closed.of_unavailable reason).congr (fun _ _ => False.elim) fun f =>
        iff_of_false nofun id
  | ok r =>
      dsimp only
      split
      · rename_i habsolute
        refine (closed_document allowed r).congr (fun v _ h => ⟨r, rfl, habsolute, h⟩) fun f => ?_
        constructor
        · rintro ⟨r', hr', ⟨hrelative, -⟩ | ⟨-, h⟩⟩
          · exact absurd (habsolute.symm.trans hrelative) (by decide)
          · rwa [Except.ok.inj hr']
        · exact fun h => ⟨r, rfl, .inr ⟨habsolute, h⟩⟩
      · rename_i hrelative
        have hrelative : url.isAbsolute = false := by simpa using hrelative
        refine (Closed.of_self _).congr (fun _ h _ => nomatch h) fun f => ?_
        constructor
        · rintro ⟨r', -, ⟨-, rfl⟩ | ⟨habsolute, -⟩⟩
          · rfl
          · exact absurd (hrelative.symm.trans habsolute) (by decide)
        · exact fun h => ⟨r, rfl, .inl ⟨hrelative, (Except.error.inj h).symm⟩⟩

theorem escapes_iff {f : Fault} :
    s.Escapes web path params f ↔ s.isOver = false ∧
      (s.address path params = .error f ∨
        ∃ url, s.address path params = .ok url ∧ Passes web url f) := by
  constructor
  · rintro (⟨hlimit, h⟩ | ⟨hlimit, h, hrelative, hresponse⟩ |
      ⟨⟨hlimit, url, h, habsolute, hresponse⟩, hstatus, hbody⟩)
    · exact ⟨hlimit, .inl h⟩
    · exact ⟨hlimit, .inr ⟨_, h, _, hresponse, .inl ⟨hrelative, rfl⟩⟩⟩
    · exact ⟨hlimit, .inr ⟨url, h, _, hresponse, .inr ⟨habsolute, hstatus, hbody, rfl⟩⟩⟩
  · rintro ⟨hlimit, h | ⟨url, h, r, hresponse, ⟨hrelative, rfl⟩ |
      ⟨habsolute, hstatus, hbody, hf⟩⟩⟩
    · exact .unaddressed hlimit h
    · exact .relative hlimit h hrelative hresponse
    · cases (Value.meets_ofJsonBytes r.body).of_error hbody with
      | malformed hmalformed => exact absurd (hf.symm.trans hmalformed) (by decide)
      | tooDeep inside =>
          exact .tooDeep ⟨hlimit, url, h, habsolute, hresponse⟩ hstatus hbody

/-- A question gives a document, or none where it may be missing; or the service is unavailable. -/
theorem closed_getJson (hweb : web.Ordinary) (allowed : Bool) :
    Closed s.name
      (fun v => s.Gives web path params v ∨ allowed = true ∧ s.Lacks web path params ∧ v = .null)
      (s.Escapes web path params) (s.getJson web path params allowed).result := by
  rw [result_getJson]
  split
  · rename_i hlimit
    refine (Closed.of_unavailable _).congr (fun _ _ => False.elim) fun f => iff_of_false ?_ id
    intro h
    exact absurd (hlimit.symm.trans (escapes_iff.1 h).1) (by decide)
  · rename_i hlimit
    have hlimit : s.isOver = false := by simpa using hlimit
    have hreceived : ∀ url, s.address path params = .ok url → Closed s.name
        (fun v => s.Gives web path params v ∨ allowed = true ∧ s.Lacks web path params ∧ v = .null)
        (Passes web url) (s.received web allowed url) := by
      intro url haddress
      refine (closed_received hweb allowed url).congr (fun v _ h => ?_) fun _ => Iff.rfl
      obtain ⟨r, hr, habsolute, h⟩ := h
      have hdelivers : s.Delivers web path params r := ⟨hlimit, url, haddress, habsolute, hr⟩
      rcases h with ⟨hstatus, hbody⟩ | ⟨hallowed, hstatus, hnull⟩
      · exact .inl ⟨r, hdelivers, hstatus, hbody⟩
      · exact .inr ⟨hallowed, ⟨r, hdelivers, hstatus⟩, hnull⟩
    refine ((Closed.of_self _).bind fun url hurl _ => hreceived url hurl).congr (fun _ _ => id)
      fun f => ?_
    rw [escapes_iff]
    exact and_iff_right hlimit

/-- The document that a question comes to, where there has to be one. -/
theorem getJson_eq_ok_iff (hweb : web.Ordinary) {v : Value} :
    (s.getJson web path params false).result = .ok v ↔ s.Gives web path params v := by
  constructor
  · intro h
    rcases (closed_getJson hweb false).answer v h with hgives | ⟨hallowed, -⟩
    · exact hgives
    · cases hallowed
  · exact fun h => h.result_getJson false

end JsonService

/-! ## Documents that are read -/

section Question

variable [JsonReader.Stack] {s : JsonService} {web : Web} {path : String}
  {params : Option (List (String × Value))} {allowed : Bool} {α : Type} {good : α → Prop}
  {read : Value → Except Fault α}

theorem closed_question {more : Value → Fault → Prop} (hweb : web.Ordinary)
    (hread : ∀ document, s.Gives web path params document ∨
      allowed = true ∧ s.Lacks web path params ∧ document = .null →
      Closed s.name good (more document) (read document)) :
    Closed s.name good
      (fun f => s.Escapes web path params f ∨
        ∃ document, (s.getJson web path params allowed).result = .ok document ∧ more document f)
      ((s.getJson web path params allowed) >>= fun document =>
        .ofExcept (read document) : Traced α).result := by
  rw [Traced.result_bind]
  exact (JsonService.closed_getJson hweb allowed).bind fun document _ => hread document

/-- Nothing more comes through where nothing comes through of reading. -/
theorem closed_reading (hweb : web.Ordinary)
    (hread : ∀ document, s.Gives web path params document ∨
      allowed = true ∧ s.Lacks web path params ∧ document = .null →
      Closed s.name good (fun _ => False) (read document)) :
    Closed s.name good (s.Escapes web path params)
      ((s.getJson web path params allowed) >>= fun document =>
        .ofExcept (read document) : Traced α).result :=
  (closed_question hweb hread).congr (fun _ _ => id) fun f => by simp

end Question

end ContractAbi
