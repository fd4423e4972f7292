import ContractAbi.Loader
import ContractAbi.Proofs.Source.Http
import ContractAbi.Proofs.Value.Path

/-!
# What comes of asking registries

Whatever the web has for a question, a registry gives an interface or none, or is unavailable. There
is one exception, which is a document that is nested too deeply.

* `AbiLoader.Takes`: what is taken of a document that offers a list;
* `AbiLoader.Repository.closed_fetch` and `AbiLoader.Explorer.closed_fetch`: the two registries.
-/

namespace ContractAbi

open Value

variable {s : JsonService} {web : Web} {key address chain : Value} {k a : String}

namespace AbiLoader

def Described (item : Value) : Prop :=
  ∃ fields, item = .object fields ∧
    (lookup "type" fields = none ∨ ∃ t, lookup "type" fields = some (.text t))

theorem isItem_iff {item : Value} : isItem item = true ↔ Described item := by
  unfold isItem Described
  cases item with
  | object fields =>
      cases htype : lookup "type" fields with
      | none => simp [fieldOr, htype, Except.toOption, isText]
      | some v => cases v <;> simp [fieldOr, htype, Except.toOption, isText]
  | _ => simp

def Published (abi : Value) : Prop :=
  abi = .null ∨ ∃ items, abi = .list items ∧ items ≠ [] ∧ ∀ item ∈ items, Described item

/-- What is taken of the lists that are offered: the one that has items, if it is an interface. -/
def Takes (offers : List Value → Prop) (abi : Value) : Prop :=
  Published abi ∧ ∀ items, items ≠ [] → (abi = .list items ↔ offers items)

theorem takes_none {offers : List Value → Prop} (h : ∀ items, items ≠ [] → ¬offers items) :
    Takes offers .null :=
  ⟨.inl rfl, fun items hitems => iff_of_false nofun (h items hitems)⟩

theorem Takes.congr {offers offers' : List Value → Prop} {abi : Value} (h : Takes offers abi)
    (hoffers : ∀ items, items ≠ [] → (offers' items ↔ offers items)) : Takes offers' abi :=
  ⟨h.1, fun items hitems => (h.2 items hitems).trans (hoffers items hitems).symm⟩

theorem closed_checked (source : String) (abi : Value) :
    Closed source (Takes fun items => abi = .list items) (fun _ => False) (checked source abi) := by
  unfold checked
  split
  · exact .of_ok (takes_none nofun)
  · rename_i items
    cases hfind : items.find? fun v => !isItem v with
    | some v => exact .of_unavailable _
    | none =>
        have hitems : ∀ item ∈ items, Described item := by
          intro item hitem
          rw [← isItem_iff]
          simpa using List.find?_eq_none.1 hfind item hitem
        cases items with
        | nil => exact .of_ok (takes_none fun items hne h => hne (Value.list.inj h).symm)
        | cons item rest =>
            exact .of_ok ⟨.inr ⟨_, rfl, by simp, hitems⟩, fun _ _ => Iff.rfl⟩
  · exact .of_unavailable _

section Offer

variable {path : String} {params : Option (List (String × Value))} {abi document : Value}
  {offers : Value → List Value → Prop}

/-- What is taken of the document that is given is taken of all that are. -/
theorem takes_of_gives [JsonReader.Stack] (h : s.Gives web path params document)
    (htakes : Takes (offers document) abi) :
    Takes (fun items => ∃ document, s.Gives web path params document ∧ offers document items)
      abi := by
  refine htakes.congr fun items _ => ⟨?_, fun hoffers => ⟨document, h, hoffers⟩⟩
  rintro ⟨document', h', hoffers⟩
  rwa [h.unique h'] at hoffers

theorem takes_of_lacks [JsonReader.Stack] (h : s.Lacks web path params)
    (habi : Takes (offers .null) abi)
    (hnone : ∀ items, items ≠ [] → ¬offers .null items) :
    Takes (fun items => ∃ document, s.Gives web path params document ∧ offers document items)
      abi := by
  refine habi.congr fun items hitems => iff_of_false ?_ (hnone items hitems)
  rintro ⟨document, ⟨r, hr, hstatus, -⟩, -⟩
  obtain ⟨r', hr', hstatus'⟩ := h
  rw [hr.unique hr'] at hstatus'
  exact absurd (hstatus.symm.trans hstatus') (by decide)

end Offer

namespace Repository

def path (chain : Value) (address : String) : String :=
  "/v2/contract/" ++ chain.plain ++ "/" ++ address

def question : Option (List (String × Value)) :=
  some [("fields", .text "abi")]

def Offers (document : Value) (items : List Value) : Prop :=
  document.part "abi" = .list items

theorem closed_interface (s : JsonService) (document : Value) :
    Closed s.name (Takes (Offers document)) (fun _ => False) (interface s document) := by
  unfold interface
  split
  · exact closed_checked _ _
  · rename_i hobject
    refine .of_ok (takes_none fun items _ hoffers => ?_)
    unfold Offers part at hoffers
    split at hoffers
    · exact hobject _ rfl
    · cases hoffers

def Answers [JsonReader.Stack] (s : JsonService) (web : Web) (address : String) (chain : Value) :
    Value → Prop :=
  Takes fun items => ∃ document,
    s.Gives web (path chain address) question document ∧ Offers document items

theorem closed_fetch [JsonReader.Stack] [AddressLibrary]
    (hweb : web.Ordinary) (haddress : Address.checksum address = .ok a) :
    Closed s.name (Answers s web a chain) (s.Escapes web (path chain a) question)
      (fetch s web address chain).result := by
  unfold fetch
  rw [Traced.result_bind, Traced.result_ofExcept, haddress, Except.ok_bind]
  refine closed_reading hweb fun document hdocument => ?_
  refine (closed_interface s document).congr (fun abi _ h => ?_) fun _ => Iff.rfl
  rcases hdocument with hgives | ⟨-, hlacks, rfl⟩
  · exact takes_of_gives hgives h
  · exact takes_of_lacks hlacks h nofun

end Repository

namespace Explorer

def path : String := "/v2/api"

def question (key address : String) (chain : Value) : Option (List (String × Value)) :=
  some [("chainid", chain), ("module", .text "contract"), ("action", .text "getabi"),
    ("address", .text address), ("apikey", .text key)]

def Succeeds (document : Value) : Prop :=
  (document.part "status").plain = "1"

/-- The list that a document offers as an interface, as it is or as the text of one. -/
def Offers [JsonReader.Stack] (document : Value) (items : List Value) : Prop :=
  Succeeds document ∧ (document.part "result" = .list items ∨
    ∃ body, document.part "result" = .text body ∧ Value.ofJson body = .ok (.list items))

inductive OffersDeep [JsonReader.Stack] (document : Value) : Fault → Prop
  | mk {body inside : String} (h : Succeeds document)
      (hresult : document.part "result" = .text body)
      (hbody : Value.ofJson body = .error (.tooDeep inside)) : OffersDeep document (.tooDeep inside)

def unfolded [JsonReader.Stack] (s : JsonService) : Value → Except Fault Value
  | .text body =>
    match Value.ofJson body with
    | .ok v => .ok v
    | .error f =>
      .error (if f.isMalformed then s.unavailable ("malformed ABI: " ++ f.message) else f)
  | v => .ok v

def listed (s : JsonService) : Value → Except Fault Value
  | .list items => checked s.name (.list items)
  | _ => .ok .null

theorem interface_eq [JsonReader.Stack] (s : JsonService) (document : Value) :
    interface s document =
      if (document.part "status").plain = "1" then unfolded s (document.part "result") >>= listed s
      else .ok .null := by
  cases document with
  | object fields =>
      unfold interface
      dsimp only
      rw [part_object, part_object]
      split
      · rfl
      · rename_i hsucceeds
        rw [if_pos (by simpa using hsucceeds)]
        unfold unfolded
        cases (lookup "result" fields).getD .null with
        | text body =>
            dsimp only
            cases Value.ofJson body with
            | ok v => cases v <;> rfl
            | error f => rfl
        | _ => rfl
  | _ => rfl

/-- A text fails to be unfolded by being malformed, or by being nested too deeply. -/
theorem closed_unfolded [JsonReader.Stack] (s : JsonService) (v : Value) :
    Closed s.name (fun _ => True)
      (fun f => ∃ body inside, v = .text body ∧ Value.ofJson body = .error (.tooDeep inside) ∧
        f = .tooDeep inside)
      (unfolded s v) := by
  cases v with
  | text body =>
      cases hbody : Value.ofJson body with
      | ok w =>
          refine (Closed.of_self _).congr (fun _ _ _ => trivial) fun f => ?_
          rw [unfolded, hbody]
          constructor
          · rintro ⟨body', inside, hsame, hdeep, -⟩
            rw [← Value.text.inj hsame, hbody] at hdeep
            cases hdeep
          · intro h
            cases h
      | error f =>
          have hfault := (Value.meets_ofJson body).of_error hbody
          rw [unfolded, hbody]
          dsimp only
          cases hfault with
          | malformed hmalformed =>
              rw [if_pos hmalformed]
              refine (Closed.of_unavailable _).congr (fun _ _ => False.elim) fun f' => ?_
              refine iff_of_false ?_ id
              rintro ⟨body', inside, hsame, hdeep, -⟩
              rw [← Value.text.inj hsame, hbody] at hdeep
              cases hdeep
              cases hmalformed
          | tooDeep inside =>
              refine (Closed.of_self _).congr (fun _ _ _ => trivial) fun f' => ?_
              constructor
              · rintro ⟨body', inside', hsame, hdeep, rfl⟩
                rw [← Value.text.inj hsame, hbody] at hdeep
                exact hdeep
              · intro hf
                exact ⟨body, inside, rfl, hbody, (Except.error.inj hf).symm⟩
  | _ =>
      refine (Closed.of_self _).congr (fun _ _ _ => trivial) fun f => ?_
      simp [unfolded]

theorem offers_iff [JsonReader.Stack] {document w : Value} {items : List Value}
    (hsucceeds : Succeeds document)
    (h : unfolded s (document.part "result") = .ok w) :
    Offers document items ↔ w = .list items := by
  unfold Offers
  rw [and_iff_right hsucceeds]
  cases hresult : document.part "result" with
  | text body =>
      rw [hresult, unfolded] at h
      cases hbody : Value.ofJson body with
      | ok v =>
          rw [hbody] at h
          rw [← Except.ok.inj h]
          simp [hbody]
      | error f =>
          rw [hbody] at h
          cases h
  | _ =>
      rw [hresult] at h
      rw [← Except.ok.inj h]
      simp

theorem closed_listed (s : JsonService) (v : Value) :
    Closed s.name (Takes fun items => v = .list items) (fun _ => False) (listed s v) := by
  cases v with
  | list items => exact closed_checked _ _
  | _ => exact .of_ok (takes_none nofun)

theorem closed_interface [JsonReader.Stack] (s : JsonService) (document : Value) :
    Closed s.name (Takes (Offers document)) (OffersDeep document) (interface s document) := by
  rw [interface_eq]
  split
  · rename_i hsucceeds
    have hlisted : ∀ w, unfolded s (document.part "result") = .ok w →
        Closed s.name (Takes (Offers document)) (fun _ => False) (listed s w) := by
      intro w hw
      refine (closed_listed s w).congr (fun abi _ h => ?_) fun _ => Iff.rfl
      exact h.congr fun items _ => offers_iff hsucceeds hw
    refine ((closed_unfolded s _).bind fun w hw _ => hlisted w hw).congr (fun _ _ => id) fun f => ?_
    constructor
    · rintro ⟨-, hresult, hbody⟩
      exact .inl ⟨_, _, hresult, hbody, rfl⟩
    · rintro (⟨body, inside, hresult, hbody, rfl⟩ | ⟨-, -, h⟩)
      · exact .mk hsucceeds hresult hbody
      · exact h.elim
  · rename_i hfails
    refine (Closed.of_ok (takes_none fun items _ h => hfails h.1)).congr (fun _ _ => id) fun f => ?_
    exact iff_of_false (fun ⟨h, _, _⟩ => hfails h) id

def Answers [JsonReader.Stack] (s : JsonService) (web : Web) (key address : String)
    (chain : Value) : Value → Prop :=
  Takes fun items => key ≠ "" ∧ ∃ document,
    s.Gives web path (question key address chain) document ∧ Offers document items

def Escapes [JsonReader.Stack] (s : JsonService) (web : Web) (key address : String) (chain : Value)
    (f : Fault) :
    Prop :=
  key ≠ "" ∧ (s.Escapes web path (question key address chain) f ∨
    ∃ document, s.Gives web path (question key address chain) document ∧ OffersDeep document f)

theorem closed_fetch [JsonReader.Stack] [AddressLibrary] (hweb : web.Ordinary) (key : String)
    (haddress : Address.checksum address = .ok a) :
    Closed s.name (Answers s web key a chain) (Escapes s web key a chain)
      (fetch s web key address chain).result := by
  unfold fetch
  split
  · rename_i hkey
    refine (Closed.of_ok (takes_none fun items _ h => h.1 hkey)).congr (fun _ _ => id) fun f => ?_
    exact iff_of_false (fun h => h.1 hkey) id
  · rename_i hkey
    rw [Traced.result_bind, Traced.result_ofExcept, haddress, Except.ok_bind]
    have hread : ∀ document, s.Gives web path (question key a chain) document ∨
        false = true ∧ s.Lacks web path (question key a chain) ∧ document = .null →
        Closed s.name (Answers s web key a chain) (OffersDeep document) (interface s document) := by
      rintro document (hgives | ⟨hallowed, -⟩)
      · refine (closed_interface s document).congr (fun abi _ h => ?_) fun _ => Iff.rfl
        exact (takes_of_gives hgives h).congr fun items _ => and_iff_right hkey
      · cases hallowed
    refine (closed_question hweb hread).congr (fun _ _ => id) fun f => ?_
    rw [Escapes, and_iff_right hkey]
    exact or_congr_right (exists_congr fun document => and_congr_left fun _ =>
      (JsonService.getJson_eq_ok_iff hweb).symm)

end Explorer

end AbiLoader

end ContractAbi
