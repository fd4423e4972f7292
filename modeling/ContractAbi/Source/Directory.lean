import ContractAbi.Source.Basic
import ContractAbi.Source.Http
import ContractAbi.Value.Path

/-!
# Signature directories on the web

Two public databases of signatures: one that numbers its entries, of which the newest come first,
and one that lists the matches of a key.
-/

namespace ContractAbi

def JsonService.malformed (s : JsonService) (detail : String) : Fault :=
  s.unavailable ("malformed response: " ++ detail)

namespace NumberedDirectory

def name : String := "4byte"

def defaultBase : String := "https://www.4byte.directory"

def path : LookupKind → String
  | .function => "/api/v1/signatures/"
  | .event => "/api/v1/event-signatures/"

/-- The signature of an entry and its number; entries without a number count as zero. -/
def entry? (v : Value) : Option (String × Int) :=
  match v with
  | .object fields =>
    match Value.lookup "text_signature" fields with
    | some (.text s) => some (s, (((Value.lookup "id" fields).bind Value.int?).getD 0))
    | _ => none
  | _ => none

/-- The signatures of the entries, the greatest number first. -/
def ranked (results : List Value) : List String :=
  let entries := (results.filterMap entry?).mergeSort fun a b => b.2 ≤ a.2
  (entries.map Prod.fst).filter (· ≠ "")

def signatures (s : JsonService) (document : Value) : Except Fault (List String) :=
  match document with
  | .object fields =>
    match Value.lookup "results" fields with
    | some (.list results) => .ok (ranked results)
    | _ => .error (s.malformed "no results list")
  | _ => .error (s.malformed "no results list")

def lookup [JsonReader.Stack] (s : JsonService) (web : Web) (kind : LookupKind) (key : Value) :
    Traced (List String) := do
  let key ← .ofExcept (kind.normalize key)
  let document ← s.getJson web (path kind) (some [("hex_signature", .text key)]) false
  .ofExcept (signatures s document)

end NumberedDirectory

namespace ListedDirectory

def name : String := "openchain"

def defaultBase : String := "https://api.openchain.xyz"

def field : LookupKind → String
  | .function => "function"
  | .event => "event"

def matchName? : Value → Option String
  | .object fields => (Value.lookup "name" fields).bind Value.text?
  | _ => none

def signatures (s : JsonService) (kind : LookupKind) (key : String) (document : Value) :
    Except Fault (List String) :=
  if (document.field "ok").toOption.any Value.holds then do
    let value ← document.atPath (.text "result") [.text (field kind), .text key]
    if !value.holds then return []
    else
      match value with
      | .list found => return found.filterMap matchName?
      | v => throw (s.malformed (v.literalCut 200))
  else .error (s.malformed (document.literalCut 200))

def lookup [JsonReader.Stack] (s : JsonService) (web : Web) (kind : LookupKind) (key : Value) :
    Traced (List String) := do
  let key ← .ofExcept (kind.normalize key)
  let document ← s.getJson web "/signature-database/v1/lookup"
    (some [(field kind, .text key), ("filter", .text "true")]) false
  .ofExcept (signatures s kind key document)

end ListedDirectory

def directorySource (name : String)
    (lookup : LookupKind → Value → Traced (List String)) : SignatureSource where
  name := name
  candidates kind key := do
    let texts ← lookup kind (.text key)
    return .list (texts.map .text)

end ContractAbi
