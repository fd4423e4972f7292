import ContractAbi.Session
import ContractAbi.Url
import ContractAbi.Value.Access
import ContractAbi.Value.Reader

/-!
# JSON services

Asking a service on the web for a JSON document. Every way in which it may fail to give one is the
same failure: the service is unavailable, for a reason.
-/

namespace ContractAbi

structure WebResponse where
  status : Int
  body : Bytes

/-- The web: the answer to a request for an address, or why there is none. -/
abbrev Web := String → Except Fault WebResponse

/-- How clients without another name introduce themselves. -/
def defaultAgent : String := "abi-reconstructor/0.1"

/-- A service that answers with JSON documents. -/
structure JsonService where
  name : String
  /-- Without a slash at its end. -/
  base : String
  /-- The time limit in seconds, where there is one. -/
  limit : Value
  /-- How the client introduces itself, where it does. -/
  agent : String

namespace JsonService

/-- The address without slashes at its end; another one in place of an empty one. -/
def baseOf (given absent : String) : String :=
  let base := if given = "" then absent else given
  String.ofList (base.toList.reverse.dropWhile (· == '/')).reverse

def paramText : Value → String
  | .null => ""
  | .bool true => "true"
  | .bool false => "false"
  | v => v.plain

/-- A field of a question. A list gives the field once for each of its items. -/
def fieldTexts (name : String) : Value → List String
  | .list items =>
    items.map fun v => Percent.encodeField name ++ "=" ++ Percent.encodeField (paramText v)
  | v => [Percent.encodeField name ++ "=" ++ Percent.encodeField (paramText v)]

/-- The fields of a question as the query of an address, which is absent where there are none. -/
def query (params : List (String × Value)) : Option String :=
  if params.isEmpty then none
  else some ("&".intercalate (params.flatMap fun (k, v) => fieldTexts k v))

/-- The address of a question. Its fields, where there are any to speak of, take the place of a
query that the path has. -/
def address (s : JsonService) (path : String) (params : Option (List (String × Value))) :
    Except Fault Url := do
  let found : Except UrlFault Url := do
    let url ← (← Url.read (s.base ++ path)).resolved
    match params with
    | none => return url
    | some params => url.withQuery (query params)
  let url ← found.mapError .invalidUrl
  url.checkHost.mapError .invalidHost
  return url

def unavailable (s : JsonService) (reason : String) : Fault :=
  .unavailable s.name reason

/-- The failure of the service for a failure on the way to it. Failures of other kinds pass. -/
def failure (s : JsonService) : Fault → Fault
  | .timeout _ => s.unavailable ("timeout after " ++ s.limit.plain ++ "s")
  | .transport _ text => s.unavailable text
  | f => f

/-- The document in a response; the absent value for a document that may be missing and is. -/
def document [JsonReader.Stack] (s : JsonService) (notFoundAllowed : Bool) (r : WebResponse) :
    Except Fault Value :=
  if notFoundAllowed && r.status = 404 then .ok .null
  else if r.status ≠ 200 then .error (s.unavailable ("HTTP " ++ Integer.render r.status))
  else
    match Value.ofJsonBytes r.body with
    | .ok v => .ok v
    | .error f =>
      .error (if f.isMalformed then s.unavailable ("malformed response: " ++ f.message) else f)

/-- A limit of no time is over before anything is asked. -/
def isOver (s : JsonService) : Bool :=
  !s.limit.isNull && s.limit.toDouble.toOption.any fun seconds => seconds.le .zero

/-- The document at a path. A response counts only if its address says where it comes from. -/
def getJson [JsonReader.Stack] (s : JsonService) (web : Web) (path : String)
    (params : Option (List (String × Value))) (notFoundAllowed : Bool) : Traced Value := do
  if s.isOver then .fail (s.failure (.timeout ""))
  let url ← .ofExcept (s.address path params)
  .ask (.get url.text s.agent)
  match web url.text with
  | .ok r =>
    if url.isAbsolute then .ofExcept (s.document notFoundAllowed r)
    else .fail (.malformed (.noScheme url.text))
  | .error f => .fail (s.failure f)

end JsonService

end ContractAbi
