import ContractAbi.Url.Host

/-!
# Web addresses

Addresses on the web in their parts. Reading gives every address one spelling: scheme and host in
lower case, no port that the scheme implies, no dots that only name a place in the path, and what
may not stand in a part written in percent encoding.
-/

namespace ContractAbi

/-- A web address in its one spelling. An absent query or fragment leaves no mark; an empty one
leaves its mark alone. -/
structure Url where
  scheme : String
  user : String
  /-- Without brackets. -/
  host : String
  port : Option Int
  path : String
  query : Option String
  fragment : Option String
  deriving Repr, DecidableEq

namespace Url

open Text

/-! ## Parts as they are written -/

structure Written where
  scheme : String
  authority : String
  path : String
  query : Option String
  fragment : Option String
  deriving Repr, DecidableEq

namespace Written

def isSchemeChar (c : Char) : Bool :=
  c.isAlphanum || c == '+' || c == '.' || c == '-'

def schemeName : List Char → List Char
  | c :: rest => if c.isAlpha then c :: rest.takeWhile isSchemeChar else []
  | [] => []

/-- The scheme in front of a colon, which may be empty, and the rest. -/
def cutScheme (cs : List Char) : List Char × List Char :=
  let name := schemeName cs
  match cs.drop name.length with
  | ':' :: rest => (name, rest)
  | _ =>
    match cs with
    | ':' :: rest => ([], rest)
    | _ => ([], cs)

def endsAuthority (c : Char) : Bool :=
  c == '/' || c == '?' || c == '#'

def cutAuthority : List Char → List Char × List Char
  | '/' :: '/' :: rest => (rest.takeWhile (!endsAuthority ·), rest.dropWhile (!endsAuthority ·))
  | cs => ([], cs)

/-- What stands behind a mark, up to the characters that satisfy `ends`, and the rest. -/
def cutMarked (mark : Char) (ends : Char → Bool) : List Char → Option (List Char) × List Char
  | c :: rest =>
    if c = mark then (some (rest.takeWhile (!ends ·)), rest.dropWhile (!ends ·))
    else (none, c :: rest)
  | [] => (none, [])

/-- The parts of a text. Every text has them; they may be empty. -/
def ofText (s : String) : Written :=
  let (scheme, rest) := cutScheme s.toList
  let (authority, rest) := cutAuthority rest
  let path := rest.takeWhile fun c => c != '?' && c != '#'
  let rest := rest.dropWhile fun c => c != '?' && c != '#'
  let (query, rest) := cutMarked '?' (· == '#') rest
  let (fragment, _) := cutMarked '#' (fun _ => false) rest
  ⟨String.ofList scheme, String.ofList authority, String.ofList path,
    query.map String.ofList, fragment.map String.ofList⟩

end Written

/-! ## User, host and port -/

/-- The parts of an authority: the user in front of the last at sign, the host, which ends with the
last bracket or before the first colon, and the text of the port. -/
def cutAuthority (s : String) : String × String × String :=
  let (user, rest) := cutAtLast? (· == '@') s.toList
  let host :=
    match rest with
    | '[' :: _ =>
      match cutAtLast? (· == ']') rest with
      | (some inside, _) => inside ++ [']']
      | (none, _) => rest.takeWhile (· ≠ ':')
    | _ => rest.takeWhile (· ≠ ':')
  let port :=
    match rest.drop host.length with
    | ':' :: port => port
    | port => port
  (String.ofList (user.getD []), String.ofList host, String.ofList port)

def impliedPort? (scheme : String) : Option Int :=
  [("ftp", 21), ("http", 80), ("https", 443), ("ws", 80), ("wss", 443)].lookup scheme

/-- The port that a text spells, unless the scheme implies it. -/
def readPort (scheme port : String) : Except UrlFault (Option Int) :=
  if port = "" then .ok none
  else
    match Integer.read? 10 port with
    | none => .error (.port port)
    | some n => .ok (if impliedPort? scheme = some n then none else some n)

/-! ## Paths -/

/-- Whether a piece of a path only names a place: the one it is at, or the one above. -/
def isPlace (piece : List Char) : Bool :=
  piece == ['.'] || piece == ['.', '.']

/-- The pieces of a path with those carried out that name a place; `done` has the last piece first.
Above the root is the root. -/
def walk (done : List (List Char)) : List (List Char) → List (List Char)
  | [] => done.reverse
  | piece :: rest =>
    if piece == ['.'] then walk done rest
    else if piece == ['.', '.'] then walk (if done == [[]] then done else done.drop 1) rest
    else walk (piece :: done) rest

/-- A path without pieces that only name a place. -/
def directPath (path : String) : String :=
  let parts := pieces (· == '/') path.toList
  if parts.any isPlace then String.ofList (['/'].intercalate (walk [] parts)) else path

/-! ## Encoding -/

def keptInFragment (c : Char) : Bool :=
  Percent.isVisible c && ['"', '<', '>', '\x60'].all (c ≠ ·)

def keptInQuery (c : Char) : Bool :=
  Percent.isVisible c && ['"', '#', '<', '>'].all (c ≠ ·)

def keptInPath (c : Char) : Bool :=
  keptInQuery c && ['?', '\x60', '\x7b', '\x7d'].all (c ≠ ·)

def keptInUser (c : Char) : Bool :=
  keptInPath c && ['/', ';', '=', '@', '[', '\\', ']', '^', '|'].all (c ≠ ·)

/-! ## Reading -/

/-- The most characters of an address or of a part of one. -/
def maxLength : Nat := 65536

/-- Paths that cannot stand without a scheme and a host. -/
def checkRelative (path : String) : Except UrlFault Unit :=
  if path.startsWith "//" then .error .doubleSlash
  else if path.startsWith ":" then .error .colon
  else .ok ()

def ofWritten (w : Written) : Except UrlFault Url := do
  let (user, host, port) := cutAuthority w.authority
  let host ← Host.read host
  let port ← readPort w.scheme port
  let scheme := String.ofList (w.scheme.toList.map Char.toLower)
  let user := Percent.encode keptInUser user
  let path ←
    if scheme = "" ∧ user = "" ∧ host = "" ∧ port = none then do
      checkRelative w.path
      pure w.path
    else pure (directPath w.path)
  return ⟨scheme, user, host, port, Percent.encode keptInPath path,
    w.query.map (Percent.encode keptInQuery), w.fragment.map (Percent.encode keptInFragment)⟩

def isControl (c : Char) : Bool :=
  c.toNat < 32 || c.toNat = 127

def read (s : String) : Except UrlFault Url :=
  if maxLength < s.length then .error .tooLong
  else
    match s.toList.findIdx? isControl with
    | some i => .error (.control (s.toList.getD i ' ') i)
    | none => ofWritten (Written.ofText s)

/-! ## Writing -/

def authority (u : Url) : String :=
  (if u.user = "" then "" else u.user ++ "@") ++ Host.text u.host ++
    (match u.port with
      | some n => ":" ++ Integer.render n
      | none => "")

def text (u : Url) : String :=
  (if u.scheme = "" then "" else u.scheme ++ ":") ++
    (if u.authority = "" then "" else "//" ++ u.authority) ++ u.path ++
    ((u.query.map ("?" ++ ·)).getD "") ++ ((u.fragment.map ("#" ++ ·)).getD "")

def written (u : Url) : Written :=
  ⟨u.scheme, u.authority, u.path, u.query, u.fragment⟩

/-! ## Changes -/

/-- The address of parts that are put together, none of which may be too long. -/
def compose (w : Written) : Except UrlFault Url :=
  let parts := [("scheme", w.scheme), ("authority", w.authority), ("path", w.path),
    ("query", w.query.getD ""), ("fragment", w.fragment.getD "")]
  match parts.find? fun part => maxLength < part.2.length with
  | some (name, _) => .error (.partTooLong name)
  | none => ofWritten w

def withQuery (u : Url) (query : Option String) : Except UrlFault Url :=
  compose { u.written with query := query }

def isAbsolute (u : Url) : Bool :=
  u.scheme ≠ "" && u.host ≠ ""

/-- The path and query of an address from the root of a server that nobody names. -/
def rooted (u : Url) : Except UrlFault Url :=
  let path := String.ofList ('/' :: u.path.toList.dropWhile (· == '/'))
  compose ⟨"", "", path, u.query, none⟩

/-- The address that a client goes to. What does not say where to go stays without a server. -/
def resolved (u : Url) : Except UrlFault Url :=
  if u.isAbsolute then .ok u else u.rooted

/-- Checks that a host in ASCII form can be shown as the name that it stands for. -/
def checkHost (u : Url) : Except LabelFault Unit :=
  let name := u.host.toList
  if Label.mark.isPrefixOf name then Label.checkName name else .ok ()

end Url

end ContractAbi
