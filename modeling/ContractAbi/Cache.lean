import ContractAbi.Interface.Result
import ContractAbi.Session
import ContractAbi.Text.LowerCase
import ContractAbi.Text.Utf8
import ContractAbi.Value.Printer
import ContractAbi.Value.Reader

/-!
# Cached results

Results by the address and chain that they are for. Results that authors published stay fresh;
others grow stale. A cache may be kept in a JSON file, which is written anew with every result.
-/

namespace ContractAbi

/-- A result with the time at which it was stored. -/
structure CacheRecord where
  address : Value
  chainId : Int
  result : Reconstruction
  timestamp : Binary64
  verified : Bool

namespace CacheRecord

def isFresh (r : CacheRecord) (now maxAge : Binary64) : Bool :=
  r.verified || (now.sub r.timestamp).le maxAge

def sameKey (a b : CacheRecord) : Bool :=
  a.address.same b.address && a.chainId == b.chainId

def toItem (r : CacheRecord) : Value :=
  .object [("address", r.address), ("chainId", .int r.chainId), ("timestamp", .float r.timestamp),
    ("verified", .bool r.verified), ("result", r.result.toItem)]

def ofItem (v : Value) : Except Fault CacheRecord := do
  let address ← v.require "address"
  let chain ← (← v.require "chainId").toWhole
  let result ← Reconstruction.ofItem (← v.require "result")
  let timestamp ← (← v.require "timestamp").toDouble
  return ⟨address, chain, result, timestamp, (← v.require "verified").holds⟩

end CacheRecord

/-- Results in memory, in the order in which they were first stored. -/
structure ResultCache where
  maxAge : Binary64
  records : List CacheRecord

namespace ResultCache

def origin : String := "cache"

def defaultMaxAge : Binary64 := .ofInt 604800

def empty (maxAge : Binary64) : ResultCache := ⟨maxAge, []⟩

def size (c : ResultCache) : Nat := c.records.length

/-- The lower-case address and the chain that a result goes by. -/
def key (address chain : Value) : Except Fault (String × Int) :=
  match address with
  | .text s => return (Text.lowered s, ← chain.toWhole)
  | v => .error (.noFields v "lower")

/-- Puts a record over the one of its key, or behind the others. -/
def insert (records : List CacheRecord) (r : CacheRecord) : List CacheRecord :=
  if records.any (CacheRecord.sameKey r) then
    records.map fun q => if r.sameKey q then r else q
  else records ++ [r]

def find? (c : ResultCache) (address : String) (chain : Int) : Option CacheRecord :=
  c.records.find? fun r => r.address == .text address && r.chainId == chain

/-- The record for an address and chain, fresh or stale. -/
def record? (c : ResultCache) (address chain : Value) : Except Fault (Option CacheRecord) := do
  let (address, chain) ← key address chain
  return c.find? address chain

def get? (c : ResultCache) (now : Binary64) (address chain : Value) :
    Traced (Option Reconstruction) := do
  match ← .ofExcept (c.record? address chain) with
  | none => return none
  | some r =>
    if r.isFresh now c.maxAge then return some r.result
    else
      .note .debug origin
        ("Cached result for " ++ address.plain ++ " on chain " ++ chain.plain ++ " is stale")
      return none

def put (c : ResultCache) (now : Binary64) (address chain : Value) (result : Reconstruction)
    (verified : Bool) : Except Fault ResultCache := do
  let (address, chain) ← key address chain
  return { c with records := insert c.records ⟨.text address, chain, result, now, verified⟩ }

def clear (c : ResultCache) : ResultCache :=
  { c with records := [] }

/-! ## Files -/

def toItem (c : ResultCache) : Value :=
  .object [("records", .list (c.records.map CacheRecord.toItem))]

def document (c : ResultCache) : String :=
  c.toItem.toJson

def content (c : ResultCache) : Bytes :=
  Utf8.encode c.document

/-- Text with one kind of line ends. -/
def unifyLines : List Char → List Char
  | '\r' :: '\n' :: rest => '\n' :: unifyLines rest
  | '\r' :: rest => '\n' :: unifyLines rest
  | c :: rest => c :: unifyLines rest
  | [] => []

def valueOfFile [JsonReader.Stack] (content : Bytes) : Except Fault Value :=
  match Utf8.decode content with
  | .error bad => .error (.invalidText bad.message)
  | .ok s => Value.ofJson (String.ofList (unifyLines s.toList))

def recordsOfValue (v : Value) : Except Fault (List CacheRecord) := do
  let items ← (← v.fieldOr "records" (.list [])).toItems
  items.mapM CacheRecord.ofItem

/-- A fault of the content, which makes a file unreadable. -/
def spoilsFile : Fault → Bool
  | .malformed _ | .misfit _ | .missingKey _ | .invalidText _ => true
  | _ => false

/-- The records of a file, the last one of each key. An unreadable file holds none. -/
def ofFile [JsonReader.Stack] (path : String) (maxAge : Binary64) (content : Bytes) :
    Traced ResultCache := do
  match (valueOfFile content).bind recordsOfValue with
  | .ok records =>
    .ofExcept (records.forM fun r => r.address.asKey.map fun _ => ())
    return ⟨maxAge, records.foldl insert []⟩
  | .error f =>
    if spoilsFile f then
      .note .warning origin ("Ignoring unreadable cache file " ++ path ++ ": " ++ f.message)
      return empty maxAge
    else .fail f

/-- A cache kept at a path; a file that is missing holds no records. -/
def openFile [JsonReader.Stack] (path : String) (maxAge : Binary64) (content : Option Bytes) :
    Traced ResultCache :=
  match content with
  | none => .answer (empty maxAge)
  | some content => ofFile path maxAge content

end ResultCache

/-- A cache with the file that it is kept in, as it stands on the disk. The file is written anew
with every result and goes when the cache is cleared. -/
structure FileCache where
  cache : ResultCache
  file : Option Bytes

namespace FileCache

def openAt [JsonReader.Stack] (path : String) (maxAge : Binary64) (file : Option Bytes) :
    Traced FileCache := do
  return ⟨← ResultCache.openFile path maxAge file, file⟩

def get? (c : FileCache) (now : Binary64) (address chain : Value) :
    Traced (Option Reconstruction) :=
  c.cache.get? now address chain

def put (c : FileCache) (now : Binary64) (address chain : Value) (result : Reconstruction)
    (verified : Bool) : Except Fault FileCache := do
  let cache ← c.cache.put now address chain result verified
  return ⟨cache, some cache.content⟩

def clear (c : FileCache) : FileCache :=
  ⟨c.cache.clear, none⟩

end FileCache

end ContractAbi
