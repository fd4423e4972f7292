import ContractAbi.Address
import ContractAbi.Calldata.Type
import ContractAbi.Text.Utf8

/-!
# Decoding of return values

Values from return data. Decoding is strict: padding has to be there and to be zeros (ones behind a
negative sign), and pointers have to point behind the front that they stand in and into the data.
-/

namespace ContractAbi.AbiType

def slice (data : Bytes) (start size : Nat) : Except Fault Bytes :=
  let found := (data.drop start).take size
  if found.length = size then .ok found else .error .undecodable

def wordAt (data : Bytes) (start : Nat) : Except Fault Bytes :=
  slice data start 32

def lengthAt (data : Bytes) (start : Nat) : Except Fault Nat :=
  (wordAt data start).map Bytes.toNat

/-- The low bytes of a word in which all others are `fill`. -/
def lowBytes (fill : UInt8) (size : Nat) (w : Bytes) : Except Fault Bytes :=
  if (w.take (32 - size)).all (· == fill) then .ok (w.drop (32 - size)) else .error .undecodable

def decodeUint (bits : Nat) (w : Bytes) : Except Fault Value :=
  (lowBytes 0 (bits / 8) w).map fun bs => .int (Bytes.toNat bs)

def decodeInt (bits : Nat) (w : Bytes) : Except Fault Value :=
  let low := Bytes.toNat (w.drop (32 - bits / 8))
  if low < Nat.pow 2 (bits - 1) then (lowBytes 0 (bits / 8) w).map fun _ => .int low
  else (lowBytes 0xff (bits / 8) w).map fun _ => .int ((low : Int) - (Nat.pow 2 bits : Nat))

def decodeBool (w : Bytes) : Except Fault Value :=
  match Bytes.toNat w with
  | 0 => .ok (.bool false)
  | 1 => .ok (.bool true)
  | _ => .error .undecodable

def decodeAddress (w : Bytes) : Except Fault Value :=
  (lowBytes 0 20 w).map fun bs => .text (Hex.encode0x bs)

def decodeFixedBytes (size : Nat) (w : Bytes) : Except Fault Value :=
  if (w.drop size).all (· == 0) then .ok (.bytes (w.take size)) else .error .undecodable

def lengthLimit : Nat := Nat.pow 2 63

/-- A byte string behind its length, with its padding. -/
def decodeBytes (data : Bytes) (start : Nat) : Except Fault Bytes := do
  let size ← lengthAt data start
  let whole := (size + 31) / 32 * 32
  if lengthLimit ≤ whole then throw .oversized
  let found ← slice data (start + 32) whole
  if (found.drop size).all (· == 0) then return found.take size else throw .undecodable

def decodeString (bs : Bytes) : Except Fault Value :=
  match Utf8.decode bs with
  | .ok s => .ok (.text s)
  | .error bad => .error (.invalidText bad.message)

/-- The place that a pointer at `place` names. It counts from `start`, where the front begins that
is `front` bytes long. -/
def pointerAt (data : Bytes) (start front place : Nat) : Except Fault Nat := do
  let offset ← lengthAt data place
  if front ≤ offset ∧ start + offset < data.length then return start + offset
  else throw .undecodable

/-- The values at `count` places, `stride` bytes apart. -/
def decodeEach (read : Nat → Except Fault α) (stride : Nat) :
    (count place : Nat) → Except Fault (List α)
  | 0, _ => .ok []
  | count + 1, place => do
    let v ← read place
    let vs ← decodeEach read stride count (place + stride)
    return v :: vs

/-- The values of an array without its length. Pointers are followed after all of them are
checked. -/
def decodeItems (data : Bytes) (dynamic : Bool) (stride : Nat) (read : Nat → Except Fault Value)
    (count start : Nat) : Except Fault Value := do
  if dynamic then
    let places ← decodeEach (pointerAt data start (32 * count)) 32 count start
    return .list (← places.mapM read)
  else return .list (← decodeEach read stride count start)

/-- What a component counts in the size of the front that pointers have to clear. -/
def frontCount : AbiType → Nat
  | sized item count => if isDynamic item then 1 else count
  | _ => 1

/-- The size of the front of a tuple's components, in words. -/
def frontCounts : List AbiType → Nat
  | [] => 0
  | t :: ts => frontCount t + frontCounts ts

mutual

def decodeAt (data : Bytes) : AbiType → Nat → Except Fault Value
  | uint bits, start => wordAt data start >>= decodeUint bits
  | int bits, start => wordAt data start >>= decodeInt bits
  | bool, start => wordAt data start >>= decodeBool
  | address, start => wordAt data start >>= decodeAddress
  | fixedBytes size, start => wordAt data start >>= decodeFixedBytes size
  | bytes, start => (decodeBytes data start).map .bytes
  | string, start => decodeBytes data start >>= decodeString
  | sized item count, start =>
    decodeItems data (isDynamic item) (headSize item) (decodeAt data item) count start
  | unsized item, start => do
    let count ← lengthAt data start
    decodeItems data (isDynamic item) (headSize item) (decodeAt data item) count (start + 32)
  | tuple items, start => do
    let front := 32 * frontCounts items
    checkFront data start front items start
    return .list (← decodeFront data start items start)
termination_by structural t => t

/-- Checks the front of a tuple: its pointers and its static values. -/
def checkFront (data : Bytes) (start front : Nat) : List AbiType → Nat → Except Fault Unit
  | [], _ => .ok ()
  | t :: ts, place => do
    if isDynamic t then let _ ← pointerAt data start front place
    else let _ ← decodeAt data t place
    checkFront data start front ts (place + headSize t)
termination_by structural ts => ts

/-- The values of a tuple whose front has been checked. -/
def decodeFront (data : Bytes) (start : Nat) : List AbiType → Nat → Except Fault (List Value)
  | [], _ => .ok []
  | t :: ts, place => do
    let v ←
      if isDynamic t then lengthAt data place >>= fun offset => decodeAt data t (start + offset)
      else decodeAt data t place
    let vs ← decodeFront data start ts (place + headSize t)
    return v :: vs
termination_by structural ts => ts

end

def decodeAll (types : List AbiType) (data : Bytes) : Except Fault (List Value) := do
  checkFront data 0 (32 * frontCounts types) types 0
  decodeFront data 0 types 0

/-- The values of return data as a service gives it, for types given as text. -/
def decodeReturn (types : List String) (data : Value) : Except Fault (List Value) :=
  match data with
  | .bytes bs => do
    let types ← types.mapM parse
    decodeAll types bs
  | _ => .error (.misfit .notBytes)

end ContractAbi.AbiType
