import Ethernet.Bench.Value
import Ethernet.Address.Mac
import Ethernet.Address.Ipv4
import Ethernet.Text.Hex

/-! Reading the fields of a request: an absent required field is `missing`, one of the wrong kind
or out of range is `invalid`. Byte strings come as `hex` or as `len` bytes of `fill`. -/
namespace Ethernet.Bench

namespace Value

/-- The field `k`, which must be present. -/
def need (v : Value) (k : String) : Read Value :=
  match v.get? k with
  | some x => .ok x
  | none => .error (.missing k)

/-- A natural number of at most `max`. -/
def asNat (k : String) (max : Nat) : Value → Read Nat
  | .int (.ofNat n) => if n ≤ max then .ok n else .error (.invalid k)
  | _ => .error (.invalid k)

def asBool (k : String) : Value → Read Bool
  | .bool b => .ok b
  | _ => .error (.invalid k)

def asString (k : String) : Value → Read String
  | .str s => .ok s
  | _ => .error (.invalid k)

/-- A required number field of at most `max`. -/
def natField (v : Value) (k : String) (max : Nat) : Read Nat := do asNat k max (← v.need k)

def natField? (v : Value) (k : String) (max : Nat) : Read (Option Nat) :=
  match v.get? k with
  | some x => some <$> asNat k max x
  | none => .ok none

/-- A number field with a value for when it is absent. -/
def natOr (v : Value) (k : String) (max dflt : Nat) : Read Nat :=
  return (← v.natField? k max).getD dflt

def boolField (v : Value) (k : String) : Read Bool := do asBool k (← v.need k)

def boolField? (v : Value) (k : String) : Read (Option Bool) :=
  match v.get? k with
  | some x => some <$> asBool k x
  | none => .ok none

def boolOr (v : Value) (k : String) (dflt : Bool) : Read Bool :=
  return (← v.boolField? k).getD dflt

def stringField (v : Value) (k : String) : Read String := do asString k (← v.need k)

def stringField? (v : Value) (k : String) : Read (Option String) :=
  match v.get? k with
  | some x => some <$> asString k x
  | none => .ok none

def listField (v : Value) (k : String) : Read (List Value) := do
  match ← v.need k with
  | .arr xs => .ok xs
  | _ => .error (.invalid k)

/-- The bytes a record carries, if it carries any: `hex` when present, else `len` bytes of
`fill`. A count above `limit` is invalid before any byte is made. -/
def bytes? (v : Value) (limit : Nat) : Read (Option (List UInt8)) := do
  match v.get? "hex" with
  | some h =>
    let s ← asString "hex" h
    match Hex.toBytes? s.toList with
    | some bs => if bs.length ≤ limit then .ok (some bs) else .error (.invalid "hex")
    | none => .error (.invalid "hex")
  | none =>
    match ← v.natField? "len" limit with
    | some n =>
      let fill ← v.natOr "fill" 255 0
      .ok (some (List.replicate n fill.toUInt8))
    | none => .ok none

/-- The bytes a record must carry; with neither form given, `hex` is missing. -/
def bytes (v : Value) (limit : Nat) : Read (List UInt8) := do
  match ← v.bytes? limit with
  | some bs => .ok bs
  | none => .error (.missing "hex")

/-- A handle field: a number that fits 32 bits, looked up later. -/
def handle (v : Value) (k : String) : Read Nat := v.natField k 4294967295

def asIpv4 (k : String) (x : Value) : Read Ipv4Addr := do
  match Ipv4Addr.parse? (← asString k x) with
  | some a => .ok a
  | none => .error (.invalid k)

/-- An IPv4 setting: `address`, then an optional `gateway`, then `prefix_len` (0 to 255) or
else `netmask`. Anything but a record has no `address`. -/
def asIpv4Config (x : Value) : Read Ipv4Config := do
  let address ← asIpv4 "address" (← x.need "address")
  let gateway ← match x.get? "gateway" with
    | some g => some <$> asIpv4 "gateway" g
    | none => pure none
  match x.get? "prefix_len" with
  | some p => return Ipv4Config.ofPrefix address (← asNat "prefix_len" 255 p) gateway
  | none => return ⟨address, ← asIpv4 "netmask" (← x.need "netmask"), gateway⟩

/-- A station address: its text, which must read as an address, or a list of six octets. -/
def asMac (k : String) : Value → Read MacAddress
  | .str s => match MacAddress.parse? s with
    | some m => .ok m
    | none => .error .badMac
  | .arr [a, b, c, d, e, f] => do
    let o (x : Value) : Read UInt8 := do return (← asNat k 255 x).toUInt8
    return MacAddress.ofOctets (← o a) (← o b) (← o c) (← o d) (← o e) (← o f)
  | _ => .error (.invalid k)

end Value

/-- Applies a record's settings one field at a time, in a fixed order. The first field that
cannot be read stops the rest; the fields before it stay applied. -/
def applyFields : List (ω → Read ω) → ω → ω × Option Malformed
  | [], w => (w, none)
  | f :: rest, w =>
    match f w with
    | .ok w => applyFields rest w
    | .error m => (w, some m)

/-- A component made from a start value and a record's settings, all of which must read. -/
def createWith (updates : List (ω → Read ω)) (w : ω) : Read ω :=
  match applyFields updates w with
  | (w, none) => .ok w
  | (_, some m) => .error m

end Ethernet.Bench
