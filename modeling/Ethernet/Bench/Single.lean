import Ethernet.Bench.Fields
import Ethernet.Bench.Encode
import Ethernet.Sync.Lock
import Ethernet.Stm32.Registers
import Ethernet.Stm32.Descriptor

/-! Requests answered by one call: addresses, settings, error texts, speed indications, clock
ranges, the lock and descriptors. -/
namespace Ethernet.Bench

open Stm32

/-- The answer to a failed station-address parse. -/
def macParseFailure : Value := failure "ParseMacError" "Invalid MAC address"

def macParse (req : Value) : Read Value := do
  let text ← req.stringField "text"
  return match MacAddress.parse? text with
    | some m => macValue m
    | none => macParseFailure

def macInfo (req : Value) : Read Value := do
  return macValue (← Value.asMac "mac" (← req.need "mac"))

def macConstants : Value :=
  .obj [("default", macValue MacAddress.localDefault), ("zero", macValue MacAddress.zero),
    ("broadcast", macValue MacAddress.broadcast)]

def ipv4 (req : Value) : Read Value := do
  return ipv4ConfigValue (← Value.asIpv4Config req)

def config (req : Value) : Read Value := do
  let s ← readSettings req
  return .obj [("config", settingsValue s),
    ("validate", match s.validate with | .ok () => .null | .error e => netErrorValue e)]

def speedIndication (req : Value) : Read Value := do
  let i := SpeedIndication.ofBits (← req.natField "bits" maxU8)
  return .obj [("indication", indicationValue i), ("params", .opt linkParamsValue i.params?)]

def smiClockRange (req : Value) : Read Value := do
  return .str (SmiClockRange.ofHclk (← req.natField "hclk" maxU32)).name

/-- An interface failure by its kind; a fragment count and ring capacity are read only for
`TooManyFragments`, and the wrapped PHY failure only for `Phy`. -/
def networkError (req : Value) : Read Value := do
  let kind ← req.stringField "kind"
  let e ← match kind with
    | "TooManyFragments" => do
      let fragments ← req.natField "fragments" maxU64
      let capacity ← req.natField "capacity" maxU64
      pure (NetError.tooManyFragments fragments capacity)
    | "Phy" => do
      match PhyError.ofKind? (← req.stringField "phy") with
      | some e => pure (NetError.phy e)
      | none => throw (.invalid "phy")
    | _ =>
      match NetError.ofKind? kind none 0 0 with
      | some (.tooManyFragments _ _) | some (.phy _) | none => throw (.invalid "kind")
      | some e => pure e
  return netErrorValue e

/-- A PHY failure by its kind; a kind that names none is reported as it is for the PHY cause
of an interface failure, as an invalid `phy`. -/
def phyError (req : Value) : Read Value := do
  match PhyError.ofKind? (← req.stringField "kind") with
  | some e => return phyErrorValue e
  | none => throw (.invalid "phy")

def mutex (req : Value) : Read Value := do
  let value ← req.natField "value" maxU32
  let add ← req.natOr "add" maxU32 1
  let r := Lock.exercise value.toUInt32 add.toUInt32
  return .obj [("try_lock_while_held", .bool r.tryLockWhileHeld),
    ("try_lock_after", .opt (fun w => .nat w.toNat) r.tryLockAfter),
    ("into_inner", .nat r.intoInner.toNat)]

/-- The base address the bench gives a ring of descriptors. -/
def ringBase : Nat := 0x20000000

def descriptor (req : Value) : Read Value := do
  let w (k : String) : Read UInt32 := do return (← req.natOr k maxU32 0).toUInt32
  let d : Descriptor :=
    { status := (← w "status"), control := (← w "control"), buffer := (← w "buffer"),
      next := (← w "next") }
  let ring ← req.natField? "ring" 64
  let fresh : Descriptor := {}
  return .obj [
    ("fresh", .arr [.nat fresh.status.toNat, .nat fresh.control.toNat, .nat fresh.buffer.toNat,
      .nat fresh.next.toNat, .bool fresh.isDmaOwned]),
    ("status", .nat d.status.toNat), ("control", .nat d.control.toNat),
    ("buffer", .nat d.buffer.toNat), ("next", .nat d.next.toNat),
    ("is_dma_owned", .bool d.isDmaOwned), ("rx_frame_length", .nat d.rxFrameLength),
    ("ring", .opt (fun n =>
      let r := chainedRing ringBase n
      .obj [("len", .nat r.length), ("circular", .bool (isCircular ringBase r)),
        ("cleared", .bool (r.all Descriptor.isCleared))]) ring)]

end Ethernet.Bench
