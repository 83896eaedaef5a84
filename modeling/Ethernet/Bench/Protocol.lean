import Ethernet.Address.Acquisition
import Ethernet.Bench.Encode

/-! A scripted address protocol: it counts starts and stops, fails to start when told to,
offers whatever address the bench sets, and records every address put into force. -/
namespace Ethernet.Bench

/-- The bench's address protocol. `applied` lists the addresses put into force, oldest first. -/
structure ScriptedProtocol where
  starts : Nat := 0
  stops : Nat := 0
  failStart : Bool := false
  offer : Option Ipv4Config := none
  applied : List (Option Ipv4Config) := []
  deriving DecidableEq, Repr

instance : AddressProtocol ScriptedProtocol where
  start p :=
    let p := { p with starts := p.starts + 1 }
    (if p.failStart then .error .hardwareError else .ok (), p)
  stop p := { p with stops := p.stops + 1 }
  supplied p := (p.offer, p)
  apply a p := { p with applied := p.applied ++ [a] }

namespace ScriptedProtocol

/-- The report of the protocol; the addresses put into force are reported once. -/
def view (p : ScriptedProtocol) : Value × ScriptedProtocol :=
  (.obj [("starts", .nat p.starts), ("stops", .nat p.stops),
    ("applied", .arr (p.applied.map (.opt ipv4ConfigValue))),
    ("offer", .opt ipv4ConfigValue p.offer), ("fail_start", .bool p.failStart)],
    { p with applied := [] })

/-- The settings a record may change, in the order they are read: `offer` (a `null` offer
withdraws it), then `fail_start`. -/
def settings (v : Value) : List (ScriptedProtocol → Read ScriptedProtocol) :=
  [fun p => match v with
    | .obj fields => match fields.find? (·.1 == "offer") with
      | some (_, .null) => pure { p with offer := none }
      | some (_, c) => do return { p with offer := some (← Value.asIpv4Config c) }
      | none => pure p
    | _ => pure p,
   fun p => do return { p with failStart := ← v.boolOr "fail_start" p.failStart }]

end ScriptedProtocol

def acquisitionStateName : AcquisitionState → String
  | .off => "Off"
  | .start => "Start"
  | .waitAddress => "WaitAddress"
  | .assigned => "Assigned"
  | .timeout => "Timeout"
  | .linkDown => "LinkDown"

def addressEventValue : AddressEvent → Value
  | .assigned c => .obj [("Assigned", ipv4ConfigValue c)]
  | .fallback c => .obj [("Fallback", ipv4ConfigValue c)]
  | .lost => .str "Lost"

/-- Link parameters from `speed` (10 or 100, default 100) and `duplex` (`Half` or `Full`,
default `Full`). A `duplex` that is not text counts as absent. -/
def readLinkParams (v : Value) : Read LinkParams := do
  let speed ← match ← v.natField? "speed" maxU64 with
    | none | some 100 => pure Speed.mbps100
    | some 10 => pure Speed.mbps10
    | some _ => throw (.invalid "speed")
  let duplex ← match v.get? "duplex" with
    | some (.str "Half") => pure Duplex.half
    | some (.str "Full") => pure Duplex.full
    | some (.str _) => throw (.invalid "duplex")
    | _ => pure Duplex.full
  return ⟨speed, duplex⟩

end Ethernet.Bench
