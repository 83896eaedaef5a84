import Ethernet.Phy.Control
import Ethernet.Bench.Encode
import Ethernet.Bench.Session

/-! A scripted PHY: it reports whatever negotiation result, speed indication and link bit the
bench sets, or fails every read with a bus error when told to. Plugging a cable finishes
negotiation with the given indication and raises the link; unplugging clears all three. -/
namespace Ethernet.Bench

structure ScriptedPhy where
  negotiationDone : Bool := false
  indication : SpeedIndication := .unknown 0
  link : LinkStatus := .down
  fail : Bool := false
  deriving DecidableEq, Repr

namespace ScriptedPhy

/-- Answers `v` unless reads fail. -/
def answer (v : β) : StateT ScriptedPhy Run (Except PhyError β) := do
  return if (← get).fail then .error .bus else .ok v

instance : PhyControl ScriptedPhy where
  negotiationDone := do answer (← get).negotiationDone
  speedIndication := do answer (← get).indication
  linkStatus := do answer (← get).link

def plug (p : ScriptedPhy) (bits : Nat) : ScriptedPhy :=
  { p with negotiationDone := true, indication := .ofBits bits, link := .up }

def unplug (p : ScriptedPhy) : ScriptedPhy :=
  { p with negotiationDone := false, indication := .unknown 0, link := .down }

def view (p : ScriptedPhy) : Value :=
  .obj [("negotiation_done", .bool p.negotiationDone), ("indication", indicationValue p.indication),
    ("link", .str (match p.link with | .up => "Up" | .down => "Down")), ("fail", .bool p.fail)]

/-- The fields a record may set, in the order they are read: `negotiation_done`, `bits`,
`link`, `fail`. -/
def settings (v : Value) : List (ScriptedPhy → Read ScriptedPhy) :=
  [fun p => do return { p with negotiationDone := ← v.boolOr "negotiation_done" p.negotiationDone },
   fun p => do
    match ← v.natField? "bits" maxU8 with
    | some b => return { p with indication := SpeedIndication.ofBits b }
    | none => return p,
   fun p => do
    match ← v.boolField? "link" with
    | some true => return { p with link := .up }
    | some false => return { p with link := .down }
    | none => return p,
   fun p => do return { p with fail := ← v.boolOr "fail" p.fail }]

def create (v : Value) : Read ScriptedPhy := createWith (settings v) {}

/-- The scripted PHY's own steps: `phy`, `plug`, `unplug`. -/
def step? (name : String) (v : Value) : Option (Step ScriptedPhy Outcome) :=
  match name with
  | "phy" => some (Step.configure (settings v))
  | "plug" => some (Step.update fun p => do return p.plug (← v.natField "bits" maxU8))
  | "unplug" => some (Step.update fun p => pure p.unplug)
  | _ => none

end ScriptedPhy

end Ethernet.Bench
