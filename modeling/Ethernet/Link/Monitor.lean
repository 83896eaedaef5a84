import Ethernet.Mac.Engine
import Ethernet.Phy.Control

/-! The link monitor: while the link is down a poll waits for negotiation and a link, then programs
and starts the MAC; while it is up a poll watches the link bit and stops the MAC when it drops. -/
namespace Ethernet

/-- Whether the link is up, and with what parameters. -/
inductive LinkState where
  | down
  | up (p : LinkParams)
  deriving DecidableEq, Repr

def LinkState.isUp : LinkState → Bool
  | .up _ => true
  | .down => false

/-- The monitor's state. -/
structure LinkMonitor where
  state : LinkState := .down
  deriving DecidableEq, Repr

namespace LinkMonitor

variable {η : Type} [PhyControl η] [MacEngine η]

/-- A PHY read, its failure as an interface failure. -/
def phyRead (act : StateT η Run (Except PhyError β)) : StateT η Run (Except NetError β) := do
  return (← act).mapError .phy

/-- One poll: the event it publishes, if any, or the failure that ended it. -/
def poll (m : LinkMonitor) : StateT η Run (Except NetError (Option LinkEvent) × LinkMonitor) := do
  match m.state with
  | .down =>
    match ← phyRead PhyControl.negotiationDone with
    | .error e => return (.error e, m)
    | .ok false => return (.ok none, m)
    | .ok true =>
    match ← phyRead PhyControl.linkStatus with
    | .error e => return (.error e, m)
    | .ok .down =>
      emit .debug "[link] negotiation done, no link yet"
      return (.ok none, m)
    | .ok .up =>
    match ← phyRead PhyControl.speedIndication with
    | .error e => return (.error e, m)
    | .ok indication =>
    match indication.params? with
    | none =>
      emit .debug ("[link] negotiation done, indication " ++ indication.name)
      return (.ok none, m)
    | some p =>
    match ← MacEngine.setLinkParams p with
    | .error e => return (.error e, m)
    | .ok () =>
    match ← MacEngine.start with
    | .error e => return (.error e, m)
    | .ok () =>
      emit .info ("[link] up: " ++ p.render)
      return (.ok (some (.up p)), { state := .up p })
  | .up _ =>
    match ← phyRead PhyControl.linkStatus with
    | .error e => return (.error e, m)
    | .ok .up => return (.ok none, m)
    | .ok .down =>
      match ← MacEngine.stop with
      | .error e => emit .warn ("[link] failed to stop MAC: " ++ e.message)
      | .ok () => pure ()
      emit .info "[link] down"
      return (.ok (some .down), { state := .down })

end LinkMonitor

end Ethernet
