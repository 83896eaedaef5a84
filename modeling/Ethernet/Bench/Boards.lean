import Ethernet.Board
import Ethernet.Bench.Session
import Ethernet.Bench.ScriptedMac
import Ethernet.Bench.ScriptedPhy
import Ethernet.Bench.Transceiver

/-! Boards on the bench, and the steps and reports each one adds to a session. -/
namespace Ethernet.Bench

/-- What a board contributes to a session: its reports and its own steps. -/
structure BoardKit (η : Type) where
  macView : η → Value × η
  phyView : η → Value × η
  /-- The board's own step of a name, if it has one. -/
  step? : String → Value → Option (Step η Outcome)

abbrev ScriptedBoard := Board ScriptedMac ScriptedPhy

/-- The scripted MAC's steps: `mac` changes its switches. -/
def macStep? (name : String) (v : Value) : Option (Step ScriptedMac Outcome) :=
  match name with
  | "mac" => some (Step.configure (ScriptedMac.settings v))
  | _ => none

def Step.onMac (act : Step μ β) : Step (Board μ π) β :=
  Step.focus (·.mac) (fun m b => { b with mac := m }) act

def Step.onPhy (act : Step π β) : Step (Board μ π) β :=
  Step.focus (·.phy) (fun p b => { b with phy := p }) act

def scriptedKit : BoardKit ScriptedBoard where
  macView b := let (v, m) := b.mac.view; (v, { b with mac := m })
  phyView b := (b.phy.view, b)
  step? name v :=
    match macStep? name v with
    | some act => some (Step.onMac act)
    | none => (ScriptedPhy.step? name v).map Step.onPhy

/-- The scripted MAC with a LAN8720 over an emulated register file. -/
abbrev TransceiverBoard := Board ScriptedMac (Lan8720 RegisterFile)

def transceiverKit : BoardKit TransceiverBoard where
  macView b := let (v, m) := b.mac.view; (v, { b with mac := m })
  phyView b := let (v, p) := transceiverView b.phy; (v, { b with phy := p })
  step? name v :=
    match macStep? name v with
    | some act => some (Step.onMac act)
    | none => (registerStep? name v).map Step.onPhy

end Ethernet.Bench
