import Ethernet.Bench.Session
import Ethernet.Bench.Protocol

/-! The address-acquisition bench: the machine and a scripted protocol, driven by link events
and ticks. -/
namespace Ethernet.Bench

structure AcquisitionBench where
  machine : Acquisition
  proto : ScriptedProtocol

namespace AcquisitionBench

def view (w : AcquisitionBench) : Value × AcquisitionBench :=
  let (proto, p) := w.proto.view
  let m := w.machine
  (.obj [("state", .str (acquisitionStateName m.state)), ("state_text", .str m.state.text),
    ("retries", .nat m.retries), ("address", .opt ipv4ConfigValue m.address),
    ("proto", proto)], { w with proto := p })

abbrev M := Step AcquisitionBench

def onLink (e : LinkEvent) : M Outcome := do
  let w ← get
  let (m, p) ← (w.machine.onLinkEvent w.proto e : Run _)
  set { w with machine := m, proto := p }
  return .result .null

def exec (v : Value) : M Outcome := do
  match ← Step.read (stepName v) with
  | "link_up" => onLink (.up (← Step.read (readLinkParams v)))
  | "link_down" => onLink .down
  | "tick" =>
    let w ← get
    let (e, m, p) ← (w.machine.tick w.proto : Run _)
    set { w with machine := m, proto := p }
    return .result (.obj [("event", .opt addressEventValue e)])
  | "proto" =>
    Step.focus (·.proto) (fun p w => { w with proto := p }) (Step.configure (ScriptedProtocol.settings v))
  | other => throw (.unknownStep other)

end AcquisitionBench

/-- The acquisition session: `max_retries`, `fallback`, then the protocol's `offer` and
`fail_start`. -/
def dhcpSession (req : Value) (steps : List Value) : Value :=
  let build : Build AcquisitionBench := do
    let maxRetries ← Build.read (req.natOr "max_retries" maxU8 4)
    let fallback ← Build.read (match req.get? "fallback" with
      | some c => Value.asIpv4Config c
      | none => pure Ipv4Config.fallback)
    let proto ← Build.read (createWith (ScriptedProtocol.settings req) {})
    return ⟨Acquisition.create maxRetries fallback, proto⟩
  let session : Session AcquisitionBench :=
    { step := fun v => Step.finish (AcquisitionBench.exec v), view := AcquisitionBench.view }
  session.run build steps

end Ethernet.Bench
