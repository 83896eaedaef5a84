import Ethernet.Interface.Basic

/-! Starting, stopping and pacing the interface. The housekeeping's intervals are measured on a
32-bit millisecond counter that may wrap. -/
namespace Ethernet

namespace Interface

variable {η α : Type} [MacEngine η] [PhyControl η] [AddressProtocol α]

def init : IfRun η α (Except NetError Unit) := do
  let i ← get
  if i.initialized then return .error .alreadyInitialized
  match ← onBoardAndPool (MacEngine.init i.settings.mac) with
  | .error e => return .error e
  | .ok () =>
  modify fun i => { i with
    link := {}
    lastLinkPoll := none
    lastDhcpPoll := none
    acquisition := .create i.settings.maxDhcpTries i.settings.staticAddress
    initialized := true }
  let _ ← refill
  let i ← get
  let mac := i.settings.mac
  emit .info ("[netif] initialized, MAC " ++ mac.render ++ " ("
    ++ (if mac.isLocal then "local" else "global") ++ "), "
    ++ i.pool.census.hardware.repr ++ " receive buffers armed")
  if !i.settings.dhcpEnabled then
    set { i with proto := AddressProtocol.apply (some i.settings.staticAddress) i.proto }
    emit .info ("[netif] static ip address: " ++ i.settings.staticAddress.render)
  let _ ← pollLink
  return .ok ()

/-- Gives every completed descriptor's slot back to the pool, at most `fuel`. -/
def abandonCompletedFor : Nat → IfRun η α Unit
  | 0 => pure ()
  | fuel + 1 => do
    match ← onBoard MacEngine.rxPoll with
    | none => pure ()
    | some c =>
      onPool (Pool.abandon c.slot)
      abandonCompletedFor fuel

/-- Gives every armed slot back to the pool, at most `fuel`. -/
def abandonArmedFor : Nat → IfRun η α Unit
  | 0 => pure ()
  | fuel + 1 => do
    match ← onBoard MacEngine.rxRevoke with
    | none => pure ()
    | some s =>
      onPool (Pool.abandon s)
      abandonArmedFor fuel

def deinit : IfRun η α (Except NetError Unit) := do
  if !(← get).initialized then return .error .notInitialized
  match ← onBoard MacEngine.stop with
  | .error e => emit .warn ("[netif] failed to stop MAC: " ++ e.message)
  | .ok () => pure ()
  match ← onBoard MacEngine.deinit with
  | .error e => return .error e
  | .ok () =>
  abandonCompletedFor (MacEngine.rxHeld (← get).board + 1)
  abandonArmedFor (MacEngine.rxHeld (← get).board + 1)
  let _ ← reclaimTx
  let i ← get
  set { i with
    rx := {}
    counters := { i.counters with
      rxFrames := i.counters.rxFrames + i.rx.frames
      rxDropped := i.counters.rxDropped + i.rx.dropped } }
  onPool i.rx.clear
  let i ← get
  if i.link.state.isUp && i.settings.dhcpEnabled then
    let (a, p) ← (i.acquisition.onLinkEvent i.proto .down : Run _)
    set { i with acquisition := a, proto := p }
  modify fun i => { i with link := {}, initialized := false }
  emit .info "[netif] down"
  return .ok ()

/-- Whether an interval has passed since `last` on the wrapping millisecond counter; always
when nothing was polled yet. -/
def due (last : Option Nat) (now interval : Nat) : Bool :=
  match last with
  | none => true
  | some t => (now + Nat.pow 2 32 - t) % Nat.pow 2 32 ≥ interval

/-- The periodic housekeeping at time `now` (milliseconds modulo 2^32). -/
def serviceTick (now : Nat) : IfRun η α TickEvents := do
  if !(← get).initialized then return {}
  let _ ← reclaimTx
  let i ← get
  let link ← if due i.lastLinkPoll now i.settings.linkPollIntervalMs then do
      modify fun i => { i with lastLinkPoll := some now }
      pollLink
    else pure none
  let i ← get
  let address ← if i.settings.dhcpEnabled && due i.lastDhcpPoll now i.settings.dhcpPollIntervalMs
    then do
      let (e, a, p) ← (i.acquisition.tick i.proto : Run _)
      set { i with lastDhcpPoll := some now, acquisition := a, proto := p }
      pure e
    else pure none
  return { link, address }

end Interface

end Ethernet
