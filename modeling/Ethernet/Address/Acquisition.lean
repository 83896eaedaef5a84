import Ethernet.Address.Ipv4
import Ethernet.Error
import Ethernet.Journal
import Ethernet.Link.Params

/-! Address acquisition: a machine that runs the address protocol while the link is up, counts
one try per unanswered tick in `wait address`, and falls back to a static address when the
tries are used up. Every address it holds went through the protocol's `apply` first. -/
namespace Ethernet

/-- The protocol that talks to the DHCP server, as the machine sees it. -/
class AddressProtocol (α : Type) where
  /-- Begins an exchange; it may fail. -/
  start : α → Except NetError Unit × α
  stop : α → α
  /-- The address the server currently offers, if any. -/
  supplied : α → Option Ipv4Config × α
  /-- Puts an address (or none) into force on the interface. -/
  apply : Option Ipv4Config → α → α

/-- Phases of address acquisition. -/
inductive AcquisitionState where
  | off | start | waitAddress | assigned | timeout | linkDown
  deriving DecidableEq, Repr

/-- `off`, `start`, `wait address`, … -/
def AcquisitionState.text : AcquisitionState → String
  | .off => "off"
  | .start => "start"
  | .waitAddress => "wait address"
  | .assigned => "assigned"
  | .timeout => "timeout"
  | .linkDown => "link down"

/-- What a tick reports. -/
inductive AddressEvent where
  | assigned (c : Ipv4Config)
  | fallback (c : Ipv4Config)
  | lost
  deriving DecidableEq, Repr

/-- The machine: its phase, the tries counted in `wait address`, the try limit, the fallback
address and the address in force. -/
structure Acquisition where
  state : AcquisitionState := .off
  retries : Nat := 0
  maxRetries : Nat
  fallback : Ipv4Config
  address : Option Ipv4Config := none
  deriving DecidableEq, Repr

namespace Acquisition

variable {α : Type} [AddressProtocol α]

def create (maxRetries : Nat) (fallback : Ipv4Config) : Acquisition :=
  { maxRetries, fallback }

def onLinkEvent (a : Acquisition) (proto : α) : LinkEvent → Run (Acquisition × α)
  | .up _ =>
    if a.state = .off ∨ a.state = .linkDown then
      pure ({ a with retries := 0, state := .start }, proto)
    else pure (a, proto)
  | .down =>
    if a.state = .linkDown then pure (a, proto)
    else do
      let proto := AddressProtocol.apply none (AddressProtocol.stop proto)
      emit .info "[dhcp] the network cable is not connected"
      pure ({ a with address := none, retries := 0, state := .linkDown }, proto)

def tick (a : Acquisition) (proto : α) : Run (Option AddressEvent × Acquisition × α) :=
  match a.state with
  | .start => do
    let proto := AddressProtocol.apply none proto
    emit .info "[dhcp] state: looking for dhcp server ..."
    let (r, proto) := AddressProtocol.start proto
    match r with
    | .error e => emit .warn ("[dhcp] failed to start exchange: " ++ e.message)
    | .ok () => pure ()
    pure (none, { a with address := none, retries := 0, state := .waitAddress }, proto)
  | .waitAddress => do
    let (offer, proto) := AddressProtocol.supplied proto
    match offer with
    | some c =>
      let proto := AddressProtocol.apply (some c) proto
      emit .info ("[dhcp] ip address assigned by a dhcp server: " ++ c.address.render)
      pure (some (.assigned c), { a with address := some c, state := .assigned }, proto)
    | none =>
      let retries := a.retries + 1
      if retries < a.maxRetries then
        pure (none, { a with retries }, proto)
      else
        let proto := AddressProtocol.apply (some a.fallback) (AddressProtocol.stop proto)
        emit .warn "[dhcp] dhcp timeout !!"
        emit .info ("[dhcp] static ip address: " ++ a.fallback.address.render)
        pure (some (.fallback a.fallback),
          { a with retries, address := some a.fallback, state := .timeout }, proto)
  | .assigned => do
    let (offer, proto) := AddressProtocol.supplied proto
    match offer with
    | none =>
      let proto := AddressProtocol.apply none proto
      emit .warn "[dhcp] lease lost, restarting"
      pure (some .lost, { a with address := none, state := .start }, proto)
    | some c =>
      if some c = a.address then pure (none, a, proto)
      else
        let proto := AddressProtocol.apply (some c) proto
        emit .info ("[dhcp] lease renewed with new ip address: " ++ c.address.render)
        pure (some (.assigned c), { a with address := some c }, proto)
  | _ => pure (none, a, proto)

end Acquisition

end Ethernet
