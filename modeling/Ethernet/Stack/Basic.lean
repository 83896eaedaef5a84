import Ethernet.Interface.Lifecycle
import Ethernet.Stack.DhcpClient
import Ethernet.Stack.IpLayer

/-! The network stack: an interface whose protocol holds the DHCP mailbox, an IP layer over it,
the address and default route in force, and the DHCP socket while it runs. A poll services the
interface, carries out the mailbox, runs the IP layer, polls the socket, and carries out the
mailbox again. -/
namespace Ethernet

/-- An address on the interface with its prefix length. -/
structure Ipv4Cidr where
  address : Ipv4Addr
  prefixLen : Nat
  deriving DecidableEq, Repr

def Ipv4Cidr.render (c : Ipv4Cidr) : String := c.address.render ++ "/" ++ c.prefixLen.repr

structure NetStack (η α ι δ : Type) where
  netif : Interface η α
  ip : ι
  addresses : List Ipv4Cidr := []
  gateway : Option Ipv4Addr := none
  dhcp : Option δ := none

/-- The first time past the stack's clock, in microseconds: two to the 63rd. -/
def clockEnd : Int := 9223372036854775808

/-- The stack's time for a reading of `now` milliseconds, a 64-bit word taken as signed. -/
def clockOfMillis (now : Nat) : Run Int :=
  let ms : Int := if (now : Int) < clockEnd then now else now - 2 * clockEnd
  if ms * 1000 < -clockEnd || clockEnd ≤ ms * 1000 then halt .clockScaleOverflow
  else pure (ms * 1000)

namespace NetStack

variable {η α ι δ β : Type}

def ipv4Cidr (s : NetStack η α ι δ) : Option Ipv4Cidr := s.addresses.head?

def isDhcpRunning (s : NetStack η α ι δ) : Bool := s.dhcp.isSome

/-- Puts an address and its default route into force, or clears both. The interface holds
only an address a single host may hold, or the unspecified one; any other halts. -/
def setAddress (s : NetStack η α ι δ) (a : Option Ipv4Config) : Run (NetStack η α ι δ) := do
  if let some c := a then
    if !c.address.isUnicast && !c.address.isUnspecified then halt (.notUnicast c.address.render)
  return { s with
    addresses := a.toList.map fun c => ⟨c.address, c.prefixLen⟩
    gateway := a.bind (·.gateway) }

section Mailbox

variable [DhcpMailbox α]

def mailbox (s : NetStack η α ι δ) : DhcpClient := DhcpMailbox.mailbox s.netif.proto

def setMailbox (s : NetStack η α ι δ) (m : DhcpClient) : NetStack η α ι δ :=
  { s with netif := { s.netif with proto := DhcpMailbox.withMailbox s.netif.proto m } }

/-- Carries out the mailbox's command and address change. -/
def runMailbox [IpLayer ι δ] (s : NetStack η α ι δ) : Run (NetStack η α ι δ) := do
  let m := s.mailbox
  let s := s.setMailbox { m with command := none }
  let s ← match m.command with
    | some .restart =>
      emit .debug "[stack] dhcp socket started"
      pure { s with dhcp := some (IpLayer.newDhcp ι) }
    | some .stop =>
      if s.dhcp.isSome then
        emit .debug "[stack] dhcp socket stopped"
      pure { s with dhcp := none }
    | none => pure s
  let m := s.mailbox
  match m.pending with
  | some a => (s.setMailbox { m with pending := none }).setAddress a
  | none => pure s

/-- Posts to the mailbox what the DHCP socket reports: a lease, or none. -/
def postEvent (s : NetStack η α ι δ) : Option DhcpEvent → Run (NetStack η α ι δ)
  | some (.configured address prefixLen router) => do
    let lease := Ipv4Config.ofPrefix address prefixLen router
    emit .debug ("[stack] dhcp lease " ++ lease.render)
    pure (s.setMailbox { s.mailbox with lease := some lease })
  | some .deconfigured => do
    emit .debug "[stack] dhcp lease lost"
    pure (s.setMailbox { s.mailbox with lease := none })
  | none => pure s

/-- Polls the DHCP socket, if it runs, and posts its event. -/
def pollDhcp [IpLayer ι δ] (s : NetStack η α ι δ) : Run (NetStack η α ι δ) :=
  match s.dhcp with
  | some d => { s with dhcp := some (IpLayer.pollDhcp ι d).2 }.postEvent (IpLayer.pollDhcp ι d).1
  | none => pure s

end Mailbox

/-- A stack over a started or stopped interface, at `now` milliseconds. -/
def create [IpLayer ι δ] (netif : Interface η α) (now : Nat) : Run (NetStack η α ι δ) := do
  let _ ← clockOfMillis now
  return { netif, ip := IpLayer.empty δ }

abbrev StackRun (η α ι δ : Type) := StateT (NetStack η α ι δ) Run

def onNetif (act : IfRun η α β) : StackRun η α ι δ β :=
  focus (·.netif) (fun i s => { s with netif := i }) act

/-- Runs the IP layer's exchange of frames at `now` microseconds. -/
def exchange [IpLayer ι δ] [MacEngine η] [PhyControl η] [AddressProtocol α] (now : Int) :
    StackRun η α ι δ Unit :=
  focus (fun s => (s.netif, s.ip, s.dhcp))
    (fun st s => { s with netif := st.1, ip := st.2.1, dhcp := st.2.2 }) (IpLayer.exchange now)

variable [IpLayer ι δ] [MacEngine η] [PhyControl η] [AddressProtocol α] [DhcpMailbox α]

/-- One poll at `now` milliseconds; the interface's pacing uses the low 32 bits. -/
def poll (now : Nat) : StackRun η α ι δ TickEvents := do
  let events ← onNetif (Interface.serviceTick (now % 4294967296))
  set (← (← get).runMailbox)
  exchange (← clockOfMillis now)
  set (← (← get).pollDhcp)
  set (← (← get).runMailbox)
  return events

end NetStack

end Ethernet
