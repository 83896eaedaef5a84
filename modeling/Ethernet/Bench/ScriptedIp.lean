import Ethernet.Stack.Basic

/-! A scripted IP layer for the stack bench. No DHCP server answers it: a new DHCP socket reports
once that it has no lease and nothing after that, and while it runs the layer sends a discovery
whenever the interface can transmit and the retry time has come, the next one ten seconds later.
Every received frame is dropped. TCP sockets are closed until they listen on a port. -/
namespace Ethernet.Bench

/-- The states of a TCP connection. -/
inductive TcpState where
  | closed
  | listen
  | synSent
  | synReceived
  | established
  | finWait1
  | finWait2
  | closeWait
  | closing
  | lastAck
  | timeWait
  deriving DecidableEq, Repr

def TcpState.name : TcpState → String
  | .closed => "CLOSED"
  | .listen => "LISTEN"
  | .synSent => "SYN-SENT"
  | .synReceived => "SYN-RECEIVED"
  | .established => "ESTABLISHED"
  | .finWait1 => "FIN-WAIT-1"
  | .finWait2 => "FIN-WAIT-2"
  | .closeWait => "CLOSE-WAIT"
  | .closing => "CLOSING"
  | .lastAck => "LAST-ACK"
  | .timeWait => "TIME-WAIT"

/-- Why a socket cannot listen. -/
inductive ListenError where
  | invalidState
  | unaddressable
  deriving DecidableEq, Repr

def ListenError.name : ListenError → String
  | .invalidState => "InvalidState"
  | .unaddressable => "Unaddressable"

structure TcpSocket where
  state : TcpState := .closed
  /-- The local port while listening. -/
  port : Nat := 0
  deriving DecidableEq, Repr

namespace TcpSocket

/-- Open: neither closed nor waiting out the end of a connection. -/
def isOpen (s : TcpSocket) : Bool := s.state != .closed && s.state != .timeWait

/-- Listening needs a non-zero port; listening again on the same port is allowed, on another
one it is not while the socket is open. -/
def listen (s : TcpSocket) (port : Nat) : Except ListenError TcpSocket :=
  if port == 0 then .error .unaddressable
  else if s.isOpen then
    if s.state == .listen && s.port == port then .ok s else .error .invalidState
  else .ok { state := .listen, port }

end TcpSocket

/-- The DHCP socket: whether it has yet to report its first event, and the time in microseconds
from which it sends its next discovery. -/
structure ScriptedDhcp where
  fresh : Bool := true
  retryAt : Int := 0
  deriving DecidableEq, Repr

/-- The layer's TCP sockets, numbered from 0 in creation order, and the count of frames it has
allocated, which tells its allocations apart. -/
structure ScriptedIp where
  tcp : Array TcpSocket := #[]
  allocations : Nat := 0

/-- The time `d` microseconds after `t`. -/
def clockAfter (t d : Int) : Run Int :=
  if clockEnd ≤ t + d then halt .clockAddOverflow else pure (t + d)

/-- How long the DHCP socket waits for an offer before it asks again, in microseconds. -/
def discoverTimeout : Int := 10000000

/-- The length of the Ethernet frame that carries a DHCP discovery: Ethernet, IPv4 and UDP
headers (14, 20 and 8 bytes) and the DHCP message, whose 240 fixed bytes are followed by the
message type (3), the client identifier (9), the largest message size (4), the list of
parameters asked for (5) and the end mark (1). -/
def discoverFrameLength : Nat := 14 + 20 + 8 + 240 + 3 + 9 + 4 + 5 + 1

namespace ScriptedIp

variable {η α β : Type} [MacEngine η] [PhyControl η] [AddressProtocol α]

abbrev Exchange (η α : Type) := ExchangeRun η α ScriptedIp ScriptedDhcp

def onDevice (act : IfRun η α β) : Exchange η α β :=
  focus (·.1) (fun i st => (i, st.2)) act

/-- Takes received frames and drops them, at most `fuel`; whether one of them had any bytes. -/
def ingressFor : Nat → Exchange η α Bool
  | 0 => pure false
  | fuel + 1 => do
    match ← onDevice Interface.receive with
    | none => return false
    | some c =>
      onDevice (Interface.onPool c.release)
      let more ← ingressFor fuel
      return !c.isEmpty || more

/-- Takes every received frame; each frame but the last consumes a completion, so the pending
completions bound the rounds. -/
def ingress : Exchange η α Bool := do
  ingressFor (MacEngine.pendingCompletions (← get).1.board + 1)

/-- Sends a DHCP discovery at time `now` if the socket runs, its retry time has come and the
interface can transmit; whether a frame went out. The retry time moves only once a frame has
gone to the interface, whatever became of it there. -/
def egress (now : Int) : Exchange η α Bool := do
  let st ← get
  match st.2.2 with
  | none => return false
  | some sock =>
    if now < sock.retryAt || !st.1.canTransmit then return false
    let ip := st.2.1
    set (st.1, { ip with allocations := ip.allocations + 1 }, st.2.2)
    onDevice (Interface.transmitShared ⟨ip.allocations, List.replicate discoverFrameLength 0⟩)
    let retryAt ← clockAfter now discoverTimeout
    modify fun st => (st.1, st.2.1, some { sock with retryAt })
    return true

/-- Exchanges frames at time `now` until a round neither receives nor sends, at most `fuel`
rounds. Three are enough: the first receives every pending frame and sends what is due, after
which nothing is pending and the next try is in the future, so the second does nothing. -/
def exchangeFor (now : Int) : Nat → Exchange η α Unit
  | 0 => pure ()
  | fuel + 1 => do
    let received ← ingress
    let sent ← egress now
    if received || sent then exchangeFor now fuel

end ScriptedIp

instance : IpLayer ScriptedIp ScriptedDhcp where
  empty := {}
  newDhcp := {}
  pollDhcp d := if d.fresh then (some .deconfigured, { d with fresh := false }) else (none, d)
  exchange now := ScriptedIp.exchangeFor now 3

end Ethernet.Bench
