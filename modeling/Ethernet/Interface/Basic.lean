import Ethernet.Board
import Ethernet.Link.Monitor
import Ethernet.Address.Acquisition
import Ethernet.Frame.Assembly

/-! The network interface: a board, an address protocol, the receive pool and assembler, the link
monitor and address acquisition, with the housekeeping the operations share. -/
namespace Ethernet

/-- Traffic counters. -/
structure InterfaceStats where
  rxFrames : Nat := 0
  rxDropped : Nat := 0
  txFrames : Nat := 0
  txCompleted : Nat := 0
  txAborted : Nat := 0
  txErrors : Nat := 0
  deriving DecidableEq, Repr

/-- What a service tick reports. -/
structure TickEvents where
  link : Option LinkEvent := none
  address : Option AddressEvent := none
  deriving DecidableEq, Repr

def TickEvents.isEmpty (e : TickEvents) : Bool := e.link.isNone && e.address.isNone

/-- The interface over a board `η` and an address protocol `α`. Poll stamps are the times
(milliseconds, modulo 2^32) of the last link poll and the last acquisition tick. -/
structure Interface (η α : Type) where
  settings : Settings
  board : η
  proto : α
  pool : Pool
  rx : Assembler := {}
  link : LinkMonitor := {}
  acquisition : Acquisition
  lastLinkPoll : Option Nat := none
  lastDhcpPoll : Option Nat := none
  initialized : Bool := false
  counters : InterfaceStats := {}

abbrev IfRun (η α : Type) := StateT (Interface η α) Run

namespace Interface

variable {η α : Type}

/-- A fresh interface, not yet started; refused when the settings are not valid. -/
def create (settings : Settings) (board : η) (proto : α) : Run (Except NetError (Interface η α)) :=
  match settings.validate with
  | .error e => pure (.error e)
  | .ok () => do
    let pool ← Pool.create settings.rxBufferCount
    pure (.ok {
      settings, board, proto, pool
      acquisition := .create settings.maxDhcpTries settings.staticAddress })

/-- Counters, with the assembler's frame counts added in. -/
def stats (i : Interface η α) : InterfaceStats :=
  { i.counters with
    rxFrames := i.counters.rxFrames + i.rx.frames
    rxDropped := i.counters.rxDropped + i.rx.dropped }

/-- The address in force: none while stopped, else the acquired one or the static one. -/
def ipConfig (i : Interface η α) : Option Ipv4Config :=
  if !i.initialized then none
  else if i.settings.dhcpEnabled then i.acquisition.address
  else some i.settings.staticAddress

def linkState (i : Interface η α) : LinkState := i.link.state

def onPool (act : PoolRun β) : IfRun η α β :=
  focus (·.pool) (fun p i => { i with pool := p }) act

def onBoard (act : StateT η Run β) : IfRun η α β :=
  focus (·.board) (fun b i => { i with board := b }) act

/-- Runs a board operation that may also change the pool. -/
def onBoardAndPool (act : StateT η PoolRun β) : IfRun η α β := fun i => do
  let ((r, board), pool) ← act i.board i.pool
  return (r, { i with board, pool })

def modifyCounters (f : InterfaceStats → InterfaceStats) : IfRun η α Unit :=
  modify fun i => { i with counters := f i.counters }

variable [MacEngine η] [PhyControl η] [AddressProtocol α]

/-- Arms descriptors while the engine wants buffers, at most `fuel` times. Answers whether the
pool ran dry (exhausted, or an allocation failed). -/
def refillFor : Nat → IfRun η α Bool
  | 0 => pure false
  | fuel + 1 => do
    let i ← get
    if !MacEngine.rxWantsBuffer i.board then return false
    if i.pool.exhausted then return true
    match ← onPool Pool.allocate with
    | .error _ => return true
    | .ok s =>
      match ← onBoard (MacEngine.rxProvide s) with
      | .error s =>
        onPool (Pool.abandon s)
        return false
      | .ok () => refillFor fuel

/-- Arms every descriptor that wants a buffer while the pool has slots. Each round takes a
slot off the free list, so the free list's length bounds the rounds. -/
def refill : IfRun η α Bool := do
  refillFor ((← get).pool.freeList.length + 1)

/-- Drops every finished transmission, counting it as completed or aborted; at most `fuel`. -/
def reclaimTxFor : Nat → IfRun η α Nat
  | 0 => pure 0
  | fuel + 1 => do
    match ← onBoard MacEngine.txReclaim with
    | none => return 0
    | some c =>
      if c.sent then modifyCounters fun s => { s with txCompleted := s.txCompleted + 1 }
      else modifyCounters fun s => { s with txAborted := s.txAborted + 1 }
      onPool c.frame.release
      return (← reclaimTxFor fuel) + 1

/-- Drops every finished transmission; answers how many. -/
def reclaimTx : IfRun η α Nat := do
  reclaimTxFor (MacEngine.txHeld (← get).board + 1)

/-- Polls the link and tells address acquisition about a change. -/
def pollLink : IfRun η α (Option LinkEvent) := do
  let i ← get
  let (r, m) ← onBoard (i.link.poll)
  modify fun i => { i with link := m }
  match r with
  | .error e =>
    emit .warn ("[netif] link poll failed: " ++ e.message)
    return none
  | .ok none => return none
  | .ok (some event) =>
    let i ← get
    if i.settings.dhcpEnabled then
      let (a, p) ← (i.acquisition.onLinkEvent i.proto event : Run _)
      set { i with acquisition := a, proto := p }
    return some event

end Interface

end Ethernet
