import Ethernet.Journal
import Ethernet.Error
import Ethernet.Settings

/-! The receive buffer pool: 1536-byte slots, each free, armed with the hardware, or read by
software through reference-counted packet buffers. Operations check ownership and halt with a
`Fault` when it is wrong; slot memory is never cleared. -/
namespace Ethernet

/-- Index of a slot of the pool. -/
structure SlotId where
  index : Nat
  deriving DecidableEq, Repr

/-- `slot3`. -/
def SlotId.render (s : SlotId) : String := "slot" ++ s.index.repr

/-- Who may touch a slot. -/
inductive Owner where
  | free
  | hardware
  | software
  deriving DecidableEq, Repr

/-- What the pool knows of one slot. `len` is the received length, `total` the frame bytes
from this slot to the end of its frame. -/
structure Header where
  owner : Owner := .free
  refcount : Nat := 0
  len : Nat := 0
  total : Nat := 0
  deriving DecidableEq, Repr

def Header.vacant : Header := {}

/-- How many slots each owner holds. -/
structure Census where
  free : Nat
  hardware : Nat
  software : Nat
  deriving DecidableEq, Repr

def maxRefcount : Nat := 65535

def maxTotal : Nat := 4294967295

/-- The pool: slot headers, the free list (its head is handed out next), the exhaustion flag,
counters of allocations, releases and failed allocations, and the bytes of every slot. A slot
whose memory was never written holds zeros. -/
structure Pool where
  headers : Array Header
  freeList : List Nat
  exhausted : Bool := false
  allocCount : Nat := 0
  releases : Nat := 0
  allocFailures : Nat := 0
  memory : Array (List UInt8)

/-- A pool operation: it reads and updates the pool, may log and may halt. -/
abbrev PoolRun := StateT Pool Run

namespace Pool

/-- A pool of `capacity` free slots; slot 0 is handed out first. -/
def create (capacity : Nat) : Run Pool :=
  if capacity = 0 ∨ capacity > 65535 then halt (.invalidCapacity capacity)
  else pure {
    headers := Array.replicate capacity Header.vacant
    freeList := List.range capacity
    memory := Array.replicate capacity [] }

def capacity (p : Pool) : Nat := p.headers.size

def header (p : Pool) (s : SlotId) : Header := p.headers[s.index]?.getD Header.vacant

def owner (p : Pool) (s : SlotId) : Owner := (p.header s).owner

def setHeader (p : Pool) (s : SlotId) (h : Header) : Pool :=
  { p with headers := p.headers.modify s.index fun _ => h }

def census (p : Pool) : Census :=
  p.headers.foldl (fun c h => match h.owner with
    | .free => { c with free := c.free + 1 }
    | .hardware => { c with hardware := c.hardware + 1 }
    | .software => { c with software := c.software + 1 }) ⟨0, 0, 0⟩

/-- The first `n` bytes of a slot's memory. -/
def read (p : Pool) (s : SlotId) (n : Nat) : List UInt8 :=
  let m := p.memory[s.index]?.getD []
  (m ++ List.replicate (n - m.length) 0).take n

/-- Writes `data` at the start of a slot's memory; bytes past it keep their values. -/
def write (p : Pool) (s : SlotId) (data : List UInt8) : Pool :=
  { p with memory := p.memory.modify s.index fun m => data ++ m.drop data.length }

/-- `n` bytes of slot memory from the start of slot `s` on. The slots lie one after another,
`slotSize` bytes each, so a read longer than a slot runs into the slots after it; memory past
the last slot reads as zeros. -/
def readFrom (p : Pool) (s : SlotId) (n : Nat) : List UInt8 :=
  ((List.range ((n + slotSize - 1) / slotSize)).flatMap fun k =>
    p.read ⟨s.index + k⟩ slotSize).take n

/-- Writes `data` from the start of slot `s` on, running into the slots after it when it is
longer than a slot; what would land past the last slot is lost. -/
def writeFrom (p : Pool) (s : SlotId) (data : List UInt8) : Pool :=
  (List.range ((data.length + slotSize - 1) / slotSize)).foldl
    (fun p k => p.write ⟨s.index + k⟩ ((data.drop (k * slotSize)).take slotSize)) p

def payload (p : Pool) (s : SlotId) : List UInt8 := p.read s (p.header s).len

/-- Puts a slot on top of the free list and lifts an exhaustion pause. -/
def pushFree (s : SlotId) : PoolRun Unit := do
  let p ← get
  let lifted := p.exhausted
  set { p.setHeader s Header.vacant with
    freeList := s.index :: p.freeList, releases := p.releases + 1, exhausted := false }
  if lifted then emit .info ("[pool] " ++ s.render ++ " released, receive refill re-armed")

/-- Hands the slot on top of the free list to the hardware, or fails when the list is empty
(raising the exhaustion flag and warning the first time). -/
def allocate : PoolRun (Except NetError SlotId) := do
  let p ← get
  match p.freeList with
  | [] =>
    set { p with allocFailures := p.allocFailures + 1, exhausted := true }
    if !p.exhausted then emit .warn "[pool] exhausted, receive refill paused"
    return .error .poolExhausted
  | i :: rest =>
    let s : SlotId := ⟨i⟩
    if p.owner s != .free then halt (.busyOnFreeList i)
    set { (p.setHeader s { p.header s with owner := .hardware }) with
      freeList := rest, allocCount := p.allocCount + 1 }
    return .ok s

/-- Turns a completed hardware slot into a software slot with one reference; the length is
capped at the slot size. -/
def reclaim (s : SlotId) (len : Nat) : PoolRun Unit := do
  let p ← get
  if p.owner s != .hardware then halt (.reclaimNotHardware s.index)
  let n := min len slotSize
  set (p.setHeader s { owner := .software, refcount := 1, len := n, total := n })

/-- Returns a hardware slot that never completed to the free list. -/
def abandon (s : SlotId) : PoolRun Unit := do
  let p ← get
  if p.owner s != .hardware then halt (.abandonNotHardware s.index)
  pushFree s

def retain (s : SlotId) : PoolRun Unit := do
  let p ← get
  let h := p.header s
  if h.owner != .software then halt .notSoftware
  if h.refcount + 1 > maxRefcount then halt (.refcountOverflow s.index)
  set (p.setHeader s { h with refcount := h.refcount + 1 })

/-- Drops a reference to a software slot; the last one frees the slot. -/
def release (s : SlotId) : PoolRun Unit := do
  let p ← get
  let h := p.header s
  if h.owner != .software || h.refcount == 0 then halt (.doubleRelease s.index)
  set (p.setHeader s { h with refcount := h.refcount - 1 })
  if h.refcount - 1 == 0 then pushFree s

/-- Adds the low 32 bits of `n` to a software slot's running frame total. -/
def addTotal (s : SlotId) (n : Nat) : PoolRun Unit := do
  let p ← get
  let h := p.header s
  if h.owner != .software then halt .notSoftware
  let t := h.total + n % Nat.pow 2 32
  if t > maxTotal then halt .totalOverflow
  set (p.setHeader s { h with total := t })

/-- Writes into the payload of a software slot if exactly one reference exists; answers how
many bytes were written. -/
def writePayload (s : SlotId) (data : List UInt8) : PoolRun (Option Nat) := do
  let p ← get
  let h := p.header s
  if h.refcount != 1 then return none
  let n := min data.length h.len
  set (p.write s (data.take n))
  return some n

end Pool

end Ethernet
