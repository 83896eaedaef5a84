import Ethernet.Stm32.Controller
import Ethernet.Bench.RegisterFile
import Ethernet.Bench.Session

/-! An emulated STM32 Ethernet block with a PHY register file behind its management bus. Stores
act at once (reset and flush bits clear, status bits are write-one-to-clear, a busy bit runs a
bus transfer); receiving and transmitting walk the descriptors the engine owns. -/
namespace Ethernet.Bench

open Stm32

/-- Switches that make the emulated hardware misbehave or act on its own. -/
structure Switches where
  resetStuck : Bool := false
  smiStuck : Bool := false
  ftfStuck : Bool := false
  txAuto : Bool := false
  deriving DecidableEq, Repr

structure EmulatedBlock where
  regs : Vector UInt32 14 := Vector.replicate 14 0
  rx : Vector RingEntry 4 := Vector.replicate 4 {}
  tx : Vector RingEntry 4 := Vector.replicate 4 {}
  rxCursor : Option Nat := none
  txCursor : Option Nat := none
  switches : Switches := {}
  phy : RegisterFile
  smiTransactions : Nat := 0
  rxDemands : Nat := 0
  txDemands : Nat := 0
  /-- Frames put on the wire since the last report, oldest first. -/
  wire : List (List UInt8) := []

namespace EmulatedBlock

def reg (b : EmulatedBlock) (r : Reg) : UInt32 := b.regs.get r.index

def setReg (b : EmulatedBlock) (r : Reg) (v : UInt32) : EmulatedBlock :=
  { b with regs := b.regs.set r.index v r.index.isLt }

def raise (b : EmulatedBlock) (bits : UInt32) : EmulatedBlock :=
  b.setReg .dmasr (b.reg .dmasr ||| bits)

def ring (b : EmulatedBlock) : Ring → Vector RingEntry 4
  | .rx => b.rx
  | .tx => b.tx

def entry (b : EmulatedBlock) (r : Ring) (i : Nat) : RingEntry := (b.ring r).get (Controller.at i)

def setEntry (b : EmulatedBlock) (r : Ring) (i : Nat) (e : RingEntry) : EmulatedBlock :=
  match r with
  | .rx => { b with rx := Controller.put b.rx i e }
  | .tx => { b with tx := Controller.put b.tx i e }

/-- The management-bus transfer a command starts. -/
def transfer (b : EmulatedBlock) (cmd : UInt32) : EmulatedBlock :=
  let pa := ((cmd >>> miiarPaShift) &&& 0x1F).toNat
  let mr := ((cmd >>> miiarMrShift) &&& 0x1F).toNat
  let b :=
    if cmd &&& miiarMw != 0 then
      { b with phy := (ManagementBus.write pa mr (b.reg .macmiidr &&& 0xFFFF).toUInt16 b.phy).2 }
    else
      let (r, phy) := ManagementBus.read pa mr b.phy
      { b with phy }.setReg .macmiidr (match r with
        | .ok v => v.toUInt32
        | .error _ => 0xFFFF)
  { b.setReg .macmiiar (cmd &&& ~~~miiarMb) with smiTransactions := b.smiTransactions + 1 }

/-- The first `n` bytes of a transmit buffer, at most as many as a shared fragment holds; a
slot is memory, read as it is now, and a descriptor without a buffer contributes nothing. -/
def Buffer.take (p : Pool) (buf : Buffer) (n : Nat) : List UInt8 :=
  match buf with
    | .bytes d => d.take n
    | .slot s => p.readFrom s n
    | .none => []

/-- Gathers one frame from the transmit cursor on, at most `fuel` descriptors, reading slots
from the pool `p`. -/
def gather (p : Pool) (error : Bool) :
    Nat → Nat → List UInt8 → EmulatedBlock → List UInt8 × Nat × EmulatedBlock
  | 0, cur, acc, b => (acc, cur, b)
  | fuel + 1, cur, acc, b =>
    let d := b.entry .tx cur
    if !d.isDmaOwned then (acc, cur, b.raise dmasrTbus)
    else
      let bytes := Buffer.take p d.buffer (d.control &&& tdesBufferMask).toNat
      let last := d.status &&& tdesLs != 0
      let status := (d.status &&& ~~~tdesOwn) ||| (if last && error then tdesEs else 0)
      let b := b.setEntry .tx cur { d with status }
      let next := (cur + 1) % ringSize
      if last then (acc ++ bytes, next, b) else gather p error fuel next (acc ++ bytes) b

/-- Sends the frame at the transmit cursor: its bytes, or none when there is no ring yet or
the engine does not own the descriptor there. -/
def transmit (p : Pool) (error : Bool) (b : EmulatedBlock) : Option (List UInt8) × EmulatedBlock :=
  match b.txCursor with
  | none => (none, b)
  | some cur =>
    if !(b.entry .tx cur).isDmaOwned then (none, b.raise dmasrTbus)
    else
      let (bytes, cur, b) := gather p error (ringSize + 1) cur [] b
      (some bytes, { b with txCursor := some cur, wire := b.wire ++ [bytes] })

/-- Sends frames until one cannot be sent, at most `fuel`. -/
def transmitAll (p : Pool) : Nat → EmulatedBlock → EmulatedBlock
  | 0, b => b
  | fuel + 1, b =>
    match transmit p false b with
    | (some _, b) => transmitAll p fuel b
    | (none, b) => b

/-- A register store and what the hardware does about it. -/
def store (r : Reg) (v : UInt32) (b : EmulatedBlock) : EmulatedBlock :=
  match r with
  | .dmabmr =>
    b.setReg r (if v &&& dmabmrSr != 0 && !b.switches.resetStuck then v &&& ~~~dmabmrSr else v)
  | .dmaomr =>
    b.setReg r (if v &&& dmaomrFtf != 0 && !b.switches.ftfStuck then v &&& ~~~dmaomrFtf else v)
  | .dmasr => b.setReg r (b.reg .dmasr &&& ~~~v)
  | .macmiiar =>
    let b := b.setReg r v
    if v &&& miiarMb != 0 && !b.switches.smiStuck then b.transfer v else b
  | .dmardlar => { b.setReg r v with rxCursor := Ring.rx.entryAt v }
  | .dmatdlar => { b.setReg r v with txCursor := Ring.tx.entryAt v }
  | .dmarpdr => { b.setReg r v with rxDemands := b.rxDemands + 1 }
  | .dmatpdr => { b.setReg r v with txDemands := b.txDemands + 1 }
  | _ => b.setReg r v

/-- The answer to a transmit poll demand: with automatic transmission on, frames are sent until
one cannot be. -/
def pollTransmit (p : Pool) (b : EmulatedBlock) : EmulatedBlock :=
  if b.switches.txAuto then transmitAll p (ringSize + 1) b else b

instance : EthernetBlock EmulatedBlock where
  load r b := b.reg r
  store := store
  pollTransmit := pollTransmit
  entry r i b := b.entry r i
  setEntry r i e b := b.setEntry r i e

/-- Writes the rest of a frame into the receive buffers from the cursor on, at most `fuel`
descriptors; answers the descriptors used, whether the frame was complete, and the new
cursor. A descriptor is marked first while none of the frame has been copied before it, so a
descriptor with an empty buffer at the start passes the mark on. -/
def deliver (error : Bool) (frameLen : Nat) :
    Nat → Nat → Bool → List UInt8 → Nat → EmulatedBlock × Pool → Nat × Bool × Nat × EmulatedBlock × Pool
  | 0, cur, _, _, n, (b, p) => (n, false, cur, b, p)
  | fuel + 1, cur, first, rest, n, (b, p) =>
    let d := b.entry .rx cur
    if !d.isDmaOwned then (n, false, cur, b.raise dmasrRbus, p)
    else
      let k := min (d.control &&& rdesBufferMask).toNat rest.length
      let p := match d.buffer with
        | .slot s => p.writeFrom s (rest.take k)
        | _ => p
      let rest := rest.drop k
      let done := rest.isEmpty
      let status := (if first then rdesFs else 0) ||| (if done then
          rdesLs ||| ((frameLen.toUInt32 &&& 0x3FFF) <<< 16) ||| (if error then rdesEs else 0)
        else 0)
      let b := b.setEntry .rx cur { d with status }
      let next := (cur + 1) % ringSize
      if done then (n + 1, true, next, b, p)
      else deliver error frameLen fuel next (first && k == 0) rest (n + 1) (b, p)

/-- The FCS bytes the emulation appends to a received frame. -/
def fcs : List UInt8 := [0xfc, 0xfd, 0xfe, 0xff]

/-- Receives a frame: the descriptors used and whether the whole frame landed. Without a ring
the frame finds no buffer, as at a descriptor the engine does not own. -/
def receive (bytes : List UInt8) (error : Bool) (b : EmulatedBlock) (p : Pool) :
    (Nat × Bool) × EmulatedBlock × Pool :=
  match b.rxCursor with
  | none => ((0, false), b.raise dmasrRbus, p)
  | some cur =>
    let frame := bytes ++ fcs
    let (n, complete, cur, b, p) := deliver error frame.length (ringSize + 1) cur true frame 0 (b, p)
    ((n, complete), { b with rxCursor := some cur }, p)

/-- Replaces the status of the descriptor at the receive cursor and moves on; false when there
is no ring yet. -/
def receiveRaw (status : UInt32) (b : EmulatedBlock) : Bool × EmulatedBlock :=
  match b.rxCursor with
  | none => (false, b)
  | some cur =>
    (true, { b.setEntry .rx cur { b.entry .rx cur with status } with
      rxCursor := some ((cur + 1) % ringSize) })

def reportedRegs : List (String × Reg) :=
  [("MACCR", .maccr), ("MACFFR", .macffr), ("MACMIIAR", .macmiiar), ("MACMIIDR", .macmiidr),
    ("MACA0HR", .maca0hr), ("MACA0LR", .maca0lr), ("DMABMR", .dmabmr), ("DMATPDR", .dmatpdr),
    ("DMARPDR", .dmarpdr), ("DMASR", .dmasr), ("DMAOMR", .dmaomr), ("DMAIER", .dmaier)]

def entryValue (e : RingEntry) : List (String × Value) :=
  [("status", .nat e.status.toNat), ("control", .nat e.control.toNat),
    ("has_buffer", .bool e.buffer.isSome)]

/-- The report of the hardware; frames sent and PHY writes are reported once. `slot` adds the
slot of each receive buffer, when given. -/
def view (running : Bool) (slot : Option (Buffer → Value)) (b : EmulatedBlock) :
    Value × EmulatedBlock :=
  let rxEntries := if b.rxCursor.isNone then [] else b.rx.toList.map fun e =>
    Value.obj (entryValue e ++ match slot with
      | some f => [("slot", f e.buffer)]
      | none => [])
  let txEntries := if b.txCursor.isNone then [] else b.tx.toList.map fun e => Value.obj (entryValue e)
  (.obj [("regs", .obj (reportedRegs.map fun (n, r) => (n, .nat (b.reg r).toNat))),
    ("rings", .obj [("rx", .arr rxEntries), ("tx", .arr txEntries),
      ("rx_cursor", .opt .nat b.rxCursor), ("tx_cursor", .opt .nat b.txCursor)]),
    ("wire_sent", .arr (b.wire.map hexValue)),
    ("phy_writes", .arr (b.phy.writes.map fun (r, x) => .arr [.nat r, .nat x.toNat])),
    ("smi_transactions", .nat b.smiTransactions),
    ("poll_demands", .arr [.nat b.rxDemands, .nat b.txDemands]), ("running", .bool running)],
    { b with wire := [], phy := { b.phy with writes := [] } })

/-- The switches a record sets, applied in the order `reset_stuck`, `smi_stuck`, `ftf_stuck`,
`tx_auto`; those it does not name are kept. -/
def switchSettings (v : Value) : List (Switches → Read Switches) :=
  [fun s => do return { s with resetStuck := ← v.boolOr "reset_stuck" s.resetStuck },
   fun s => do return { s with smiStuck := ← v.boolOr "smi_stuck" s.smiStuck },
   fun s => do return { s with ftfStuck := ← v.boolOr "ftf_stuck" s.ftfStuck },
   fun s => do return { s with txAuto := ← v.boolOr "tx_auto" s.txAuto }]

def ringNamed (v : Value) : Read Ring := do
  match ← v.stringField "ring" with
  | "rx" => pure .rx
  | "tx" => pure .tx
  | _ => throw (.invalid "ring")

/-- Whether a ring is set up, that is, its list address has been stored. -/
def hasRing (b : EmulatedBlock) : Ring → Bool
  | .rx => b.rxCursor.isSome
  | .tx => b.txCursor.isSome

abbrev HwStep := Step (EmulatedBlock × Pool)

def block : HwStep EmulatedBlock := return (← get).1

def setBlock (b : EmulatedBlock) : HwStep Unit := modify fun (_, p) => (b, p)

/-- Overwrites descriptor words one at a time: the status first, then the control word, each
stored as soon as it reads, so a bad control word leaves a new status in place. Nothing is
read when the ring is not set up. -/
def hwDesc (v : Value) : HwStep Value := do
  let r ← Step.read (ringNamed v)
  let i ← Step.read (v.natField "index" (ringSize - 1))
  if !(← block).hasRing r then return .bool false
  if let some x ← Step.read (v.natField? "status" maxU32) then
    let b ← block
    setBlock (b.setEntry r i { b.entry r i with status := x.toUInt32 })
  if let some x ← Step.read (v.natField? "control" maxU32) then
    let b ← block
    setBlock (b.setEntry r i { b.entry r i with control := x.toUInt32 })
  return .bool true

/-- The steps of the emulated hardware. Receiving reaches the pool, whose slots are the
receive buffers. -/
def step? (name : String) (v : Value) : Option (HwStep Value) :=
  match name with
  | "hw_rx" => some do
    let bytes ← Step.read (v.bytes 8192)
    let error ← Step.read (v.boolOr "error" false)
    let (b, p) ← get
    let ((n, complete), b, p) := b.receive bytes error p
    set (b, p)
    return .obj [("descriptors", .nat n), ("complete", .bool complete)]
  | "hw_rx_raw" => some do
    let status ← Step.read (v.natField "status" maxU32)
    let (ok, b) := (← block).receiveRaw status.toUInt32
    setBlock b
    return .bool ok
  | "hw_tx" => some do
    let error ← Step.read (v.boolOr "error" false)
    let (b, p) ← get
    let (sent, b) := b.transmit p error
    setBlock b
    return .opt hexValue sent
  | "hw_desc" => some (hwDesc v)
  | "hw_config" => some do
    let _ ← Step.focus (fun (w : EmulatedBlock × Pool) => w.1.switches)
      (fun s (b, p) => ({ b with switches := s }, p)) (Step.configure (switchSettings v))
    return .null
  | _ => none

/-- A block with the switches of `hw` and a register file built from `phy`, whose address
defaults to `address`; the switches are read first. -/
def create (hw phy : Value) (address : Nat) : Read EmulatedBlock := do
  let switches ← createWith (switchSettings hw) {}
  return { switches, phy := ← RegisterFile.create (← phy.natOr "smi_address" maxU8 address) phy }

end EmulatedBlock

end Ethernet.Bench
