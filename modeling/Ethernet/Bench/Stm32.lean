import Ethernet.Bench.EmulatedBlock
import Ethernet.Stm32.Smi
import Ethernet.Bench.Session
import Ethernet.Bench.Protocol
import Ethernet.Frame.Fragments
import Ethernet.Bench.Frames

/-! The controller bench: the STM32 driver alone on the emulated block, with a pool of receive
slots and a table of the packet buffers read back so far. -/
namespace Ethernet.Bench

open Stm32

structure Stm32Bench where
  eth : Controller EmulatedBlock
  pool : Pool
  known : List SlotId := []
  bufs : Array (Option SlotId) := #[]
  nextTag : Nat := 0

namespace Stm32Bench

/-- The slot a receive buffer points at, if the bench allocated it. -/
def slotValue (known : List SlotId) : Buffer → Value
  | .slot s => if known.contains s then .nat s.index else .null
  | _ => .null

def view (w : Stm32Bench) : Value × Stm32Bench :=
  let slot := if w.known.isEmpty then none else some (slotValue w.known)
  let (hw, b) := w.eth.block.view w.eth.running slot
  let c := w.pool.census
  (hw.extend [("pool", .obj [("free", .nat c.free), ("hardware", .nat c.hardware),
      ("software", .nat c.software), ("exhausted", .bool w.pool.exhausted)])],
    { w with eth := { w.eth with block := b } })

end Stm32Bench

namespace Stm32Step

abbrev M := Step Stm32Bench

def eth (act : Controller.Op EmulatedBlock β) : M β :=
  Step.within (·.eth) (fun e w => { w with eth := e }) act

def pool (act : PoolRun β) : M β := Step.within (·.pool) (fun p w => { w with pool := p }) act

/-- Runs a driver call that may also change the pool. -/
def ethWithPool (act : Controller.PoolOp EmulatedBlock β) : M β :=
  Step.within id (fun w _ => w) fun w => do
    let ((r, eth), pool) ← act w.eth w.pool
    return (r, { w with eth, pool })

def ok (v : Value) : M Outcome := pure (.result v)

def answer : Except NetError Unit → M Outcome
  | .ok () => ok .null
  | .error e => pure (.failed (netErrorValue e))

/-- Allocates a slot and offers it to the driver: the slot armed, the slot refused (and
abandoned), or the allocation failure. -/
def provide : M (Except Value Value) := do
  match ← pool Pool.allocate with
  | .error e => return .error (netErrorValue e)
  | .ok s =>
    modify fun w => { w with known := w.known ++ [s] }
    match ← eth (Controller.rxProvide s) with
    | .ok () => return .ok (.obj [("slot", .nat s.index)])
    | .error s =>
      pool (Pool.abandon s)
      return .ok (.obj [("refused", .nat s.index)])

/-- Offers slots while the driver wants them, stopping after a failure; at most `fuel`. -/
def fill : Nat → M (List Value)
  | 0 => pure []
  | fuel + 1 => do
    if !(← get).eth.wantsBuffer then return []
    match ← provide with
    | .error v => return [v]
    | .ok v => return v :: (← fill fuel)

def shared (bytes : List UInt8) : M Shared := do
  let w ← get
  set { w with nextTag := w.nextTag + 1 }
  return ⟨w.nextTag, bytes⟩

def dropBuf (i : Nat) (s : SlotId) : M Unit := do
  modify fun w => { w with bufs := w.bufs.set! i none }
  pool (Pool.release s)

/-- Drops every live buffer, oldest first, at most `fuel`. -/
def dropAll : Nat → M Unit
  | 0 => pure ()
  | fuel + 1 => do
    match (← get).bufs.toList.zipIdx.find? (·.1.isSome) with
    | some (some s, i) =>
      dropBuf i s
      dropAll fuel
    | _ => pure ()

/-- The management bus with the clock divider for `hclk` (168 MHz when absent). -/
def smi (v : Value) : M (Smi EmulatedBlock) := do
  let hclk ← Step.read (v.natOr "hclk" maxU32 168000000)
  return ⟨(← get).eth.block, .ofHclk hclk⟩

def setBlock (b : EmulatedBlock) : M Unit :=
  modify fun w => { w with eth := { w.eth with block := b } }

def exec (v : Value) : M Outcome := do
  let name ← Step.read (stepName v)
  match name with
  | "init" =>
    let mac ← Step.read (match v.get? "mac" with
      | some x => Value.asMac "mac" x
      | none => pure MacAddress.localDefault)
    answer (← ethWithPool (Controller.init mac))
  | "deinit" => answer (← eth Controller.deinit)
  | "start" => answer (← eth Controller.start)
  | "stop" => answer (← eth Controller.stop)
  | "set_link_params" => answer (← eth (Controller.setLinkParams (← Step.read (readLinkParams v))))
  | "is_running" => ok (.bool (← get).eth.running)
  | "tx_ring_depth" => ok (.nat ringSize)
  | "rx_wants_buffer" => ok (.bool (← get).eth.wantsBuffer)
  | "rx_provide" =>
    match ← provide with
    | .ok v => ok v
    | .error v => pure (.failed v)
  | "rx_fill" => ok (.arr (← fill ((← get).pool.freeList.length + 2)))
  | "rx_poll" =>
    match ← eth Controller.rxPoll with
    | none => ok .null
    | some c =>
      pool (Pool.reclaim c.slot c.length)
      let w ← get
      set { w with bufs := w.bufs.push (some c.slot) }
      ok (.obj [("slot", .nat c.slot.index), ("length", .nat c.length), ("last", .bool c.last),
        ("error", .bool c.error), ("buf", .nat w.bufs.size),
        ("hex", hexValue (w.pool.payload c.slot))])
  | "drop_buf" =>
    let i ← Step.read (v.handle "buf")
    match (← get).bufs[i]? with
    | some (some s) =>
      dropBuf i s
      ok .null
    | _ => throw (.unknownHandle "buf")
  | "drop_bufs" =>
    dropAll ((← get).bufs.size + 1)
    ok .null
  | "rx_revoke" =>
    match ← eth Controller.rxRevoke with
    | none => ok .null
    | some s =>
      pool (Pool.abandon s)
      ok (.nat s.index)
  | "tx_submit" =>
    let items ← Step.read ((← Step.read (v.listField "segments")).mapM (readItem #[]))
    let depth ← Step.read (v.natOr "ring_depth" maxU32 ringSize)
    let mut frame : Chain := {}
    for item in items do
      if let .bytes b := item then
        frame := frame.push (← get).pool (.shared (← shared b))
    match FragmentList.build (← get).pool frame depth with
    | .error e => pure (.failed (netErrorValue e))
    | .ok l =>
      pool frame.retain
      let r ← eth (Controller.txSubmit (← get).pool l frame)
      let out ← match r with
        | .ok () => pure (Outcome.result .null)
        | .error (e, back) => do
          pool back.release
          pure (.failed ((netErrorValue e).extend [("frame_len", .nat back.total)]))
      pool frame.release
      return out
  | "tx_reclaim" =>
    match ← eth Controller.txReclaim with
    | none => ok .null
    | some c =>
      let bytes := c.frame.toBytes (← get).pool
      pool c.frame.release
      ok (.obj [("sent", .bool c.sent), ("total_len", .nat c.frame.total), ("hex", hexValue bytes)])
  | "smi_read" =>
    let phy ← Step.read (v.natField "phy" maxU8)
    let reg ← Step.read (v.natField "reg" maxU8)
    let (r, s) := ManagementBus.read phy reg (← smi v)
    setBlock s.block
    match r with
    | .ok x => ok (.nat x.toNat)
    | .error e => pure (.failed (phyErrorValue e))
  | "smi_write" =>
    let phy ← Step.read (v.natField "phy" maxU8)
    let reg ← Step.read (v.natField "reg" maxU8)
    let value ← Step.read (v.natField "value" maxU16)
    let (r, s) := ManagementBus.write phy reg value.toUInt16 (← smi v)
    setBlock s.block
    match r with
    | .ok () => ok .null
    | .error e => pure (.failed (phyErrorValue e))
  | "poke" =>
    let reg ← Step.read (v.natField "reg" (RegisterFile.registerCount - 1))
    let value ← Step.read (v.natField "value" maxU16)
    let b := (← get).eth.block
    setBlock { b with phy := b.phy.poke reg value.toUInt16 }
    ok .null
  | "state" => ok .null
  | _ =>
    match EmulatedBlock.step? name v with
    | some act =>
      ok (← Step.focus (fun w => (w.eth.block, w.pool))
        (fun (b, p) w => { w with eth := { w.eth with block := b }, pool := p }) act)
    | none => throw (.unknownStep name)

end Stm32Step

/-- The controller session, built from `capacity` pool slots (default 8, at most 64), the
hardware switches `hw`, and the register file `phy` (at address 1 unless it says otherwise),
read in that order. -/
def stm32Session (req : Value) (steps : List Value) : Value :=
  let session : Session Stm32Bench :=
    { step := fun v => Step.finish (Stm32Step.exec v), view := Stm32Bench.view }
  session.run (do
    let capacity ← Build.read (req.natOr "capacity" 64 8)
    let block ← Build.read (EmulatedBlock.create ((req.get? "hw").getD (.obj []))
      ((req.get? "phy").getD (.obj [])) 1)
    return { eth := { block }, pool := ← Pool.create capacity }) steps

end Ethernet.Bench
