import Ethernet.Stm32.Block
import Ethernet.Mac.Engine
import Ethernet.Text.Hex

/-! The driver of the STM32F4 Ethernet controller: the MAC in RMII mode with chained DMA
descriptors, polled. Transmit descriptors are handed to the engine last to first. -/
namespace Ethernet.Stm32

/-- A frame on the transmit ring: its pinned copy and the descriptors it occupies. -/
structure InFlight where
  frame : Chain
  first : Nat
  count : Nat
  deriving DecidableEq, Repr

/-- The driver over a block state `ω`. -/
structure Controller (ω : Type) where
  block : ω
  /-- The slot armed in each receive descriptor. -/
  rxSlots : Vector (Option SlotId) 4 := Vector.replicate 4 none
  /-- The next receive descriptor to arm. -/
  rxFill : Nat := 0
  /-- The next receive descriptor to read back. -/
  rxNext : Nat := 0
  /-- Bytes already reported of the frame in progress. -/
  rxFrameBytes : Nat := 0
  /-- Frames on the ring, in submission order. -/
  txFrames : Vector (Option InFlight) 4 := Vector.replicate 4 none
  txFrameHead : Nat := 0
  txFrameTail : Nat := 0
  /-- The next free transmit descriptor. -/
  txHead : Nat := 0
  txInUse : Nat := 0
  initialized : Bool := false
  running : Bool := false

def Controller.at (i : Nat) : Fin 4 := ⟨i % 4, Nat.mod_lt _ (by decide)⟩

/-- A four-entry table with the entry at position `i` (modulo four) replaced. -/
def Controller.put (v : Vector α 4) (i : Nat) (x : α) : Vector α 4 :=
  v.set (Controller.at i) x (Controller.at i).isLt

namespace Controller

variable {ω : Type} [EthernetBlock ω]

abbrev Op (ω : Type) := StateT (Controller ω) Run

def load (r : Reg) : Op ω UInt32 := return EthernetBlock.load r (← get).block

def store (r : Reg) (v : UInt32) : Op ω Unit :=
  modify fun c => { c with block := EthernetBlock.store r v c.block }

/-- Clears the bits of `clear` and sets those of `set` in a register. -/
def update (r : Reg) (clear set : UInt32) : Op ω Unit := do
  store r (((← load r) &&& ~~~clear) ||| set)

/-- Whether the bits of `mask` read back as zero. Loads have no side effect, so polling a
bit any number of times reads what the first poll read. -/
def cleared (r : Reg) (mask : UInt32) : Op ω Bool := do
  return (← load r) &&& mask == 0

def entry (ring : Ring) (i : Nat) : Op ω RingEntry :=
  return EthernetBlock.entry ring i (← get).block

def setEntry (ring : Ring) (i : Nat) (e : RingEntry) : Op ω Unit :=
  modify fun c => { c with block := EthernetBlock.setEntry ring i e c.block }

def requireInit : Op ω (Except NetError Unit) := do
  return if (← get).initialized then .ok () else .error .notInitialized

/-- A driver operation that may also change the pool. -/
abbrev PoolOp (ω : Type) := StateT (Controller ω) PoolRun

/-- Clears both rings and the driver's bookkeeping and points the engine at the rings. The
frames still on the transmit ring are dropped in table order, which gives their references
back to the pool. -/
def initRings : PoolOp ω Unit := do
  let dropped := (← get).txFrames.toList.filterMap id
  besidePool (do
    for i in List.range ringSize do
      setEntry .tx i { status := tdesTch }
    for i in List.range ringSize do
      setEntry .rx i { control := rdesRch }
    modify fun c => { c with
      rxSlots := Vector.replicate 4 none
      rxFill := 0
      rxNext := 0
      rxFrameBytes := 0
      txFrames := Vector.replicate 4 none
      txFrameHead := 0
      txFrameTail := 0
      txHead := 0
      txInUse := 0 })
  for f in dropped do
    f.frame.release
  besidePool (do
    store .dmatdlar Ring.tx.base
    store .dmardlar Ring.rx.base)

/-- Programs the MAC, the address filter and the DMA engine, then the rings. -/
def configure (mac : MacAddress) : PoolOp ω Unit := do
  let b := fun i => (mac.octets.get i).toUInt32
  besidePool (do
    store .maccr (maccrIpco ||| maccrRod)
    store .macffr 0
    store .maca0hr (maca0hrMo ||| (b 5 <<< 8) ||| b 4)
    store .maca0lr ((b 3 <<< 24) ||| (b 2 <<< 16) ||| (b 1 <<< 8) ||| b 0)
    store .dmaomr (dmaomrRsf ||| dmaomrTsf ||| dmaomrOsf)
    store .dmabmr (dmabmrAab ||| dmabmrUsp ||| dmabmrRdp32 ||| dmabmrFb ||| dmabmrPbl32)
    store .dmaier 0)
  initRings
  modify fun c => { c with initialized := true }

/-- Resets the DMA engine and programs the block. -/
def init (mac : MacAddress) : PoolOp ω (Except NetError Unit) := do
  if (← get).initialized then return .error .alreadyInitialized
  let reset ← besidePool (do
    update .dmabmr 0 dmabmrSr
    cleared .dmabmr dmabmrSr)
  if !reset then
    emit .error "[eth] DMA software reset did not complete"
    return .error .timeout
  configure mac
  emit .info ("[eth] MAC " ++ mac.render ++ " configured, rings 4/4")
  return .ok ()

/-- Stops both directions of the engine and the MAC. -/
def stop : Op ω (Except NetError Unit) := do
  match ← requireInit with
  | .error e => return .error e
  | .ok () =>
  update .dmaomr dmaomrSt 0
  update .maccr maccrRe 0
  update .dmaomr 0 dmaomrFtf
  update .dmaomr dmaomrSr 0
  update .maccr maccrTe 0
  modify fun c => { c with running := false }
  return .ok ()

def deinit : Op ω (Except NetError Unit) := do
  match ← requireInit with
  | .error e => return .error e
  | .ok () =>
  match ← stop with
  | .error e => return .error e
  | .ok () =>
  store .maccr 0
  modify fun c => { c with initialized := false }
  return .ok ()

def setLinkParams (p : LinkParams) : Op ω (Except NetError Unit) := do
  match ← requireInit with
  | .error e => return .error e
  | .ok () =>
  let speed := if p.speed == .mbps100 then maccrFes else 0
  let duplex := if p.duplex == .full then maccrDm else 0
  update .maccr (maccrFes ||| maccrDm) (speed ||| duplex)
  emit .debug ("[eth] MACCR = " ++ Hex.word (← load .maccr))
  return .ok ()

/-- Starts the MAC and both directions of the engine, flushing the transmit FIFO first. -/
def start : Op ω (Except NetError Unit) := do
  match ← requireInit with
  | .error e => return .error e
  | .ok () =>
  update .maccr 0 (maccrTe ||| maccrRe)
  update .dmaomr 0 dmaomrFtf
  if !(← cleared .dmaomr dmaomrFtf) then
    emit .warn "[eth] transmit FIFO flush did not complete"
  update .dmaomr 0 (dmaomrSt ||| dmaomrSr)
  store .dmarpdr 0
  modify fun c => { c with running := true }
  return .ok ()

def wantsBuffer (c : Controller ω) : Bool := c.initialized && (c.rxSlots.get (Controller.at c.rxFill)).isNone

/-- Arms the next receive descriptor with a slot, resuming a receive engine that stopped for
want of buffers. -/
def rxProvide (s : SlotId) : Op ω (Except SlotId Unit) := do
  let c ← get
  if !c.wantsBuffer then return .error s
  let i := c.rxFill
  setEntry .rx i {
    status := rdesOwn
    control := rdesRch ||| (slotSize.toUInt32 &&& rdesBufferMask)
    buffer := .slot s }
  modify fun c => { c with
    rxSlots := Controller.put c.rxSlots i (some s)
    rxFill := (i + 1) % ringSize }
  if c.running then
    if (← load .dmasr) &&& dmasrRbus != 0 then store .dmasr dmasrRbus
    store .dmarpdr 0
  return .ok ()

/-- Reads back the next receive descriptor if the engine has released it. -/
def rxPoll : Op ω (Option RxCompletion) := do
  let c ← get
  let i := c.rxNext
  match c.rxSlots.get (Controller.at i) with
  | none => return none
  | some slot =>
  let d ← entry .rx i
  if d.isDmaOwned then return none
  let capacity := (d.control &&& rdesBufferMask).toNat
  let last := d.status &&& rdesLs != 0
  let before := if d.status &&& rdesFs != 0 then 0 else c.rxFrameBytes
  let (length, error, after) :=
    if last then (min (frameLength d.status - crcSize - before) capacity, d.status &&& rdesEs != 0, 0)
    else (capacity, false, before + capacity)
  set { c with
    rxFrameBytes := after
    rxSlots := Controller.put c.rxSlots i none
    rxNext := (i + 1) % ringSize }
  return some { slot, length, last, error }

/-- Takes back the first armed slot from the next descriptor on, while the engine is stopped;
when no slot is left armed the ring starts over. -/
def rxRevoke : Op ω (Option SlotId) := do
  let c ← get
  if c.running then return none
  match (List.range ringSize).map (fun k => (c.rxNext + k) % ringSize)
      |>.find? (fun i => (c.rxSlots.get (Controller.at i)).isSome) with
  | none => return none
  | some i =>
  let d ← entry .rx i
  setEntry .rx i { d with status := 0, buffer := .none }
  let slot := c.rxSlots.get (Controller.at i)
  let slots := Controller.put c.rxSlots i none
  modify fun c => { c with rxSlots := slots }
  if slots.toList.all Option.isNone then
    modify fun c => { c with rxFill := 0, rxNext := 0, rxFrameBytes := 0 }
  return slot

/-- The status word of the `i`-th of `count` transmit descriptors of a frame. -/
def txStatus (i count : Nat) : UInt32 :=
  tdesTch ||| tdesCicFull ||| (if i == 0 then tdesFs else 0)
    ||| (if i + 1 == count then tdesLs ||| tdesIc else 0)

/-- Queues a frame: one descriptor per fragment, handed to the engine last to first, then a
transmit poll demand. -/
def txSubmit (memory : Pool) (l : FragmentList) (frame : Chain) :
    Op ω (Except (NetError × Chain) Unit) := do
  let c ← get
  if !c.initialized then return .error (.notInitialized, frame)
  if !c.running then return .error (.notRunning, frame)
  let count := l.len
  if count > ringSize - c.txInUse || (c.txFrames.get (Controller.at c.txFrameHead)).isSome then
    return .error (.txBusy, frame)
  let first := c.txHead
  for (f, i) in l.walk.zipIdx do
    setEntry .tx (first + i) {
      status := txStatus i count
      control := f.len.toUInt32 &&& tdesBufferMask
      buffer := match f.source with
        | .pooled s => .slot s
        | .shared _ => .bytes f.data }
  for i in (List.range count).reverse do
    let d ← entry .tx (first + i)
    setEntry .tx (first + i) { d with status := d.status ||| tdesOwn }
  modify fun c => { c with
    txFrames := Controller.put c.txFrames c.txFrameHead (some { frame, first, count })
    txFrameHead := (c.txFrameHead + 1) % ringSize
    txHead := (first + count) % ringSize
    txInUse := c.txInUse + count }
  if (← load .dmasr) &&& dmasrTbus != 0 then store .dmasr dmasrTbus
  store .dmatpdr 0
  modify fun c => { c with block := EthernetBlock.pollTransmit memory c.block }
  return .ok ()

/-- Hands back the oldest queued frame once the engine has released its descriptors, or at
once while the engine is stopped (then it was not sent). -/
def txReclaim : Op ω (Option TxCompletion) := do
  let c ← get
  match c.txFrames.get (Controller.at c.txFrameTail) with
  | none => return none
  | some f =>
  let entries := (List.range f.count).map fun i => EthernetBlock.entry .tx (f.first + i) c.block
  let busy := entries.any RingEntry.isDmaOwned
  if busy && c.running then return none
  let failed := entries.any fun d => d.status &&& tdesEs != 0
  for i in List.range f.count do
    let d ← entry .tx (f.first + i)
    setEntry .tx (f.first + i) { d with status := tdesTch, buffer := .none }
  if failed then
    emit .debug ("[eth] transmit error, " ++ f.frame.total.repr ++ " bytes")
  else if busy then
    emit .debug ("[eth] engine stopped, " ++ f.frame.total.repr ++ " byte frame not sent")
  modify fun c => { c with
    txFrames := Controller.put c.txFrames c.txFrameTail none
    txFrameTail := (c.txFrameTail + 1) % ringSize
    txInUse := c.txInUse - f.count }
  return some { frame := f.frame, sent := !busy && !failed }

/-- Armed receive descriptors the engine has released: the completions `rxPoll` can return
before new traffic, since descriptors armed meanwhile start out owned by the engine. -/
def pending (c : Controller ω) : Nat :=
  ((List.range ringSize).filter fun i =>
    (c.rxSlots.get (Controller.at i)).isSome && !(EthernetBlock.entry .rx i c.block).isDmaOwned).length

instance : MacEngine (Controller ω) where
  init := init
  deinit := deinit
  setLinkParams := setLinkParams
  start := start
  stop := stop
  rxWantsBuffer := wantsBuffer
  rxProvide := rxProvide
  rxPoll := rxPoll
  rxRevoke := rxRevoke
  txRingDepth _ := ringSize
  txSubmit := txSubmit
  txReclaim := txReclaim
  pendingCompletions := pending
  rxHeld c := (c.rxSlots.toList.filter Option.isSome).length
  txHeld c := (c.txFrames.toList.filter Option.isSome).length

end Controller

end Ethernet.Stm32
