import Ethernet.Interface.Datapath
import Ethernet.Interface.Lifecycle
import Ethernet.Bench.Boards
import Ethernet.Bench.Link
import Ethernet.Bench.Protocol
import Ethernet.Bench.Frames

/-! The interface bench: an interface over a board with the scripted protocol, and a table of the
frames received so far, numbered in arrival order and held until a step drops them. -/
namespace Ethernet.Bench

structure NetifBench (η : Type) where
  iface : Interface η ScriptedProtocol
  frames : Array (Option Chain) := #[]
  nextTag : Nat := 0

/-- What a board brings to the interface bench: its reports and steps, and steps that reach
past the board into the pool, such as delivering bytes into slot memory. -/
structure NetifKit (η : Type) where
  board : BoardKit η
  extra : String → Value → Option (Step (NetifBench η) Outcome)

namespace NetifBench

variable {η : Type}

def held (w : NetifBench η) : List Chain := w.frames.toList.filterMap id

def frameValue (w : NetifBench η) (c : Chain) : Value :=
  chainValue w.iface.pool (fun d => holdersIn w.held d.tag) c

def statsValue (s : InterfaceStats) : Value :=
  .obj [("rx_frames", .nat s.rxFrames), ("rx_dropped", .nat s.rxDropped),
    ("tx_frames", .nat s.txFrames), ("tx_completed", .nat s.txCompleted),
    ("tx_aborted", .nat s.txAborted), ("tx_errors", .nat s.txErrors)]

def poolValue (p : Pool) : Value :=
  let c := p.census
  .obj [("free", .nat c.free), ("hardware", .nat c.hardware), ("software", .nat c.software),
    ("exhausted", .bool p.exhausted), ("alloc_count", .nat p.allocCount),
    ("releases", .nat p.releases), ("alloc_failures", .nat p.allocFailures)]

def view (kit : BoardKit η) (w : NetifBench η) : Value × NetifBench η :=
  let i := w.iface
  let (mac, b) := kit.macView i.board
  let (phy, b) := kit.phyView b
  let (proto, pr) := i.proto.view
  (.obj [("initialized", .bool i.initialized), ("link", linkStateValue i.link.state),
    ("address_state", .str (acquisitionStateName i.acquisition.state)),
    ("ip_config", .opt ipv4ConfigValue i.ipConfig), ("stats", statsValue i.stats),
    ("pool", poolValue i.pool), ("mac", mac), ("phy", phy), ("proto", proto)],
    { w with iface := { i with board := b, proto := pr } })

end NetifBench

namespace NetifStep

open NetifBench

variable {η : Type}

abbrev M (η : Type) := Step (NetifBench η)

def iface (act : IfRun η ScriptedProtocol β) : M η β :=
  Step.within (·.iface) (fun i w => { w with iface := i }) act

def pool (act : PoolRun β) : M η β := iface (Interface.onPool act)

def onBoard (act : Step η β) : M η β :=
  Step.focus (·.iface.board) (fun b w => { w with iface := { w.iface with board := b } }) act

def ok (v : Value) : M η Outcome := pure (.result v)

def answer : Except NetError Unit → M η Outcome
  | .ok () => ok .null
  | .error e => pure (.failed (netErrorValue e))

def hold (c : Chain) : M η Nat := do
  let w ← get
  set { w with frames := w.frames.push (some c) }
  return w.frames.size

def heldValue (c : Chain) (n : Nat) : M η Value := do
  return (frameValue (← get) c).extend [("frame", .nat n)]

/-- Drops held frame `n`. -/
def drop (n : Nat) (c : Chain) : M η Unit := do
  modify fun w => { w with frames := w.frames.set! n none }
  pool c.release

/-- Drops every held frame, oldest first, at most `fuel`. -/
def dropAllFor : Nat → M η Unit
  | 0 => pure ()
  | fuel + 1 => do
    match (← get).frames.toList.zipIdx.find? (·.1.isSome) with
    | some (some c, n) =>
      drop n c
      dropAllFor fuel
    | _ => pure ()

def shared (bytes : List UInt8) : M η Shared := do
  let w ← get
  set { w with nextTag := w.nextTag + 1 }
  return ⟨w.nextTag, bytes⟩

/-- The frame the items make; its copies of held frames take references on their slots. -/
def assemble : List Item → M η Chain
  | [] => pure {}
  | .bytes b :: rest => do
    let d ← shared b
    let c ← assemble rest
    return ⟨.shared d :: c.segments, b.length + c.total⟩
  | .frame f :: rest => do
    pool f.retain
    let c ← assemble rest
    return ⟨f.segments ++ c.segments, f.total + c.total⟩

def eventsValue (e : TickEvents) : Value :=
  .obj [("link", .opt linkEventValue e.link), ("address", .opt addressEventValue e.address),
    ("is_empty", .bool e.isEmpty)]

variable [MacEngine η] [PhyControl η]

/-- The packet device's receive: the frame the consumer sees, which then writes `bytes?` over
its start. -/
def deviceReceive (bytes? : Option (List UInt8)) : M η Outcome := do
  match ← iface Interface.receive with
  | none => ok .null
  | some c =>
    let p := (← get).iface.pool
    let seen := c.tokenBytes p
    if let some bytes := bytes? then
      if let some s := c.singleSlot? p then
        let _ ← pool (Pool.writePayload s bytes)
    pool c.release
    ok (.obj [("len", .nat seen.length), ("hex", hexValue seen)])

/-- The packet device's transmit: refused while the interface is stopped or the link is down;
otherwise the frame goes out and a failure is only logged. -/
def deviceTransmit (bytes : List UInt8) : M η Outcome := do
  if !(← get).iface.canTransmit then return .result (.bool false)
  iface (Interface.transmitShared (← shared bytes))
  ok (.bool true)

def exec (kit : NetifKit η) (v : Value) : M η Outcome := do
  let name ← Step.read (stepName v)
  match name with
  | "init" => answer (← iface Interface.init)
  | "deinit" => answer (← iface Interface.deinit)
  | "receive" =>
    match ← iface Interface.receive with
    | none => ok .null
    | some c => ok (← heldValue c (← hold c))
  | "poll_input" =>
    let frames ← iface Interface.pollInput
    let mut out := #[]
    for c in frames do
      out := out.push (c, ← hold c)
    let mut values := []
    for (c, n) in out.toList do
      values := values ++ [← heldValue c n]
    ok (.obj [("count", .nat frames.length), ("frames", .arr values)])
  | "drop_frame" =>
    let n ← Step.read (v.handle "frame")
    match (← get).frames[n]? with
    | some (some c) =>
      drop n c
      ok .null
    | _ => throw (.unknownHandle "frame")
  | "drop_oldest" =>
    match (← get).frames.toList.zipIdx.find? (·.1.isSome) with
    | some (some c, n) =>
      drop n c
      ok (.nat n)
    | _ => ok .null
  | "drop_frames" =>
    dropAllFor ((← get).frames.size + 1)
    ok .null
  | "output" =>
    let w ← get
    let items ← Step.read ((← Step.read (v.listField "segments")).mapM (readItem w.frames))
    let frame ← assemble items
    let r ← iface (Interface.output frame)
    pool frame.release
    answer r
  | "reclaim_tx" => ok (.nat (← iface Interface.reclaimTx))
  | "service_tick" =>
    let now ← Step.read (v.natField "now" maxU32)
    ok (eventsValue (← iface (Interface.serviceTick now)))
  | "proto" =>
    Step.focus (·.iface.proto) (fun p w => { w with iface := { w.iface with proto := p } })
      (Step.configure (ScriptedProtocol.settings v))
  | "state" => ok .null
  | "info" =>
    let s := (← get).iface.settings
    ok (.obj [("config", settingsValue s), ("mac_address", .str s.mac.render)])
  | "device_receive" => deviceReceive (← Step.read (v.bytes? slotSize))
  | "device_transmit" => deviceTransmit (← Step.read (v.bytes sharedLimit))
  | "device_caps" =>
    ok (.obj [("medium", .str "Ethernet"), ("mtu", .nat maxFrameSize),
      ("max_burst_size", .nat (MacEngine.txRingDepth (← get).iface.board))])
  | _ =>
    match kit.extra name v with
    | some act => act
    | none =>
    match kit.board.step? name v with
    | some act => onBoard act
    | none => throw (.unknownStep name)

end NetifStep

/-- The interface session. It reads the settings from `config` and the protocol from `proto`,
then builds the board for those settings, then creates the interface, which checks the
settings. -/
def netifSession [MacEngine η] [PhyControl η] (kit : NetifKit η)
    (board : Settings → Build η) (req : Value) (steps : List Value) : Value :=
  let build : Build (NetifBench η) := do
    let settings ← Build.read (readSettings ((req.get? "config").getD (.obj [])))
    let proto ← Build.read (createWith (ScriptedProtocol.settings ((req.get? "proto").getD (.obj []))) {})
    let b ← board settings
    match ← Interface.create settings b proto with
    | .error e => throw (netErrorValue e)
    | .ok i => return { iface := i }
  let session : Session (NetifBench η) :=
    { step := fun v => Step.finish (NetifStep.exec kit v), view := NetifBench.view kit.board }
  session.run build steps

/-- Steps of the scripted MAC that reach the pool: `inject` completes the oldest armed
descriptor with bytes written into its slot; `finish_tx` completes the frames in flight. -/
def scriptedExtra (name : String) (v : Value) :
    Option (Step (NetifBench (Board ScriptedMac π)) Outcome) :=
  match name with
  | "inject" => some do
    let bytes ← Step.read (v.bytes slotSize)
    let last ← Step.read (v.boolField "last")
    let error ← Step.read (v.boolOr "error" false)
    let w ← get
    let i := w.iface
    match i.board.mac.deliver i.pool bytes last error with
    | none => return .result (.bool false)
    | some (_, m, p) =>
      set { w with iface := { i with board := { i.board with mac := m }, pool := p } }
      return .result (.bool true)
  | "finish_tx" => some do
    modify fun w => { w with iface := { w.iface with
      board := { w.iface.board with mac := w.iface.board.mac.finishTx } } }
    return .result .null
  | _ => none

end Ethernet.Bench
