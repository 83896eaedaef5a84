import Ethernet.Mac.Engine
import Ethernet.Bench.Encode

/-! A scripted MAC/DMA engine in memory: it records its calls, can be told to fail, and keeps armed
and completed receive slots and in-flight and finished frames as queues. -/
namespace Ethernet.Bench

/-- A call the scripted engine received. -/
inductive MacCall where
  | init (m : MacAddress)
  | deinit
  | setLinkParams (p : LinkParams)
  | start
  | stop
  deriving DecidableEq, Repr

structure ScriptedMac where
  calls : List MacCall := []
  linkParams : Option LinkParams := none
  started : Bool := false
  failInit : Bool := false
  failSetLink : Bool := false
  failTx : Option NetError := none
  rxRing : Nat := 4
  armed : List SlotId := []
  completions : List RxCompletion := []
  txDepth : Nat := 4
  txSlots : Nat := 4
  autoCompleteTx : Bool := true
  inFlight : List Chain := []
  done : List TxCompletion := []
  /-- Bytes and fragment count of every accepted frame, oldest first. -/
  sent : List (Nat × List UInt8) := []

namespace ScriptedMac

def record (c : MacCall) (m : ScriptedMac) : ScriptedMac := { m with calls := m.calls ++ [c] }

/-- Stops the engine: frames in flight finish unsent. -/
def abortTx (m : ScriptedMac) : ScriptedMac :=
  { m with
    started := false
    inFlight := []
    done := m.done ++ m.inFlight.map fun f => ⟨f, false⟩ }

def finishTx (m : ScriptedMac) : ScriptedMac :=
  { m with inFlight := [], done := m.done ++ m.inFlight.map fun f => ⟨f, true⟩ }

def wantsBuffer (m : ScriptedMac) : Bool := m.armed.length + m.completions.length < m.rxRing

/-- Completes the oldest armed slot with `length` bytes: the slot whose memory receives the
data, or none when no slot is armed. -/
def inject (m : ScriptedMac) (length : Nat) (last error : Bool) : Option (SlotId × ScriptedMac) :=
  match m.armed with
  | [] => none
  | s :: rest => some (s, { m with armed := rest, completions := m.completions ++ [⟨s, length, last, error⟩] })

/-- Completes the oldest armed slot with `bytes` written into its memory in the pool `p`: the
slot, the engine and the pool after, or none when no slot is armed. -/
def deliver (m : ScriptedMac) (p : Pool) (bytes : List UInt8) (last error : Bool) :
    Option (SlotId × ScriptedMac × Pool) :=
  (m.inject bytes.length last error).map fun (s, m) => (s, m, p.write s bytes)

def ok : StateT ScriptedMac Run (Except NetError Unit) := pure (.ok ())

instance : MacEngine ScriptedMac where
  init mac := besidePool do
    if (← get).failInit then return .error .hardwareError
    modify (record (.init mac))
    ok
  deinit := do
    modify fun m => (record .deinit m).abortTx
    ok
  setLinkParams p := do
    if (← get).failSetLink then return .error .hardwareError
    modify fun m => { record (.setLinkParams p) m with linkParams := some p }
    ok
  start := do
    modify fun m => { record .start m with started := true }
    ok
  stop := do
    modify fun m => (record .stop m).abortTx
    ok
  rxWantsBuffer := wantsBuffer
  rxProvide s := do
    let m ← get
    if !m.wantsBuffer then return .error s
    set { m with armed := m.armed ++ [s] }
    return .ok ()
  rxPoll := do
    let m ← get
    match m.completions with
    | [] => return none
    | c :: rest =>
      set { m with completions := rest }
      return some c
  rxRevoke := do
    let m ← get
    match m.armed with
    | [] => return none
    | s :: rest =>
      set { m with armed := rest }
      return some s
  txRingDepth m := m.txDepth
  txSubmit _ l frame := do
    let m ← get
    if let some e := m.failTx then return .error (e, frame)
    if !m.started then return .error (.notRunning, frame)
    if m.inFlight.length ≥ m.txSlots then return .error (.txBusy, frame)
    let m := { m with sent := m.sent ++ [(l.len, l.walk.flatMap Fragment.data)] }
    if m.autoCompleteTx then set { m with done := m.done ++ [({ frame, sent := true } : TxCompletion)] }
    else set { m with inFlight := m.inFlight ++ [frame] }
    return .ok ()
  txReclaim := do
    let m ← get
    match m.done with
    | [] => return none
    | c :: rest =>
      set { m with done := rest }
      return some c
  pendingCompletions m := m.completions.length
  rxHeld m := m.armed.length + m.completions.length
  txHeld m := m.inFlight.length + m.done.length

def callValue : MacCall → Value
  | .init m => .obj [("Init", .str m.render)]
  | .deinit => .str "Deinit"
  | .setLinkParams p => .obj [("SetLinkParams", linkParamsValue p)]
  | .start => .str "Start"
  | .stop => .str "Stop"

/-- The report of the engine; calls and sent frames are reported once. -/
def view (m : ScriptedMac) : Value × ScriptedMac :=
  (.obj [("calls", .arr (m.calls.map callValue)),
    ("sent", .arr (m.sent.map fun (n, bs) => .obj [("fragments", .nat n), ("hex", hexValue bs)])),
    ("started", .bool m.started), ("link_params", .opt linkParamsValue m.linkParams),
    ("armed", .nat m.armed.length), ("completions", .nat m.completions.length),
    ("in_flight", .nat m.inFlight.length), ("done", .nat m.done.length)],
    { m with calls := [], sent := [] })

/-- The failures a submission can be told to end with. -/
def submitFailures : List NetError := [.notInitialized, .hardwareError, .timeout, .notRunning, .txBusy]

/-- The longest transmit ring and the most frames in flight the engine can be given. -/
def maxTxQueue : Nat := 65536

/-- The switches a record may change, in the order they are read: `tx_depth`, `tx_slots`,
`auto_complete_tx`, `fail_init`, `fail_set_link`, `fail_tx` (a failure's kind, or `null` for
none). -/
def settings (v : Value) : List (ScriptedMac → Read ScriptedMac) :=
  [fun m => do return { m with txDepth := ← v.natOr "tx_depth" maxTxQueue m.txDepth },
   fun m => do return { m with txSlots := ← v.natOr "tx_slots" maxTxQueue m.txSlots },
   fun m => do return { m with autoCompleteTx := ← v.boolOr "auto_complete_tx" m.autoCompleteTx },
   fun m => do return { m with failInit := ← v.boolOr "fail_init" m.failInit },
   fun m => do return { m with failSetLink := ← v.boolOr "fail_set_link" m.failSetLink },
   fun m => match v with
    | .obj fields => match fields.find? (·.1 == "fail_tx") with
      | some (_, .null) => pure { m with failTx := none }
      | some (_, .str k) => match submitFailures.find? (NetError.kind · == k) with
        | some e => pure { m with failTx := some e }
        | none => throw (.invalid "fail_tx")
      | some _ => throw (.invalid "fail_tx")
      | none => pure m
    | _ => pure m]

/-- The longest receive ring the engine can be given. -/
def maxRxRing : Nat := 64

/-- A new engine from the settings of a record: `rx_ring` (default 4, at most 64), then the
switches. -/
def create (v : Value) : Read ScriptedMac := do
  createWith (settings v) { rxRing := ← v.natOr "rx_ring" maxRxRing 4 }

end ScriptedMac

end Ethernet.Bench
