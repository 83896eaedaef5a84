import Ethernet.Interface.Basic

/-! Receiving and sending frames. `receive` re-arms descriptors, then takes completions until a
frame is complete or none is left; `output` offers a pinned copy to the engine up to
`txAcceptAttempts` times. -/
namespace Ethernet

/-- Takes a completed descriptor's slot back from the hardware and gives it to the assembler:
rejected with its frame when the descriptor carries an error, pushed otherwise. Answers the
frame it finishes, if any. -/
def Assembler.take (a : Assembler) (c : RxCompletion) : PoolRun (Option Chain × Assembler) := do
  Pool.reclaim c.slot c.length
  if c.error then
    emit .debug ("[netif] receive error on " ++ c.slot.render)
    return (none, ← a.reject c.slot c.last)
  a.push c.slot c.length c.last

namespace Interface

variable {η α : Type} [MacEngine η] [PhyControl η] [AddressProtocol α]

/-- Gives the next completed descriptor, if any, to the assembler: answers the frame it
finishes, or goes on with `next` when it finishes none. -/
def takeNext (next : IfRun η α (Option Chain)) : IfRun η α (Option Chain) := do
  match ← onBoard MacEngine.rxPoll with
  | none => return none
  | some c =>
    let (frame, a) ← onPool ((← get).rx.take c)
    modify fun i => { i with rx := a }
    match frame with
    | some f => return some f
    | none => next

def receiveFor : Nat → IfRun η α (Option Chain)
  | 0 => pure none
  | fuel + 1 => do
    let starved ← refill
    if starved && (← get).rx.isAssembling then
      let a ← onPool (← get).rx.discard
      modify fun i => { i with rx := a }
    takeNext (receiveFor fuel)

/-- The next complete frame, if the completed descriptors hold one. Every round but the last
consumes a completion, so the pending completions bound the rounds. -/
def receive : IfRun η α (Option Chain) := do
  let i ← get
  if !i.initialized then return none
  receiveFor (MacEngine.pendingCompletions i.board + 1)

/-- Frames received until none is left, at most `fuel`. -/
def pollInputFor : Nat → IfRun η α (List Chain)
  | 0 => pure []
  | fuel + 1 => do
    match ← receive with
    | none => return []
    | some f => return f :: (← pollInputFor fuel)

/-- Every frame the completed descriptors hold, in order. -/
def pollInput : IfRun η α (List Chain) := do
  pollInputFor (MacEngine.pendingCompletions (← get).board + 1)

/-- Offers the pinned copy to the engine, at most `attempts` times. -/
def submitFor (fragments : FragmentList) : Nat → Chain → IfRun η α (Except NetError Unit)
  | 0, pinned => do
    modifyCounters fun s => { s with txErrors := s.txErrors + 1 }
    emit .warn "[netif] transmit ring did not accept frame"
    onPool pinned.release
    return .error .transmitTimeout
  | n + 1, pinned => do
    match ← onBoard (MacEngine.txSubmit (← get).pool fragments pinned) with
    | .ok () =>
      modifyCounters fun s => { s with txFrames := s.txFrames + 1 }
      return .ok ()
    | .error (.txBusy, back) =>
      let _ ← reclaimTx
      submitFor fragments n back
    | .error (e, back) =>
      modifyCounters fun s => { s with txErrors := s.txErrors + 1 }
      emit .warn ("[netif] transmit failed: " ++ e.message)
      onPool back.release
      return .error e

/-- Queues a frame for transmission; the caller keeps its own copy. -/
def output (frame : Chain) : IfRun η α (Except NetError Unit) := do
  let i ← get
  if !i.initialized then return .error .notInitialized
  if !i.link.state.isUp then
    modifyCounters fun s => { s with txErrors := s.txErrors + 1 }
    emit .debug ("[netif] link down, " ++ frame.total.repr ++ " byte frame dropped")
    return .error .linkDown
  let _ ← reclaimTx
  let i ← get
  match FragmentList.build i.pool frame (MacEngine.txRingDepth i.board) with
  | .error e =>
    modifyCounters fun s => { s with txErrors := s.txErrors + 1 }
    emit .warn ("[netif] frame refused: " ++ e.message)
    return .error e
  | .ok fragments =>
    onPool frame.retain
    submitFor fragments i.settings.txAcceptAttempts frame

/-- Whether the interface takes frames from an IP layer: it must be started and its link up. -/
def canTransmit (i : Interface η α) : Bool := i.initialized && i.link.state.isUp

/-- Sends a frame an IP layer filled in. The IP layer has let go of the frame by then, so a
failure is only logged. -/
def transmitShared (d : Shared) : IfRun η α Unit := do
  match ← output (.ofShared d) with
  | .ok () => pure ()
  | .error e => emit .debug ("[stack] dropped outbound frame: " ++ e.message)

end Interface

end Ethernet
