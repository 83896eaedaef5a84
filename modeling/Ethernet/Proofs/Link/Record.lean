import Ethernet.Proofs.Link.Poll
import Ethernet.Proofs.Interface.Within

/-! The link record of an interface over the scripted board, and the traffic that leaves it alone. -/
namespace Ethernet

namespace Bench

/-- The address the protocol's calls last put into force, `none` before the first. -/
def ScriptedProtocol.lastApplied (p : ScriptedProtocol) : Option Ipv4Config := p.applied.getLast?.join

theorem ScriptedProtocol.records : Records ScriptedProtocol.lastApplied where
  apply _ _ := by simp [AddressProtocol.apply, ScriptedProtocol.lastApplied]
  stop _ := rfl
  start _ := rfl
  supplied _ := rfl

/-- The engine's record of its control calls: the calls, the link parameters it was programmed
with, and whether it is started. -/
def ScriptedMac.controls (m : ScriptedMac) : List MacCall × Option LinkParams × Bool :=
  (m.calls, m.linkParams, m.started)

/-- A board operation that keeps the engine's control record, whenever it ends. -/
def ControlsKept {β : Type} (act : StateT ScriptedBoard Run β) : Prop :=
  ∀ b, Ensures act b (fun _ b' => b'.mac.controls = b.mac.controls) (fun _ => True)

/-! The engine's queue operations keep its control record. -/

theorem controlsKept_rxProvide (s : SlotId) :
    ControlsKept (MacEngine.rxProvide s : StateT ScriptedBoard Run _) := by
  intro b j
  cases wants : b.mac.wantsBuffer <;>
    simp [MacEngine.rxProvide, Board.onMac, wants, ScriptedMac.controls]

theorem controlsKept_rxPoll : ControlsKept (MacEngine.rxPoll : StateT ScriptedBoard Run _) := by
  intro b j
  cases queue : b.mac.completions <;>
    simp [MacEngine.rxPoll, Board.onMac, queue, ScriptedMac.controls]

theorem controlsKept_rxRevoke : ControlsKept (MacEngine.rxRevoke : StateT ScriptedBoard Run _) := by
  intro b j
  cases queue : b.mac.armed <;>
    simp [MacEngine.rxRevoke, Board.onMac, queue, ScriptedMac.controls]

theorem controlsKept_txReclaim : ControlsKept (MacEngine.txReclaim : StateT ScriptedBoard Run _) := by
  intro b j
  cases queue : b.mac.done <;>
    simp [MacEngine.txReclaim, Board.onMac, queue, ScriptedMac.controls]

theorem controlsKept_txSubmit (p : Pool) (l : FragmentList) (frame : Chain) :
    ControlsKept (MacEngine.txSubmit p l frame : StateT ScriptedBoard Run _) := by
  intro b j
  cases failing : b.mac.failTx
  case some e => simp [MacEngine.txSubmit, Board.onMac, failing]
  cases started : b.mac.started
  case false => simp [MacEngine.txSubmit, Board.onMac, failing, started]
  by_cases busy : b.mac.txSlots ≤ b.mac.inFlight.length
  · simp [MacEngine.txSubmit, Board.onMac, failing, started, busy]
  · cases auto : b.mac.autoCompleteTx <;>
      simp [MacEngine.txSubmit, Board.onMac, failing, started, busy, auto, ScriptedMac.controls]

end Bench

open Bench

namespace Interface

/-- The link record: what the link monitor and address acquisition read and write. -/
def linkRecord (i : Interface ScriptedBoard ScriptedProtocol) :
    Settings × Bool × LinkMonitor × Acquisition × Option Ipv4Config ×
      (List MacCall × Option LinkParams × Bool) :=
  (i.settings, i.initialized, i.link, i.acquisition, i.proto.lastApplied, i.board.mac.controls)

theorem linkRecord_eq_iff {i i' : Interface ScriptedBoard ScriptedProtocol} :
    i'.linkRecord = i.linkRecord ↔ i'.settings = i.settings ∧ i'.initialized = i.initialized ∧
      i'.link = i.link ∧ i'.acquisition = i.acquisition ∧
      i'.proto.lastApplied = i.proto.lastApplied ∧ i'.board.mac.controls = i.board.mac.controls := by
  simp [linkRecord]

/-- A board operation that keeps the engine's control record keeps the link record. -/
theorem keepsLink_onBoard {β : Type} {act : StateT ScriptedBoard Run β} (kept : ControlsKept act) :
    Within (Kept linkRecord) (onBoard act : IfRun ScriptedBoard ScriptedProtocol β) :=
  within_onBoard_of kept fun _ _ same => by simp [Kept, linkRecord, same]

/-- Every step of the traffic leaves the link record alone: the engine's queue operations keep
its control record. -/
theorem linkSteps : DatapathSteps (Within (Kept linkRecord)) where
  toClosed := Footprint.closed
  onPool := within_onPool fun _ _ => rfl
  provide _ := keepsLink_onBoard (controlsKept_rxProvide _)
  setRx _ := within_modify fun _ => rfl
  poll := keepsLink_onBoard controlsKept_rxPoll
  revoke := keepsLink_onBoard controlsKept_rxRevoke
  counted _ := within_modify fun _ => rfl
  reclaim := keepsLink_onBoard controlsKept_txReclaim
  submit _ _ _ := keepsLink_onBoard (controlsKept_txSubmit _ _ _)

end Interface

end Ethernet
