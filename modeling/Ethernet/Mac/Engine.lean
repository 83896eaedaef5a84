import Ethernet.Address.Mac
import Ethernet.Link.Params
import Ethernet.Frame.Fragments

/-! What the interface needs from a MAC and its DMA engine: receive descriptors armed with pool
slots, transmission of fragment lists, and reclaiming finished frames. -/
namespace Ethernet

/-- A receive descriptor that the engine has finished with. -/
structure RxCompletion where
  slot : SlotId
  length : Nat
  last : Bool
  error : Bool
  deriving DecidableEq, Repr

/-- A transmitted (or abandoned) frame handed back by the engine. -/
structure TxCompletion where
  frame : Chain
  sent : Bool
  deriving DecidableEq, Repr

/-- An engine operation that leaves the pool alone, run where the pool is at hand. -/
def besidePool (act : StateT η Run α) : StateT η PoolRun α := fun s => StateT.lift (act s)

/-- A MAC with its DMA engine, on a board state `η`. -/
class MacEngine (η : Type) where
  /-- Programs the engine with a station address; it may drop frames it still holds. -/
  init : MacAddress → StateT η PoolRun (Except NetError Unit)
  deinit : StateT η Run (Except NetError Unit)
  setLinkParams : LinkParams → StateT η Run (Except NetError Unit)
  start : StateT η Run (Except NetError Unit)
  stop : StateT η Run (Except NetError Unit)
  /-- Whether a receive descriptor is waiting for a buffer. -/
  rxWantsBuffer : η → Bool
  /-- Arms a descriptor with a slot, or hands the slot back. -/
  rxProvide : SlotId → StateT η Run (Except SlotId Unit)
  /-- The oldest completed receive descriptor. -/
  rxPoll : StateT η Run (Option RxCompletion)
  /-- Takes back an armed slot that has not completed. -/
  rxRevoke : StateT η Run (Option SlotId)
  txRingDepth : η → Nat
  /-- Queues a frame, or hands it back with the reason. The engine may start sending at once,
  reading the frame's pooled bytes from the pool given. -/
  txSubmit : Pool → FragmentList → Chain → StateT η Run (Except (NetError × Chain) Unit)
  /-- The oldest finished transmission. -/
  txReclaim : StateT η Run (Option TxCompletion)
  /-- How many receive completions `rxPoll` can still return before new traffic. -/
  pendingCompletions : η → Nat
  /-- How many slots the engine holds, armed or completed. -/
  rxHeld : η → Nat
  /-- How many frames the engine holds, queued or finished. -/
  txHeld : η → Nat

end Ethernet
