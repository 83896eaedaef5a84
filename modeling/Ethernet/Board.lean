import Ethernet.Mac.Engine
import Ethernet.Phy.Control

/-! Boards: a MAC with its DMA engine and a PHY, as one state. When the two parts share no
state the board is a pair and each interface acts on its own part. -/
namespace Ethernet

/-- A board with a MAC part and a PHY part that do not share state. -/
structure Board (μ π : Type) where
  mac : μ
  phy : π

namespace Board

def onMac [Monad m] (act : StateT μ m β) : StateT (Board μ π) m β :=
  focus (·.mac) (fun m b => { b with mac := m }) act

instance [MacEngine μ] : MacEngine (Board μ π) where
  init m := onMac (MacEngine.init m)
  deinit := onMac MacEngine.deinit
  setLinkParams p := onMac (MacEngine.setLinkParams p)
  start := onMac MacEngine.start
  stop := onMac MacEngine.stop
  rxWantsBuffer b := MacEngine.rxWantsBuffer b.mac
  rxProvide s := onMac (MacEngine.rxProvide s)
  rxPoll := onMac MacEngine.rxPoll
  rxRevoke := onMac MacEngine.rxRevoke
  txRingDepth b := MacEngine.txRingDepth b.mac
  txSubmit p l c := onMac (MacEngine.txSubmit p l c)
  txReclaim := onMac MacEngine.txReclaim
  pendingCompletions b := MacEngine.pendingCompletions b.mac
  rxHeld b := MacEngine.rxHeld b.mac
  txHeld b := MacEngine.txHeld b.mac

instance [PhyControl π] : PhyControl (Board μ π) :=
  PhyControl.lift (·.phy) (fun p b => { b with phy := p })

end Board

end Ethernet
