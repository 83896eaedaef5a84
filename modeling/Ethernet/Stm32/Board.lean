import Ethernet.Stm32.Controller
import Ethernet.Stm32.Smi
import Ethernet.Phy.Lan8720.Driver

/-! A board with the on-chip Ethernet controller and a LAN8720 on the controller's own
management bus. The PHY driver keeps only its clock divider as its bus: the bus itself is the
controller's register block, so every PHY access goes through the same block the MAC uses. -/
namespace Ethernet.Stm32

structure Board (ω : Type) where
  eth : Controller ω
  phy : Lan8720 SmiClockRange

namespace Board

variable {ω : Type} [EthernetBlock ω]

def phyPart (b : Board ω) : Lan8720 (Smi ω) :=
  { b.phy with bus := ⟨b.eth.block, b.phy.bus⟩ }

/-- The board after the PHY driver changed itself and the block. -/
def withPhy (p : Lan8720 (Smi ω)) (b : Board ω) : Board ω :=
  { eth := { b.eth with block := p.bus.block }, phy := { p with bus := p.bus.range } }

def onEth [Monad m] (act : StateT (Controller ω) m β) : StateT (Board ω) m β :=
  focus (·.eth) (fun e b => { b with eth := e }) act

instance : MacEngine (Board ω) where
  init m := onEth (MacEngine.init m)
  deinit := onEth MacEngine.deinit
  setLinkParams p := onEth (MacEngine.setLinkParams p)
  start := onEth MacEngine.start
  stop := onEth MacEngine.stop
  rxWantsBuffer b := MacEngine.rxWantsBuffer b.eth
  rxProvide s := onEth (MacEngine.rxProvide s)
  rxPoll := onEth MacEngine.rxPoll
  rxRevoke := onEth MacEngine.rxRevoke
  txRingDepth b := MacEngine.txRingDepth b.eth
  txSubmit p l c := onEth (MacEngine.txSubmit p l c)
  txReclaim := onEth MacEngine.txReclaim
  pendingCompletions b := MacEngine.pendingCompletions b.eth
  rxHeld b := MacEngine.rxHeld b.eth
  txHeld b := MacEngine.txHeld b.eth

instance : PhyControl (Board ω) := PhyControl.lift phyPart withPhy

end Board

end Ethernet.Stm32
