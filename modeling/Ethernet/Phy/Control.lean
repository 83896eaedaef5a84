import Ethernet.Journal
import Ethernet.Error
import Ethernet.Link.Params

/-! What the link monitor needs from a PHY: whether auto-negotiation is done, the negotiated
speed indication, and the link-status bit. Each read may fail. -/
namespace Ethernet

/-- A PHY on a board state `η`. -/
class PhyControl (η : Type) where
  negotiationDone : StateT η Run (Except PhyError Bool)
  speedIndication : StateT η Run (Except PhyError SpeedIndication)
  linkStatus : StateT η Run (Except PhyError LinkStatus)

/-- A PHY whose own state is `π`, reached through a part of the board state `η`. -/
@[reducible] def PhyControl.lift [PhyControl π] (get : η → π) (set : π → η → η) : PhyControl η where
  negotiationDone := focus get set PhyControl.negotiationDone
  speedIndication := focus get set PhyControl.speedIndication
  linkStatus := focus get set PhyControl.linkStatus

end Ethernet
