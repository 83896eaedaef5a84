import Ethernet.Error

/-! The management bus between a MAC and its PHYs (MDIO, called SMI on some parts): every PHY
answers at a five-bit address and holds thirty-two 16-bit registers. A transfer may fail with
a bus error or a timeout; the bus is a state that each transfer may change. -/
namespace Ethernet

/-- A management bus whose state is `β`. -/
class ManagementBus (β : Type) where
  /-- Reads register `reg` of the PHY at address `phy`. -/
  read : (phy reg : Nat) → β → Except PhyError UInt16 × β
  /-- Writes `value` into register `reg` of the PHY at address `phy`. -/
  write : (phy reg : Nat) → (value : UInt16) → β → Except PhyError Unit × β

end Ethernet
