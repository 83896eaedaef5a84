/-! Failures of the datapath (`NetError`, which wraps a PHY failure) and of the PHY and its
management bus (`PhyError`), each with one sentence of text per cause. -/
namespace Ethernet

/-- Why a PHY or management-bus operation failed. -/
inductive PhyError where
  | timeout
  | bus
  | resetFailed
  | gpio
  | invalidAddress
  | invalidValue
  | notInitialized
  deriving DecidableEq, Repr

def PhyError.message : PhyError → String
  | .timeout => "SMI timeout"
  | .bus => "SMI bus error"
  | .resetFailed => "PHY reset failed"
  | .gpio => "Reset GPIO error"
  | .invalidAddress => "Invalid PHY address"
  | .invalidValue => "Invalid field value"
  | .notInitialized => "PHY not initialized"

/-- Why an interface or engine operation failed. -/
inductive NetError where
  | notInitialized
  | alreadyInitialized
  | poolExhausted
  | hardwareError
  | timeout
  | linkDown
  | notRunning
  | transmitTimeout
  | txBusy
  /-- The frame needs more descriptors than the transmit ring can give it. -/
  | tooManyFragments (fragments capacity : Nat)
  | frameTooLarge
  | emptyFrame
  | invalidConfiguration
  | phy (e : PhyError)
  deriving DecidableEq, Repr

def NetError.message : NetError → String
  | .notInitialized => "Device not initialized"
  | .alreadyInitialized => "Device already initialized"
  | .poolExhausted => "Buffer pool exhausted"
  | .hardwareError => "Hardware error"
  | .timeout => "Operation timeout"
  | .linkDown => "Link down"
  | .notRunning => "MAC/DMA engine stopped"
  | .transmitTimeout => "Transmit timeout"
  | .txBusy => "Transmit ring busy"
  | .tooManyFragments f c => "Too many fragments: " ++ f.repr ++ " (ring holds " ++ c.repr ++ ")"
  | .frameTooLarge => "Frame too large"
  | .emptyFrame => "Empty frame"
  | .invalidConfiguration => "Invalid configuration"
  | .phy e => "PHY error: " ++ e.message

end Ethernet
