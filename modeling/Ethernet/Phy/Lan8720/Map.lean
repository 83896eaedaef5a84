import Ethernet.Settings

/-! The register map of the LAN8720 10/100 transceiver: one-bit `Flag`s, wider `Field`s, and the
records decoded from whole registers. -/
namespace Ethernet.Lan8720

def basicControl : Nat := 0x00
def basicStatus : Nat := 0x01
def identifier1 : Nat := 0x02
def identifier2 : Nat := 0x03
def advertisement : Nat := 0x04
def partnerAbility : Nat := 0x05
def negotiationExpansion : Nat := 0x06
def modeControl : Nat := 0x11
def specialModes : Nat := 0x12
def symbolErrors : Nat := 0x1A
def controlIndications : Nat := 0x1B
def interruptSource : Nat := 0x1D
def interruptMask : Nat := 0x1E
def specialStatus : Nat := 0x1F

/-- The bit at position `n` of a register. -/
def bit (n : Nat) : UInt16 := (1 : UInt16) <<< n.toUInt16

/-- Soft reset in the basic control register; it clears itself when the reset is done. -/
def softReset : UInt16 := bit 15
/-- Restarts auto-negotiation; it clears itself. -/
def restartNegotiation : UInt16 := bit 9

/-- Reset timing: the pulse on nRST, the settling time after it, and the soft reset. -/
def resetPulseMs : Nat := 50
def resetRecoveryMs : Nat := 10
def softResetMs : Nat := 50

/-- Interrupt sources, shared by the source and mask registers. -/
inductive Interrupt where
  | pageReceived
  | parallelDetectionFault
  | partnerAcknowledge
  | linkDown
  | remoteFault
  | negotiationComplete
  | energyOn
  deriving DecidableEq, Repr

def Interrupt.position : Interrupt → Nat
  | .pageReceived => 1
  | .parallelDetectionFault => 2
  | .partnerAcknowledge => 3
  | .linkDown => 4
  | .remoteFault => 5
  | .negotiationComplete => 6
  | .energyOn => 7

/-- A one-bit setting or indication. -/
inductive Flag where
  | loopback
  | speed100
  | autoNegotiation
  | powerDown
  | isolate
  | fullDuplex
  | negotiationComplete
  | linkUp
  | advertiseRemoteFault
  | advertise100Full
  | advertise100
  | advertise10Full
  | advertise10
  | partnerNegotiates
  | parallelDetectionFault
  | energyDetectPowerDown
  | farLoopback
  | alternateInterrupt
  | energyOn
  | autoMdix
  | sqeTestOff
  | crossedPairs
  | reversedPolarity
  | negotiationDone
  | interruptPending (i : Interrupt)
  | interruptEnabled (i : Interrupt)
  deriving DecidableEq, Repr

/-- Where a flag lives: its register and its bit. -/
def Flag.location : Flag → Nat × UInt16
  | .loopback => (basicControl, bit 14)
  | .speed100 => (basicControl, bit 13)
  | .autoNegotiation => (basicControl, bit 12)
  | .powerDown => (basicControl, bit 11)
  | .isolate => (basicControl, bit 10)
  | .fullDuplex => (basicControl, bit 8)
  | .negotiationComplete => (basicStatus, bit 5)
  | .linkUp => (basicStatus, bit 2)
  | .advertiseRemoteFault => (advertisement, bit 13)
  | .advertise100Full => (advertisement, bit 8)
  | .advertise100 => (advertisement, bit 7)
  | .advertise10Full => (advertisement, bit 6)
  | .advertise10 => (advertisement, bit 5)
  | .partnerNegotiates => (negotiationExpansion, bit 0)
  | .parallelDetectionFault => (negotiationExpansion, bit 4)
  | .energyDetectPowerDown => (modeControl, bit 13)
  | .farLoopback => (modeControl, bit 9)
  | .alternateInterrupt => (modeControl, bit 6)
  | .energyOn => (modeControl, bit 1)
  | .autoMdix => (controlIndications, bit 15)
  | .sqeTestOff => (controlIndications, bit 11)
  | .crossedPairs => (controlIndications, bit 13)
  | .reversedPolarity => (controlIndications, bit 4)
  | .negotiationDone => (specialStatus, bit 12)
  | .interruptPending i => (interruptSource, bit i.position)
  | .interruptEnabled i => (interruptMask, bit i.position)

/-- Whether the bit is set when the flag is off: auto-MDIX is on while its control bit, which
hands pair selection to software, is clear. -/
def Flag.inverted : Flag → Bool
  | .autoMdix => true
  | _ => false

/-- A field of several bits. -/
inductive Field where
  | pause
  | selector
  | mode
  | address
  | speed
  deriving DecidableEq, Repr

/-- Where a field lives: register, shift and mask (after the shift). -/
def Field.location : Field → Nat × Nat × UInt16
  | .pause => (advertisement, 10, 0x3)
  | .selector => (advertisement, 0, 0x1F)
  | .mode => (specialModes, 5, 0x7)
  | .address => (specialModes, 0, 0x1F)
  | .speed => (specialStatus, 2, 0x7)

/-- The pause ability advertised during auto-negotiation. -/
inductive Pause where
  | none
  | symmetric
  | asymmetric
  | both
  deriving DecidableEq, Repr

def Pause.bits : Pause → UInt16
  | .none => 0
  | .symmetric => 1
  | .asymmetric => 2
  | .both => 3

def Pause.ofBits (b : UInt16) : Pause :=
  match (b &&& 3).toNat with
  | 0 => .none
  | 1 => .symmetric
  | 2 => .asymmetric
  | _ => .both

/-- The MODE strap field, latched at reset. -/
inductive Mode where
  | half10
  | full10
  | half100
  | full100
  | half100Advertised
  | repeater
  | powerDown
  | allCapable
  deriving DecidableEq, Repr

def Mode.bits : Mode → UInt16
  | .half10 => 0
  | .full10 => 1
  | .half100 => 2
  | .full100 => 3
  | .half100Advertised => 4
  | .repeater => 5
  | .powerDown => 6
  | .allCapable => 7

def Mode.ofBits (b : UInt16) : Mode :=
  match (b &&& 7).toNat with
  | 0 => .half10
  | 1 => .full10
  | 2 => .half100
  | 3 => .full100
  | 4 => .half100Advertised
  | 5 => .repeater
  | 6 => .powerDown
  | _ => .allCapable

/-- Manual pair assignment when auto-MDIX is off. -/
inductive Channel where
  | mdi
  | mdix
  deriving DecidableEq, Repr

inductive Polarity where
  | normal
  | reversed
  deriving DecidableEq, Repr

/-- The identifier in registers 2 and 3. -/
structure Identifier where
  /-- Bits 3 to 24 of the organisationally unique identifier. -/
  oui : Nat
  model : Nat
  revision : Nat
  deriving DecidableEq, Repr

def Identifier.ofRegisters (id1 id2 : UInt16) : Identifier where
  oui := id1.toNat + ((id2 >>> 10) &&& 0x3F).toNat * Nat.pow 2 16
  model := ((id2 >>> 4) &&& 0x3F).toNat
  revision := (id2 &&& 0xF).toNat

/-- The bit `n` of a register value. -/
def test (v : UInt16) (n : Nat) : Bool := v &&& bit n != 0

/-- The abilities in the basic status register. -/
structure Capabilities where
  full100 : Bool
  half100 : Bool
  full10 : Bool
  half10 : Bool
  remoteFault : Bool
  jabber : Bool
  deriving DecidableEq, Repr

def Capabilities.ofStatus (v : UInt16) : Capabilities :=
  ⟨test v 14, test v 13, test v 12, test v 11, test v 4, test v 1⟩

/-- The base page received from the link partner (register 5). -/
structure PartnerAbility where
  nextPage : Bool
  acknowledge : Bool
  remoteFault : Bool
  pause : Bool
  t4 : Bool
  full100 : Bool
  half100 : Bool
  full10 : Bool
  half10 : Bool
  selector : Nat
  deriving DecidableEq, Repr

def PartnerAbility.ofRegister (v : UInt16) : PartnerAbility :=
  ⟨test v 15, test v 14, test v 13, test v 10, test v 9, test v 8, test v 7, test v 6, test v 5,
    (v &&& 0x1F).toNat⟩

end Ethernet.Lan8720
