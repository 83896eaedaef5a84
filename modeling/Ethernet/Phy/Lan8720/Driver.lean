import Ethernet.Phy.Bus
import Ethernet.Phy.Control
import Ethernet.Phy.Lan8720.Map

/-! The LAN8720 driver: one PHY address on a management bus and a reset line. Until it is started,
and after it is powered down, every register access is refused; a read-modify-write keeps every
bit outside the field it changes. -/
namespace Ethernet

/-- A LAN8720 on a management bus whose state is `β`. -/
structure Lan8720 (β : Type) where
  bus : β
  address : Nat
  initialized : Bool := false
  /-- Levels driven on the reset line, oldest first; `false` is low. -/
  resetLevels : List Bool := []
  /-- Milliseconds spent waiting. -/
  waitedMs : Nat := 0

namespace Lan8720

variable {β : Type} [ManagementBus β]

/-- A driver operation, which may fail with a PHY error; the changes made before a failure
stay. -/
abbrev Op (β : Type) := ExceptT PhyError (StateT (Lan8720 β) Run)

/-- A driver for the PHY at `address`, which must be at most 31. -/
def attach (bus : β) (address : Nat) : Except PhyError (Lan8720 β) :=
  if address > maxPhyAddress then .error .invalidAddress else .ok { bus, address }

/-- The driver after handing back its bus and binding afresh to the same address: not yet
started. -/
def release (d : Lan8720 β) : Lan8720 β := { d with initialized := false }

def orFail (r : Except PhyError α) : Op β α :=
  match r with
  | .ok a => pure a
  | .error e => throw e

def read (reg : Nat) : Op β UInt16 := do
  let d ← get
  let (r, bus) := ManagementBus.read d.address reg d.bus
  set { d with bus }
  orFail r

def write (reg : Nat) (value : UInt16) : Op β Unit := do
  let d ← get
  let (r, bus) := ManagementBus.write d.address reg value d.bus
  set { d with bus }
  orFail r

def ensureInitialized : Op β Unit := do
  unless (← get).initialized do throw .notInitialized

def driveReset (level : Bool) : Op β Unit :=
  modify fun d => { d with resetLevels := d.resetLevels ++ [level] }

def wait (ms : Nat) : Op β Unit :=
  modify fun d => { d with waitedMs := d.waitedMs + ms }

/-- Hardware reset pulse, then soft reset; fails with `resetFailed` when the soft-reset bit
is still set afterwards. -/
def init : Op β Unit := do
  driveReset false
  wait resetPulseMs
  driveReset true
  wait resetRecoveryMs
  let bcr ← read basicControl
  write basicControl (bcr ||| softReset)
  wait softResetMs
  let bcr ← read basicControl
  if bcr &&& softReset != 0 then
    emit .error "[lan8720] soft reset did not complete"
    throw .resetFailed
  modify fun d => { d with initialized := true }
  emit .debug ("[lan8720] reset complete at address " ++ toString (← get).address)

def readRegister (reg : Nat) : Op β UInt16 := do
  ensureInitialized
  read reg

def writeRegister (reg : Nat) (value : UInt16) : Op β Unit := do
  ensureInitialized
  write reg value

/-- Reads a register, changes it by `f` and writes it back. -/
def update (reg : Nat) (f : UInt16 → UInt16) : Op β Unit := do
  ensureInitialized
  let v ← read reg
  write reg (f v)

/-- Sets or clears the bits of `mask` in a register. -/
def modifyBits (reg : Nat) (mask : UInt16) (on : Bool) : Op β Unit :=
  update reg fun v => if on then v ||| mask else v &&& ~~~mask

def flag (f : Flag) : Op β Bool := do
  ensureInitialized
  let v ← read f.location.1
  return (v &&& f.location.2 != 0) != f.inverted

def setFlag (f : Flag) (on : Bool) : Op β Unit :=
  modifyBits f.location.1 f.location.2 (on != f.inverted)

def field (f : Field) : Op β UInt16 := do
  ensureInitialized
  let (reg, shift, mask) := f.location
  return ((← read reg) >>> shift.toUInt16) &&& mask

def setField (f : Field) (value : UInt16) : Op β Unit :=
  let (reg, shift, mask) := f.location
  update reg fun v => (v &&& ~~~(mask <<< shift.toUInt16)) ||| ((value &&& mask) <<< shift.toUInt16)

/-- Programs the PHY address of the special modes register. -/
def setAddress (a : Nat) : Op β Unit := do
  if a > maxPhyAddress then throw .invalidAddress
  setField .address a.toUInt16

/-- Sets the advertised selector, a five-bit value. -/
def setSelector (s : Nat) : Op β Unit := do
  if s > 0x1F then throw .invalidValue
  setField .selector s.toUInt16

def pause : Op β Pause := Pause.ofBits <$> field .pause

def setPause (p : Pause) : Op β Unit := setField .pause p.bits

def mode : Op β Mode := Mode.ofBits <$> field .mode

def setMode (m : Mode) : Op β Unit := setField .mode m.bits

def channel : Op β Channel := do
  return if ← flag .crossedPairs then .mdix else .mdi

def setChannel (c : Channel) : Op β Unit := setFlag .crossedPairs (c == .mdix)

def polarity : Op β Polarity := do
  return if ← flag .reversedPolarity then .reversed else .normal

def identifier : Op β Identifier := do
  ensureInitialized
  let id1 ← read identifier1
  let id2 ← read identifier2
  return .ofRegisters id1 id2

def capabilities : Op β Capabilities := do
  ensureInitialized
  return .ofStatus (← read basicStatus)

def partner : Op β PartnerAbility := do
  ensureInitialized
  return .ofRegister (← read partnerAbility)

def symbolErrorCount : Op β UInt16 := do
  ensureInitialized
  read symbolErrors

def speedIndication : Op β SpeedIndication := do
  return .ofBits (← field .speed).toNat

/-- Powers the chip down; the driver must be started again before use. -/
def deinit : Op β Unit := do
  modifyBits basicControl (bit 11) true
  modify fun d => { d with initialized := false }

/-- A known baseline: 100 Mbps full duplex forced, no loopback, power-down or isolation, and
the PHY address programmed. -/
def configureDefaults : Op β Unit := do
  setFlag .loopback false
  setFlag .speed100 true
  setFlag .autoNegotiation false
  setFlag .powerDown false
  setFlag .isolate false
  modifyBits basicControl restartNegotiation false
  setFlag .fullDuplex true
  setAddress (← get).address

/-- Turns auto-negotiation on and starts a new round. -/
def startNegotiation : Op β Unit := do
  ensureInitialized
  let bcr ← read basicControl
  write basicControl (bcr ||| bit 12 ||| restartNegotiation)

instance : PhyControl (Lan8720 β) where
  negotiationDone := (flag .negotiationDone).run
  speedIndication := speedIndication.run
  linkStatus := do
    return (← (flag .linkUp).run).map fun up => if up then LinkStatus.up else .down

end Lan8720

end Ethernet
