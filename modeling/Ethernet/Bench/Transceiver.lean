import Ethernet.Phy.Lan8720.Driver
import Ethernet.Bench.RegisterFile
import Ethernet.Bench.Session

/-! The LAN8720 driver on the bench, over an emulated register file.

Fields are named as in the chip's documentation. A field that is only an indication cannot be
set; a setting whose value is not one of its names, or of the wrong kind, is malformed. -/
namespace Ethernet.Bench

/-- The flags the bench names, and whether each may be set. -/
def flagNames : List (String × Lan8720.Flag × Bool) :=
  [("loopback", .loopback, true), ("speed_100", .speed100, true),
    ("auto_negotiation", .autoNegotiation, true), ("power_down", .powerDown, true),
    ("isolate", .isolate, true), ("full_duplex", .fullDuplex, true),
    ("advertise_remote_fault", .advertiseRemoteFault, true),
    ("advertise_100base_tx_full_duplex", .advertise100Full, true),
    ("advertise_100base_tx", .advertise100, true),
    ("advertise_10base_t_full_duplex", .advertise10Full, true),
    ("advertise_10base_t", .advertise10, true),
    ("link_partner_auto_negotiation_able", .partnerNegotiates, false),
    ("parallel_detection_fault", .parallelDetectionFault, false),
    ("energy_detect_power_down", .energyDetectPowerDown, true),
    ("far_loopback", .farLoopback, true), ("alternate_interrupt_mode", .alternateInterrupt, true),
    ("energy_on", .energyOn, false), ("auto_mdix", .autoMdix, true),
    ("sqe_test_off", .sqeTestOff, true)]

def interruptNames : List (String × Lan8720.Interrupt) :=
  [("AutoNegotiationPageReceived", .pageReceived),
    ("ParallelDetectionFault", .parallelDetectionFault),
    ("AutoNegotiationLpAcknowledge", .partnerAcknowledge), ("LinkDown", .linkDown),
    ("RemoteFault", .remoteFault), ("AutoNegotiationComplete", .negotiationComplete),
    ("EnergyOn", .energyOn)]

def pauseNames : List (String × Lan8720.Pause) :=
  [("None", .none), ("Symmetric", .symmetric), ("Asymmetric", .asymmetric), ("Both", .both)]

def modeNames : List (String × Lan8720.Mode) :=
  [("Half10", .half10), ("Full10", .full10), ("Half100", .half100), ("Full100", .full100),
    ("Half100Advertised", .half100Advertised), ("Repeater", .repeater),
    ("PowerDown", .powerDown), ("AllCapable", .allCapable)]

def channelNames : List (String × Lan8720.Channel) := [("Mdi", .mdi), ("Mdix", .mdix)]

def polarityNames : List (String × Lan8720.Polarity) := [("Normal", .normal), ("Reversed", .reversed)]

def nameOf [DecidableEq α] (table : List (String × α)) (a : α) : Value :=
  .str ((table.find? (·.2 == a)).map (·.1) |>.getD "")

def named (table : List (String × α)) (v : Value) (k : String) : Read α := do
  match table.lookup (← v.stringField k) with
  | some a => pure a
  | none => throw (.invalid k)

def identifierValue (i : Lan8720.Identifier) : Value :=
  .obj [("oui", .nat i.oui), ("model", .nat i.model), ("revision", .nat i.revision)]

def capabilitiesValue (c : Lan8720.Capabilities) : Value :=
  .obj [("base100_tx_full_duplex", .bool c.full100), ("base100_tx_half_duplex", .bool c.half100),
    ("base10_t_full_duplex", .bool c.full10), ("base10_t_half_duplex", .bool c.half10),
    ("remote_fault", .bool c.remoteFault), ("jabber_detect", .bool c.jabber)]

def partnerValue (p : Lan8720.PartnerAbility) : Value :=
  .obj [("next_page", .bool p.nextPage), ("acknowledge", .bool p.acknowledge),
    ("remote_fault", .bool p.remoteFault), ("pause", .bool p.pause), ("base100_t4", .bool p.t4),
    ("base100_tx_full_duplex", .bool p.full100), ("base100_tx", .bool p.half100),
    ("base10_t_full_duplex", .bool p.full10), ("base10_t", .bool p.half10),
    ("selector", .nat p.selector)]

variable {β : Type} [ManagementBus β]

def getter (v : Value) : Read (Lan8720.Op β Value) := do
  let name ← v.stringField "field"
  match (flagNames.find? (·.1 == name)).map (·.2.1) with
  | some f => pure (Value.bool <$> Lan8720.flag f)
  | none =>
  match name with
  | "phy_address" => pure ((fun a => Value.nat a.toNat) <$> Lan8720.field .address)
  | "advertise_selector" => pure ((fun a => Value.nat a.toNat) <$> Lan8720.field .selector)
  | "symbol_error_count" => pure ((fun a => Value.nat a.toNat) <$> Lan8720.symbolErrorCount)
  | "identifier" => pure (identifierValue <$> Lan8720.identifier)
  | "capabilities" => pure (capabilitiesValue <$> Lan8720.capabilities)
  | "link_partner_ability" => pure (partnerValue <$> Lan8720.partner)
  | "advertise_pause" => pure (nameOf pauseNames <$> Lan8720.pause)
  | "mode" => pure (nameOf modeNames <$> Lan8720.mode)
  | "channel_select" => pure (nameOf channelNames <$> Lan8720.channel)
  | "polarity" => pure (nameOf polarityNames <$> Lan8720.polarity)
  | "interrupt_pending" => do
    let i ← named interruptNames v "irq"
    pure (Value.bool <$> Lan8720.flag (.interruptPending i))
  | "interrupt_enabled" => do
    let i ← named interruptNames v "irq"
    pure (Value.bool <$> Lan8720.flag (.interruptEnabled i))
  | _ => throw (.invalid "field")

def setter (v : Value) : Read (Lan8720.Op β Unit) := do
  let name ← v.stringField "field"
  match flagNames.find? (·.1 == name) with
  | some (_, f, true) => pure (Lan8720.setFlag f (← v.boolField "value"))
  | some (_, _, false) => throw (.invalid "field")
  | none =>
  match name with
  | "phy_address" => pure (Lan8720.setAddress (← v.natField "value" maxU8))
  | "advertise_selector" => pure (Lan8720.setSelector (← v.natField "value" maxU8))
  | "advertise_pause" => pure (Lan8720.setPause (← named pauseNames v "value"))
  | "mode" => pure (Lan8720.setMode (← named modeNames v "value"))
  | "channel_select" => pure (Lan8720.setChannel (← named channelNames v "value"))
  | "interrupt_enabled" => do
    let i ← named interruptNames v "irq"
    pure (Lan8720.setFlag (.interruptEnabled i) (← v.boolField "value"))
  | _ => throw (.invalid "field")

def Step.driver (act : Lan8720.Op β α) (enc : α → Value) : Step (Lan8720 β) Outcome := do
  match ← ExceptT.lift act.run with
  | .ok a => return .result (enc a)
  | .error e => return .failed (phyErrorValue e)

def linkStatusValue : LinkStatus → Value
  | .up => .str "Up"
  | .down => .str "Down"

def driverStep? (name : String) (v : Value) : Option (Step (Lan8720 β) Outcome) :=
  let done := fun (_ : Unit) => Value.null
  match name with
  | "init" => some (Step.driver Lan8720.init done)
  | "deinit" => some (Step.driver Lan8720.deinit done)
  | "configure_defaults" => some (Step.driver Lan8720.configureDefaults done)
  | "start_auto_negotiation" => some (Step.driver Lan8720.startNegotiation done)
  | "release" => some do
    modify Lan8720.release
    return .result .null
  | "read_register" => some do
    let reg ← Step.read (v.natField "reg" maxU8)
    Step.driver (Lan8720.readRegister reg) fun x => .nat x.toNat
  | "write_register" => some do
    let reg ← Step.read (v.natField "reg" maxU8)
    let value ← Step.read (v.natField "value" maxU16)
    Step.driver (Lan8720.writeRegister reg value.toUInt16) done
  | "address" => some do return .result (.nat (← get).address)
  | "auto_negotiation_done" => some (Step.driver (Lan8720.flag .negotiationDone) .bool)
  | "auto_negotiation_complete" => some (Step.driver (Lan8720.flag .negotiationComplete) .bool)
  | "link_status" => some (Step.driver (Lan8720.flag .linkUp) fun up =>
      linkStatusValue (if up then .up else .down))
  | "speed_indication" => some (Step.driver Lan8720.speedIndication fun s =>
      .obj [("indication", indicationValue s), ("params", .opt linkParamsValue s.params?)])
  | "get" => some do Step.driver (← Step.read (getter v)) id
  | "set" => some do Step.driver (← Step.read (setter v)) done
  | _ => none

/-- The report of a driver over a register file; writes and reset levels are reported once. -/
def transceiverView (d : Lan8720 RegisterFile) : Value × Lan8720 RegisterFile :=
  (.obj [("writes", .arr (d.bus.writes.map fun (r, x) => .arr [.nat r, .nat x.toNat])),
    ("pin", .arr (d.resetLevels.map .bool)), ("delay_ms", .nat d.waitedMs),
    ("initialized", .bool d.initialized)],
    { d with bus := { d.bus with writes := [] }, resetLevels := [] })

/-- The steps on the register file behind a driver. -/
def registerStep? (name : String) (v : Value) : Option (Step (Lan8720 RegisterFile) Outcome) :=
  (RegisterFile.step? name v).map fun f => do
    let d ← get
    let (out, bus) ← Step.read (f d.bus)
    set { d with bus }
    return .result out

/-- The parts of a transceiver record read before the driver is bound, in the order `address`
(default 1), `smi_address` (default the address), the register file's presets, and
`from_config`: the driver's address and its register file. -/
def readTransceiver (v : Value) : Read (Nat × RegisterFile) := do
  let address ← v.natOr "address" maxU8 1
  let file ← RegisterFile.create (← v.natOr "smi_address" maxU8 address) v
  let _ ← v.boolOr "from_config" false
  return (address, file)

/-- A driver over a register file, described by a record; once the driver is bound, the
record says whether to start it (`init`, default `start`). Binding or starting may fail with a
PHY error; what building wrote is not reported. -/
def buildTransceiver (v : Value) (start : Bool) : Build (Lan8720 RegisterFile) := do
  let (address, file) ← Build.read (readTransceiver v)
  let d ← match Lan8720.attach file address with
    | .error e => throw (phyErrorValue e)
    | .ok d => pure d
  let start ← Build.read (v.boolOr "init" start)
  let (r, d) ← (if start then Lan8720.init.run.run d else pure (.ok (), d) : Run _)
  match r with
  | .error e => throw (phyErrorValue e)
  | .ok () => return { d with bus := { d.bus with writes := [] }, resetLevels := [] }

def transceiverSession (req : Value) (steps : List Value) : Value :=
  let session : Session (Lan8720 RegisterFile) :=
    { step := fun v => Step.finish do
        let name ← Step.read (stepName v)
        match driverStep? name v with
        | some act => act
        | none =>
        match registerStep? name v with
        | some act => act
        | none => throw (.unknownStep name)
      view := transceiverView }
  session.run (buildTransceiver req false) steps

end Ethernet.Bench
