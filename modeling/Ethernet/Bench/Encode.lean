import Ethernet.Bench.Fields
import Ethernet.Address.Mac
import Ethernet.Address.Ipv4
import Ethernet.Error
import Ethernet.Link.Params
import Ethernet.Settings
import Ethernet.Text.Hex

/-! How the bench writes the datapath's values.

Errors are records of a kind (the cause's name) and a message (its text); bytes are lower-case
hex text; IPv4 settings carry address, netmask, gateway, prefix length and text. -/
namespace Ethernet.Bench

def hexValue (bs : List UInt8) : Value := .str (Hex.ofBytes bs)

def PhyError.kind : PhyError → String
  | .timeout => "Timeout"
  | .bus => "Bus"
  | .resetFailed => "ResetFailed"
  | .gpio => "Gpio"
  | .invalidAddress => "InvalidAddress"
  | .invalidValue => "InvalidValue"
  | .notInitialized => "NotInitialized"

def NetError.kind : NetError → String
  | .notInitialized => "NotInitialized"
  | .alreadyInitialized => "AlreadyInitialized"
  | .poolExhausted => "PoolExhausted"
  | .hardwareError => "HardwareError"
  | .timeout => "Timeout"
  | .linkDown => "LinkDown"
  | .notRunning => "NotRunning"
  | .transmitTimeout => "TransmitTimeout"
  | .txBusy => "TxBusy"
  | .tooManyFragments _ _ => "TooManyFragments"
  | .frameTooLarge => "FrameTooLarge"
  | .emptyFrame => "EmptyFrame"
  | .invalidConfiguration => "InvalidConfiguration"
  | .phy _ => "Phy"

def phyErrorValue (e : PhyError) : Value := failure (PhyError.kind e) e.message

def netErrorValue (e : NetError) : Value := failure (NetError.kind e) e.message

def phyErrors : List PhyError :=
  [.timeout, .bus, .resetFailed, .gpio, .invalidAddress, .invalidValue, .notInitialized]

def PhyError.ofKind? (s : String) : Option PhyError := phyErrors.find? (PhyError.kind · == s)

/-- The interface failure of a name; a wrapped PHY failure and the fragment counts come from
the arguments. -/
def NetError.ofKind? (s : String) (phy : Option PhyError) (fragments capacity : Nat) :
    Option NetError :=
  let plain : List NetError := [.notInitialized, .alreadyInitialized, .poolExhausted,
    .hardwareError, .timeout, .linkDown, .notRunning, .transmitTimeout, .txBusy,
    .frameTooLarge, .emptyFrame, .invalidConfiguration]
  if s == "TooManyFragments" then some (.tooManyFragments fragments capacity)
  else if s == "Phy" then phy.map .phy
  else plain.find? (NetError.kind · == s)

def ipv4Value (a : Ipv4Addr) : Value := .str a.render

def ipv4ConfigValue (c : Ipv4Config) : Value :=
  .obj [("address", ipv4Value c.address), ("netmask", ipv4Value c.netmask),
    ("gateway", .opt ipv4Value c.gateway), ("prefix_len", .nat c.prefixLen),
    ("text", .str c.render)]

def macValue (m : MacAddress) : Value :=
  .obj [("text", .str m.render), ("bytes", .arr (m.toList.map fun b => .nat b.toNat)),
    ("broadcast", .bool m.isBroadcast), ("multicast", .bool m.isMulticast),
    ("unicast", .bool m.isUnicast), ("local", .bool m.isLocal)]

def linkParamsValue (p : LinkParams) : Value :=
  .obj [("speed", .nat p.speed.mbps),
    ("duplex", .str (match p.duplex with | .half => "Half" | .full => "Full")),
    ("text", .str p.render)]

def indicationValue : SpeedIndication → Value
  | .unknown b => .obj [("Unknown", .nat b)]
  | i => .str i.name

def settingsValue (s : Settings) : Value :=
  .obj [("mac", .str s.mac.render), ("phy_address", .nat s.phyAddress),
    ("rx_buffer_count", .nat s.rxBufferCount), ("dhcp_enabled", .bool s.dhcpEnabled),
    ("max_dhcp_tries", .nat s.maxDhcpTries), ("static_address", ipv4ConfigValue s.staticAddress),
    ("link_poll_interval_ms", .nat s.linkPollIntervalMs),
    ("dhcp_poll_interval_ms", .nat s.dhcpPollIntervalMs),
    ("tx_accept_attempts", .nat s.txAcceptAttempts)]

/-- The largest `u8`, `u16`, `u32` and `u64`. -/
def maxU8 : Nat := 255
def maxU16 : Nat := 65535
def maxU32 : Nat := 4294967295
def maxU64 : Nat := 18446744073709551615

/-- The largest receive pool a request may ask for. -/
def maxPoolRequest : Nat := 1048576

/-- Settings from the fields of a record, read in the order `mac`, `phy_address`,
`rx_buffer_count`, `dhcp_enabled`, `max_dhcp_tries`, `static_address`,
`link_poll_interval_ms`, `dhcp_poll_interval_ms`, `tx_accept_attempts`; absent fields keep
their defaults. -/
def readSettings (v : Value) : Read Settings := do
  let d : Settings := {}
  let mac ← match v.get? "mac" with
    | some m => Value.asMac "mac" m
    | none => pure d.mac
  let phyAddress ← v.natOr "phy_address" maxU8 d.phyAddress
  let rxBufferCount ← v.natOr "rx_buffer_count" maxPoolRequest d.rxBufferCount
  let dhcpEnabled ← v.boolOr "dhcp_enabled" d.dhcpEnabled
  let maxDhcpTries ← v.natOr "max_dhcp_tries" maxU8 d.maxDhcpTries
  let staticAddress ← match v.get? "static_address" with
    | some c => Value.asIpv4Config c
    | none => pure d.staticAddress
  return {
    mac, phyAddress, rxBufferCount, dhcpEnabled, maxDhcpTries, staticAddress
    linkPollIntervalMs := ← v.natOr "link_poll_interval_ms" maxU32 d.linkPollIntervalMs
    dhcpPollIntervalMs := ← v.natOr "dhcp_poll_interval_ms" maxU32 d.dhcpPollIntervalMs
    txAcceptAttempts := ← v.natOr "tx_accept_attempts" maxU32 d.txAcceptAttempts }

end Ethernet.Bench
