import Ethernet.Bench.Single
import Ethernet.Bench.Buffers
import Ethernet.Bench.Dhcp
import Ethernet.Bench.Link
import Ethernet.Bench.Transceiver
import Ethernet.Bench.Netif
import Ethernet.Bench.Stm32
import Ethernet.Bench.Stm32Board
import Ethernet.Bench.ConsoleBench
import Ethernet.Bench.StackBench

/-! The bench's entry point: one request in, one answer out. The `op` field names the
request. -/
namespace Ethernet.Bench

/-- The scripted MAC from `mac` with the scripted PHY from `phy`, in that order. -/
def scriptedBoard (req : Value) : Build ScriptedBoard := do
  let mac ← Build.read (ScriptedMac.create ((req.get? "mac").getD (.obj [])))
  let phy ← Build.read (ScriptedPhy.create ((req.get? "phy").getD (.obj [])))
  return ⟨mac, phy⟩

/-- The scripted MAC from `mac` with a LAN8720 described by `spec`, started unless it says
otherwise. -/
def transceiverBoard (req spec : Value) : Build TransceiverBoard := do
  let mac ← Build.read (ScriptedMac.create ((req.get? "mac").getD (.obj [])))
  return ⟨mac, ← buildTransceiver spec true⟩

/-- The link session: a scripted MAC with the scripted PHY or a LAN8720. -/
def link (req : Value) (steps : List Value) : Value :=
  match req.get? "lan8720" with
  | some spec => linkSession transceiverKit (transceiverBoard req spec) steps
  | none => linkSession scriptedKit (scriptedBoard req) steps

/-- The interface session: a scripted MAC with the scripted PHY or a LAN8720, or the STM32
board on the emulated block. -/
def netif (req : Value) (steps : List Value) : Value :=
  match req.get? "stm32" with
  | some spec => netifSession emulatedKit (buildEmulatedBoard spec) req steps
  | none =>
  match req.get? "lan8720" with
  | some spec =>
    netifSession ⟨transceiverKit, scriptedExtra⟩ (fun _ => transceiverBoard req spec) req steps
  | none => netifSession ⟨scriptedKit, scriptedExtra⟩ (fun _ => scriptedBoard req) req steps

/-- The answer to one request. A request nested deeper than the reader allows is not read, and
a request must be a record. -/
def answer (req : Value) : Value :=
  let reply : Read Value := do
    if req.depth > maxDepth then throw .invalidJson
    if !req.isObj then throw .invalidJson
    match ← req.stringField "op" with
    | "mac_parse" => macParse req
    | "mac_info" => macInfo req
    | "mac_constants" => pure macConstants
    | "ipv4" => ipv4 req
    | "ipv4_fallback" => pure (ipv4ConfigValue Ipv4Config.fallback)
    | "config" => config req
    | "speed_indication" => speedIndication req
    | "smi_clock_range" => smiClockRange req
    | "network_error" => networkError req
    | "phy_error" => phyError req
    | "mutex" => mutex req
    | "descriptor" => descriptor req
    | "buffers" => return buffersSession req (← req.listField "steps")
    | "dhcp" => return dhcpSession req (← req.listField "steps")
    | "link" => return link req (← req.listField "steps")
    | "phy" => return transceiverSession req (← req.listField "steps")
    | "netif" => return netif req (← req.listField "steps")
    | "stm" => return stm32Session req (← req.listField "steps")
    | "console" => return consoleSession (← req.listField "steps")
    | "stack" => return stackSession req (← req.listField "steps")
    | op => throw (.unknownOp op)
  match reply with
  | .ok v => v
  | .error m => m.answer

/-- The answer to a line that is not a request at all. -/
def unreadable : Value := Malformed.invalidJson.answer

end Ethernet.Bench
