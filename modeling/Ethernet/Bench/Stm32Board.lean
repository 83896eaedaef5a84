import Ethernet.Stm32.Board
import Ethernet.Bench.Netif
import Ethernet.Bench.EmulatedBlock

/-! The interface bench over the STM32 board with the emulated block: the hardware's steps,
the register file's steps, and calls made straight to the controller behind the interface's
back. -/
namespace Ethernet.Bench

open Stm32

abbrev EmulatedBoard := Stm32.Board EmulatedBlock

/-- The report of the PHY driver; its writes are reported with the hardware. -/
def emulatedPhyView (b : EmulatedBoard) : Value × EmulatedBoard :=
  (.obj [("writes", .arr []), ("pin", .arr (b.phy.resetLevels.map .bool)),
    ("delay_ms", .nat b.phy.waitedMs), ("initialized", .bool b.phy.initialized)],
    { b with phy := { b.phy with resetLevels := [] } })

def emulatedMacView (b : EmulatedBoard) : Value × EmulatedBoard :=
  let (v, block) := b.eth.block.view b.eth.running none
  (v, { b with eth := { b.eth with block } })

namespace EmulatedStep

abbrev M := Step (NetifBench EmulatedBoard)

def block : M EmulatedBlock := return (← get).iface.board.eth.block

def setBlock (b : EmulatedBlock) : M Unit :=
  modify fun w => { w with iface := { w.iface with board := { w.iface.board with
    eth := { w.iface.board.eth with block := b } } } }

/-- Runs a controller call straight on the board. -/
def direct (act : Controller.PoolOp EmulatedBlock (Except NetError Unit)) : M Outcome := do
  match ← NetifStep.iface (Interface.onBoardAndPool (Stm32.Board.onEth act)) with
  | .ok () => return .result .null
  | .error e => return .failed (netErrorValue e)

def extra (name : String) (v : Value) : Option (M Outcome) :=
  match name with
  | "mac_init" => some do
    let mac ← Step.read (match v.get? "mac" with
      | some x => Value.asMac "mac" x
      | none => pure MacAddress.localDefault)
    direct (Controller.init mac)
  | "mac_deinit" => some (direct (besidePool Controller.deinit))
  | "mac_start" => some (direct (besidePool Controller.start))
  | "mac_stop" => some (direct (besidePool Controller.stop))
  | _ =>
    match EmulatedBlock.step? name v with
    | some act => some do
      let out ← Step.focus (fun w => (w.iface.board.eth.block, w.iface.pool))
        (fun (b, p) w => { w with iface := { w.iface with pool := p, board := { w.iface.board with
          eth := { w.iface.board.eth with block := b } } } }) act
      return .result out
    | none =>
    (RegisterFile.step? name v).map fun f => do
      let b ← block
      let (out, phy) ← Step.read (f b.phy)
      setBlock { b with phy }
      return .result out

end EmulatedStep

def emulatedKit : NetifKit EmulatedBoard where
  board := { macView := emulatedMacView, phyView := emulatedPhyView, step? := fun _ _ => none }
  extra := EmulatedStep.extra

/-- The STM32 board for an interface, read in the order: the emulated block from `hw` and
`phy` (register file at the interface's PHY address unless it says otherwise), the management
clock from `hclk`, and from the record `lan8720` only `from_config` and, once the driver is
bound, `init`. The LAN8720 sits at the interface's PHY address and is started unless `lan8720`
says `init: false`. A `lan8720` that is neither a record nor null halts the session at the
lookup of `from_config`, as a lookup that would create the field cannot. -/
def buildEmulatedBoard (spec : Value) (settings : Settings) : Build EmulatedBoard := do
  let block ← Build.read (EmulatedBlock.create ((spec.get? "hw").getD (.obj []))
    ((spec.get? "phy").getD (.obj [])) settings.phyAddress)
  let hclk ← Build.read (spec.natOr "hclk" maxU32 168000000)
  let lan := (spec.get? "lan8720").getD (.obj [])
  if !lan.isObj then halt (.badIndex "from_config" lan.kindName)
  let _ ← Build.read (lan.boolOr "from_config" false)
  let eth : Controller EmulatedBlock := { block }
  match Lan8720.attach (SmiClockRange.ofHclk hclk) settings.phyAddress with
  | .error e => throw (phyErrorValue e)
  | .ok phy =>
    let b : EmulatedBoard := { eth, phy }
    if !(← Build.read (lan.boolOr "init" true)) then return b
    let (r, p) ← (Lan8720.init.run.run b.phyPart : Run _)
    let b := Stm32.Board.withPhy p b
    match r with
    | .ok () => return { b with phy := { b.phy with resetLevels := [] } }
    | .error e => throw (phyErrorValue e)

end Ethernet.Bench
