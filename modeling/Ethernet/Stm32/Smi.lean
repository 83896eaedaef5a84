import Ethernet.Phy.Bus
import Ethernet.Stm32.Block

/-! The management bus of the Ethernet block: a transfer waits for the busy bit, stores the command
and waits again. Loads have no side effect, so waiting succeeds at once or times out. -/
namespace Ethernet.Stm32

/-- The management bus of a block, with its clock divider. -/
structure Smi (ω : Type) where
  block : ω
  range : SmiClockRange

namespace Smi

variable {ω : Type} [EthernetBlock ω]

def command (range : SmiClockRange) (phy reg : Nat) : UInt32 :=
  ((phy.toUInt32 &&& 0x1F) <<< miiarPaShift) ||| ((reg.toUInt32 &&& 0x1F) <<< miiarMrShift)
    ||| ((range.code <<< miiarCrShift) &&& miiarCrMask) ||| miiarMb

def idle (b : ω) : Bool := EthernetBlock.load .macmiiar b &&& miiarMb == 0

instance : ManagementBus (Smi ω) where
  read phy reg s :=
    if !idle s.block then (.error .timeout, s)
    else
      let b := EthernetBlock.store .macmiiar (command s.range phy reg) s.block
      if !idle b then (.error .timeout, { s with block := b })
      else (.ok (EthernetBlock.load .macmiidr b &&& 0xFFFF).toUInt16, { s with block := b })
  write phy reg value s :=
    if !idle s.block then (.error .timeout, s)
    else
      let b := EthernetBlock.store .macmiidr value.toUInt32 s.block
      let b := EthernetBlock.store .macmiiar (command s.range phy reg ||| miiarMw) b
      (if idle b then .ok () else .error .timeout, { s with block := b })

end Smi

end Ethernet.Stm32
