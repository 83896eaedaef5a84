import Ethernet.Stm32.Registers
import Ethernet.Stm32.Descriptor
import Ethernet.Buffer.Pool

/-! The Ethernet block as the driver sees it: registers whose stores may act at once, and two
descriptor rings in memory shared with the DMA engine. -/
namespace Ethernet.Stm32

/-- The two descriptor rings. -/
inductive Ring where
  | rx
  | tx
  deriving DecidableEq, Repr

def ringSize : Nat := rxRingSize

/-- What a descriptor's buffer word points at. -/
inductive Buffer where
  | none
  | slot (s : SlotId)
  | bytes (data : List UInt8)
  deriving DecidableEq, Repr

def Buffer.isSome : Buffer → Bool
  | .none => false
  | _ => true

/-- A descriptor with its buffer resolved. -/
structure RingEntry where
  status : UInt32 := 0
  control : UInt32 := 0
  buffer : Buffer := .none
  deriving DecidableEq, Repr

def RingEntry.isDmaOwned (e : RingEntry) : Bool := dmaOwned e.status

/-- Where the driver keeps each ring; entry `i` sits `16 * i` bytes after the ring's start. -/
def Ring.base : Ring → UInt32
  | .rx => 0x20000000
  | .tx => 0x20000040

def Ring.entryAt (r : Ring) (address : UInt32) : Option Nat :=
  (List.range ringSize).find? fun i => r.base + (descriptorBytes * i).toUInt32 == address

/-- The Ethernet block over a state `ω`: registers and the two descriptor rings. Ring indices
are taken modulo the ring size. -/
class EthernetBlock (ω : Type) where
  load : Reg → ω → UInt32
  store : Reg → UInt32 → ω → ω
  /-- What the engine does about a transmit poll demand once it is stored, reading frames
  from the pool's slot memory. -/
  pollTransmit : Pool → ω → ω
  entry : Ring → Nat → ω → RingEntry
  setEntry : Ring → Nat → RingEntry → ω → ω

/-- The position of a register in a register file. -/
def Reg.index : Reg → Fin 14
  | .maccr => 0
  | .macffr => 1
  | .macmiiar => 2
  | .macmiidr => 3
  | .maca0hr => 4
  | .maca0lr => 5
  | .dmabmr => 6
  | .dmatpdr => 7
  | .dmarpdr => 8
  | .dmardlar => 9
  | .dmatdlar => 10
  | .dmasr => 11
  | .dmaomr => 12
  | .dmaier => 13

end Ethernet.Stm32
