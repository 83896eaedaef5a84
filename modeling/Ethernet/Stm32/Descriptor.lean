/-! Normal DMA descriptors in chained mode: status (with the ownership bit 31), control, buffer
address and next address; a ring of `n` links entry `i` to entry `(i + 1) % n`. -/
namespace Ethernet.Stm32

/-! ### Transmit status and control -/

def tdesOwn : UInt32 := (1 : UInt32) <<< 31
def tdesIc : UInt32 := (1 : UInt32) <<< 30
def tdesLs : UInt32 := (1 : UInt32) <<< 29
def tdesFs : UInt32 := (1 : UInt32) <<< 28
def tdesCicFull : UInt32 := (3 : UInt32) <<< 22
def tdesTch : UInt32 := (1 : UInt32) <<< 20
def tdesEs : UInt32 := (1 : UInt32) <<< 15
def tdesBufferMask : UInt32 := 0x1FFF

/-! ### Receive status and control -/

def rdesOwn : UInt32 := (1 : UInt32) <<< 31
def rdesEs : UInt32 := (1 : UInt32) <<< 15
def rdesFs : UInt32 := (1 : UInt32) <<< 9
def rdesLs : UInt32 := (1 : UInt32) <<< 8
def rdesRch : UInt32 := (1 : UInt32) <<< 14
def rdesBufferMask : UInt32 := 0x1FFF

/-- Whether a status word gives the descriptor to the DMA engine. -/
def dmaOwned (status : UInt32) : Bool := status &&& rdesOwn != 0

/-- The frame length field of a receive status word: bits 16 to 29. -/
def frameLength (status : UInt32) : Nat := ((status >>> 16) &&& 0x3FFF).toNat

/-- A descriptor as four words. -/
structure Descriptor where
  status : UInt32 := 0
  control : UInt32 := 0
  buffer : UInt32 := 0
  next : UInt32 := 0
  deriving DecidableEq, Repr

namespace Descriptor

def isDmaOwned (d : Descriptor) : Bool := dmaOwned d.status

def rxFrameLength (d : Descriptor) : Nat := frameLength d.status

def isCleared (d : Descriptor) : Bool := d.status == 0 && d.control == 0 && d.buffer == 0

end Descriptor

def descriptorBytes : Nat := 16

/-- A ring of `n` cleared descriptors at `base`, each linked to the next and the last to the
first. -/
def chainedRing (base n : Nat) : List Descriptor :=
  (List.range n).map fun i => { next := (base + descriptorBytes * ((i + 1) % n)).toUInt32 }

/-- Every entry of a ring at `base` links to the entry after it, the last to the first. -/
def isCircular (base : Nat) (ring : List Descriptor) : Bool :=
  (List.range ring.length).all fun i =>
    match ring[i]? with
    | some d => d.next == (base + descriptorBytes * ((i + 1) % ring.length)).toUInt32
    | none => false

end Ethernet.Stm32
