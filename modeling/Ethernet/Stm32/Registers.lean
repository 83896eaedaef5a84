/-! The register map of the STM32F4 Ethernet block: the fourteen registers and the bits the driver
sets or tests. -/
namespace Ethernet.Stm32

/-- A register of the Ethernet block. -/
inductive Reg where
  | maccr | macffr | macmiiar | macmiidr | maca0hr | maca0lr
  | dmabmr | dmatpdr | dmarpdr | dmardlar | dmatdlar | dmasr | dmaomr | dmaier
  deriving DecidableEq, Repr

def Reg.offset : Reg → Nat
  | .maccr => 0x0000
  | .macffr => 0x0004
  | .macmiiar => 0x0010
  | .macmiidr => 0x0014
  | .maca0hr => 0x0040
  | .maca0lr => 0x0044
  | .dmabmr => 0x1000
  | .dmatpdr => 0x1004
  | .dmarpdr => 0x1008
  | .dmardlar => 0x100C
  | .dmatdlar => 0x1010
  | .dmasr => 0x1014
  | .dmaomr => 0x1018
  | .dmaier => 0x101C

def ethBase : Nat := 0x40028000

/-! ### MAC configuration -/

def maccrRe : UInt32 := (1 : UInt32) <<< 2
def maccrTe : UInt32 := (1 : UInt32) <<< 3
def maccrIpco : UInt32 := (1 : UInt32) <<< 10
def maccrDm : UInt32 := (1 : UInt32) <<< 11
def maccrRod : UInt32 := (1 : UInt32) <<< 13
def maccrFes : UInt32 := (1 : UInt32) <<< 14

/-! ### Management bus address register -/

def miiarMb : UInt32 := 1
def miiarMw : UInt32 := 2
def miiarCrShift : UInt32 := 2
def miiarCrMask : UInt32 := (7 : UInt32) <<< 2
def miiarMrShift : UInt32 := 6
def miiarPaShift : UInt32 := 11

/-- The station-address high register reads its top bit as one. -/
def maca0hrMo : UInt32 := (1 : UInt32) <<< 31

/-! ### DMA bus mode, status and operation mode -/

def dmabmrSr : UInt32 := 1
def dmabmrPbl32 : UInt32 := (32 : UInt32) <<< 8
def dmabmrFb : UInt32 := (1 : UInt32) <<< 16
def dmabmrRdp32 : UInt32 := (32 : UInt32) <<< 17
def dmabmrUsp : UInt32 := (1 : UInt32) <<< 23
def dmabmrAab : UInt32 := (1 : UInt32) <<< 25

/-- Transmit buffer unavailable (write one to clear). -/
def dmasrTbus : UInt32 := (1 : UInt32) <<< 2
/-- Receive buffer unavailable (write one to clear). -/
def dmasrRbus : UInt32 := (1 : UInt32) <<< 7

def dmaomrSr : UInt32 := (1 : UInt32) <<< 1
def dmaomrOsf : UInt32 := (1 : UInt32) <<< 2
def dmaomrSt : UInt32 := (1 : UInt32) <<< 13
def dmaomrFtf : UInt32 := (1 : UInt32) <<< 20
def dmaomrTsf : UInt32 := (1 : UInt32) <<< 21
def dmaomrRsf : UInt32 := (1 : UInt32) <<< 25

/-- Polls of the DMA reset bit before giving up. -/
def resetPolls : Nat := 100000

/-- Polls of the management-bus busy bit before giving up. -/
def smiPolls : Nat := 10000

/-- The divider of the system clock that gives the management clock, chosen by the system
clock frequency. -/
inductive SmiClockRange where
  | div42 | div62 | div16 | div26 | div102
  deriving DecidableEq, Repr

namespace SmiClockRange

/-- The range for a system clock of `hz`: below 35 MHz, 60 MHz, 100 MHz, 150 MHz, or above. -/
def ofHclk (hz : Nat) : SmiClockRange :=
  if hz < 35000000 then .div16
  else if hz < 60000000 then .div26
  else if hz < 100000000 then .div42
  else if hz < 150000000 then .div62
  else .div102

def code : SmiClockRange → UInt32
  | .div42 => 0
  | .div62 => 1
  | .div16 => 2
  | .div26 => 3
  | .div102 => 4

def name : SmiClockRange → String
  | .div42 => "Div42"
  | .div62 => "Div62"
  | .div16 => "Div16"
  | .div26 => "Div26"
  | .div102 => "Div102"

end SmiClockRange

end Ethernet.Stm32
