/-! Link speed and duplex, and the PHY's three-bit speed indication; an unknown pattern gives no
link parameters. -/
namespace Ethernet

inductive Speed where
  | mbps10
  | mbps100
  deriving DecidableEq, Repr

def Speed.mbps : Speed → Nat
  | .mbps10 => 10
  | .mbps100 => 100

inductive Duplex where
  | half
  | full
  deriving DecidableEq, Repr

/-- Speed and duplex the MAC must be programmed with. -/
structure LinkParams where
  speed : Speed
  duplex : Duplex
  deriving DecidableEq, Repr

/-- `100 Mbps, full duplex`. -/
def LinkParams.render (p : LinkParams) : String :=
  p.speed.mbps.repr ++ " Mbps, " ++ (match p.duplex with | .full => "full" | .half => "half")
    ++ " duplex"

/-- The negotiated mode as the PHY reports it. -/
inductive SpeedIndication where
  | half10
  | full10
  | half100
  | full100
  /-- Any other three-bit pattern. -/
  | unknown (bits : Nat)
  deriving DecidableEq, Repr

namespace SpeedIndication

def ofBits (bits : Nat) : SpeedIndication :=
  match bits % 8 with
  | 1 => .half10
  | 5 => .full10
  | 2 => .half100
  | 6 => .full100
  | b => .unknown b

def params? : SpeedIndication → Option LinkParams
  | .half10 => some ⟨.mbps10, .half⟩
  | .full10 => some ⟨.mbps10, .full⟩
  | .half100 => some ⟨.mbps100, .half⟩
  | .full100 => some ⟨.mbps100, .full⟩
  | .unknown _ => none

/-- The debugging name: `Half10`, …, `Unknown(3)`. -/
def name : SpeedIndication → String
  | .half10 => "Half10"
  | .full10 => "Full10"
  | .half100 => "Half100"
  | .full100 => "Full100"
  | .unknown b => "Unknown(" ++ b.repr ++ ")"

end SpeedIndication

/-- A change of the link as the link monitor publishes it. -/
inductive LinkEvent where
  | up (p : LinkParams)
  | down
  deriving DecidableEq, Repr

/-- The raw link-status bit of the PHY. -/
inductive LinkStatus where
  | down
  | up
  deriving DecidableEq, Repr

end Ethernet
