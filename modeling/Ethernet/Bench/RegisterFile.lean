import Ethernet.Phy.Bus
import Ethernet.Bench.Encode

/-! An emulated PHY: thirty-two registers at one bus address, all zero at first. Other addresses
read `0xFFFF` and drop writes; every write is recorded, and a soft reset may clear itself. -/
namespace Ethernet.Bench

structure RegisterFile where
  address : Nat
  regs : Vector UInt16 32 := Vector.replicate 32 0
  /-- Writes that reached the PHY since the last report, oldest first. -/
  writes : List (Nat × UInt16) := []
  resetSelfClears : Bool := true
  fail : Bool := false

namespace RegisterFile

def index (reg : Nat) : Fin 32 := ⟨reg % 32, Nat.mod_lt _ (by decide)⟩

def peek (f : RegisterFile) (reg : Nat) : UInt16 := f.regs.get (index reg)

def poke (f : RegisterFile) (reg : Nat) (value : UInt16) : RegisterFile :=
  { f with regs := f.regs.set (index reg) value (index reg).isLt }

instance : ManagementBus RegisterFile where
  read phy reg f :=
    if f.fail then (.error .bus, f)
    else if phy != f.address then (.ok 0xFFFF, f)
    else (.ok (f.peek reg), f)
  write phy reg value f :=
    if f.fail then (.error .bus, f)
    else if phy != f.address then (.ok (), f)
    else
      let stored := if reg == 0 && f.resetSelfClears then value &&& ~~~0x8000 else value
      (.ok (), { f.poke reg stored with writes := f.writes ++ [(reg, value)] })

def registerCount : Nat := 32

/-- A register number written as decimal text: an optional `+`, then one or more digits; it
must name one of the thirty-two registers. -/
def registerOfText? (k : String) : Option Nat :=
  let digits := match k.toList with
    | '+' :: rest => rest
    | cs => cs
  if digits.isEmpty || !digits.all Char.isDigit then none
  else
    let n := digits.foldl (fun n c => 10 * n + (c.toNat - '0'.toNat)) 0
    if n < registerCount then some n else none

/-- Presets registers from a record of register numbers to values. -/
def preset (f : RegisterFile) : List (String × Value) → Read RegisterFile
  | [] => pure f
  | (k, x) :: rest => do
    let some reg := registerOfText? k | throw (.invalid "regs")
    let value ← Value.asNat "regs" maxU16 x
    (f.poke reg value.toUInt16).preset rest

/-- A register file at `address` with the presets of a record: `regs`, `reset_self_clears`,
`fail`. -/
def create (address : Nat) (v : Value) : Read RegisterFile := do
  let f : RegisterFile := { address }
  let f ← match v.get? "regs" with
    | some (.obj regs) => f.preset regs
    | some _ => throw (.invalid "regs")
    | none => pure f
  return { f with
    resetSelfClears := ← v.boolOr "reset_self_clears" true
    fail := ← v.boolOr "fail" false }

/-- Steps on the register file itself: `poke`, `peek` (of one of the thirty-two registers),
`smi_fail`, `reset_self_clears`. -/
def step? (name : String) (v : Value) : Option (RegisterFile → Read (Value × RegisterFile)) :=
  match name with
  | "poke" => some fun f => do
    let reg ← v.natField "reg" (registerCount - 1)
    let value ← v.natField "value" maxU16
    return (.null, f.poke reg value.toUInt16)
  | "peek" => some fun f => do
    return (.nat (f.peek (← v.natField "reg" (registerCount - 1))).toNat, f)
  | "smi_fail" => some fun f => do
    return (.null, { f with fail := ← v.boolField "value" })
  | "reset_self_clears" => some fun f => do
    return (.null, { f with resetSelfClears := ← v.boolField "value" })
  | _ => none

end RegisterFile

end Ethernet.Bench
