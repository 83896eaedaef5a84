/-! Log lines, broken invariants, and `Run`, the operations that may log and may halt. The journal
stays readable after a fault. -/
namespace Ethernet

/-- Severity of a log line, most severe first. -/
inductive Level where
  | error | warn | info | debug | trace
  deriving DecidableEq, Repr

namespace Level

/-- Rank: `error` is 1, `trace` 5. -/
def rank : Level → Nat
  | .error => 1
  | .warn => 2
  | .info => 3
  | .debug => 4
  | .trace => 5

/-- The upper-case name that prefixes a printed line. -/
def name : Level → String
  | .error => "ERROR"
  | .warn => "WARN"
  | .info => "INFO"
  | .debug => "DEBUG"
  | .trace => "TRACE"

end Level

/-- One line of the log. -/
structure LogLine where
  level : Level
  text : String
  deriving DecidableEq, Repr

/-- `LEVEL: text`. -/
def LogLine.render (l : LogLine) : String := l.level.name ++ ": " ++ l.text

abbrev Journal := Array LogLine

/-- An invariant of the buffer pool found broken; slots are named by index. -/
inductive Fault where
  /-- A pool must have between 1 and 65535 slots. -/
  | invalidCapacity (n : Nat)
  /-- The free list named a slot that is not free. -/
  | busyOnFreeList (slot : Nat)
  | reclaimNotHardware (slot : Nat)
  | abandonNotHardware (slot : Nat)
  /-- A packet buffer was used on a slot that software does not own. -/
  | notSoftware
  | refcountOverflow (slot : Nat)
  | doubleRelease (slot : Nat)
  /-- A slot's running frame total passed 2^32 - 1. -/
  | totalOverflow
  /-- A millisecond reading did not fit the stack's signed 64-bit microsecond clock. -/
  | clockScaleOverflow
  /-- A deadline passed the largest time the stack's clock can hold. -/
  | clockAddOverflow
  /-- An address that is neither a unicast address nor the unspecified one was put on the
  interface; it is kept as its text. -/
  | notUnicast (address : String)
  /-- A request asked for the field `key` of a value of kind `kind` that is neither a
  record nor null, through a lookup that would create the field. -/
  | badIndex (key kind : String)
  deriving DecidableEq, Repr

def Fault.message : Fault → String
  | .invalidCapacity n => "Invalid pool capacity: " ++ n.repr
  | .busyOnFreeList s => "assertion `left == right` failed: Free list holds busy slot" ++ s.repr
  | .reclaimNotHardware s =>
    "assertion `left == right` failed: Reclaim of slot" ++ s.repr ++ " not owned by hardware"
  | .abandonNotHardware s =>
    "assertion `left == right` failed: Abandon of slot" ++ s.repr ++ " not owned by hardware"
  | .notSoftware => "assertion `left == right` failed"
  | .refcountOverflow s => "Refcount overflow on slot" ++ s.repr
  | .doubleRelease s => "Double release of slot" ++ s.repr
  | .totalOverflow => "attempt to add with overflow"
  | .clockScaleOverflow => "attempt to multiply with overflow"
  | .clockAddOverflow => "attempt to add with overflow"
  | .notUnicast a => "IP address " ++ a ++ " is not unicast"
  | .badIndex k t => "cannot access key \"" ++ k ++ "\" in JSON " ++ t

abbrev Run := EStateM Fault Journal

def emit (level : Level) (text : String) : Run Unit :=
  modify fun j => j.push ⟨level, text⟩

def halt (f : Fault) : Run α := throw f

/-- Runs an operation on a component's state inside a larger state. -/
def focus [Monad m] (get : σ → τ) (set : τ → σ → σ) (act : StateT τ m α) : StateT σ m α :=
  fun s => do
    let (a, t) ← act (get s)
    pure (a, set t s)

end Ethernet
