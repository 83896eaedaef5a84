import Ethernet.Journal

/-! The diagnostic console, which forwards text to a sink board code attaches, and the logger,
which writes the lines its level filter passes as `LEVEL: text`. -/
namespace Ethernet

/-- The logger's filter: the most verbose level that passes, or none at all. -/
inductive LevelFilter where
  | off
  | upTo (l : Level)
  deriving DecidableEq, Repr

namespace LevelFilter

def name : LevelFilter → String
  | .off => "OFF"
  | .upTo l => l.name

/-- Whether a line of level `l` passes. -/
def allows : LevelFilter → Level → Bool
  | .off, _ => false
  | .upTo m, l => l.rank ≤ m.rank

end LevelFilter

/-- The console: whether a sink is attached, the logger's filter, and the text the sink has
received. -/
structure Console where
  attached : Bool := true
  filter : LevelFilter := .upTo .trace
  received : String := ""
  deriving DecidableEq, Repr

namespace Console

/-- Writes text; it reaches the sink only while one is attached. -/
def write (c : Console) (s : String) : Console :=
  if c.attached then { c with received := c.received ++ s } else c

/-- Attaches a sink; answers whether one was replaced. -/
def attach (c : Console) : Bool × Console := (c.attached, { c with attached := true })

/-- Removes the sink; answers whether there was one. -/
def detach (c : Console) : Bool × Console := (c.attached, { c with attached := false })

/-- Writes a log line if the filter lets it pass. -/
def log (c : Console) (l : LogLine) : Console :=
  if c.filter.allows l.level then c.write (l.render ++ "\n") else c

end Console

/-- The filter the logger starts with when the build names none. -/
def LevelFilter.fromBuild : LevelFilter := .upTo .info

end Ethernet
