import Ethernet.Console
import Ethernet.Bench.Session

/-! The console bench: the console with a sink attached and every level let through. A step's
log is the text the sink received during it. The logger is already installed, so installing it
again fails. -/
namespace Ethernet.Bench

def levelNames : List (String × Level) :=
  [("error", .error), ("warn", .warn), ("info", .info), ("debug", .debug), ("trace", .trace)]

def filterNamed (s : String) : Option LevelFilter :=
  if s == "off" then some .off else (levelNames.lookup s).map .upTo

def readFilter (v : Value) : Read LevelFilter := do
  match filterNamed (← v.stringField "level") with
  | some f => pure f
  | none => throw (.invalid "level")

def consoleView (c : Console) : Value × Console :=
  (.obj [("attached", .bool c.attached), ("max_level", .str c.filter.name)], c)

def setLoggerFailure : Outcome :=
  .error "SetLoggerError" "attempted to set a logger after the logging system was already initialized"

def consoleStep (v : Value) : Step Console Outcome := do
  let name ← Step.read (stepName v)
  let c ← get
  match name with
  | "print" =>
    set (c.write (← Step.read (v.stringField "text")))
    return .result .null
  | "println" =>
    set (c.write ((← Step.read (v.stringField? "text")).getD "" ++ "\n"))
    return .result .null
  | "detach" =>
    let (had, c) := c.detach
    set c
    return .result (.bool had)
  | "attach" =>
    let (had, c) := c.attach
    set c
    return .result (.bool had)
  | "is_attached" => return .result (.bool c.attached)
  | "level_from_env" => return .result (.str LevelFilter.fromBuild.name)
  | "init_logger" =>
    let _ ← Step.read (readFilter v)
    return setLoggerFailure
  | "init_logger_from_env" => return setLoggerFailure
  | "set_max_level" =>
    set { c with filter := ← Step.read (readFilter v) }
    return .result .null
  | "log" =>
    let level ← Step.read (do
      match levelNames.lookup (← v.stringField "level") with
      | some l => pure l
      | none => throw (.invalid "level"))
    let text ← Step.read (v.stringField "text")
    set (c.log ⟨level, text⟩)
    return .result (.obj [("enabled", .bool (c.filter.allows level))])
  | _ => throw (.unknownStep name)

def consoleSession (steps : List Value) : Value :=
  let session : Session Console :=
    { step := fun v => Step.finish (consoleStep v), view := consoleView,
      sink := fun c => (c.received, { c with received := "" }) }
  session.run (pure {}) steps

end Ethernet.Bench
