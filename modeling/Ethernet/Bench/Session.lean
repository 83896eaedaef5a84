import Ethernet.Bench.Fields
import Ethernet.Journal

/-! Sessions: a component built once and driven step by step. Each step answers a result or an
error, the state after it, and the console lines it wrote; a broken invariant ends the session. -/
namespace Ethernet.Bench

/-- Drops one carriage return at the end of a line that a line feed ended. -/
def dropReturn (l : String) : String := if l.endsWith "\r" then (l.dropEnd 1).copy else l

/-- The lines of a text: split at line feeds, nothing after a final line feed, and a carriage
return dropped where it stands right before a line feed. A carriage return at the very end of
a text without a final line feed is kept, since no line feed ends that line. -/
def splitLines (s : String) : List String :=
  match (s.splitOn "\n").reverse with
  | [] => []
  | last :: ended =>
    let ended := (ended.map dropReturn).reverse
    if last.isEmpty then ended else ended ++ [last]

def Journal.text (j : Journal) : String := j.foldl (fun acc l => acc ++ l.render ++ "\n") ""

/-- What one step answers besides the state. -/
inductive Outcome where
  /-- The step's result. -/
  | result (v : Value)
  /-- An error of the datapath or a malformed step; the session goes on. -/
  | failed (v : Value)

/-- An error outcome from a datapath failure's kind and message. -/
def Outcome.error (kind message : String) : Outcome := .failed (failure kind message)

def Outcome.malformed (m : Malformed) : Outcome := .failed m.answer

/-- How a session drives its component: one step, the state report (which may clear what is
reported since the previous report), and console text written outside the log. -/
structure Session (ω : Type) where
  step : Value → StateT ω Run Outcome
  view : ω → Value × ω
  sink : ω → String × ω := fun w => ("", w)

def logValue (text : String) : Value := .arr ((splitLines text).map .str)

def panicValue (f : Fault) (log : String) : Value :=
  .obj [("error", .str "panic"), ("message", .str f.message), ("log", logValue log)]

/-- Runs the steps from a component state; stops after a panic. -/
def Session.steps (s : Session ω) : ω → List Value → List Value
  | _, [] => []
  | w, v :: rest =>
    match (s.step v w).run #[] with
    | .ok (out, w) j =>
      let (extra, w) := s.sink w
      let log := logValue (Journal.text j ++ extra)
      let (state, w) := s.view w
      let entry := match out with
        | .result r => .obj [("result", r), ("state", state), ("log", log)]
        | .failed e => e.extend [("state", state), ("log", log)]
      entry :: s.steps w rest
    | .error f j => [panicValue f (Journal.text j)]

/-- Building a component from a request: it reads the request's fields as it goes and may
log; a field that does not read, or a failure of the datapath, ends it with an error answer. -/
abbrev Build := ExceptT Value Run

/-- Uses what was read from the request, or ends the build with the answer to what is
malformed. -/
def Build.read (r : Read α) : Build α :=
  match r with
  | .ok a => pure a
  | .error m => throw m.answer

/-- Builds the component and runs the session. Building may fail with an error answer or a
panic; the answer then carries the build's log. -/
def Session.run (s : Session ω) (build : Build ω) (steps : List Value) : Value :=
  match build.run.run #[] with
  | .ok (.ok w) j =>
    let (extra, w) := s.sink w
    let (initial, w) := s.view w
    .obj [("initial", initial), ("init_log", logValue (Journal.text j ++ extra)),
      ("steps", .arr (s.steps w steps))]
  | .ok (.error e) j => e.extend [("log", logValue (Journal.text j))]
  | .error f j => panicValue f (Journal.text j)

def stepName (v : Value) : Read String := v.stringField "do"

/-- A step in progress: it may find the step malformed, and reads and updates the component. -/
abbrev Step (ω : Type) := ExceptT Malformed (StateT ω Run)

/-- Uses what was read from the step, or stops at what is malformed. -/
def Step.read (r : Read α) : Step ω α :=
  match r with
  | .ok a => pure a
  | .error m => throw m

def Step.finish (s : Step ω Outcome) : StateT ω Run Outcome := do
  match ← s.run with
  | .ok o => pure o
  | .error m => pure (.malformed m)

def Step.focus (get : ω → τ) (set : τ → ω → ω) (act : Step τ α) : Step ω α :=
  ExceptT.mk (Ethernet.focus get set act.run)

/-- A step that changes the component by what it reads from the request. -/
def Step.update (f : ω → Read ω) : Step ω Outcome := do
  set (← Step.read (f (← get)))
  return .result .null

/-- Applies a record's settings to the component one field at a time; the fields before a bad
one stay applied, and the bad one is the step's answer. -/
def Step.configure (updates : List (ω → Read ω)) : Step ω Outcome := do
  let (w, bad) := applyFields updates (← get)
  set w
  match bad with
  | some m => throw m
  | none => return .result .null

/-- Runs an operation on a part of the component. -/
def Step.within (get : ω → τ) (set : τ → ω → ω) (act : StateT τ Run α) : Step ω α :=
  ExceptT.lift (Ethernet.focus get set act)

end Ethernet.Bench
