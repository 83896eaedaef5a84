import Ethernet.Bench.Boards
import Ethernet.Link.Monitor

/-! The link bench: a link monitor over a board, polled step by step. -/
namespace Ethernet.Bench

structure LinkBench (η : Type) where
  monitor : LinkMonitor := {}
  board : η

def linkStateValue : LinkState → Value
  | .down => .str "Down"
  | .up p => .obj [("Up", linkParamsValue p)]

def linkEventValue : LinkEvent → Value
  | .down => .str "Down"
  | .up p => .obj [("Up", linkParamsValue p)]

namespace LinkBench

variable {η : Type} [MacEngine η] [PhyControl η]

def view (kit : BoardKit η) (w : LinkBench η) : Value × LinkBench η :=
  let (phy, b) := kit.phyView w.board
  let (mac, b) := kit.macView b
  (.obj [("state", linkStateValue w.monitor.state), ("is_up", .bool w.monitor.state.isUp),
    ("phy", phy), ("mac", mac)], { w with board := b })

def exec (kit : BoardKit η) (v : Value) : Step (LinkBench η) Outcome := do
  let name ← Step.read (stepName v)
  match name with
  | "poll" =>
    let w ← get
    let ((r, m), b) ← (w.monitor.poll w.board : Run _)
    set { w with monitor := m, board := b }
    match r with
    | .ok e => return .result (.obj [("event", .opt linkEventValue e)])
    | .error e => return .failed (netErrorValue e)
  | "reset" =>
    modify fun w => { w with monitor := {} }
    return .result .null
  | _ =>
    match kit.step? name v with
    | some act => Step.focus (·.board) (fun b w => { w with board := b }) act
    | none => throw (.unknownStep name)

end LinkBench

/-- The link session over a board built by `board`. -/
def linkSession [MacEngine η] [PhyControl η] (kit : BoardKit η) (board : Build η)
    (steps : List Value) : Value :=
  let session : Session (LinkBench η) :=
    { step := fun v => Step.finish (LinkBench.exec kit v), view := LinkBench.view kit }
  session.run (do return { board := ← board }) steps

end Ethernet.Bench
