import Ethernet.Frame.Chain

/-! Assembling received frames from descriptor completions. Each slot joins the frame in progress
and adds its length to the running totals of the slots before it; a receive error rejects the
frame, and after a reject or a discard the rest of that frame is dropped. -/
namespace Ethernet

/-- Receive assembly state: the frame in progress, whether the rest of a frame is being
dropped, and counts of frames handed out and dropped. -/
structure Assembler where
  inProgress : Option Chain := none
  discarding : Bool := false
  frames : Nat := 0
  dropped : Nat := 0
  deriving DecidableEq, Repr

namespace Assembler

def isAssembling (a : Assembler) : Bool := a.inProgress.isSome

/-- Adds a completed slot of `length` bytes; answers the frame when `last` ends it. -/
def push (a : Assembler) (buf : SlotId) (length : Nat) (last : Bool) :
    PoolRun (Option Chain × Assembler) := do
  if a.discarding then
    Pool.release buf
    if last then
      emit .debug "[rx] dropped remainder of discarded frame"
      return (none, { a with discarding := false, dropped := a.dropped + 1 })
    return (none, a)
  let chain := a.inProgress.getD {}
  chain.slots.forM fun s => Pool.addTotal s length
  let chain := chain.push (← get) (.pooled buf)
  if last then
    return (some chain, { a with inProgress := none, frames := a.frames + 1 })
  return (none, { a with inProgress := some chain })

/-- Drops the frame in progress, if any, and the rest of it as it arrives. -/
def discard (a : Assembler) : PoolRun Assembler := do
  match a.inProgress with
  | none => return a
  | some pending =>
    emit .warn ("[rx] discarding partial frame (" ++ pending.total.repr ++ " bytes in "
      ++ pending.segments.length.repr ++ " slots)")
    pending.release
    return { a with inProgress := none, discarding := true }

/-- Rejects a slot that completed with an error, and with it the frame it belongs to. -/
def reject (a : Assembler) (buf : SlotId) (last : Bool) : PoolRun Assembler := do
  Pool.release buf
  let dropPartial := a.inProgress
  match dropPartial with
  | some c => c.release
  | none => pure ()
  if last then
    return { a with inProgress := none, discarding := false, dropped := a.dropped + 1 }
  return { a with inProgress := none, discarding := true }

/-- Gives back every reference the assembler holds. -/
def clear (a : Assembler) : PoolRun Unit := do
  match a.inProgress with
  | some c => c.release
  | none => pure ()

end Assembler

end Ethernet
