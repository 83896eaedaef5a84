/-! A lock around a value: free or held by one guard; dropping the guard stores its value back. -/
namespace Ethernet

/-- A value behind a lock, and whether a guard holds it. -/
structure Lock (α : Type) where
  value : α
  held : Bool := false
  deriving Repr

namespace Lock

/-- A free lock around `a`. -/
def new (a : α) : Lock α := ⟨a, false⟩

/-- Takes the lock if it is free: the guard sees the value. -/
def tryLock (l : Lock α) : Option (α × Lock α) :=
  if l.held then none else some (l.value, { l with held := true })

/-- Drops the guard, storing what it holds. -/
def release (l : Lock α) (a : α) : Lock α := { l with value := a, held := false }

/-- The value, once no guard can exist any more. -/
def intoInner (l : Lock α) : α := l.value

end Lock

/-- What the lock shows for a counter: the guard of a fresh lock adds `add` (wrapping at
2^32), a second attempt to take the lock while the guard lives fails, one after the guard
is dropped succeeds, and the value read out at the end is the sum. -/
structure LockReport where
  tryLockWhileHeld : Bool
  tryLockAfter : Option UInt32
  intoInner : UInt32

/-- Runs that sequence on a lock holding `value`. -/
def Lock.exercise (value add : UInt32) : LockReport :=
  let l := Lock.new value
  match l.tryLock with
  | none => ⟨false, none, value⟩
  | some (v, held) =>
    let whileHeld := (held.tryLock).isSome
    let freed := held.release (v + add)
    let after := freed.tryLock
    let final := match after with
      | some (w, h) => h.release w
      | none => freed
    ⟨whileHeld, after.map Prod.fst, final.intoInner⟩

end Ethernet
