import Ethernet.Buffer.Pool

/-! Frames as chains of segments, each a packet buffer on a pool slot or a shared byte string,
with the frame length counted at each push. -/
namespace Ethernet

/-- Immutable bytes that several chains may hold; `tag` tells apart separate allocations. -/
structure Shared where
  tag : Nat
  bytes : List UInt8
  deriving DecidableEq, Repr

/-- One piece of a frame. -/
inductive Segment where
  | pooled (slot : SlotId)
  | shared (data : Shared)
  deriving DecidableEq, Repr

namespace Segment

def bytes (p : Pool) : Segment → List UInt8
  | .pooled s => p.payload s
  | .shared d => d.bytes

def len (p : Pool) : Segment → Nat
  | .pooled s => (p.header s).len
  | .shared d => d.bytes.length

end Segment

/-- A frame in pieces, with its length as counted at each push. -/
structure Chain where
  segments : List Segment := []
  total : Nat := 0
  deriving DecidableEq, Repr

namespace Chain

def push (p : Pool) (c : Chain) (seg : Segment) : Chain :=
  ⟨c.segments ++ [seg], c.total + seg.len p⟩

def ofShared (d : Shared) : Chain := ⟨[.shared d], d.bytes.length⟩

def isEmpty (c : Chain) : Bool := c.total == 0

def toBytes (p : Pool) (c : Chain) : List UInt8 := c.segments.flatMap (Segment.bytes p)

def slots (c : Chain) : List SlotId :=
  c.segments.filterMap fun | .pooled s => some s | .shared _ => none

/-- Copies the frame over the front of `out`, segment after segment, each cut to the room
left, and stops once `out` is full: how many bytes were written, and the buffer. -/
def copyTo (p : Pool) (c : Chain) (out : List UInt8) : Nat × List UInt8 :=
  go c.segments 0 out
where
  go : List Segment → Nat → List UInt8 → Nat × List UInt8
    | [], written, out => (written, out)
    | seg :: rest, written, out =>
      let bytes := seg.bytes p
      let n := min bytes.length (out.length - written)
      let out := out.take written ++ bytes.take n ++ out.drop (written + n)
      if written + n = out.length then (written + n, out) else go rest (written + n) out

/-- The one slot of a chain made of a single pooled segment held by nobody else. -/
def singleSlot? (p : Pool) (c : Chain) : Option SlotId :=
  match c.segments with
  | [.pooled s] => if (p.header s).refcount == 1 then some s else none
  | _ => none

/-- The bytes a receiver is handed: the slot's payload in place when the frame is one slot
held by nobody else, otherwise the frame flattened into a copy. -/
def tokenBytes (p : Pool) (c : Chain) : List UInt8 :=
  match c.singleSlot? p with
  | some s => p.payload s
  | none => c.toBytes p

/-- Takes a reference on every pooled segment: the copy pins the frame's slots. -/
def retain (c : Chain) : PoolRun Unit := c.slots.forM Pool.retain

/-- Gives back the reference of every pooled segment, first to last. -/
def release (c : Chain) : PoolRun Unit := c.slots.forM Pool.release

end Chain

end Ethernet
