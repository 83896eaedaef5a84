import Ethernet.Frame.Chain

/-! Transmit fragment lists: one linked descriptor entry per non-empty segment. Building refuses
an empty frame, then one longer than 1514 bytes, then one with more fragments than the ring. -/
namespace Ethernet

/-- One descriptor's worth of a frame: the segment it comes from, its bytes, and the index of
the next entry. -/
structure Fragment where
  source : Segment
  data : List UInt8
  next : Option Nat
  deriving DecidableEq, Repr

def Fragment.len (f : Fragment) : Nat := f.data.length

/-- The fragments of one frame, in order, and the frame length. -/
structure FragmentList where
  entries : List Fragment
  total : Nat
  deriving DecidableEq, Repr

namespace FragmentList

/-- Links the entries `k, k+1, …` each to its successor. -/
def link (k : Nat) : List (Segment × List UInt8) → List Fragment
  | [] => []
  | [(s, d)] => [⟨s, d, none⟩]
  | (s, d) :: rest => ⟨s, d, some (k + 1)⟩ :: link (k + 1) rest

/-- The fragment list of a frame for a ring of `depth` descriptors. -/
def build (p : Pool) (c : Chain) (depth : Nat) : Except NetError FragmentList :=
  let capacity := min depth txRingSize
  let pieces := (c.segments.map fun s => (s, s.bytes p)).filter fun x => !x.2.isEmpty
  if c.isEmpty then .error .emptyFrame
  else if c.total > maxFrameSize then .error .frameTooLarge
  else if pieces.length > capacity then .error (.tooManyFragments pieces.length capacity)
  else .ok ⟨link 0 pieces, c.total⟩

def len (l : FragmentList) : Nat := l.entries.length

def isEmpty (l : FragmentList) : Bool := l.entries.isEmpty

/-- The entry at `i`, if there is one. -/
def get? (l : FragmentList) (i : Nat) : Option Fragment := l.entries[i]?

/-- The entries reached from the first by following the links, at most `fuel` of them. -/
def walkFrom (l : FragmentList) : Nat → Option Nat → List Fragment
  | 0, _ => []
  | _, none => []
  | fuel + 1, some i => match l.get? i with
    | some f => f :: l.walkFrom fuel f.next
    | none => []

/-- The entries in link order, starting at the first. -/
def walk (l : FragmentList) : List Fragment :=
  l.walkFrom l.len (if l.isEmpty then none else some 0)

end FragmentList

end Ethernet
