import Ethernet.Frame.Chain
import Ethernet.Bench.Encode

/-! How frames are reported: a chain with its length, its segments and its bytes. A pooled
segment shows its slot, its length, the running frame length kept in the slot and the slot's
reference count; a shared segment shows how many chains hold its bytes. -/
namespace Ethernet.Bench

/-- The most bytes a step may give as one shared allocation. -/
def sharedLimit : Nat := 4096

/-- A segment, with `holders` counting the chains that hold a shared allocation. -/
def segmentValue (p : Pool) (holders : Shared → Nat) : Segment → Value
  | .pooled s =>
    let h := p.header s
    .obj [("kind", .str "pooled"), ("slot", .nat s.index), ("len", .nat h.len),
      ("total_len", .nat h.total), ("ref_count", .nat h.refcount)]
  | .shared d =>
    .obj [("kind", .str "shared"), ("len", .nat d.bytes.length), ("ref_count", .nat (holders d))]

def chainValue (p : Pool) (holders : Shared → Nat) (c : Chain) : Value :=
  .obj [("total_len", .nat c.total), ("segment_count", .nat c.segments.length),
    ("is_empty", .bool c.isEmpty), ("segments", .arr (c.segments.map (segmentValue p holders))),
    ("hex", hexValue (c.toBytes p))]

/-- The number of segments from the allocation `tag` among the chains. -/
def holdersIn (chains : List Chain) (tag : Nat) : Nat :=
  chains.foldl (fun n c => n + (c.segments.filter fun
    | .shared d => d.tag == tag
    | .pooled _ => false).length) 0

/-- The segments an item of a frame to send stands for: its bytes, or the segments of a held
frame. -/
inductive Item where
  | bytes (b : List UInt8)
  | frame (c : Chain)

/-- An item of a frame to send: a held frame when the field `frame` names one (by number, or
`newest` for the last one still held, which is empty when none is), else bytes. -/
def readItem (frames : Array (Option Chain)) (v : Value) : Read Item :=
  match v.get? "frame" with
  | some (.str "newest") =>
    pure (.frame (((frames.toList.filterMap id).getLast?).getD {}))
  | none => Item.bytes <$> v.bytes sharedLimit
  | some x => do
    let n ← Value.asNat "frame" maxU32 x
    match frames[n]? with
    | some (some c) => pure (.frame c)
    | _ => throw (.unknownHandle "frame")

end Ethernet.Bench
