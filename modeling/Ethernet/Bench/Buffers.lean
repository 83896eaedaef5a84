import Ethernet.Bench.Session
import Ethernet.Bench.Frames
import Ethernet.Frame.Assembly
import Ethernet.Frame.Fragments

/-! The buffer bench: one pool, one receive assembler, and tables of the slots, packet buffers
and chains the steps create. Handles are numbered from 0 in creation order and never reused;
a slot is known once it has been allocated. -/
namespace Ethernet.Bench

/-- The buffer bench's world. `armed` lists the slots whose receive buffer is still held. -/
structure BufferBench where
  pool : Pool
  assembler : Assembler := {}
  known : List Nat := []
  armed : List Nat := []
  bufs : Array (Option SlotId) := #[]
  chains : Array (Option Chain) := #[]
  nextTag : Nat := 0

namespace BufferBench

def chainValue (w : BufferBench) (c : Chain) : Value :=
  Bench.chainValue w.pool (fun d => holdersIn (w.chains.toList.filterMap id) d.tag) c

def bufDebug (p : Pool) (s : SlotId) : String :=
  let h := p.header s
  "PacketBuf \x7b slot: SlotId(" ++ s.index.repr ++ "), len: " ++ h.len.repr ++ ", tot_len: "
    ++ h.total.repr ++ ", refcount: " ++ h.refcount.repr ++ " \x7d"

def chainDebug (p : Pool) (c : Chain) : String :=
  let seg : Segment → String
    | .pooled s => "Pooled(" ++ bufDebug p s ++ ")"
    | .shared d => "Shared([" ++ ", ".intercalate (d.bytes.map fun b => b.toNat.repr) ++ "])"
  "PacketChain \x7b segments: [" ++ ", ".intercalate (c.segments.map seg) ++ "], tot_len: "
    ++ c.total.repr ++ " \x7d"

def assemblerDebug (p : Pool) (a : Assembler) : String :=
  let inProgress := match a.inProgress with
    | some c => "Some(" ++ chainDebug p c ++ ")"
    | none => "None"
  "RxChainBuilder \x7b in_progress: " ++ inProgress ++ ", discarding: "
    ++ (if a.discarding then "true" else "false") ++ ", frames: " ++ a.frames.repr
    ++ ", dropped: " ++ a.dropped.repr ++ " \x7d"

def view (w : BufferBench) : Value × BufferBench :=
  let c := w.pool.census
  (.obj [("pool", .obj [("capacity", .nat w.pool.capacity), ("free", .nat c.free),
      ("hardware", .nat c.hardware), ("software", .nat c.software),
      ("free_count", .nat w.pool.freeList.length), ("exhausted", .bool w.pool.exhausted),
      ("alloc_count", .nat w.pool.allocCount), ("releases", .nat w.pool.releases),
      ("alloc_failures", .nat w.pool.allocFailures)]),
    ("rx", .obj [("assembling", .bool w.assembler.isAssembling),
      ("frames", .nat w.assembler.frames), ("dropped", .nat w.assembler.dropped)])], w)

end BufferBench

namespace BufferStep

open BufferBench

/-- The most bytes a chain is copied out into at once. -/
def copyLimit : Nat := 65536

def maxCloneRun : Nat := 131072

abbrev M := Step BufferBench

def pool (act : PoolRun α) : M α := Step.within (·.pool) (fun p w => { w with pool := p }) act

/-- The known slot with index `i`. -/
def slotAt (i : Nat) : M SlotId := do
  if (← get).known.contains i then return ⟨i⟩ else throw (.unknownHandle "slot")

/-- The live packet buffer with handle `i`. -/
def bufAt (i : Nat) : M (Nat × SlotId) := do
  match (← get).bufs[i]? with
  | some (some s) => return (i, s)
  | _ => throw (.unknownHandle "buf")

/-- The live chain with handle `i`. -/
def chainAt (i : Nat) : M (Nat × Chain) := do
  match (← get).chains[i]? with
  | some (some c) => return (i, c)
  | _ => throw (.unknownHandle "chain")

def handle (v : Value) (k : String) : M Nat := Step.read (v.handle k)

/-- A known slot named by the field `slot`. -/
def slot (v : Value) : M SlotId := do slotAt (← handle v "slot")

/-- A live packet buffer named by the field `buf`. -/
def buf (v : Value) : M (Nat × SlotId) := do bufAt (← handle v "buf")

/-- A live chain named by the field `chain`. -/
def chain (v : Value) : M (Nat × Chain) := do chainAt (← handle v "chain")

def newBuf (s : SlotId) : M Nat := do
  let w ← get
  set { w with bufs := w.bufs.push (some s) }
  return w.bufs.size

def forgetBuf (i : Nat) : M Unit :=
  modify fun w => { w with bufs := w.bufs.modify i fun _ => none }

def newChain (c : Chain) : M Nat := do
  let w ← get
  set { w with chains := w.chains.push (some c) }
  return w.chains.size

def setChain (i : Nat) (c : Option Chain) : M Unit :=
  modify fun w => { w with chains := w.chains.modify i fun _ => c }

def shared (bytes : List UInt8) : M Shared := do
  let w ← get
  set { w with nextTag := w.nextTag + 1 }
  return ⟨w.nextTag, bytes⟩

def disarm (s : SlotId) : M Unit :=
  modify fun w => { w with armed := w.armed.filter (· != s.index) }

/-- Clones the buffer the step names `n` times in a row, each clone under a new handle;
answers the last handle. The buffer is looked up for each clone, so a run of none names no
buffer at all. -/
def cloneTimes (v : Value) : Nat → Option Nat → M (Option Nat)
  | 0, last => pure last
  | n + 1, _ => do
    let (_, s) ← buf v
    pool (Pool.retain s)
    cloneTimes v n (some (← newBuf s))

def ok (v : Value) : M Outcome := pure (.result v)

def done : M Outcome := ok .null

def netError (e : NetError) : Outcome := .failed (netErrorValue e)

def ownerName : Owner → String
  | .free => "Free"
  | .hardware => "Hardware"
  | .software => "Software"

def fragmentsValue (l : FragmentList) : Value :=
  .obj [("len", .nat l.len), ("is_empty", .bool l.isEmpty), ("total_len", .nat l.total),
    ("fragments", .arr (l.entries.map fun f =>
      .obj [("len", .nat f.len), ("next", .opt .nat f.next), ("hex", hexValue f.data)])),
    ("walk", .arr (l.walk.map fun f => .nat f.len))]

def exec (v : Value) : M Outcome := do
  match ← Step.read (stepName v) with
  | "allocate" =>
    match ← pool Pool.allocate with
    | .ok s =>
      modify fun w => { w with known := if w.known.contains s.index then w.known
        else w.known ++ [s.index], armed := s.index :: w.armed.filter (· != s.index) }
      ok (.obj [("slot", .nat s.index)])
    | .error e => return netError e
  | "dma_write" =>
    let s ← slot v
    let bytes ← Step.read (v.bytes slotSize)
    if !(← get).armed.contains s.index then throw .slotNotArmed
    modify fun w => { w with pool := w.pool.write s bytes }
    ok (.obj [("written", .nat bytes.length)])
  | "reclaim" =>
    let s ← slot v
    let len ← Step.read (v.natField "len" maxU32)
    pool (Pool.reclaim s len)
    disarm s
    ok (.obj [("buf", .nat (← newBuf s))])
  | "abandon" =>
    let s ← slot v
    pool (Pool.abandon s)
    disarm s
    done
  | "owner" =>
    let s ← slot v
    ok (.str (ownerName ((← get).pool.owner s)))
  | "clone_buf" =>
    let times ← Step.read (v.natOr "times" maxCloneRun 1)
    ok (.opt (fun i => .obj [("buf", .nat i)]) (← cloneTimes v times none))
  | "drop_buf" =>
    let (i, s) ← buf v
    forgetBuf i
    pool (Pool.release s)
    done
  | "buf_info" =>
    let (_, s) ← buf v
    let p := (← get).pool
    let h := p.header s
    ok (.obj [("slot", .nat s.index), ("slot_text", .str s.render), ("len", .nat h.len),
      ("is_empty", .bool (h.len == 0)), ("total_len", .nat h.total),
      ("ref_count", .nat h.refcount), ("writable", .bool (h.refcount == 1)),
      ("hex", hexValue (p.payload s))])
  | "buf_write" =>
    let bytes ← Step.read (v.bytes slotSize)
    let (_, s) ← buf v
    ok (.obj [("written", .opt .nat (← pool (Pool.writePayload s bytes)))])
  | "rx_push" =>
    let length ← Step.read (v.natField "length" maxU32)
    let last ← Step.read (v.boolField "last")
    let (i, s) ← buf v
    forgetBuf i
    let a := (← get).assembler
    let (frame, a) ← pool (a.push s length last)
    modify fun w => { w with assembler := a }
    match frame with
    | some c =>
      let id ← newChain c
      ok (.obj [("chain", .nat id), ("info", (← get).chainValue c)])
    | none => ok (.obj [("chain", .null)])
  | "rx_discard" =>
    let a ← pool ((← get).assembler.discard)
    modify fun w => { w with assembler := a }
    done
  | "rx_reject" =>
    let last ← Step.read (v.boolField "last")
    let (i, s) ← buf v
    forgetBuf i
    let a ← pool ((← get).assembler.reject s last)
    modify fun w => { w with assembler := a }
    done
  | "chain_new" => ok (.obj [("chain", .nat (← newChain {}))])
  | "chain_shared" =>
    let d ← shared (← Step.read (v.bytes sharedLimit))
    ok (.obj [("chain", .nat (← newChain (Chain.ofShared d)))])
  | "chain_push_shared" =>
    let bytes ← Step.read (v.bytes sharedLimit)
    let (i, c) ← chain v
    let d ← shared bytes
    setChain i (some (c.push (← get).pool (.shared d)))
    done
  | "chain_push_buf" =>
    let (i, c) ← chain v
    let (j, s) ← buf v
    forgetBuf j
    setChain i (some (c.push (← get).pool (.pooled s)))
    done
  | "chain_clone" =>
    let (_, c) ← chain v
    pool c.retain
    ok (.obj [("chain", .nat (← newChain c))])
  | "chain_drop" =>
    let (i, c) ← chain v
    setChain i none
    pool c.release
    done
  | "chain_info" =>
    let (_, c) ← chain v
    ok ((← get).chainValue c)
  | "chain_copy_to" =>
    let size ← Step.read (v.natField "size" copyLimit)
    let (_, c) ← chain v
    let (n, out) := c.copyTo (← get).pool (List.replicate size 0)
    ok (.obj [("written", .nat n), ("hex", hexValue out)])
  | "chain_slot_mut" =>
    let bytes ← Step.read (v.bytes? slotSize)
    let (_, c) ← chain v
    match c.singleSlot? (← get).pool with
    | some s =>
      let n := ((← get).pool.header s).len
      match bytes with
      | some bs => let _ ← pool (Pool.writePayload s bs)
      | none => pure ()
      ok (.obj [("len", .nat n)])
    | none => ok (.obj [("len", .null)])
  | "tx_build" =>
    let depth ← Step.read (v.natField "ring_depth" maxU32)
    let (_, c) ← chain v
    match FragmentList.build (← get).pool c depth with
    | .ok l => ok (fragmentsValue l)
    | .error e => return netError e
  | "tx_fragments" =>
    let depth ← Step.read (v.natField "ring_depth" maxU32)
    let (_, c) ← chain v
    match FragmentList.build (← get).pool c depth with
    | .ok l => ok (.arr ((List.range 6).map fun i => .opt (fun (f : Fragment) =>
        .obj [("len", .nat f.len), ("is_empty", .bool (f.len == 0)),
          ("next", .opt .nat f.next)]) (if i < txRingSize then l.get? i else none)))
    | .error e => return netError e
  | "census" => done
  | "pool_info" =>
    ok (.obj [("capacity", .nat (← get).pool.capacity), ("buffer_size", .nat slotSize)])
  | "armed_info" =>
    let s ← slot v
    if !(← get).armed.contains s.index then throw .slotNotArmed
    ok (.obj [("slot", .nat s.index), ("capacity", .nat slotSize)])
  | "buf_debug" =>
    let (_, s) ← buf v
    ok (.str (bufDebug (← get).pool s))
  | "chain_debug" =>
    let (_, c) ← chain v
    ok (.str (chainDebug (← get).pool c))
  | "rx_debug" => ok (.str (assemblerDebug (← get).pool (← get).assembler))
  | "segment_info" =>
    let (_, c) ← chain v
    let p := (← get).pool
    ok (.arr (c.segments.map fun seg =>
      .obj [("len", .nat (seg.len p)), ("is_empty", .bool (seg.len p == 0)),
        ("hex", hexValue (seg.bytes p))]))
  | other => throw (.unknownStep other)

end BufferStep

/-- The buffer session: `capacity` slots. -/
def buffersSession (req : Value) (steps : List Value) : Value :=
  let build : Build BufferBench := do
    let capacity ← Build.read (req.natField "capacity" maxPoolRequest)
    return { pool := ← Pool.create capacity }
  let session : Session BufferBench :=
    { step := fun v => Step.finish (BufferStep.exec v), view := BufferBench.view }
  session.run build steps

end Ethernet.Bench
