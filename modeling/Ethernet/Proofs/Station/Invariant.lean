import Ethernet.Proofs.Frame.Refinement
import Ethernet.Proofs.Frame.Arrivals
import Ethernet.Proofs.Station.Engine

/-! The receive slots of an interface over the scripted engine (`Interface.Sound`) and what its
frames carry against the history of arrivals (`Interface.Faithful`); every primitive step of
the interface keeps them. -/
namespace Ethernet

/-- The slots the assembler holds through its frame in progress. -/
def Assembler.holding (a : Assembler) : List SlotId := (a.inProgress.map Chain.slots).getD []

/-- The chains `held` lie on slots among `others`. -/
def OnSlots (held : List (Chain × List UInt8)) (others : List SlotId) : Prop :=
  ∀ x ∈ held, ∀ t ∈ x.1.slots, t ∈ others

theorem OnSlots.append {held : List (Chain × List UInt8)} {others : List SlotId} {fs : List Chain}
    (g : Chain → List UInt8) (within : OnSlots held others) :
    OnSlots (held ++ fs.map fun f => (f, g f)) (others ++ fs.flatMap Chain.slots) := by
  intro x member t slot
  rcases List.mem_append.mp member with old | new
  · exact List.mem_append_left _ (within x old t slot)
  · obtain ⟨f, listed, rfl⟩ := List.mem_map.mp new
    exact List.mem_append_right _ (List.mem_flatMap.mpr ⟨f, listed, slot⟩)

namespace Pool

variable {p p' : Pool} {s t : SlotId} {ps : List (SlotId × Nat)} {others others' : List SlotId}
  {held : List (Chain × List UInt8)} {armed handles : List SlotId} {data : List UInt8}

theorem Carries.of_keeps (carries : p.Carries ps) (keeps : p.Keeps p' (· ∈ pieceSlots ps)) :
    p'.Carries ps := by
  induction ps with
  | nil => trivial
  | cons x rest ih =>
    obtain ⟨len, total, later⟩ := carries
    obtain ⟨len', total'⟩ := keeps x.1 List.mem_cons_self
    exact ⟨len'.trans len, total'.trans total,
      ih later (keeps.mono fun t member => List.mem_cons_of_mem x.1 member)⟩

theorem bytesOf_congr (memory : p'.memory = p.memory) : p'.bytesOf ps = p.bytesOf ps := by
  simp only [bytesOf, read_congr memory]

theorem Carries.toBytes (carries : p.Carries ps) : (chainOf ps).toBytes p = p.bytesOf ps := by
  induction ps with
  | nil => rfl
  | cons x rest ih =>
    obtain ⟨len, _, later⟩ := carries
    have rest' := ih later
    simp only [chainOf, Chain.toBytes, List.map_cons, List.flatMap_cons] at rest' ⊢
    rw [rest']
    simp [bytesOf, Segment.bytes, payload, len]

/-- The chains `held` outside the interface, each with the bytes read from it when it was
handed out: each is the chain of pieces, at least one, that the pool carries, still holding those
bytes. -/
def Shows (p : Pool) (held : List (Chain × List UInt8)) : Prop :=
  ∀ x ∈ held, ∃ ps, x.1 = chainOf ps ∧ ps ≠ [] ∧ p.Carries ps ∧ p.bytesOf ps = x.2

theorem Shows.of_keeps (shows : p.Shows held) (memory : p'.memory = p.memory)
    (keeps : p.Keeps p' fun t => ∃ x ∈ held, t ∈ x.1.slots) : p'.Shows held := by
  intro x member
  obtain ⟨ps, chain, nonempty, carries, bytes⟩ := shows x member
  have within : ∀ t ∈ pieceSlots ps, ∃ x ∈ held, t ∈ x.1.slots := fun t slot =>
    ⟨x, member, by rw [chain, slots_chainOf]; exact slot⟩
  exact ⟨ps, chain, nonempty, carries.of_keeps (keeps.mono within), (bytesOf_congr memory).trans bytes⟩

theorem Shows.toBytes_eq (shows : p.Shows held) {x : Chain × List UInt8} (member : x ∈ held) :
    x.1.toBytes p = x.2 := by
  obtain ⟨ps, chain, _, carries, bytes⟩ := shows x member
  rw [chain, carries.toBytes, bytes]

/-! ### Writing into a slot -/

@[simp] theorem header_write : (p.write s data).header t = p.header t := rfl
@[simp] theorem capacity_write : (p.write s data).capacity = p.capacity := rfl
@[simp] theorem memory_size_write : (p.write s data).memory.size = p.memory.size := by
  simp [write]

theorem Books.write (books : p.Books armed handles) : (p.write s data).Books armed handles where
  standing := books.standing
  listed_lt := books.listed_lt
  armed_lt := books.armed_lt
  held_lt := books.held_lt
  capacity_le := books.capacity_le
  refcount_le := books.refcount_le
  exhausted := books.exhausted
  counters := books.counters

theorem read_write_self (inRange : s.index < p.memory.size) :
    (p.write s data).read s data.length = data := by
  simp [read, write, Array.getElem_modify, inRange]

theorem read_write_of_ne (ne : t ≠ s) (n : Nat) : (p.write s data).read t n = p.read t n := by
  simp [read, write, Array.getElem?_modify, (SlotId.index_ne ne).symm]

theorem Books.not_held_of_armed (books : p.Books armed handles) (member : s ∈ armed) :
    s ∉ handles := fun held => by
  have hardware := books.owner_of_mem_armed member
  rw [books.owner_of_mem_held held] at hardware
  cases hardware

end Pool

theorem Pool.arrivalOf_congr {p p' : Pool} (memory : p'.memory = p.memory) :
    p'.arrivalOf = p.arrivalOf :=
  funext fun c => by simp only [Pool.arrivalOf, Pool.read_congr memory]

theorem flatMap_slots_map_chainOf (o : Option (List (SlotId × Nat))) :
    (o.map chainOf).toList.flatMap Chain.slots = pieceSlots (o.getD []) := by
  cases o <;> simp

namespace Assembler.Tracks

variable {a : Assembler} {frame : List RxEvent} {p p' : Pool}

theorem holding_eq (tracks : a.Tracks frame p) : a.holding = pieceSlots (Splitter.kept frame) :=
  tracks.holding

theorem of_keeps (tracks : a.Tracks frame p) (keeps : p.Keeps p' (· ∈ pieceSlots (Splitter.kept frame))) :
    a.Tracks frame p' :=
  ⟨tracks.inProgress, tracks.discarding, tracks.carries.of_keeps keeps, tracks.distinct⟩

/-- Taking a completed descriptor whose bytes fit its slot is the splitter's step on the
completion's event. -/
theorem ensures_take {armed handles : List SlotId} {c : RxCompletion} (tracks : a.Tracks frame p)
    (books : p.Books (c.slot :: armed) (pieceSlots (Splitter.kept frame) ++ handles))
    (short : c.length ≤ slotSize) :
    Ensures (a.take c) p (Stepped frame c.event (Splitter.step frame c.event) p armed handles a)
      (fun _ => False) := by
  unfold Assembler.take
  apply ensures_seq
  refine (reclaimed_of_books books).mono (fun _ p₁ reclaimed => ?_) (fun _ => id)
  cases error : c.error
  · have event : c.event = .push c.slot c.length c.last := by simp [RxCompletion.event, error]
    -- the engine's length already fits the slot, as the splitter's piece does
    have fits : a.push c.slot c.length c.last = a.push c.slot (min c.length slotSize) c.last := by
      rw [Nat.min_eq_left short]
    simp only [Bool.false_eq_true, if_false]
    rw [event, fits]
    exact ensures_push_reclaimed tracks books reclaimed
  · have event : c.event = .reject c.slot c.length c.last := by simp [RxCompletion.event, error]
    simp only [if_true]
    rw [event]
    exact ensures_seq (ensures_emit (ensures_reject_reclaimed tracks reclaimed))

end Assembler.Tracks

/-! ### The invariant -/

namespace Interface

open Bench

variable {α : Type}

/-- The pool's books against the holders of receive slots, with `others` the packet buffers held
outside the interface. -/
structure Sound (i : Interface ScriptedBoard α) (others : List SlotId) : Prop where
  books : i.pool.Books i.board.mac.rxSlots (i.rx.holding ++ others ++ i.board.mac.txPinned)
  ring : i.board.mac.armed.length + i.board.mac.completions.length ≤ i.board.mac.rxRing
  short : ∀ c ∈ i.board.mac.completions, c.length ≤ slotSize
  /-- The frame in progress is held by the assembler alone. -/
  apart : ∀ t ∈ i.rx.holding, t ∉ others ∧ t ∉ i.board.mac.txPinned
  quiet : i.initialized = false →
    i.board.mac.rxSlots = [] ∧ i.board.mac.txPinned = [] ∧ i.rx = {}

/-- The assembler over the splitter's frame `frame`, against the history `done` it has taken and
the bytes `dl` of the frames it handed out. -/
structure Receives (i : Interface ScriptedBoard α) (frame : List RxEvent) (done : List Mark)
    (dl : List (List UInt8)) : Prop where
  tracks : i.rx.Tracks frame i.pool
  delivered : dl.Sublist (Mark.frames [] done)
  aligned : i.initialized = true → Aligned i.pool frame (Mark.unfinished [] done)
  counted : i.counters.rxFrames + i.rx.frames = dl.length

/-- The receive path's invariant: sound books, the chains `held` outside showing their bytes, and
the assembler faithful to the history `done`, having handed out the frames `dl`. -/
structure Faithful (i : Interface ScriptedBoard α) (others : List SlotId)
    (held : List (Chain × List UInt8)) (done : List Mark) (dl : List (List UInt8)) : Prop where
  sound : i.Sound others
  sized : i.pool.memory.size = i.pool.capacity
  within : OnSlots held others
  shows : i.pool.Shows held
  receives : ∃ frame, i.Receives frame done dl

variable {i i' : Interface ScriptedBoard α} {others others' : List SlotId}
  {held : List (Chain × List UInt8)} {done : List Mark} {dl : List (List UInt8)}
  {frame : List RxEvent} {s : SlotId}

namespace Sound

theorem running (sound : i.Sound others) (member : s ∈ i.board.mac.rxSlots) :
    i.initialized = true := by
  cases stopped : i.initialized
  · rw [(sound.quiet stopped).1] at member
    cases member
  · rfl

/-- A step of the assembler on an event whose slot, if any, the engine held keeps the books
sound, the frame it hands out joining the packet buffers held outside. -/
theorem stepped {e : RxEvent} {r : Option Chain × Assembler} (sound : i.Sound others)
    (tracks : i.rx.Tracks frame i.pool)
    (stepped : Assembler.Stepped frame e (Splitter.step frame e) i.pool i'.board.mac.rxSlots
      (others ++ i.board.mac.txPinned) i.rx r i'.pool)
    (taken : ∀ t ∈ e.slot?.toList, t ∈ i.board.mac.rxSlots) (rx : i'.rx = r.2)
    (tx : i'.board.mac.txPinned = i.board.mac.txPinned) (running : i'.initialized = true)
    (ring : i'.board.mac.armed.length + i'.board.mac.completions.length ≤ i'.board.mac.rxRing)
    (short : ∀ c ∈ i'.board.mac.completions, c.length ≤ slotSize) :
    i'.Sound (others ++ r.1.toList.flatMap Chain.slots) := by
  have holding : i'.rx.holding = pieceSlots (Splitter.kept (Splitter.step frame e).2) := by
    rw [rx]
    exact stepped.tracks.holding_eq
  have handed : r.1.toList.flatMap Chain.slots = pieceSlots ((Splitter.step frame e).1.getD []) := by
    rw [stepped.output]
    exact flatMap_slots_map_chainOf _
  refine ⟨?_, ring, short, ?_, fun stopped => by simp [running] at stopped⟩
  · rw [holding, handed, tx]
    refine stepped.books.perm (.refl _) (List.perm_iff_count.mpr fun t => ?_)
    simp only [List.count_append]
    omega
  · intro t member
    rw [holding] at member
    rw [tx, handed]
    cases delivered : (Splitter.step frame e).1 with
    | some ps =>
      rw [Splitter.step_delivers delivered] at member
      simp at member
    | none =>
      simp only [Option.getD_none, pieceSlots_nil, List.append_nil]
      rcases List.mem_append.mp (Splitter.kept_step_subset frame e member) with kept | own
      · exact sound.apart t (by rw [tracks.holding_eq]; exact kept)
      · have apart := sound.books.not_held_of_armed (taken t own)
        simp only [List.mem_append, not_or] at apart
        exact ⟨apart.1.2, apart.2⟩

/-- After a step of the assembler the chains held outside still show their bytes, and the frame
it hands out shows its own. -/
theorem shows_stepped {e : RxEvent} {r : Option Chain × Assembler} {armed' : List SlotId}
    {p' : Pool} (sound : i.Sound others) (within : OnSlots held others) (shows : i.pool.Shows held)
    (tracks : i.rx.Tracks frame i.pool)
    (stepped : Assembler.Stepped frame e (Splitter.step frame e) i.pool armed'
      (others ++ i.board.mac.txPinned) i.rx r p')
    (taken : ∀ t ∈ e.slot?.toList, t ∈ i.board.mac.rxSlots) :
    p'.Shows (held ++ r.1.toList.map fun f => (f, f.toBytes p')) := by
  have untouched : ∀ t, (∃ x ∈ held, t ∈ x.1.slots) →
      ¬(t ∈ e.slot?.toList ∨ t ∈ pieceSlots (Splitter.kept frame)) := by
    rintro t ⟨x, member, slot⟩ (own | kept)
    · exact sound.books.not_held_of_armed (taken t own) (by simp [within x member t slot])
    · exact (sound.apart t (by rw [tracks.holding_eq]; exact kept)).1 (within x member t slot)
  have kept : p'.Shows held := shows.of_keeps stepped.same.2.1 (stepped.same.keeps.mono untouched)
  intro x member
  rcases List.mem_append.mp member with old | new
  · exact kept x old
  · rw [stepped.output] at new
    cases delivered : (Splitter.step frame e).1 with
    | none => simp [delivered] at new
    | some ps =>
      simp only [delivered, Option.map_some, Option.toList_some, List.map_cons, List.map_nil,
        List.mem_singleton] at new
      subst new
      have carries := stepped.carries ps delivered
      exact ⟨ps, rfl, Splitter.ne_nil_of_step delivered, carries, carries.toBytes.symm⟩

end Sound

namespace Receives

variable {c : RxCompletion} {r : Option Chain × Assembler} {armed' handles : List SlotId}
  {a' : Assembler}

theorem transfer (receives : i.Receives frame done dl) (rx : i'.rx = i.rx)
    (initialized : i'.initialized = i.initialized)
    (rxFrames : i'.counters.rxFrames = i.counters.rxFrames) (memory : i'.pool.memory = i.pool.memory)
    (keeps : i.pool.Keeps i'.pool (· ∈ i.rx.holding)) : i'.Receives frame done dl where
  tracks := by
    rw [rx]
    exact receives.tracks.of_keeps fun t kept => keeps t (by rw [receives.tracks.holding_eq]; exact kept)
  delivered := receives.delivered
  aligned running := (receives.aligned (by rwa [initialized] at running)).of_memory memory
  counted := by rw [rx, rxFrames]; exact receives.counted

/-- Taking a completion records its arrival, and a frame handed out is one the history
delivers. -/
theorem take (receives : i.Receives frame done dl) (running : i.initialized = true)
    (short : c.length ≤ slotSize)
    (stepped : Assembler.Stepped frame c.event (Splitter.step frame c.event) i.pool armed' handles i.rx r i'.pool)
    (rx : i'.rx = r.2) (rxFrames : i'.counters.rxFrames = i.counters.rxFrames) :
    i'.Receives (Splitter.step frame c.event).2 (done ++ [i.pool.arrivalOf c])
      (dl ++ r.1.toList.map fun f => f.toBytes i'.pool) := by
  have aligned := receives.aligned running
  have memory := stepped.same.2.1
  refine ⟨by rw [rx]; exact stepped.tracks, ?_, fun _ => ?_, ?_⟩
  · rw [Mark.frames_snoc, stepped.output]
    cases delivered : (Splitter.step frame c.event).1 with
    | none =>
      simp only [Option.map_none, Option.toList_none, List.map_nil, List.append_nil]
      exact receives.delivered.trans (List.sublist_append_left _ _)
    | some ps =>
      rw [aligned.delivers short delivered]
      simp only [Option.map_some, Option.toList_some, List.map_cons, List.map_nil]
      rw [(stepped.carries ps delivered).toBytes, Pool.bytesOf_congr memory]
      exact receives.delivered.append (List.Sublist.refl _)
  · rw [Mark.unfinished_snoc]
    exact (aligned.take short).of_memory memory
  · rw [rx, rxFrames, stepped.frames, List.length_append, List.length_map, ← receives.counted]
    omega

theorem discard (receives : i.Receives frame done dl)
    (stepped : Assembler.Stepped frame .discard (Splitter.step frame .discard) i.pool armed' handles i.rx
      (none, a') i'.pool)
    (rx : i'.rx = a') (initialized : i'.initialized = i.initialized)
    (rxFrames : i'.counters.rxFrames = i.counters.rxFrames) :
    i'.Receives (Splitter.step frame .discard).2 done dl := by
  have frames : a'.frames = i.rx.frames := by simpa using stepped.frames
  refine ⟨by rw [rx]; exact stepped.tracks, receives.delivered, fun running => ?_, ?_⟩
  · exact (receives.aligned (by rwa [initialized] at running)).discard.of_memory stepped.same.2.1
  · rw [rx, rxFrames, frames]
    exact receives.counted

end Receives

namespace Faithful

/-- The invariant carries over to a state with sound books, when the pool kept the memory, and the
lengths of the slots of the frame in progress and of the handles held outside after, and the
assembler, the running flag and the count of frames received are as they were. -/
theorem transfer (inv : i.Faithful others held done dl) (sound : i'.Sound others')
    (within : OnSlots held others') (rx : i'.rx = i.rx)
    (initialized : i'.initialized = i.initialized)
    (rxFrames : i'.counters.rxFrames = i.counters.rxFrames)
    (capacity : i'.pool.capacity = i.pool.capacity) (memory : i'.pool.memory = i.pool.memory)
    (keeps : i.pool.Keeps i'.pool fun t => t ∈ i.rx.holding ∨ t ∈ others') :
    i'.Faithful others' held done dl := by
  obtain ⟨_, sized, _, shows, frame, receives⟩ := inv
  refine ⟨sound, by rw [memory, capacity]; exact sized, within,
    shows.of_keeps memory (keeps.mono fun t ⟨x, member, slot⟩ => .inr (within x member t slot)), frame, ?_⟩
  · exact receives.transfer rx initialized rxFrames memory (keeps.mono fun _ => .inl)

theorem steady (inv : i.Faithful others held done dl) (steady : i.Steady i') :
    i'.Faithful others held done dl := by
  have sound := inv.sound
  obtain ⟨queues, pool, rx, initialized, rxFrames⟩ := steady
  refine inv.transfer ⟨?_, ?_, ?_, ?_, ?_⟩ inv.within rx initialized rxFrames (by rw [pool])
    (by rw [pool]) (fun t _ => by rw [pool]; exact ⟨rfl, rfl⟩)
  · rw [pool, rx, queues.rxSlots]
    exact sound.books.perm (.refl _) (queues.txPinned.symm.append_left _)
  · rw [queues.armed, queues.completions, queues.rxRing]
    exact sound.ring
  · rw [queues.completions]
    exact sound.short
  · intro t member
    rw [rx] at member
    obtain ⟨notOthers, notPinned⟩ := sound.apart t member
    exact ⟨notOthers, fun pinned => notPinned (queues.txPinned.subset pinned)⟩
  · intro stopped
    obtain ⟨rxSlots, txPinned, idle⟩ := sound.quiet (by rwa [initialized] at stopped)
    exact ⟨queues.rxSlots.trans rxSlots, (txPinned ▸ queues.txPinned).eq_nil, rx.trans idle⟩

theorem of_books {p' : Pool} (inv : i.Faithful others held done dl)
    (same : i.pool.SameExcept p' fun _ => False)
    (books : p'.Books i.board.mac.rxSlots (i.rx.holding ++ others ++ i.board.mac.txPinned)) :
    { i with pool := p' }.Faithful others held done dl :=
  inv.transfer ⟨books, inv.sound.ring, inv.sound.short, inv.sound.apart, inv.sound.quiet⟩
    inv.within rfl rfl rfl same.1 same.2.1 (same.keeps.mono fun _ _ => not_false)

theorem arm {p' : Pool} (inv : i.Faithful others held done dl) (running : i.initialized = true)
    (wants : i.board.mac.wantsBuffer = true) (same : i.pool.SameExcept p' (· = s))
    (books : p'.Books (s :: i.board.mac.rxSlots) (i.rx.holding ++ others ++ i.board.mac.txPinned)) :
    ({ i with pool := p' }.withMac { i.board.mac with armed := i.board.mac.armed ++ [s] }).Faithful
      others held done dl := by
  have room : i.board.mac.armed.length + i.board.mac.completions.length < i.board.mac.rxRing := by
    simpa [ScriptedMac.wantsBuffer] using wants
  have fresh : s ∉ i.rx.holding ++ others ++ i.board.mac.txPinned :=
    books.not_held_of_armed List.mem_cons_self
  refine inv.transfer ⟨?_, ?_, inv.sound.short, inv.sound.apart, fun stopped => ?_⟩ inv.within
    rfl rfl rfl same.1 same.2.1 (same.keeps.mono fun t member => ?_)
  · refine books.perm ?_ (.refl _)
    simp only [withMac_mac, ScriptedMac.rxSlots, List.append_assoc, List.singleton_append]
    exact List.perm_middle.symm
  · simp only [withMac_mac, List.length_append, List.length_singleton]
    omega
  · simp [running] at stopped
  · rintro rfl
    exact fresh (by rcases member with member | member <;> simp [member])


/-- Taking the oldest completion: the assembler steps on its event, the history records its
arrival, and a frame handed out joins the chains held outside. -/
theorem ensures_take {c : RxCompletion} {rest : List RxCompletion}
    (inv : i.Faithful others held done dl) (head : i.board.mac.completions = c :: rest) :
    Ensures (onPool (i.rx.take c) : IfRun ScriptedBoard α _)
      (i.withMac { i.board.mac with completions := rest })
      (fun r i₁ => i₁.board = (i.withMac { i.board.mac with completions := rest }).board ∧
        i₁.pool.memory = i.pool.memory ∧ i₁.initialized = i.initialized ∧
        { i₁ with rx := r.2 }.Faithful (others ++ r.1.toList.flatMap Chain.slots)
          (held ++ r.1.toList.map fun (f : Chain) => (f, f.toBytes i₁.pool))
          (done ++ [i.pool.arrivalOf c]) (dl ++ r.1.toList.map fun (f : Chain) => f.toBytes i₁.pool))
      (fun _ => False) := by
  obtain ⟨sound, sized, within, shows, frame, receives⟩ := inv
  have polled : c.slot ∈ i.board.mac.rxSlots := by simp [ScriptedMac.rxSlots, head]
  have running := sound.running polled
  have short := sound.short c (by rw [head]; exact List.mem_cons_self)
  have ring : i.board.mac.armed.length + rest.length ≤ i.board.mac.rxRing := by
    have ring := sound.ring
    rw [head, List.length_cons] at ring
    omega
  have books : i.pool.Books (c.slot :: (i.board.mac.armed ++ rest.map RxCompletion.slot))
      (pieceSlots (Splitter.kept frame) ++ (others ++ i.board.mac.txPinned)) := by
    refine sound.books.perm ?_ ?_
    · simp only [ScriptedMac.rxSlots, head, List.map_cons]
      exact List.perm_middle
    · rw [← receives.tracks.holding_eq, List.append_assoc]
  have taken : ∀ t ∈ c.event.slot?.toList, t ∈ i.board.mac.rxSlots := by simp [polled]
  apply ensures_focus
  refine (receives.tracks.ensures_take books short).mono
    (fun r p' stepped => ⟨rfl, stepped.same.2.1, rfl, ?_⟩) (fun _ => id)
  refine ⟨?_, ?_, within.append _, sound.shows_stepped within shows receives.tracks stepped taken,
    (Splitter.step frame c.event).2, ?_⟩
  · exact sound.stepped receives.tracks stepped taken rfl rfl running ring
      (fun c' member => sound.short c' (by rw [head]; exact List.mem_cons_of_mem _ member))
  · show p'.memory.size = p'.capacity
    rw [stepped.same.2.1, stepped.same.1]
    exact sized
  · exact receives.take running short stepped rfl rfl

theorem ensures_discard (inv : i.Faithful others held done dl) (running : i.initialized = true) :
    Ensures (onPool i.rx.discard : IfRun ScriptedBoard α _) i
      (fun a' i₁ => i₁.board = i.board ∧ i₁.pool.memory = i.pool.memory ∧
        i₁.initialized = i.initialized ∧ { i₁ with rx := a' }.Faithful others held done dl)
      (fun _ => False) := by
  obtain ⟨sound, sized, within, shows, frame, receives⟩ := inv
  have books : i.pool.Books i.board.mac.rxSlots
      (pieceSlots (Splitter.kept frame) ++ (others ++ i.board.mac.txPinned)) := by
    rw [← receives.tracks.holding_eq, ← List.append_assoc]
    exact sound.books
  have taken : ∀ t ∈ RxEvent.discard.slot?.toList, t ∈ i.board.mac.rxSlots := by
    simp [RxEvent.slot?]
  apply ensures_focus
  refine (receives.tracks.ensures_discard_stepped books).mono
    (fun a' p' stepped => ⟨rfl, stepped.same.2.1, rfl, ?_⟩) (fun _ => id)
  refine ⟨?_, ?_, within, ?_, (Splitter.step frame .discard).2, ?_⟩
  · have stepped' : ({ { i with pool := p' } with rx := a' } : Interface ScriptedBoard α).Sound
        (others ++ (none, a').1.toList.flatMap Chain.slots) :=
      sound.stepped receives.tracks stepped taken rfl rfl running sound.ring sound.short
    simpa using stepped'
  · show p'.memory.size = p'.capacity
    rw [stepped.same.2.1, stepped.same.1]
    exact sized
  · simpa using sound.shows_stepped within shows receives.tracks stepped taken
  · exact receives.discard stepped rfl rfl rfl

end Faithful

end Interface

end Ethernet
