import Ethernet.Proofs.Station.Lifecycle
import Ethernet.Bench.Protocol

/-! A station: an interface over the scripted board, the consumer of its frames, and the bench.
`Station.Holds` ties the interface's invariant to the bench's records, and every action keeps
it. -/
namespace Ethernet

open Bench

/-- The frame made of the chains `cs`, in order. -/
def Chain.concat (cs : List Chain) : Chain :=
  ⟨cs.flatMap Chain.segments, (cs.map Chain.total).sum⟩

@[simp] theorem Chain.slots_concat (cs : List Chain) :
    (Chain.concat cs).slots = cs.flatMap Chain.slots := by
  induction cs with
  | nil => rfl
  | cons c rest ih =>
    simp only [Chain.concat, Chain.slots, List.flatMap_cons, List.filterMap_append] at ih ⊢
    rw [ih]

namespace Interface

variable {η α : Type} [MacEngine η] [PhyControl η] [AddressProtocol α]

/-- Sends a copy of `frame`, whose slots the copy pins until the send is over. -/
def sendCopy (frame : Chain) : IfRun η α Unit := do
  onPool frame.retain
  let _ ← output frame
  onPool frame.release

end Interface

/-! ### The interface under the bench's hands -/

namespace Pool

variable {p : Pool} {s : SlotId} {data : List UInt8} {held : List (Chain × List UInt8)}

/-- Bytes written into a slot that no chain held outside rests on leave those chains' bytes
alone. -/
theorem Shows.write (shows : p.Shows held) (apart : ∀ x ∈ held, s ∉ x.1.slots) :
    (p.write s data).Shows held := by
  intro x member
  obtain ⟨ps, chain, nonempty, carries, bytes⟩ := shows x member
  have other : ∀ y ∈ ps, y.1 ≠ s := by
    rintro y piece rfl
    exact apart x member (by rw [chain, slots_chainOf]; exact List.mem_map_of_mem piece)
  refine ⟨ps, chain, nonempty, carries.congr fun t _ => header_write, ?_⟩
  rw [← bytes]
  exact List.flatMap_congr fun y piece => read_write_of_ne (other y piece) y.2

/-- A chain held outside starts with a pooled segment whose running total is the chain's
length. -/
theorem Shows.head_total (shows : p.Shows held) {x : Chain × List UInt8} (member : x ∈ held) :
    ∃ s rest, x.1.segments = .pooled s :: rest ∧ (p.header s).total = x.1.total := by
  obtain ⟨ps, chain, nonempty, carries, -⟩ := shows x member
  obtain ⟨⟨s, n⟩, rest, rfl⟩ := List.exists_cons_of_ne_nil nonempty
  exact ⟨s, _, by rw [chain]; rfl, by rw [chain]; exact carries.head_total⟩

theorem lt_capacity_of_hardware (hardware : p.owner s = .hardware) : s.index < p.capacity := by
  by_contra beyond
  rw [owner, header_of_capacity_le (Nat.le_of_not_lt beyond)] at hardware
  cases hardware

variable {armed handles : List SlotId}

theorem Books.owner_hardware_iff (books : p.Books armed handles) (s : SlotId) :
    p.owner s = .hardware ↔ s ∈ armed :=
  ⟨fun hardware => (books.armed_iff s).mpr ⟨lt_capacity_of_hardware hardware, hardware⟩,
    books.owner_of_mem_armed⟩

theorem Books.refcount_of_software (books : p.Books armed handles) (software : p.owner s = .software) :
    (p.header s).refcount = handles.count s :=
  books.refcount_eq ((books.held_iff s).mpr ⟨lt_capacity_of_software software, software⟩)

end Pool

namespace Interface

variable {α : Type} {i : Interface ScriptedBoard α} {others : List SlotId}
  {held held' : List (Chain × List UInt8)} {done : List Mark} {dl : List (List UInt8)}

theorem Sound.completions_of_stopped (sound : i.Sound others) (stopped : i.initialized = false) :
    i.board.mac.completions = [] := by
  have idle := (sound.quiet stopped).1
  simp only [ScriptedMac.rxSlots, List.append_eq_nil_iff, List.map_eq_nil_iff] at idle
  exact idle.2

theorem Faithful.of_subset (inv : i.Faithful others held done dl) (sub : held' ⊆ held) :
    i.Faithful others held' done dl :=
  ⟨inv.sound, inv.sized, fun x member => inv.within x (sub member),
    fun x member => inv.shows x (sub member), inv.receives⟩

/-- The engine after the bench completed its oldest armed slot `s` with `bytes`. -/
def injected (i : Interface ScriptedBoard α) (s : SlotId) (rest : List SlotId) (bytes : List UInt8)
    (last error : Bool) : Interface ScriptedBoard α :=
  let m := { i.board.mac with
    armed := rest
    completions := i.board.mac.completions ++ [⟨s, bytes.length, last, error⟩] }
  { i.withMac m with pool := i.pool.write s bytes }

variable {s : SlotId} {rest : List SlotId} {bytes : List UInt8} {last error : Bool}

/-- The bench completes the oldest armed slot with bytes that fit it: the slot's memory takes
the bytes, and nothing the interface or the consumer holds moves. -/
theorem Faithful.inject (inv : i.Faithful others held done dl) (head : i.board.mac.armed = s :: rest)
    (fits : bytes.length ≤ slotSize) :
    (i.injected s rest bytes last error).Faithful others held done dl := by
  obtain ⟨sound, sized, within, shows, frame, receives⟩ := inv
  have armed : s ∈ i.board.mac.rxSlots := by simp [ScriptedMac.rxSlots, head]
  have running := sound.running armed
  -- the slot written is armed, so no frame in progress, chain held outside or frame to send
  -- rests on it
  have fresh : s ∉ i.rx.holding ++ others ++ i.board.mac.txPinned := sound.books.not_held_of_armed armed
  simp only [List.mem_append, not_or] at fresh
  have ring := sound.ring
  rw [head, List.length_cons] at ring
  refine ⟨⟨?_, ?_, ?_, sound.apart, fun stopped => by simp [injected, running] at stopped⟩, ?_,
    within, ?_, frame, ⟨?_, receives.delivered, fun _ => ?_, receives.counted⟩⟩
  · refine (sound.books.perm ?_ (.refl _)).write
    simp only [injected, withMac_mac, ScriptedMac.rxSlots, head, List.map_append, List.map_cons,
      List.map_nil, List.cons_append]
    rw [← List.append_assoc]
    exact (List.perm_append_singleton _ _).symm
  · simp only [injected, withMac_mac, List.length_append, List.length_singleton]
    omega
  · intro c member
    rcases List.mem_append.mp member with old | new
    · exact sound.short c old
    · rw [List.mem_singleton.mp new]
      exact fits
  · simp only [injected, Pool.memory_size_write, Pool.capacity_write]
    exact sized
  · exact shows.write fun x member slot => fresh.1.2 (within x member s slot)
  · exact receives.tracks.of_keeps fun _ _ => ⟨rfl, rfl⟩
  · refine (receives.aligned running).congr fun x kept => Pool.read_write_of_ne ?_ x.2
    rintro rfl
    exact fresh.1.1 (by rw [receives.tracks.holding_eq]; exact List.mem_map_of_mem kept)

/-- The completion the bench adds reads as the bytes it wrote, and the completions queued before
it read as they did. -/
theorem Faithful.arrivals_inject (inv : i.Faithful others held done dl)
    (head : i.board.mac.armed = s :: rest) :
    (i.injected s rest bytes last error).board.mac.completions.map
        (i.injected s rest bytes last error).pool.arrivalOf =
      i.board.mac.completions.map i.pool.arrivalOf ++ [.arrival bytes last error] := by
  have armed : s ∈ i.board.mac.rxSlots := by simp [ScriptedMac.rxSlots, head]
  have distinct := inv.sound.books.armed_nodup
  simp only [ScriptedMac.rxSlots, head, List.cons_append, List.nodup_cons, List.mem_append,
    List.mem_map, not_or] at distinct
  have inRange : s.index < i.pool.memory.size := by
    rw [inv.sized]
    exact inv.sound.books.armed_lt s armed
  simp only [injected, withMac_mac, List.map_append, List.map_cons, List.map_nil]
  congr 1
  · refine List.map_congr_left fun c member => ?_
    have other : c.slot ≠ s := fun same => distinct.1.2 ⟨c, member, same⟩
    simp only [Pool.arrivalOf, Pool.read_write_of_ne other]
  · simp [Pool.arrivalOf, Pool.read_write_self inRange]

theorem faithful_created {settings : Settings} {board : ScriptedBoard} {proto : α} {j j' : Journal}
    (made : create settings board proto j = .ok (.ok i) j') (idle : board.mac.rxSlots = [])
    (unpinned : board.mac.txPinned = []) : i.Faithful [] [] [] [] ∧ i.initialized = false := by
  unfold create at made
  cases valid : settings.validate with
  | error e => simp [valid, pure, EStateM.pure] at made
  | ok =>
  simp only [valid] at made
  cases pool : Pool.create settings.rxBufferCount j with
  | error f j₁ => simp [pool, bind, EStateM.bind] at made
  | ok p j₁ =>
    obtain ⟨⟨_, bounded⟩, rfl⟩ := Pool.create_ok pool
    simp only [bind, EStateM.bind, pool, pure, EStateM.pure, EStateM.Result.ok.injEq,
      Except.ok.injEq] at made
    obtain ⟨rfl, -⟩ := made
    have empty : board.mac.armed = [] ∧ board.mac.completions = [] := by
      simpa [ScriptedMac.rxSlots] using idle
    refine ⟨⟨⟨?_, by simp [empty], by simp [empty], by simp [Assembler.holding],
      fun _ => ⟨idle, unpinned, rfl⟩⟩, by simp [Pool.fresh, Pool.capacity], by simp [OnSlots],
      by simp [Pool.Shows], [], ⟨Assembler.Tracks.idle rfl rfl, List.nil_sublist _,
      (fun running => by simp at running), rfl⟩⟩, rfl⟩
    simpa [idle, unpinned, Assembler.holding] using Pool.books_fresh bounded

/-- Sending a copy of a frame whose handles are held outside keeps the invariant; only the copy's
handles can halt, at a slot with the most handles a reference count holds. -/
theorem Faithful.ensures_sendCopy {frame : Chain} (inv : i.Faithful others held done dl)
    (known : ∀ t ∈ frame.slots, t ∈ others) :
    Ensures (sendCopy frame : IfRun ScriptedBoard α Unit) i
      (fun _ i' => i'.Faithful others held done dl ∧ i.Pending i')
      (fun f => ∃ t ∈ frame.slots, f = .refcountOverflow t.index) := by
  unfold sendCopy
  refine ensures_seq ((inv.ensures_pin known).mono (fun _ i₁ ⟨inv₁, drained₁⟩ => ?_)
    (fun _ ⟨t, slot, _, fault⟩ => ⟨t, slot, fault⟩))
  refine ensures_bind ((inv₁.ensures_output fun t slot => List.mem_append_right _ slot).mono
    (fun _ i₂ ⟨inv₂, pending₂, _⟩ => ?_) (fun _ => id))
  refine (inv₂.ensures_unpin inv.within).mono (fun _ i₃ ⟨inv₃, drained₃⟩ => ⟨inv₃, ?_⟩)
    (fun _ => False.elim)
  exact ((drained₁.pending rfl).trans pending₂).trans (drained₃.pending rfl)

/-- The arrivals still queued read the same after a step that keeps the completions and the slot
memory, so a record of marks splits the same way against them. -/
theorem Pending.splits {i' : Interface ScriptedBoard α} {fed : List Mark} (pending : i.Pending i')
    (split : fed = done ++ i.board.mac.completions.map i.pool.arrivalOf) :
    fed = done ++ i'.board.mac.completions.map i'.pool.arrivalOf := by
  rw [pending.arrivals]
  exact split

end Interface

/-! ### The station -/

/-- A part of a frame the consumer sends: fresh bytes, or a copy of the `k`-th chain it keeps. -/
inductive Item where
  | bytes (d : Shared)
  | copy (k : Nat)
  deriving DecidableEq, Repr

/-- What the interface's user, its consumer and the bench do. -/
inductive Action (α : Type) where
  | init
  | deinit
  | receive
  | pollInput
  | output (items : List Item)
  | reclaimTx
  | serviceTick (now : Nat)
  /-- The engine completes its oldest armed slot with `bytes`, which fit a slot. -/
  | inject (bytes : List UInt8) (last error : Bool) (fits : bytes.length ≤ slotSize)
  | finishTx
  | plug (bits : Nat)
  | unplug
  | switches (txDepth txSlots : Nat) (autoCompleteTx failInit failSetLink : Bool)
      (failTx : Option NetError)
  | proto (p : α)
  | clone (k : Nat)
  | drop (k : Nat)

/-- An interface over the scripted board with its consumer and the bench's records. -/
structure Station (α : Type) where
  iface : Interface ScriptedBoard α
  /-- The chains the consumer keeps, each with the bytes it showed when handed out. -/
  consumer : List (Chain × List UInt8) := []
  /-- The starts and the injections, in order. -/
  fed : List Mark := []
  /-- The bytes of every frame handed out, in order. -/
  handed : List (List UInt8) := []

namespace Station

variable {α β : Type} {w : Station α} {halts : Fault → Prop}

def onIface (act : IfRun ScriptedBoard α β) : StateT (Station α) Run β :=
  focus (·.iface) (fun i w => { w with iface := i }) act

/-- The handles of the consumer's chains, one per pooled segment. -/
def slots (w : Station α) : List SlotId := w.consumer.flatMap (·.1.slots)

/-- The chain an item stands for, when it names one the consumer keeps. -/
def chainOf? (w : Station α) : Item → Option Chain
  | .bytes d => some (.ofShared d)
  | .copy k => (w.consumer[k]?).map Prod.fst

/-- The consumer keeps the frames handed out, noting the bytes each shows. -/
def hand (fs : List Chain) : StateT (Station α) Run Unit :=
  modify fun w =>
    let shown := fs.map fun f => (f, f.toBytes w.iface.pool)
    { w with consumer := w.consumer ++ shown, handed := w.handed ++ shown.map Prod.snd }

/-- The bench changes the interface where its receive path does not look. -/
def rewire (f : Interface ScriptedBoard α → Interface ScriptedBoard α) :
    StateT (Station α) Run Unit :=
  modify fun w => { w with iface := f w.iface }

/-- The station's invariant: the interface is faithful, with the consumer's chains as the
chains held outside and the frames handed out as the bench saw them, to a history that the
arrivals still queued in the engine complete to what the bench fed it; and each chain the
consumer keeps noted the bytes of a frame handed out. -/
structure Holds (w : Station α) : Prop where
  faithful : ∃ done, w.iface.Faithful w.slots w.consumer done w.handed ∧
    w.fed = done ++ w.iface.board.mac.completions.map w.iface.pool.arrivalOf
  noted : ∀ x ∈ w.consumer, x.2 ∈ w.handed

/-- An interface operation that keeps the interface's invariant for every history and the
arrivals still queued keeps the station's. -/
theorem Holds.ensures_onIface {act : IfRun ScriptedBoard α β} (holds : w.Holds)
    (run : ∀ done, w.iface.Faithful w.slots w.consumer done w.handed →
      Ensures act w.iface
        (fun _ i' => i'.Faithful w.slots w.consumer done w.handed ∧ w.iface.Pending i') halts) :
    Ensures (onIface act) w (fun _ w' => w'.Holds) halts := by
  obtain ⟨⟨done, inv, fed⟩, noted⟩ := holds
  apply ensures_focus
  exact (run done inv).mono (fun _ i' ⟨inv', pending⟩ => ⟨⟨done, inv', pending.splits fed⟩, noted⟩)
    (fun _ => id)

theorem Holds.ensures_rewire (holds : w.Holds)
    (f : Interface ScriptedBoard α → Interface ScriptedBoard α) (steady : w.iface.Steady (f w.iface)) :
    Ensures (rewire f) w (fun _ w' => w'.Holds) halts := by
  obtain ⟨⟨done, inv, fed⟩, noted⟩ := holds
  exact ensures_modify ⟨⟨done, inv.steady steady, steady.pending.splits fed⟩, noted⟩

/-- Frames handed out join the consumer's chains with the bytes they show, and the bench's
record of the frames handed out. -/
theorem ensures_hand {fs : List Chain} {i' : Interface ScriptedBoard α} {done : List Mark}
    (fed : w.fed = done ++ w.iface.board.mac.completions.map w.iface.pool.arrivalOf)
    (noted : ∀ x ∈ w.consumer, x.2 ∈ w.handed)
    (received : w.iface.Received w.slots w.consumer done w.handed fs i') :
    Ensures (hand fs) { w with iface := i' } (fun _ w' => w'.Holds) halts := by
  obtain ⟨taken, completions, memory, -, inv⟩ := received
  refine ensures_modify ⟨⟨done ++ taken.map w.iface.pool.arrivalOf, ?_, ?_⟩, ?_⟩
  · have shown : (fs.map fun f => (f, f.toBytes i'.pool)).flatMap (·.1.slots) = fs.flatMap Chain.slots := by
      simp [List.flatMap_map]
    show i'.Faithful ((w.consumer ++ _).flatMap (·.1.slots)) _ _ (w.handed ++ _)
    rw [List.flatMap_append, shown, List.map_map]
    exact inv
  · show w.fed = _
    rw [fed, completions, List.map_append, Pool.arrivalOf_congr memory, List.append_assoc]
  · intro x member
    rcases List.mem_append.mp member with old | new
    · exact List.mem_append_left _ (noted x old)
    · exact List.mem_append_right _ (List.mem_map_of_mem new)

theorem mem_slots {x : Chain × List UInt8} (member : x ∈ w.consumer) {t : SlotId}
    (slot : t ∈ x.1.slots) : t ∈ w.slots :=
  List.mem_flatMap.mpr ⟨x, member, slot⟩

theorem slots_of_mapM {items : List Item} {cs : List Chain}
    (resolved : items.mapM w.chainOf? = some cs) : ∀ t ∈ (Chain.concat cs).slots, t ∈ w.slots := by
  induction items generalizing cs with
  | nil =>
    cases resolved
    simp
  | cons item rest ih =>
    simp only [List.mapM_cons, Option.bind_eq_bind, Option.bind_eq_some_iff, Option.pure_def,
      Option.some.injEq] at resolved
    obtain ⟨c, chain, cs', later, rfl⟩ := resolved
    intro t slot
    simp only [Chain.slots_concat, List.flatMap_cons, List.mem_append] at slot
    rcases slot with own | other
    · cases item with
      | bytes d =>
        cases chain
        simp [Chain.ofShared, Chain.slots] at own
      | copy k =>
        obtain ⟨x, kept, rfl⟩ := Option.map_eq_some_iff.mp chain
        exact mem_slots (List.mem_of_getElem? kept) own
    · exact ih later t (by simpa using other)

variable [AddressProtocol α]

def perform : Action α → StateT (Station α) Run Unit
  | .init => do
    match ← onIface Interface.init with
    | .ok () => modify fun w => { w with fed := w.fed ++ [.start] }
    | .error _ => pure ()
  | .deinit => do
    let _ ← onIface Interface.deinit
  | .receive => do
    hand (← onIface Interface.receive).toList
  | .pollInput => do
    hand (← onIface Interface.pollInput)
  | .output items => do
    match items.mapM (← get).chainOf? with
    | none => pure ()
    | some cs => onIface (Interface.sendCopy (Chain.concat cs))
  | .reclaimTx => do
    let _ ← onIface Interface.reclaimTx
  | .serviceTick now => do
    let _ ← onIface (Interface.serviceTick now)
  | .inject bytes last error _ => do
    let w ← get
    match w.iface.board.mac.deliver w.iface.pool bytes last error with
    | none => pure ()
    | some (_, m, p) =>
      set { w with
        iface := { w.iface.withMac m with pool := p }
        fed := w.fed ++ [Mark.arrival bytes last error] }
  | .finishTx => rewire fun i => i.withMac i.board.mac.finishTx
  | .plug bits => rewire fun i => { i with board := { i.board with phy := i.board.phy.plug bits } }
  | .unplug => rewire fun i => { i with board := { i.board with phy := i.board.phy.unplug } }
  | .switches txDepth txSlots autoCompleteTx failInit failSetLink failTx =>
    rewire fun i => i.withMac { i.board.mac with
      txDepth, txSlots, autoCompleteTx, failInit, failSetLink, failTx }
  | .proto p => rewire fun i => { i with proto := p }
  | .clone k => do
    match (← get).consumer[k]? with
    | none => pure ()
    | some x =>
      onIface (Interface.onPool x.1.retain)
      modify fun w => { w with consumer := w.consumer ++ [x] }
  | .drop k => do
    match (← get).consumer[k]? with
    | none => pure ()
    | some x =>
      modify fun w => { w with consumer := w.consumer.eraseIdx k }
      onIface (Interface.onPool x.1.release)

/-! ### Every action keeps the invariant -/

theorem Holds.ensures_init (holds : w.Holds) : Ensures (perform .init) w (fun _ w' => w'.Holds) halts := by
  obtain ⟨⟨done, inv, fed⟩, noted⟩ := holds
  refine ensures_bind (ensures_focus ((inv.ensures_init).mono (fun r i' post => ?_) (fun _ => False.elim)))
  obtain ⟨pending, post⟩ := post
  cases r with
  | ok =>
    obtain ⟨stopped, inv'⟩ := post
    -- the interface started from a stopped one, whose engine queued no completion
    have none := inv.sound.completions_of_stopped stopped
    refine ensures_modify ⟨⟨done ++ [Mark.start], inv', ?_⟩, noted⟩
    show w.fed ++ [.start] = _
    rw [fed, pending.completions, none]
    simp
  | error e =>
    exact ensures_pure ⟨⟨done, post, pending.splits fed⟩, noted⟩

theorem Holds.ensures_deinit (holds : w.Holds) :
    Ensures (perform .deinit) w (fun _ w' => w'.Holds) halts := by
  obtain ⟨⟨done, inv, fed⟩, noted⟩ := holds
  refine ensures_bind (ensures_focus ((inv.ensures_deinit).mono (fun r i' post => ensures_pure ?_)
    (fun _ => False.elim)))
  cases r with
  | ok =>
    obtain ⟨none, inv'⟩ := post
    refine ⟨⟨_, inv', ?_⟩, noted⟩
    rw [none, List.map_nil, List.append_nil]
    exact fed
  | error e =>
    subst post
    exact ⟨⟨done, inv, fed⟩, noted⟩

theorem Holds.ensures_receive (holds : w.Holds) :
    Ensures (perform .receive) w (fun _ w' => w'.Holds) halts := by
  obtain ⟨⟨done, inv, fed⟩, noted⟩ := holds
  exact ensures_bind (ensures_focus ((inv.ensures_receive).mono
    (fun _ _ received => ensures_hand fed noted received) (fun _ => False.elim)))

theorem Holds.ensures_pollInput (holds : w.Holds) :
    Ensures (perform .pollInput) w (fun _ w' => w'.Holds) halts := by
  obtain ⟨⟨done, inv, fed⟩, noted⟩ := holds
  exact ensures_bind (ensures_focus ((inv.ensures_pollInput).mono
    (fun _ _ received => ensures_hand fed noted received) (fun _ => False.elim)))

/-- Sending a frame of fresh bytes and copies of the consumer's chains halts only where a copy
takes one handle too many on a slot of the consumer's. -/
theorem Holds.ensures_output (holds : w.Holds) (items : List Item) :
    Ensures (perform (.output items)) w (fun _ w' => w'.Holds)
      (fun f => ∃ t ∈ w.slots, f = .refcountOverflow t.index) := by
  refine ensures_bind (ensures_get ?_)
  cases resolved : items.mapM w.chainOf? with
  | none => exact ensures_pure holds
  | some cs =>
    have known := slots_of_mapM resolved
    exact holds.ensures_onIface fun _ inv => (inv.ensures_sendCopy known).mono (fun _ _ => id)
      (fun _ ⟨t, slot, fault⟩ => ⟨t, known t slot, fault⟩)

theorem Holds.ensures_inject {bytes : List UInt8} {last error : Bool} (holds : w.Holds)
    (fits : bytes.length ≤ slotSize) :
    Ensures (perform (.inject bytes last error fits)) w (fun _ w' => w'.Holds) halts := by
  obtain ⟨⟨done, inv, fed⟩, noted⟩ := holds
  refine ensures_bind (ensures_get ?_)
  cases head : w.iface.board.mac.armed with
  | nil =>
    simp only [ScriptedMac.deliver, ScriptedMac.inject, head, Option.map_none]
    exact ensures_pure ⟨⟨done, inv, fed⟩, noted⟩
  | cons s rest =>
    simp only [ScriptedMac.deliver, ScriptedMac.inject, head, Option.map_some]
    refine ensures_set ⟨⟨done, inv.inject head fits, ?_⟩, noted⟩
    show w.fed ++ [Mark.arrival bytes last error] = done ++ (w.iface.injected s rest bytes last
      error).board.mac.completions.map (w.iface.injected s rest bytes last error).pool.arrivalOf
    rw [inv.arrivals_inject head, fed, List.append_assoc]

theorem Holds.ensures_clone (holds : w.Holds) (k : Nat) :
    Ensures (perform (.clone k)) w (fun _ w' => w'.Holds)
      (fun f => ∃ t ∈ w.slots, f = .refcountOverflow t.index) := by
  obtain ⟨⟨done, inv, fed⟩, noted⟩ := holds
  refine ensures_bind (ensures_get ?_)
  cases kept : w.consumer[k]? with
  | none => exact ensures_pure ⟨⟨done, inv, fed⟩, noted⟩
  | some x =>
    have member : x ∈ w.consumer := List.mem_of_getElem? kept
    have known : ∀ t ∈ x.1.slots, t ∈ w.slots := fun t slot => mem_slots member slot
    refine ensures_seq (ensures_focus ((inv.ensures_pin known).mono
      (fun _ i' ⟨inv', drained⟩ => ensures_modify ⟨⟨done, ?_, ?_⟩, ?_⟩)
      (fun _ ⟨t, slot, _, fault⟩ => ⟨t, known t slot, fault⟩)))
    · have grown : (w.consumer ++ [x]).flatMap (·.1.slots) = w.slots ++ x.1.slots := by
        simp [slots]
      show i'.Faithful ((w.consumer ++ [x]).flatMap (·.1.slots)) (w.consumer ++ [x]) done w.handed
      rw [grown]
      refine inv'.of_subset (List.append_subset.mpr ⟨fun _ => id, fun y copied => ?_⟩)
      rw [List.mem_singleton.mp copied]
      exact member
    · exact (drained.pending rfl).splits fed
    · intro y copied
      rcases List.mem_append.mp copied with old | new
      · exact noted y old
      · rw [List.mem_singleton.mp new]
        exact noted x member

theorem Holds.ensures_drop (holds : w.Holds) (k : Nat) :
    Ensures (perform (.drop k)) w (fun _ w' => w'.Holds) halts := by
  obtain ⟨⟨done, inv, fed⟩, noted⟩ := holds
  refine ensures_bind (ensures_get ?_)
  cases kept : w.consumer[k]? with
  | none => exact ensures_pure ⟨⟨done, inv, fed⟩, noted⟩
  | some x =>
    obtain ⟨inRange, rfl⟩ := List.getElem?_eq_some_iff.mp kept
    have rest : ((w.consumer.eraseIdx k).flatMap (·.1.slots) ++ w.consumer[k].1.slots).Perm w.slots := by
      have moved := (List.getElem_cons_eraseIdx_perm inRange).flatMap_right fun x : Chain × List UInt8 => x.1.slots
      rw [List.flatMap_cons] at moved
      exact List.perm_append_comm.trans moved
    have inv₁ : w.iface.Faithful ((w.consumer.eraseIdx k).flatMap (·.1.slots) ++ w.consumer[k].1.slots)
        (w.consumer.eraseIdx k) done w.handed :=
      (inv.perm rest.symm).of_subset fun _ member => List.mem_of_mem_eraseIdx member
    refine ensures_seq (ensures_modify (ensures_focus ((inv₁.ensures_unpin
      fun y member t slot => List.mem_flatMap.mpr ⟨y, member, slot⟩).mono
      (fun _ i' ⟨inv', drained⟩ => ⟨⟨done, inv', ?_⟩, ?_⟩) (fun _ => False.elim))))
    · exact (drained.pending rfl).splits fed
    · exact fun y member => noted y (List.mem_of_mem_eraseIdx member)

/-- Every action keeps the invariant, and halts only where a copy takes one handle too many on
a slot of the consumer's. -/
theorem Holds.ensures_perform (holds : w.Holds) (a : Action α) :
    Ensures (perform a) w (fun _ w' => w'.Holds)
      (fun f => ∃ t ∈ w.slots, f = .refcountOverflow t.index) := by
  cases a with
  | init => exact holds.ensures_init
  | deinit => exact holds.ensures_deinit
  | receive => exact holds.ensures_receive
  | pollInput => exact holds.ensures_pollInput
  | output items => exact holds.ensures_output items
  | reclaimTx =>
    refine ensures_bind_via (fun _ w' => w'.Holds) (holds.ensures_onIface fun _ inv =>
      (inv.ensures_reclaimTx).mono (fun _ _ ⟨inv', drained, _⟩ => ⟨inv', drained.pending rfl⟩)
        (fun _ => False.elim)) fun _ _ kept => ensures_pure kept
  | serviceTick now =>
    refine ensures_bind_via (fun _ w' => w'.Holds) (holds.ensures_onIface fun _ inv =>
      (inv.ensures_serviceTick now).mono (fun _ _ post => post) (fun _ => False.elim))
      fun _ _ kept => ensures_pure kept
  | inject bytes last error fits => exact holds.ensures_inject fits
  | finishTx =>
    exact holds.ensures_rewire (fun i => i.withMac i.board.mac.finishTx)
      (Interface.steady_withMac (ScriptedMac.sameQueues_finishTx _))
  | plug bits =>
    exact holds.ensures_rewire (fun i => { i with board := { i.board with phy := i.board.phy.plug bits } })
      ⟨.refl _, rfl, rfl, rfl, rfl⟩
  | unplug =>
    exact holds.ensures_rewire (fun i => { i with board := { i.board with phy := i.board.phy.unplug } })
      ⟨.refl _, rfl, rfl, rfl, rfl⟩
  | switches txDepth txSlots autoCompleteTx failInit failSetLink failTx =>
    exact holds.ensures_rewire (fun i => i.withMac { i.board.mac with
      txDepth, txSlots, autoCompleteTx, failInit, failSetLink, failTx })
      (Interface.steady_withMac ⟨rfl, rfl, rfl, .refl _⟩)
  | proto p => exact holds.ensures_rewire (fun i => { i with proto := p }) ⟨.refl _, rfl, rfl, rfl, rfl⟩
  | clone k => exact holds.ensures_clone k
  | drop k => exact holds.ensures_drop k

/-- The stations reached from a new interface over an engine that holds nothing. -/
inductive Reached : Station α → Prop where
  | created {settings : Settings} {board : ScriptedBoard} {proto : α} {i : Interface ScriptedBoard α}
      {j j' : Journal} (idle : board.mac.rxSlots = []) (unpinned : board.mac.txPinned = [])
      (made : Interface.create settings board proto j = .ok (.ok i) j') : Reached { iface := i }
  | step {w w' : Station α} {j j' : Journal} (a : Action α) (before : Reached w)
      (ran : perform a w j = .ok (⟨⟩, w') j') : Reached w'

theorem Reached.holds (reached : w.Reached) : w.Holds := by
  induction reached with
  | created idle unpinned made =>
    obtain ⟨inv, stopped⟩ := Interface.faithful_created made idle unpinned
    -- nothing was fed yet, and a new interface is stopped, so its engine queues no completion
    refine ⟨⟨[], inv, ?_⟩, by simp⟩
    rw [inv.sound.completions_of_stopped stopped]
    rfl
  | step a _ ran holds => exact (holds.ensures_perform a).of_ok ran

/-- The station a script of actions leaves, each run from an empty journal, unless one halts. -/
def runScript : List (Action α) → Station α → Option (Station α)
  | [], w => some w
  | a :: as, w =>
    match perform a w #[] with
    | .ok (_, w') _ => runScript as w'
    | .error _ _ => none

theorem runScript_keeps {P : Station α → Prop}
    (step : ∀ a w w' j j', P w → perform a w j = .ok (⟨⟩, w') j' → P w') :
    ∀ {as : List (Action α)} {w w' : Station α}, P w → w.runScript as = some w' → P w'
  | [], _, _, holds, ran => Option.some.inj ran ▸ holds
  | a :: as, w, _, holds, ran => by
    unfold runScript at ran
    split at ran
    · next w₁ _ performed => exact runScript_keeps step (step a w w₁ _ _ holds performed) ran
    · cases ran

theorem runScript_getD_keeps {P : Station α → Prop}
    (step : ∀ a w w' j j', P w → perform a w j = .ok (⟨⟩, w') j' → P w') (holds : P w)
    {as : List (Action α)} (runs : (w.runScript as).isSome = true) :
    P ((w.runScript as).getD w) := by
  obtain ⟨w', ran⟩ := Option.isSome_iff_exists.1 runs
  rw [ran, Option.getD_some]
  exact runScript_keeps step holds ran

theorem Reached.runScript (reached : w.Reached) {as : List (Action α)}
    (runs : (w.runScript as).isSome = true) : ((w.runScript as).getD w).Reached :=
  runScript_getD_keeps (fun a _ _ _ _ before ran => .step a before ran) reached runs

/-! ### What every station reached guarantees -/

/-- A station on a new interface with the default settings over an idle scripted board. -/
def created : Station ScriptedProtocol where
  iface :=
    { settings := {}
      board := ⟨{}, {}⟩
      proto := {}
      pool := Pool.fresh 10
      acquisition := .create 4 Ipv4Config.fallback }

theorem reached_created : created.Reached := by
  have made : Interface.create ({} : Settings) (⟨{}, {}⟩ : ScriptedBoard) ({} : ScriptedProtocol) #[] =
      .ok (.ok created.iface) #[] := by
    rfl
  exact Reached.created (by rfl) (by rfl) made

/-- The created station with its cable plugged, started, its link brought up by a tick, and one
frame of sixty bytes injected and handed out to the consumer. -/
def delivered : Station ScriptedProtocol :=
  (created.runScript [.plug 6, .init, .serviceTick 0,
    .inject (List.replicate 60 7) true false (by decide), .receive]).getD created

theorem reached_delivered : delivered.Reached :=
  reached_created.runScript (by decide +kernel)

/-- Every receive slot accounted for. -/
structure Accounted (w : Station α) : Prop where
  /-- The hardware owns exactly the slots in the engine's armed and completed queues. -/
  hardware : ∀ s, w.iface.pool.owner s = .hardware ↔ s ∈ w.iface.board.mac.rxSlots
  /-- Each of them once. -/
  once : w.iface.board.mac.rxSlots.Nodup
  ring : w.iface.board.mac.armed.length + w.iface.board.mac.completions.length ≤
    w.iface.board.mac.rxRing
  /-- A software slot counts one reference for each handle on it: of the frame being assembled,
  of the consumer's chains, and of the frames the engine holds to send. -/
  software : ∀ s, w.iface.pool.owner s = .software → (w.iface.pool.header s).refcount =
    w.iface.rx.holding.count s + w.slots.count s + w.iface.board.mac.txPinned.count s
  /-- No action halts but where a copy takes one handle too many on a slot of the consumer's;
  in particular every slot the interface reclaims or gives back is the hardware's. -/
  halts : ∀ a : Action α, Ensures (perform a) w (fun _ _ => True)
    fun f => ∃ t ∈ w.slots, f = .refcountOverflow t.index
  /-- A stopped interface holds no slot: the software slots are those of the consumer's
  chains. -/
  stopped : w.iface.initialized = false →
    w.iface.pool.census.hardware = 0 ∧ w.iface.pool.census.software = w.slots.dedup.length

theorem receive_slots_accounted (reached : w.Reached) : w.Accounted := by
  obtain ⟨⟨done, inv, -⟩, -⟩ := reached.holds
  have books := inv.sound.books
  refine ⟨books.owner_hardware_iff, books.armed_nodup, inv.sound.ring, fun s software => ?_,
    fun a => (reached.holds.ensures_perform a).mono (fun _ _ _ => trivial) (fun _ => id), fun halted => ?_⟩
  · rw [books.refcount_of_software software, List.count_append, List.count_append]
  · obtain ⟨idle, unpinned, fresh⟩ := inv.sound.quiet halted
    have holding : w.iface.rx.holding = [] := by rw [fresh]; rfl
    rw [idle, unpinned, holding, List.nil_append, List.append_nil] at books
    exact ⟨by rw [books.census_hardware]; rfl, books.census_software⟩

theorem delivered_accounted :
    delivered.Reached ∧ delivered.iface.initialized = true ∧ delivered.Accounted :=
  ⟨reached_delivered, by decide +kernel, receive_slots_accounted reached_delivered⟩

/-- The frames handed out are the injected ones and keep their bytes. -/
structure Intact (w : Station α) : Prop where
  /-- The bytes of the frames handed out are, in order, among the frames the bench injected: each
  a run of injections since a start or a last one, ending at one flagged last, with none flagged
  an error. -/
  injected : w.handed.Sublist (Mark.frames [] w.fed)
  /-- Each chain the consumer keeps still shows the bytes it showed when handed out, those of a
  frame handed out. -/
  kept : ∀ x ∈ w.consumer, x.1.toBytes w.iface.pool = x.2 ∧ x.2 ∈ w.handed
  /-- Each starts with a pooled segment whose running total is the chain's length. -/
  head : ∀ x ∈ w.consumer,
    ∃ s rest, x.1.segments = .pooled s :: rest ∧ (w.iface.pool.header s).total = x.1.total
  /-- The count of frames received is the number handed out since the interface was made. -/
  counted : w.iface.stats.rxFrames = w.handed.length

theorem handed_frames_intact (reached : w.Reached) : w.Intact := by
  obtain ⟨⟨done, inv, fed⟩, noted⟩ := reached.holds
  obtain ⟨frame, receives⟩ := inv.receives
  refine ⟨?_, fun x member => ⟨inv.shows.toBytes_eq member, noted x member⟩,
    fun x member => inv.shows.head_total member, receives.counted⟩
  rw [fed]
  exact receives.delivered.trans Mark.frames_prefix.sublist

theorem delivered_intact :
    delivered.Reached ∧ delivered.handed = [List.replicate 60 7] ∧ delivered.Intact :=
  ⟨reached_delivered, by decide +kernel, handed_frames_intact reached_delivered⟩

end Station

end Ethernet
