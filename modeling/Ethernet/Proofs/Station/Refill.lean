import Ethernet.Proofs.Interface.Termination
import Ethernet.Proofs.Station.World

/-! Re-arming receive descriptors is maximal, except right after a frame is given up, whose slots
are the only ones a `receive` that finds nothing can leave free beside a waiting descriptor. -/
namespace Ethernet

variable {β γ : Type}

namespace Pool

/-- The exhaustion pause is raised only with the free list empty. -/
def Paused (p : Pool) : Prop := p.exhausted = true → p.freeList = []

/-- A pool operation that keeps the pause honest and adds to the free list only slots that
satisfy `freed`, whenever it ends. -/
def Frees (freed : Nat → Prop) (act : PoolRun β) : Prop :=
  ∀ p, p.Paused →
    Ensures act p (fun _ p' => p'.Paused ∧ ∀ n ∈ p'.freeList, n ∈ p.freeList ∨ freed n) (fun _ => True)

section Frees

variable {freed freed' : Nat → Prop}

theorem listed_stays {l : List Nat} {P : Nat → Prop} : ∀ n ∈ l, n ∈ l ∨ P n := fun _ listed => .inl listed

theorem frees_pure (a : β) : Frees freed (pure a : PoolRun β) :=
  fun _ paused => ensures_pure ⟨paused, fun _ listed => .inl listed⟩

theorem Frees.bind {x : PoolRun β} {f : β → PoolRun γ} (first : Frees freed x)
    (rest : ∀ a, Frees freed (f a)) : Frees freed (x >>= f) := fun p paused =>
  ensures_bind ((first p paused).mono (fun a p₁ ⟨paused₁, grew₁⟩ => (rest a p₁ paused₁).mono
    (fun _ _ ⟨paused₂, grew₂⟩ => ⟨paused₂, fun n listed => (grew₂ n listed).elim (grew₁ n) .inr⟩)
    (fun _ => id)) (fun _ => id))

theorem Frees.mono {act : PoolRun β} (h : Frees freed act) (wider : ∀ n, freed n → freed' n) :
    Frees freed' act := fun p paused =>
  (h p paused).mono (fun _ _ ⟨paused', grew⟩ => ⟨paused', fun n listed => (grew n listed).imp_right
    (wider n)⟩) (fun _ => id)

theorem frees_lift (act : Run β) : Frees freed (liftM act : PoolRun β) := fun _ paused =>
  ensures_lift_ok fun _ _ _ _ => ⟨paused, fun _ listed => .inl listed⟩

theorem frees_reclaim (s : SlotId) (len : Nat) : Frees freed (reclaim s len) := by
  intro p paused j
  by_cases hardware : p.owner s = .hardware
  · simp [reclaim, hardware, Paused]
    exact ⟨paused, listed_stays⟩
  · simp [reclaim, hardware]

theorem frees_release (s : SlotId) : Frees (· = s.index) (release s) := by
  intro p paused j
  by_cases held : (p.header s).owner = .software ∧ (p.header s).refcount ≠ 0
  · obtain ⟨software, pos⟩ := held
    by_cases last : (p.header s).refcount = 1
    · cases lifted : p.exhausted <;> simp [release, software, last, pushFree, lifted, Paused] <;>
        exact listed_stays
    · have more : ¬(p.header s).refcount - 1 = 0 := by omega
      simp [release, software, pos, more, Paused]
      exact ⟨paused, listed_stays⟩
  · simp only [not_and_or, ne_eq, not_not] at held
    rcases held with other | spent
    · simp [release, other]
    · simp [release, spent]

theorem frees_addTotal (s : SlotId) (n : Nat) : Frees freed (addTotal s n) := by
  intro p paused j
  by_cases software : (p.header s).owner = .software
  · by_cases overflow : (p.header s).total + n % Nat.pow 2 32 > maxTotal
    · simp [addTotal, software, overflow]
    · simp [addTotal, software, overflow, Paused]
      exact ⟨paused, listed_stays⟩
  · simp [addTotal, software]

theorem frees_forM {xs : List γ} {f : γ → PoolRun PUnit} (each : ∀ x ∈ xs, Frees freed (f x)) :
    Frees freed (xs.forM f) := by
  induction xs with
  | nil => exact frees_pure _
  | cons x rest ih =>
    change Frees freed (f x >>= fun _ => rest.forM f)
    exact (each x (.head _)).bind fun _ => ih fun y member => each y (.tail _ member)

end Frees

end Pool

open Pool

theorem Chain.frees_release (c : Chain) : Frees (fun n => ∃ s ∈ c.slots, s.index = n) c.release :=
  frees_forM fun s member => (Pool.frees_release s).mono fun _ same => ⟨s, member, same.symm⟩

namespace Assembler

theorem frees_reject (a : Assembler) (buf : SlotId) (last : Bool) :
    Frees (fun _ => True) (a.reject buf last) := by
  unfold Assembler.reject
  refine ((Pool.frees_release _).mono fun _ _ => trivial).bind fun _ => ?_
  dsimp only
  split
  · refine ((Chain.frees_release _).mono fun _ _ => trivial).bind fun _ => ?_
    split <;> exact frees_pure _
  · split <;> exact frees_pure _

theorem frees_take (a : Assembler) (c : RxCompletion) : Frees (fun _ => True) (a.take c) := by
  unfold Assembler.take
  refine (frees_reclaim _ _).bind fun _ => ?_
  split
  · exact (frees_lift _).bind fun _ => (frees_reject _ _ _).bind fun _ => frees_pure _
  · unfold Assembler.push
    split
    · refine ((Pool.frees_release _).mono fun _ _ => trivial).bind fun _ => ?_
      split
      · exact (frees_lift _).bind fun _ => frees_pure _
      · exact frees_pure _
    · refine (frees_forM fun s _ => frees_addTotal s _).bind fun _ => ?_
      refine Frees.bind (fun p paused => ensures_get ⟨paused, fun _ listed => .inl listed⟩)
        fun _ => ?_
      split <;> exact frees_pure _

/-- Giving up the frame in progress frees at most that frame's slots, and leaves the assembler
dropping the rest of the frame with nothing in progress. -/
theorem ensures_discard_frees {a : Assembler} (assembling : a.isAssembling = true) {p : Pool}
    (paused : p.Paused) :
    Ensures a.discard p (fun a' p' => a'.discarding = true ∧ a'.inProgress = none ∧ p'.Paused ∧
      ∀ n ∈ p'.freeList, n ∈ p.freeList ∨ ∃ s ∈ a.holding, s.index = n) (fun _ => True) := by
  unfold Assembler.discard
  cases progress : a.inProgress with
  | none => simp [isAssembling, progress] at assembling
  | some pending =>
    refine ensures_seq (ensures_emit ?_)
    refine ensures_bind ((Chain.frees_release pending p paused).mono
      (fun _ p' released => ensures_pure ⟨rfl, rfl, released.1, fun n listed => ?_⟩) (fun _ => id))
    simpa [Assembler.holding, progress] using released.2 n listed

theorem ensures_reject_drops (a : Assembler) (buf : SlotId) (last : Bool) (p : Pool) :
    Ensures (a.reject buf last) p (fun a' _ => a'.inProgress = none) (fun _ => True) := by
  unfold Assembler.reject
  refine ensures_seq (ensures_true.mono (fun _ _ _ => ?_) (fun _ => id))
  dsimp only
  split
  · refine ensures_bind (ensures_true.mono (fun _ _ _ => ?_) (fun _ => id))
    split <;> exact ensures_pure rfl
  · split <;> exact ensures_pure rfl

theorem ensures_take_holding (a : Assembler) (c : RxCompletion) (p : Pool) :
    Ensures (a.take c) p (fun r _ => ∀ s ∈ r.2.holding, s ∈ a.holding ∨ s = c.slot)
      (fun _ => True) := by
  unfold Assembler.take
  refine ensures_seq (ensures_true.mono (fun _ _ _ => ?_) (fun _ => id))
  split
  · refine ensures_seq (ensures_emit (ensures_bind ((a.ensures_reject_drops c.slot c.last _).mono
      (fun a' _ dropped => ensures_pure ?_) (fun _ => id))))
    simp [Assembler.holding, dropped]
  · unfold Assembler.push
    split
    · refine ensures_seq (ensures_true.mono (fun _ _ _ => ?_) (fun _ => id))
      split
      · exact ensures_seq (ensures_emit (ensures_pure fun _ held => .inl held))
      · exact ensures_pure fun _ held => .inl held
    · refine ensures_seq (ensures_true.mono (fun _ _ _ => ensures_bind (ensures_get ?_)) (fun _ => id))
      split
      · exact ensures_pure fun _ held => by simp [Assembler.holding] at held
      · refine ensures_pure fun s held => ?_
        cases progress : a.inProgress <;> simp_all [Assembler.holding, Chain.push, Chain.slots, List.filterMap_append]

end Assembler

namespace Interface

open Bench

variable {α : Type} {i₀ i : Interface ScriptedBoard α}

/-! ### Refilling fills the ring or empties the pool -/

/-- What a refill from `i` leaves, `starved` telling whether the pool ran dry: the assembler and
the engine's completions as they were, the pause honest, and the ring full unless the pool ran
dry, in which case the free list is empty. -/
structure Refilled (i : Interface ScriptedBoard α) (starved : Bool) (i' : Interface ScriptedBoard α) :
    Prop where
  paused : i'.pool.Paused
  rx : i'.rx = i.rx
  completions : i'.board.mac.completions = i.board.mac.completions
  full : starved = false → i'.board.mac.wantsBuffer = false
  dry : starved = true → i'.pool.freeList = []

/-- Each round of refilling arms one slot off the free list, so a bound above the free list
lets it run until the ring is full or the pool is dry. -/
theorem ensures_refillFor_fills : ∀ (fuel : Nat) (i : Interface ScriptedBoard α), i.pool.Paused →
    i.pool.freeList.length < fuel →
    Ensures (refillFor fuel) i (fun starved i' => Refilled i starved i') (fun _ => True)
  | 0, _, _, short => absurd short (Nat.not_lt_zero _)
  | fuel + 1, i, paused, short => by
    unfold refillFor
    refine ensures_bind (ensures_get ?_)
    cases wants : i.board.mac.wantsBuffer
    · simp only [rxWantsBuffer_board, wants, Bool.not_false, if_true]
      exact ensures_pure ⟨paused, rfl, rfl, fun _ => wants, by simp⟩
    cases lifted : i.pool.exhausted
    case true =>
      simp only [rxWantsBuffer_board, wants, Bool.not_true, Bool.false_eq_true, if_false, if_true]
      exact ensures_pure ⟨paused, rfl, rfl, by simp, fun _ => paused lifted⟩
    simp only [rxWantsBuffer_board, wants, Bool.not_true, Bool.false_eq_true, if_false]
    apply ensures_bind
    cases top : i.pool.freeList with
    | nil =>
      refine ensures_focus ((ensures_allocate_empty top).mono (fun r p' after => ?_) (fun _ => id))
      obtain ⟨refused, exhausted⟩ := after
      subst refused exhausted
      exact ensures_pure ⟨fun _ => top, rfl, rfl, by simp, fun _ => top⟩
    | cons n rest =>
      by_cases free : i.pool.owner ⟨n⟩ = .free
      · refine ensures_focus ((ensures_allocate_top top free).mono
          (fun r p' after => ?_) (fun _ => id))
        obtain ⟨allocated, handed⟩ := after
        subst allocated handed
        refine Returns.bind (returns_rxProvide wants) ?_
        have shorter : rest.length < fuel := by
          rw [top, List.length_cons] at short
          omega
        exact (ensures_refillFor_fills fuel _ (by simp [Paused, lifted]) (by simpa using shorter)).mono
          (fun _ _ refilled => ⟨refilled.paused, refilled.rx, refilled.completions, refilled.full,
            refilled.dry⟩) (fun _ => id)
      · -- a busy slot on the free list halts the allocation
        exact ensures_focus fun j => by simp [Pool.allocate, top, free]

theorem ensures_refill_fills (paused : i.pool.Paused) :
    Ensures (refill : IfRun ScriptedBoard α Bool) i (fun starved i' => Refilled i starved i')
      (fun _ => True) :=
  ensures_bind (ensures_get (ensures_refillFor_fills _ i paused (Nat.lt_succ_self _)))

/-! ### Receiving leaves the ring full, unless it just gave up a frame -/

/-- The slot `s` belonged, when `receive` was called at `i₀`, to the frame the assembler held or
to a completion the engine held. -/
def FromCall (i₀ : Interface ScriptedBoard α) (s : SlotId) : Prop :=
  s ∈ i₀.rx.holding ∨ ∃ c ∈ i₀.board.mac.completions, c.slot = s

/-- A state between two rounds of a `receive` called at `i₀`: the pause honest, the frame in
progress on slots of the call, and the completions among those of the call. -/
structure Between (i₀ i : Interface ScriptedBoard α) : Prop where
  paused : i.pool.Paused
  holding : ∀ s ∈ i.rx.holding, FromCall i₀ s
  completions : ∀ c ∈ i.board.mac.completions, c ∈ i₀.board.mac.completions

/-- Where a `receive` called at `i₀` that found nothing leaves the ring: full, or the pool dry, or
the assembler has just given up its partial frame and every free slot is one that, at the call,
the assembler held or a completion of the engine's carried. -/
def LeftFull (i₀ i' : Interface ScriptedBoard α) : Prop :=
  i'.board.mac.wantsBuffer = false ∨ i'.pool.freeList = [] ∨
    (i'.rx.discarding = true ∧ i'.rx.inProgress = none ∧ ∀ n ∈ i'.pool.freeList, FromCall i₀ ⟨n⟩)

/-- Reading back a completion either finds none, which leaves the state as it was, or takes one
and goes on between rounds with one completion fewer. -/
theorem hands_takeNext_between (P : Interface ScriptedBoard α → Prop) (between : Between i₀ i)
    (holds : P i) :
    Hands takeNext i (fun r i' => r = none → P i') (fun i₂ => Between i₀ i₂ ∧
      MacEngine.pendingCompletions i₂.board < MacEngine.pendingCompletions i.board) := by
  unfold takeNext
  cases head : i.board.mac.completions with
  | nil =>
    refine hands_bind (fun r i₁ => r = none ∧ i₁ = i) ((returns_rxPoll_nil head).ensures ⟨rfl, rfl⟩) ?_
    rintro _ _ ⟨rfl, rfl⟩
    exact hands_stop (ensures_pure fun _ => holds)
  | cons c rest =>
    refine hands_bind (fun r i₁ => r = some c ∧ i₁ = i.withMac { i.board.mac with completions := rest })
      ((returns_rxPoll_cons head).ensures ⟨rfl, rfl⟩) ?_
    rintro _ _ ⟨rfl, rfl⟩
    refine hands_get ?_
    refine hands_bind (fun r i₂ => ((∀ s ∈ r.2.holding, s ∈ i.rx.holding ∨ s = c.slot) ∧
        i₂.pool.Paused) ∧ i₂.board.mac.completions = rest)
      (ensures_focus (((i.rx.ensures_take_holding c i.pool).and
        (Assembler.frees_take i.rx c i.pool between.paused)).mono
          (fun _ _ taken => ⟨⟨taken.1, taken.2.1⟩, rfl⟩) (fun _ _ => trivial))) ?_
    rintro ⟨frame, a⟩ i₂ ⟨⟨holding, paused⟩, completions⟩
    refine hands_bind (fun _ i₃ => i₃ = { i₂ with rx := a }) (ensures_modify rfl) ?_
    rintro _ _ rfl
    cases frame with
    | some f => exact hands_stop (ensures_pure (by simp))
    | none =>
      refine hands_next ⟨⟨paused, fun s held => ?_, fun c' member => ?_⟩, ?_⟩
      · rcases holding s held with before | taken
        · exact between.holding s before
        · exact .inr ⟨c, between.completions c (by simp [head]), taken.symm⟩
      · exact between.completions c' (by rw [head]; exact .tail _ (completions ▸ member))
      · simp [completions, head]

/-- Each round of a `receive` called at `i₀` either ends it, having found nothing only with the
ring left full, or goes on between rounds with one completion fewer. -/
theorem hands_receiveRound_full (between : Between i₀ i) :
    Hands receiveRound i (fun r i' => r = none → LeftFull i₀ i') (fun i₂ => Between i₀ i₂ ∧
      MacEngine.pendingCompletions i₂.board < MacEngine.pendingCompletions i.board) := by
  -- whatever leaves the completions as they were, the rest of the round sees as `i`
  have rest : ∀ i₁, Between i₀ i₁ → i₁.board.mac.completions = i.board.mac.completions →
      LeftFull i₀ i₁ → Hands takeNext i₁ (fun r i' => r = none → LeftFull i₀ i') (fun i₂ =>
        Between i₀ i₂ ∧ MacEngine.pendingCompletions i₂.board < MacEngine.pendingCompletions i.board) := by
    intro i₁ between₁ same full
    exact (hands_takeNext_between (LeftFull i₀) between₁ full).mono (fun _ _ => id)
      (fun _ next => ⟨next.1, by simpa [same] using next.2⟩)
  unfold receiveRound
  refine hands_bind _ (ensures_refill_fills between.paused) fun starved i₁ refilled => ?_
  have between₁ : Between i₀ i₁ := ⟨refilled.paused, refilled.rx ▸ between.holding,
    refilled.completions ▸ between.completions⟩
  refine hands_get ?_
  dsimp only
  refine hands_ite (fun starving => ?_) (fun calm => ?_)
  · -- the pool ran dry with a frame in progress, which is given up after the refill
    simp only [Bool.and_eq_true] at starving
    have dry := refilled.dry starving.1
    refine hands_get ?_
    refine hands_bind (fun a i₂ => (a.discarding = true ∧ a.inProgress = none ∧ i₂.pool.Paused ∧
        ∀ n ∈ i₂.pool.freeList, n ∈ i₁.pool.freeList ∨ ∃ s ∈ i₁.rx.holding, s.index = n) ∧
          i₂.board = i₁.board)
      (ensures_focus ((Assembler.ensures_discard_frees starving.2 refilled.paused).mono
        (fun _ _ discarded => ⟨discarded, rfl⟩) (fun _ _ => trivial)))
      fun a i₂ discarded => ?_
    obtain ⟨⟨discarding, idle, paused₂, grew⟩, board⟩ := discarded
    refine hands_bind (fun _ i₃ => i₃ = { i₂ with rx := a }) (ensures_modify rfl) ?_
    rintro _ _ rfl
    have between₃ : Between i₀ { i₂ with rx := a } :=
      ⟨paused₂, by simp [Assembler.holding, idle], board ▸ between₁.completions⟩
    refine rest _ between₃ (board ▸ refilled.completions) (.inr (.inr ⟨discarding, idle, ?_⟩))
    -- the slots freed are the given-up frame's, the free list having been empty
    intro n listed
    rcases grew n listed with stale | ⟨s, held, rfl⟩
    · simp [dry] at stale
    · exact between₁.holding s held
  · -- the refill filled the ring, or left the pool dry with no frame in progress
    have full : LeftFull i₀ i₁ := by
      cases starved
      · exact .inl (refilled.full rfl)
      · exact .inr (.inl (refilled.dry rfl))
    exact rest i₁ between₁ refilled.completions full

theorem ensures_receiveFor_full :
    ∀ (fuel : Nat) (i : Interface ScriptedBoard α), Between i₀ i →
      MacEngine.pendingCompletions i.board < fuel →
      Ensures (receiveFor fuel) i (fun r i' => r = none → LeftFull i₀ i') (fun _ => True)
  | 0, _, _, short => absurd short (Nat.not_lt_zero _)
  | fuel + 1, i, between, bounded => by
    rw [receiveFor_succ]
    exact (hands_receiveRound_full between).ensures (fun _ _ => id) fun i₂ next =>
      ensures_receiveFor_full fuel i₂ next.1 (Nat.lt_of_lt_of_le next.2 (Nat.le_of_lt_succ bounded))

theorem ensures_receive_full (paused : i.pool.Paused) (running : i.initialized = true) :
    Ensures (receive : IfRun ScriptedBoard α _) i (fun r i' => r = none → LeftFull i i')
      (fun _ => True) := by
  unfold receive
  refine ensures_bind (ensures_get ?_)
  simp only [running, Bool.not_true, Bool.false_eq_true, if_false]
  exact ensures_receiveFor_full _ i ⟨paused, fun _ held => .inl held, fun _ member => member⟩
    (Nat.lt_succ_self _)

/-- Whether a `receive` at `i` finds no frame and leaves the engine wanting a buffer while the pool
has a free slot. -/
def idlesBuffer (i : Interface ScriptedBoard α) : Bool :=
  match (receive : IfRun ScriptedBoard α (Option Chain)) i #[] with
  | .ok (none, i') _ => i'.board.mac.wantsBuffer && !i'.pool.freeList.isEmpty
  | _ => false

theorem exists_of_idlesBuffer (idles : i.idlesBuffer = true) :
    ∃ i' j', (receive : IfRun ScriptedBoard α (Option Chain)) i #[] = .ok (none, i') j' ∧
      i'.board.mac.wantsBuffer = true ∧ i'.pool.freeList ≠ [] := by
  unfold idlesBuffer at idles
  split at idles
  · next i' j' ran =>
    simp only [Bool.and_eq_true, Bool.not_eq_true', List.isEmpty_eq_false_iff] at idles
    exact ⟨i', j', ran, idles⟩
  · cases idles

end Interface

namespace Station

open Bench

variable [AddressProtocol α] {w : Station α}

/-- At every station reached, on an initialized interface, refilling fills the ring or empties
the pool, and a `receive` that finds no frame leaves the ring full, or the pool dry, or every
free slot one that the frame it has just given up or a completion it drained held. Neither
halts. -/
theorem receive_leaves_ring_full_unless_frame_given_up (reached : w.Reached)
    (running : w.iface.initialized = true) :
    Ensures (Interface.refill : IfRun ScriptedBoard α Bool) w.iface
      (fun _ i' => i'.board.mac.wantsBuffer = false ∨ i'.pool.freeList = []) (fun _ => False) ∧
    Ensures (Interface.receive : IfRun ScriptedBoard α _) w.iface
      (fun r i' => r = none → Interface.LeftFull w.iface i') (fun _ => False) := by
  obtain ⟨⟨done, inv, -⟩, -⟩ := reached.holds
  have paused : w.iface.pool.Paused := inv.sound.books.exhausted
  refine ⟨((Interface.ensures_refill_fills paused).and (inv.ensures_refill running)).mono
      (fun starved _ refilled => ?_) (fun _ halted => halted.2),
    ((Interface.ensures_receive_full paused running).and inv.ensures_receive).mono
      (fun _ _ full => full.1) (fun _ halted => halted.2)⟩
  cases starved
  · exact .inl (refilled.1.full rfl)
  · exact .inr (refilled.1.dry rfl)

/-- A new interface over four receive buffers and an idle scripted board. -/
def fourBuffers : Station ScriptedProtocol where
  iface :=
    { settings := { rxBufferCount := 4 }
      board := ⟨{}, {}⟩
      proto := {}
      pool := Pool.fresh 4
      acquisition := .create 4 Ipv4Config.fallback }

theorem reached_fourBuffers : fourBuffers.Reached := by
  have made : Interface.create ({ rxBufferCount := 4 } : Settings) (⟨{}, {}⟩ : ScriptedBoard)
      ({} : ScriptedProtocol) #[] = .ok (.ok fourBuffers.iface) #[] := by
    rfl
  exact Reached.created (by rfl) (by rfl) made

/-- The interface started over four buffers, with the engine having completed the first hundred
bytes of a frame into its oldest slot. -/
def midFrame : Station ScriptedProtocol :=
  (fourBuffers.runScript [.init, .inject (List.replicate 100 0) false false (by decide)]).getD
    fourBuffers

theorem reached_midFrame : midFrame.Reached :=
  reached_fourBuffers.runScript (by decide +kernel)

theorem midFrame_running : midFrame.iface.initialized = true := by
  decide +kernel

theorem midFrame_leaves_ring_full_unless_frame_given_up :
    midFrame.Reached ∧ midFrame.iface.initialized = true ∧
    Ensures (Interface.refill : IfRun ScriptedBoard ScriptedProtocol Bool) midFrame.iface
      (fun _ i' => i'.board.mac.wantsBuffer = false ∨ i'.pool.freeList = []) (fun _ => False) ∧
    Ensures (Interface.receive : IfRun ScriptedBoard ScriptedProtocol _) midFrame.iface
      (fun r i' => r = none → Interface.LeftFull midFrame.iface i') (fun _ => False) :=
  ⟨reached_midFrame, midFrame_running,
    receive_leaves_ring_full_unless_frame_given_up reached_midFrame midFrame_running⟩

/-- With all four buffers armed and one completed with the start of a frame, a `receive` takes the
completion onto the frame, finds the pool dry when it refills the freed descriptor, and gives the
frame up, which returns its slot to the pool after the refill; with no completion left it finds
nothing, the engine wanting a buffer and the pool holding a free slot. -/
theorem partial_frame_given_up_leaves_buffer_idle :
    midFrame.Reached ∧ midFrame.iface.initialized = true ∧
    ∃ i' j', (Interface.receive : IfRun ScriptedBoard ScriptedProtocol (Option Chain))
        midFrame.iface #[] = .ok (none, i') j' ∧
      i'.board.mac.wantsBuffer = true ∧ i'.pool.freeList ≠ [] :=
  ⟨reached_midFrame, midFrame_running, Interface.exists_of_idlesBuffer (by decide +kernel)⟩

end Station

end Ethernet
