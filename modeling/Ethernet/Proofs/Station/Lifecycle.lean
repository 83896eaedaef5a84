import Ethernet.Proofs.Station.Transmit

/-! Starting, pacing and stopping an interface over the scripted engine keeps the invariant. -/
namespace Ethernet

theorem Pool.Books.ensures_clear {p : Pool} {armed rest : List SlotId} {a : Assembler}
    (books : p.Books armed (a.holding ++ rest)) :
    Ensures a.clear p (fun _ p' => p.SameExcept p' (· ∈ a.holding) ∧ p'.Books armed rest ∧
      p.Keeps p' (· ∈ rest)) (fun _ => False) := by
  unfold Assembler.clear
  cases progress : a.inProgress with
  | none =>
    have nothing : a.holding = [] := by simp [Assembler.holding, progress]
    rw [nothing] at books ⊢
    exact ensures_pure ⟨Pool.SameExcept.refl.mono fun _ => False.elim, books, fun _ _ => ⟨rfl, rfl⟩⟩
  | some c =>
    have chain : a.holding = c.slots := by simp [Assembler.holding, progress]
    rw [chain] at books ⊢
    exact books.ensures_chainRelease

namespace Interface

open Bench

variable {α : Type} {i i' : Interface ScriptedBoard α} {others : List SlotId}
  {held : List (Chain × List UInt8)} {done : List Mark} {dl : List (List UInt8)}

/-! ### Starting -/

/-- Starting a stopped interface, which holds no slot and no frame, with the engine's queues and
the pool as they were. -/
theorem Faithful.start (inv : i.Faithful others held done dl) (stopped : i.initialized = false)
    (queues : i.board.mac.SameQueues i'.board.mac) (pool : i'.pool = i.pool) (rx : i'.rx = i.rx)
    (rxFrames : i'.counters.rxFrames = i.counters.rxFrames) (running : i'.initialized = true) :
    i'.Faithful others held (done ++ [.start]) dl := by
  obtain ⟨sound, sized, within, shows, frame, receives⟩ := inv
  obtain ⟨rxSlots, txPinned, idle⟩ := sound.quiet stopped
  have pinned : i'.board.mac.txPinned = [] := (txPinned ▸ queues.txPinned).eq_nil
  have fresh : i'.rx = {} := rx.trans idle
  refine ⟨⟨?_, ?_, ?_, ?_, fun halted => by simp [running] at halted⟩, by rw [pool]; exact sized,
    within, by rw [pool]; exact shows, [], ⟨?_, ?_, fun _ => ?_, ?_⟩⟩
  · have books := sound.books
    rw [rxSlots, txPinned] at books
    rw [pool, queues.rxSlots, rxSlots, pinned, fresh]
    rwa [idle] at books
  · rw [queues.armed, queues.completions, queues.rxRing]
    exact sound.ring
  · rw [queues.completions]
    exact sound.short
  · simp [fresh, Assembler.holding]
  · rw [fresh]
    exact Assembler.Tracks.idle rfl rfl
  · rw [Mark.frames_snoc]
    simpa [Mark.step] using receives.delivered
  · rw [Mark.unfinished_start]
    exact Aligned.nil
  · rw [fresh, rxFrames, ← receives.counted, idle]

/-! ### Stopping -/

theorem Faithful.ensures_abandon {s : SlotId} {m : ScriptedMac} (inv : i.Faithful others held done dl)
    (gone : (s :: m.rxSlots).Perm i.board.mac.rxSlots) (pinned : m.txPinned = i.board.mac.txPinned)
    (ring : m.armed.length + m.completions.length ≤ m.rxRing)
    (short : ∀ c ∈ m.completions, c.length ≤ slotSize) :
    Ensures (onPool (Pool.abandon s) : IfRun ScriptedBoard α Unit) (i.withMac m)
      (fun _ i' => i'.Faithful others held done dl ∧ i.Drained i' m) (fun _ => False) := by
  have books : i.pool.Books (s :: m.rxSlots) (i.rx.holding ++ others ++ i.board.mac.txPinned) :=
    inv.sound.books.perm gone.symm (.refl _)
  have running : i.initialized = true := inv.sound.running (gone.subset List.mem_cons_self)
  apply ensures_focus
  refine (books.ensures_abandon List.mem_cons_self).mono
    (fun _ p' ⟨same, books'⟩ => ⟨?_, rfl, rfl, rfl, rfl, same.2.1⟩) (fun _ => id)
  rw [List.erase_cons_head, ← pinned] at books'
  refine inv.transfer ⟨books', ring, short, fun t member => ?_, fun stopped => ?_⟩ inv.within rfl rfl
    rfl same.1 same.2.1 (same.keeps.mono fun t member => ?_)
  · rw [withMac_mac, pinned]
    exact inv.sound.apart t member
  · simp [running] at stopped
  · rintro rfl
    exact books.not_held_of_armed List.mem_cons_self (by rcases member with member | member <;> simp [member])

theorem Faithful.ensures_abandonCompletedFor (fuel : Nat) (inv : i.Faithful others held done dl) :
    Ensures (abandonCompletedFor fuel : IfRun ScriptedBoard α Unit) i
      (fun _ i' => i'.Faithful others held done dl ∧
        i.Drained i' { i.board.mac with completions := i.board.mac.completions.drop fuel })
      (fun _ => False) := by
  induction fuel generalizing i with
  | zero => exact ensures_pure ⟨inv, .refl i⟩
  | succ fuel ih =>
    unfold abandonCompletedFor
    apply ensures_bind
    cases head : i.board.mac.completions with
    | nil =>
      refine (returns_rxPoll_nil head).ensures (ensures_pure ⟨inv, ⟨?_, rfl, rfl, rfl, rfl⟩⟩)
      show { i.board.mac with completions := i.board.mac.completions } = _
      rw [head]
      rfl
    | cons c rest =>
      have ring := inv.sound.ring
      rw [head, List.length_cons] at ring
      have gone : (c.slot :: { i.board.mac with completions := rest }.rxSlots).Perm i.board.mac.rxSlots := by
        simp only [ScriptedMac.rxSlots, head, List.map_cons]
        exact List.perm_middle.symm
      refine (returns_rxPoll_cons head).ensures (ensures_seq ?_)
      refine (inv.ensures_abandon gone rfl (by simp only; omega)
        (fun c' member => inv.sound.short c' (by rw [head]; exact List.mem_cons_of_mem _ member))).mono
        (fun _ i₁ after₁ => ?_) (fun _ => id)
      obtain ⟨inv₁, drained₁⟩ := after₁
      refine (ih inv₁).mono (fun _ i₂ after₂ => ⟨after₂.1, ?_⟩) (fun _ => id)
      have whole := drained₁.trans after₂.2
      rwa [drained₁.mac] at whole

theorem Faithful.ensures_abandonArmedFor (fuel : Nat) (inv : i.Faithful others held done dl) :
    Ensures (abandonArmedFor fuel : IfRun ScriptedBoard α Unit) i
      (fun _ i' => i'.Faithful others held done dl ∧
        i.Drained i' { i.board.mac with armed := i.board.mac.armed.drop fuel })
      (fun _ => False) := by
  induction fuel generalizing i with
  | zero => exact ensures_pure ⟨inv, .refl i⟩
  | succ fuel ih =>
    unfold abandonArmedFor
    apply ensures_bind
    cases head : i.board.mac.armed with
    | nil =>
      refine (returns_rxRevoke_nil head).ensures (ensures_pure ⟨inv, ⟨?_, rfl, rfl, rfl, rfl⟩⟩)
      show { i.board.mac with armed := i.board.mac.armed } = _
      rw [head]
      rfl
    | cons s rest =>
      have ring := inv.sound.ring
      rw [head, List.length_cons] at ring
      have gone : (s :: { i.board.mac with armed := rest }.rxSlots).Perm i.board.mac.rxSlots := by
        simp only [ScriptedMac.rxSlots, head, List.cons_append]
        exact .refl _
      refine (returns_rxRevoke_cons head).ensures (ensures_seq ?_)
      refine (inv.ensures_abandon gone rfl (by simp only; omega) inv.sound.short).mono
        (fun _ i₁ after₁ => ?_) (fun _ => id)
      obtain ⟨inv₁, drained₁⟩ := after₁
      refine (ih inv₁).mono (fun _ i₂ after₂ => ⟨after₂.1, ?_⟩) (fun _ => id)
      have whole := drained₁.trans after₂.2
      rwa [drained₁.mac] at whole

/-- An engine with no frame in flight that gave back every completed and every armed slot it held
and every finished transmission holds nothing. -/
theorem Drained.emptied {i₁ i₂ i₃ : Interface ScriptedBoard α} (idle : i.board.mac.inFlight = [])
    (completed : i.Drained i₁ { i.board.mac with
      completions := i.board.mac.completions.drop (MacEngine.rxHeld i.board + 1) })
    (armed : i₁.Drained i₂ { i₁.board.mac with
      armed := i₁.board.mac.armed.drop (MacEngine.rxHeld i₁.board + 1) })
    (finished : i₂.Drained i₃ { i₂.board.mac with done := [] }) :
    i₃.board.mac.completions = [] ∧ i₃.board.mac.rxSlots = [] ∧ i₃.board.mac.txPinned = [] := by
  have noneCompleted : i₃.board.mac.completions = [] := by
    rw [finished.mac, armed.mac, completed.mac]
    exact List.drop_eq_nil_of_le (by simp only [rxHeld_board]; omega)
  have noneArmed : i₃.board.mac.armed = [] := by
    rw [finished.mac, armed.mac]
    exact List.drop_eq_nil_of_le (by simp only [rxHeld_board]; omega)
  refine ⟨noneCompleted, by simp [ScriptedMac.rxSlots, noneArmed, noneCompleted], ?_⟩
  rw [finished.mac, armed.mac, completed.mac]
  simp [ScriptedMac.txPinned, idle]

/-- A stopped interface: its engine holds no slot and pins no frame, its assembler is fresh with
its count of frames moved into the counters, and the pool released the frame in progress. The
history may then gain any arrivals, since a stopped interface follows none. -/
theorem Faithful.stopped {p' : Pool} (inv : i.Faithful others held done dl)
    (rxSlots : i.board.mac.rxSlots = []) (pinned : i.board.mac.txPinned = [])
    (books : p'.Books [] others) (same : i.pool.SameExcept p' (· ∈ i.rx.holding))
    (keeps : i.pool.Keeps p' (· ∈ others)) (mac : i'.board.mac = i.board.mac) (pool : i'.pool = p')
    (rx : i'.rx = {}) (rxFrames : i'.counters.rxFrames = i.counters.rxFrames + i.rx.frames)
    (halted : i'.initialized = false) (later : List Mark) :
    i'.Faithful others held (done ++ later) dl := by
  obtain ⟨_, sized, within, shows, frame, receives⟩ := inv
  have empty : i.board.mac.armed = [] ∧ i.board.mac.completions = [] := by
    simpa [ScriptedMac.rxSlots] using rxSlots
  have holding : i'.rx.holding = [] := by rw [rx]; rfl
  refine ⟨⟨?_, ?_, ?_, ?_, fun _ => ⟨by rw [mac, rxSlots], by rw [mac, pinned], rx⟩⟩, ?_, within,
    ?_, [], ⟨?_, ?_, fun running => by simp [halted] at running, ?_⟩⟩
  · rw [mac, rxSlots, pinned, holding, pool]
    simpa using books
  · simp [mac, empty]
  · simp [mac, empty]
  · simp [holding]
  · rw [pool, same.2.1, same.1]
    exact sized
  · rw [pool]
    refine shows.of_keeps same.2.1 (keeps.mono fun t found => ?_)
    obtain ⟨x, member, slot⟩ := found
    exact within x member t slot
  · rw [rx]
    exact Assembler.Tracks.idle rfl rfl
  · exact receives.delivered.trans (Mark.frames_prefix).sublist
  · rw [rx, rxFrames, ← receives.counted]
    rfl

variable [AddressProtocol α]

/-- Starting: a stopped interface starts unless the engine refuses, and its history gains a
start. -/
theorem Faithful.ensures_init (inv : i.Faithful others held done dl) :
    Ensures (init : IfRun ScriptedBoard α _) i
      (fun r i' => i.Pending i' ∧ match r with
        | .ok () => i.initialized = false ∧ i'.Faithful others held (done ++ [.start]) dl
        | .error _ => i'.Faithful others held done dl)
      (fun _ => False) := by
  unfold init
  refine ensures_bind (ensures_get ?_)
  cases stopped : i.initialized
  case true => exact ensures_pure ⟨.refl i, inv⟩
  simp only [Bool.false_eq_true, if_false]
  apply ensures_bind
  cases fails : i.board.mac.failInit
  case true => exact (returns_init_refused fails).ensures (ensures_pure ⟨.refl i, inv⟩)
  refine (returns_init fails).ensures (ensures_seq (ensures_modify ?_))
  have started : ({ i.withMac (i.board.mac.record (.init i.settings.mac)) with
      link := {}, lastLinkPoll := none, lastDhcpPoll := none,
      acquisition := .create i.settings.maxDhcpTries i.settings.staticAddress, initialized := true } :
        Interface ScriptedBoard α).Faithful others held (done ++ [.start]) dl :=
    inv.start stopped (ScriptedMac.sameQueues_record _ _) rfl rfl rfl rfl
  refine ensures_bind ((started.ensures_refill rfl).mono
    (fun _ i₁ ⟨inv₁, pending₁, _⟩ => ensures_bind (ensures_get (ensures_seq (ensures_emit ?_))))
    (fun _ => id))
  have pending : i.Pending i₁ := ⟨pending₁.completions, pending₁.memory⟩
  have polled : ∀ i₂, i₁.Steady i₂ → Ensures (do let _ ← pollLink; pure (Except.ok ())) i₂
      (fun (r : Except NetError Unit) i' => i.Pending i' ∧ match r with
        | .ok () => True ∧ i'.Faithful others held (done ++ [Mark.start]) dl
        | .error _ => i'.Faithful others held done dl)
      (fun _ => False) := by
    intro i₂ steady
    refine ensures_bind ((ensures_pollLink).mono (fun _ i₃ steady₃ => ensures_pure ?_) (fun _ => id))
    have whole := steady.trans steady₃
    exact ⟨pending.trans whole.pending, trivial, inv₁.steady whole⟩
  split
  · exact ensures_seq (ensures_set (ensures_seq (ensures_emit
      (polled { i₁ with proto := AddressProtocol.apply (some i₁.settings.staticAddress) i₁.proto }
        ⟨.refl _, rfl, rfl, rfl, rfl⟩))))
  · exact polled _ (.refl _)

/-! ### Pacing -/

/-- The periodic housekeeping drops finished transmissions and touches nothing else the receive
path looks at. -/
theorem Faithful.ensures_serviceTick (now : Nat) (inv : i.Faithful others held done dl) :
    Ensures (serviceTick now : IfRun ScriptedBoard α _) i
      (fun _ i' => i'.Faithful others held done dl ∧ i.Pending i') (fun _ => False) := by
  unfold serviceTick
  refine ensures_bind (ensures_get ?_)
  cases running : i.initialized
  case false => exact ensures_pure ⟨inv, .refl i⟩
  simp only [Bool.not_true, Bool.false_eq_true, if_false]
  refine ensures_bind ((inv.ensures_reclaimTx).mono
    (fun _ i₁ ⟨inv₁, drained₁, _⟩ => ensures_bind (ensures_get ?_)) (fun _ => id))
  have stamped : i₁.Steady { i₁ with lastLinkPoll := some now } := ⟨.refl _, rfl, rfl, rfl, rfl⟩
  split
  on_goal 1 => refine ensures_seq (ensures_modify (ensures_bind_via (fun _ i₂ => i₁.Steady i₂)
    ((ensures_pollLink).mono (fun _ _ polled => stamped.trans polled) (fun _ => id)) ?_))
  on_goal 2 => refine ensures_bind_via (fun _ i₂ => i₁.Steady i₂) (ensures_pure (.refl _)) ?_
  all_goals
    intro link i₂ steady₂
    refine ensures_bind (ensures_get ?_)
    split
    · -- the acquisition tick, when address acquisition is on and its interval has passed
      refine ensures_bind (ensures_lift fun j => ?_)
      obtain ⟨r, j', ran⟩ := Acquisition.tick_ok i₂.acquisition i₂.proto j
      rw [ran]
      have steady := steady₂.trans (⟨.refl _, rfl, rfl, rfl, rfl⟩ : i₂.Steady
        { i₂ with lastDhcpPoll := some now, acquisition := r.2.1, proto := r.2.2 })
      exact ensures_seq (ensures_set (ensures_bind (ensures_pure (ensures_pure
        ⟨inv₁.steady steady, (drained₁.pending rfl).trans steady.pending⟩))))
    · exact ensures_bind (ensures_pure (ensures_pure
        ⟨inv₁.steady steady₂, (drained₁.pending rfl).trans steady₂.pending⟩))

/-- Stopping a running interface empties the engine's queues; the arrivals it completed but the
assembler never took join the history. -/
theorem Faithful.ensures_deinit (inv : i.Faithful others held done dl) :
    Ensures (deinit : IfRun ScriptedBoard α _) i
      (fun r i' => match r with
        | .ok () => i'.board.mac.completions = [] ∧
            i'.Faithful others held (done ++ i.board.mac.completions.map i.pool.arrivalOf) dl
        | .error _ => i' = i)
      (fun _ => False) := by
  unfold deinit
  refine ensures_bind (ensures_get ?_)
  cases running : i.initialized
  case false => exact ensures_pure rfl
  simp only [Bool.not_true, Bool.false_eq_true, if_false]
  refine Returns.bind returns_stop (Returns.bind returns_deinit ?_)
  -- the engine stopped: its frames in flight finished unsent, and its receive queues are kept
  have stopped : i.Steady ((i.withMac (i.board.mac.record .stop).abortTx).withMac
      ((i.board.mac.record .stop).abortTx.record .deinit).abortTx) :=
    (steady_withMac ((ScriptedMac.sameQueues_record _ _).trans (ScriptedMac.sameQueues_abortTx _))).trans
      (steady_withMac ((ScriptedMac.sameQueues_record _ _).trans (ScriptedMac.sameQueues_abortTx _)))
  have inv₂ := inv.steady stopped
  refine ensures_bind (ensures_get (ensures_bind ((inv₂.ensures_abandonCompletedFor _).mono
    (fun _ i₃ ⟨inv₃, drained₃⟩ => ?_) (fun _ => id))))
  refine ensures_bind (ensures_get (ensures_bind ((inv₃.ensures_abandonArmedFor _).mono
    (fun _ i₄ ⟨inv₄, drained₄⟩ => ?_) (fun _ => id))))
  refine ensures_bind ((inv₄.ensures_reclaimTx).mono (fun _ i₅ ⟨inv₅, drained₅, _⟩ => ?_) (fun _ => id))
  obtain ⟨completions, rxSlots, pinned⟩ := Drained.emptied (by simp [ScriptedMac.abortTx]) drained₃
    drained₄ drained₅
  have books : i₅.pool.Books [] (i₅.rx.holding ++ others) := by
    simpa [rxSlots, pinned] using inv₅.sound.books
  refine ensures_bind (ensures_get (ensures_seq (ensures_set (ensures_seq ?_))))
  apply ensures_focus
  refine books.ensures_clear.mono (fun _ p' cleared => ?_) (fun _ => id)
  obtain ⟨same, books', keeps⟩ := cleared
  refine ensures_bind (ensures_get ?_)
  split
  · refine ensures_bind (ensures_lift fun j => ?_)
    obtain ⟨r, j', ran⟩ := Acquisition.onLinkEvent_ok i₅.acquisition i₅.proto j .down
    rw [ran]
    refine ensures_seq (ensures_set (ensures_seq (ensures_modify (ensures_seq (ensures_emit
      (ensures_pure ⟨completions, ?_⟩))))))
    apply inv₅.stopped rxSlots pinned books' same keeps <;> rfl
  · refine ensures_seq (ensures_modify (ensures_seq (ensures_emit (ensures_pure ⟨completions, ?_⟩))))
    apply inv₅.stopped rxSlots pinned books' same keeps <;> rfl

end Interface

end Ethernet
