import Ethernet.Proofs.Station.Receive

/-! Sending over the scripted engine keeps the invariant: a pinned frame's handles move from the
consumer's to the engine's, and are released with the finished transmission. -/
namespace Ethernet

namespace Interface

open Bench

variable {α : Type} {i i₁ i₂ : Interface ScriptedBoard α} {others : List SlotId}
  {held : List (Chain × List UInt8)} {done : List Mark} {dl : List (List UInt8)}
  {m m₁ m₂ : ScriptedMac}

/-- `i'` is `i` with the engine `m` and a pool of the same slot memory; the assembler, the
running flag and the count of frames received are as they were. -/
structure Drained (i i' : Interface ScriptedBoard α) (m : ScriptedMac) : Prop where
  mac : i'.board.mac = m
  rx : i'.rx = i.rx
  initialized : i'.initialized = i.initialized
  rxFrames : i'.counters.rxFrames = i.counters.rxFrames
  memory : i'.pool.memory = i.pool.memory

theorem Drained.refl (i : Interface ScriptedBoard α) : i.Drained i i.board.mac :=
  ⟨rfl, rfl, rfl, rfl, rfl⟩

theorem Drained.trans (first : i.Drained i₁ m₁) (second : i₁.Drained i₂ m₂) : i.Drained i₂ m₂ :=
  ⟨second.mac, second.rx.trans first.rx, second.initialized.trans first.initialized,
    second.rxFrames.trans first.rxFrames, second.memory.trans first.memory⟩

theorem Drained.counters {c : InterfaceStats} (rxFrames : c.rxFrames = i.counters.rxFrames) :
    i.Drained { i with counters := c } i.board.mac :=
  ⟨rfl, rfl, rfl, rxFrames, rfl⟩

theorem Drained.pending (drained : i.Drained i₁ m)
    (completions : m.completions = i.board.mac.completions) : i.Pending i₁ :=
  ⟨by rw [drained.mac, completions], drained.memory⟩

theorem Faithful.counters {c : InterfaceStats} (inv : i.Faithful others held done dl)
    (rxFrames : c.rxFrames = i.counters.rxFrames) : { i with counters := c }.Faithful others held done dl :=
  inv.steady ⟨.refl _, rfl, rfl, rfl, rxFrames⟩

/-! ### Dropping finished transmissions -/

/-- Dropping the oldest finished transmission releases the handles the engine pinned; the slots
held outside keep their lengths and totals. -/
theorem Faithful.ensures_releaseSent {t : TxCompletion} {finished : List TxCompletion}
    (inv : i.Faithful others held done dl) (head : i.board.mac.done = t :: finished) :
    Ensures (onPool t.frame.release : IfRun ScriptedBoard α Unit)
      (i.withMac { i.board.mac with done := finished })
      (fun _ i' => i'.Faithful others held done dl ∧ i.Drained i' { i.board.mac with done := finished } ∧
        i.pool.Keeps i'.pool (· ∈ others))
      (fun _ => False) := by
  have pinned : i.board.mac.txPinned.Perm
      (t.frame.slots ++ { i.board.mac with done := finished }.txPinned) := by
    refine List.perm_iff_count.mpr fun s => ?_
    simp only [ScriptedMac.txPinned, head, List.map_cons, List.flatMap_append, List.flatMap_cons,
      List.count_append]
    omega
  have books : i.pool.Books i.board.mac.rxSlots
      (t.frame.slots ++ (i.rx.holding ++ others ++ { i.board.mac with done := finished }.txPinned)) :=
    inv.sound.books.perm (.refl _) (List.perm_iff_count.mpr fun s => by
      simp only [List.count_append, pinned.count_eq]
      omega)
  apply ensures_focus
  refine books.ensures_chainRelease.mono (fun _ p' released => ?_) (fun _ => id)
  obtain ⟨same, books', keeps⟩ := released
  refine ⟨?_, ⟨rfl, rfl, rfl, rfl, same.2.1⟩, keeps.mono fun s member => by simp [member]⟩
  refine inv.transfer ⟨books', inv.sound.ring, inv.sound.short, fun s member => ?_, fun stopped => ?_⟩
    inv.within rfl rfl rfl same.1 same.2.1 (keeps.mono fun s member => ?_)
  · obtain ⟨notOthers, notPinned⟩ := inv.sound.apart s member
    exact ⟨notOthers, fun still => notPinned (pinned.symm.subset (List.mem_append_right _ still))⟩
  · obtain ⟨rxSlots, txPinned, idle⟩ := inv.sound.quiet stopped
    have none : ({ i.board.mac with done := finished } : ScriptedMac).txPinned = [] := by
      have lengths := pinned.length_eq
      rw [txPinned, List.length_append, List.length_nil] at lengths
      exact List.eq_nil_of_length_eq_zero (by omega)
    exact ⟨rxSlots, none, idle⟩
  · exact by rcases member with member | member <;> simp [member]

theorem Faithful.ensures_reclaimTxFor (fuel : Nat) (inv : i.Faithful others held done dl) :
    Ensures (reclaimTxFor fuel : IfRun ScriptedBoard α Nat) i
      (fun _ i' => i'.Faithful others held done dl ∧
        i.Drained i' { i.board.mac with done := i.board.mac.done.drop fuel } ∧
        i.pool.Keeps i'.pool (· ∈ others))
      (fun _ => False) := by
  induction fuel generalizing i with
  | zero => exact ensures_pure ⟨inv, .refl i, fun _ _ => ⟨rfl, rfl⟩⟩
  | succ fuel ih =>
    unfold reclaimTxFor
    apply ensures_bind
    cases head : i.board.mac.done with
    | nil =>
      refine (returns_txReclaim_nil head).ensures (ensures_pure ⟨inv, ?_, fun _ _ => ⟨rfl, rfl⟩⟩)
      refine ⟨?_, rfl, rfl, rfl, rfl⟩
      show { i.board.mac with done := i.board.mac.done } = _
      rw [head]
      rfl
    | cons t finished =>
      -- whether the transmission counts as completed or aborted, the rest is the same
      have rest : ∀ c : InterfaceStats, c.rxFrames = i.counters.rxFrames →
          Ensures (do onPool t.frame.release; let n ← reclaimTxFor fuel; pure (n + 1))
            ({ i with counters := c }.withMac { i.board.mac with done := finished })
            (fun _ i' => i'.Faithful others held done dl ∧
              i.Drained i' { i.board.mac with done := (t :: finished).drop (fuel + 1) } ∧
              i.pool.Keeps i'.pool (· ∈ others))
            (fun _ => False) := by
        intro c rxFrames
        refine ensures_bind (((inv.counters rxFrames).ensures_releaseSent head).mono
          (fun _ i₁ ⟨inv₁, drained₁, kept₁⟩ => ensures_bind ?_) (fun _ => id))
        refine (ih inv₁).mono (fun _ i₂ ⟨inv₂, drained₂, kept₂⟩ => ensures_pure ⟨inv₂, ?_, kept₁.trans kept₂⟩)
          (fun _ => id)
        have whole := ((Drained.counters rxFrames).trans drained₁).trans drained₂
        rwa [drained₁.mac] at whole
      refine (returns_txReclaim_cons head).ensures ?_
      simp only []
      split
      · exact ensures_bind (ensures_modify
          (rest { i.counters with txCompleted := i.counters.txCompleted + 1 } rfl))
      · exact ensures_bind (ensures_modify
          (rest { i.counters with txAborted := i.counters.txAborted + 1 } rfl))

theorem Faithful.ensures_reclaimTx (inv : i.Faithful others held done dl) :
    Ensures (reclaimTx : IfRun ScriptedBoard α Nat) i
      (fun _ i' => i'.Faithful others held done dl ∧
        i.Drained i' { i.board.mac with done := [] } ∧ i.pool.Keeps i'.pool (· ∈ others))
      (fun _ => False) := by
  refine ensures_bind (ensures_get ((inv.ensures_reclaimTxFor _).mono
    (fun _ i' ⟨inv', drained, kept⟩ => ⟨inv', ?_, kept⟩) (fun _ => id)))
  rwa [List.drop_eq_nil_of_le (by simp only [txHeld_board]; omega)] at drained

/-! ### Handles held outside -/

theorem Faithful.perm {others' : List SlotId} (inv : i.Faithful others held done dl)
    (perm : others.Perm others') : i.Faithful others' held done dl := by
  obtain ⟨sound, sized, within, shows, receives⟩ := inv
  refine ⟨⟨?_, sound.ring, sound.short, fun t member => ?_, sound.quiet⟩, sized,
    fun x member t slot => perm.subset (within x member t slot), shows, receives⟩
  · exact sound.books.perm (.refl _) ((perm.append_left _).append_right _)
  · obtain ⟨notOthers, notPinned⟩ := sound.apart t member
    exact ⟨fun other => notOthers (perm.symm.subset other), notPinned⟩

/-- Taking one more handle on each slot of a chain held outside; it halts only at a slot whose
references, with those the chain adds, are more than a reference count holds. -/
theorem Faithful.ensures_pin {c : Chain} (inv : i.Faithful others held done dl)
    (known : ∀ t ∈ c.slots, t ∈ others) :
    Ensures (onPool c.retain : IfRun ScriptedBoard α Unit) i
      (fun _ i' => i'.Faithful (others ++ c.slots) held done dl ∧ i.Drained i' i.board.mac)
      (fun f => ∃ t ∈ c.slots, maxRefcount < (i.pool.header t).refcount + c.slots.count t ∧
        f = .refcountOverflow t.index) := by
  have counted : ∀ t ∈ c.slots, t ∈ i.rx.holding ++ others ++ i.board.mac.txPinned := fun t slot => by
    simp [known t slot]
  apply ensures_focus
  refine (inv.sound.books.ensures_retainAll counted).mono
    (fun _ p' ⟨same, books, keeps⟩ => ⟨?_, rfl, rfl, rfl, rfl, same.2.1⟩)
    (fun _ ⟨t, slot, beyond, fault⟩ => ⟨t, slot, by rwa [inv.sound.books.refcount_eq (counted t slot)], fault⟩)
  refine inv.transfer ⟨?_, inv.sound.ring, inv.sound.short, fun t member => ?_, inv.sound.quiet⟩
    (fun x member t slot => List.mem_append_left _ (inv.within x member t slot)) rfl rfl rfl same.1
    same.2.1 (keeps.mono fun _ _ => trivial)
  · refine books.perm (.refl _) (List.perm_iff_count.mpr fun t => ?_)
    simp only [List.count_append]
    omega
  · obtain ⟨notOthers, notPinned⟩ := inv.sound.apart t member
    exact ⟨by simpa using ⟨notOthers, fun slot => notOthers (known t slot)⟩, notPinned⟩

theorem Faithful.ensures_unpin {c : Chain} (inv : i.Faithful (others ++ c.slots) held done dl)
    (within : OnSlots held others) :
    Ensures (onPool c.release : IfRun ScriptedBoard α Unit) i
      (fun _ i' => i'.Faithful others held done dl ∧ i.Drained i' i.board.mac) (fun _ => False) := by
  have books : i.pool.Books i.board.mac.rxSlots
      (c.slots ++ (i.rx.holding ++ others ++ i.board.mac.txPinned)) := by
    refine inv.sound.books.perm (.refl _) (List.perm_iff_count.mpr fun t => ?_)
    simp only [List.count_append]
    omega
  apply ensures_focus
  refine books.ensures_chainRelease.mono
    (fun _ p' ⟨same, books', keeps⟩ => ⟨?_, rfl, rfl, rfl, rfl, same.2.1⟩) (fun _ => id)
  refine inv.transfer ⟨books', inv.sound.ring, inv.sound.short, fun t member => ?_, inv.sound.quiet⟩
    within rfl rfl rfl same.1 same.2.1 (keeps.mono fun t member => ?_)
  · obtain ⟨notOthers, notPinned⟩ := inv.sound.apart t member
    exact ⟨fun other => notOthers (List.mem_append_left _ other), notPinned⟩
  · rcases member with holding | other <;> simp [*]

/-! ### Sending -/

/-- The engine took the pinned frame: its handles move from those held outside to the
engine's. -/
theorem Faithful.submitted {pinned : Chain} (inv : i.Faithful (others ++ pinned.slots) held done dl)
    (within : OnSlots held others) (running : i.initialized = true)
    (armed : m.armed = i.board.mac.armed) (completions : m.completions = i.board.mac.completions)
    (rxRing : m.rxRing = i.board.mac.rxRing)
    (taken : m.txPinned.Perm (pinned.slots ++ i.board.mac.txPinned)) :
    (i.withMac m).Faithful others held done dl := by
  have rxSlots : m.rxSlots = i.board.mac.rxSlots := by simp [ScriptedMac.rxSlots, armed, completions]
  refine inv.transfer ⟨?_, ?_, ?_, fun t member => ?_, fun stopped => ?_⟩ within rfl rfl rfl rfl rfl
    (fun _ _ => ⟨rfl, rfl⟩)
  · refine inv.sound.books.perm (by rw [withMac_mac, rxSlots]) (List.perm_iff_count.mpr fun t => ?_)
    simp only [withMac_mac, withMac_rx, List.count_append, taken.count_eq]
    omega
  · simpa [armed, completions, rxRing] using inv.sound.ring
  · simpa [completions] using inv.sound.short
  · obtain ⟨notOthers, notPinned⟩ := inv.sound.apart t member
    simp only [List.mem_append, not_or] at notOthers
    exact ⟨notOthers.1, fun still => by simpa [notOthers.2, notPinned] using taken.subset still⟩
  · simp [running] at stopped

theorem Faithful.ensures_refused {pinned : Chain} {text : String} {e : NetError}
    (inv : i.Faithful (others ++ pinned.slots) held done dl) (within : OnSlots held others)
    (running : i.initialized = true) :
    Ensures (do
        modifyCounters fun s => { s with txErrors := s.txErrors + 1 }
        liftM (emit .warn text)
        onPool pinned.release
        pure (Except.error e) : IfRun ScriptedBoard α (Except NetError Unit)) i
      (fun _ i' => i'.Faithful others held done dl ∧ i.Pending i' ∧ i'.initialized = true)
      (fun _ => False) := by
  have counted : ({ i with counters := { i.counters with txErrors := i.counters.txErrors + 1 } }).Faithful
      (others ++ pinned.slots) held done dl := inv.counters rfl
  refine ensures_seq (ensures_modify (ensures_seq (ensures_emit (ensures_seq ?_))))
  refine (counted.ensures_unpin within).mono ?_ (fun _ => id)
  intro _ i' ⟨inv', drained⟩
  have whole := (Drained.counters (c := { i.counters with txErrors := i.counters.txErrors + 1 }) rfl).trans
    drained
  exact ensures_pure ⟨inv', whole.pending rfl, whole.initialized.trans running⟩

theorem Faithful.ensures_submitFor {fragments : FragmentList} (attempts : Nat) {pinned : Chain}
    (inv : i.Faithful (others ++ pinned.slots) held done dl) (within : OnSlots held others)
    (running : i.initialized = true) :
    Ensures (submitFor fragments attempts pinned : IfRun ScriptedBoard α _) i
      (fun _ i' => i'.Faithful others held done dl ∧ i.Pending i' ∧ i'.initialized = true)
      (fun _ => False) := by
  induction attempts generalizing i with
  | zero => exact inv.ensures_refused within running
  | succ attempts ih =>
    unfold submitFor
    refine ensures_bind (ensures_get (ensures_bind (ensures_txSubmit.mono (fun r i₁ post => ?_)
      (fun _ => id))))
    cases r with
    | ok =>
      obtain ⟨m, rfl, armed, completions, rxRing, taken⟩ := post
      have inv' := inv.submitted within running armed completions rxRing taken
      exact ensures_seq (ensures_modify (ensures_pure ⟨inv'.counters rfl, ⟨completions, rfl⟩, running⟩))
    | error failure =>
      obtain ⟨e, back⟩ := failure
      obtain ⟨rfl, rfl⟩ := post
      cases e
      case txBusy =>
        refine ensures_bind ((inv.ensures_reclaimTx).mono (fun _ i₂ ⟨inv₂, drained, _⟩ => ?_)
          (fun _ => id))
        refine (ih inv₂ (drained.initialized.trans running)).mono ?_ (fun _ => id)
        rintro _ i' ⟨inv', pending, running'⟩
        exact ⟨inv', (drained.pending rfl).trans pending, running'⟩
      all_goals exact inv.ensures_refused within running

/-- Sending a frame whose handles are held outside: the interface pins it, and the frame ends up
with the engine or let go again; only pinning can halt, at a slot with the most handles a
reference count holds. -/
theorem Faithful.ensures_output {frame : Chain} (inv : i.Faithful others held done dl)
    (known : ∀ t ∈ frame.slots, t ∈ others) :
    Ensures (output frame : IfRun ScriptedBoard α _) i
      (fun _ i' => i'.Faithful others held done dl ∧ i.Pending i' ∧ i'.initialized = i.initialized)
      (fun f => ∃ t ∈ frame.slots, f = .refcountOverflow t.index) := by
  unfold output
  refine ensures_bind (ensures_get ?_)
  cases running : i.initialized
  · simp only [Bool.not_false, if_true]
    exact ensures_pure ⟨inv, .refl i, running⟩
  simp only [Bool.not_true, Bool.false_eq_true, if_false]
  cases up : i.link.state.isUp
  · -- the link is down: the frame is counted as an error
    have counted : ({ i with counters := { i.counters with txErrors := i.counters.txErrors + 1 } }).Faithful
        others held done dl := inv.counters rfl
    simp only [Bool.not_false, if_true]
    exact ensures_seq (ensures_modify (ensures_seq (ensures_emit (ensures_pure
      ⟨counted, ⟨rfl, rfl⟩, running⟩))))
  simp only [Bool.not_true, Bool.false_eq_true, if_false]
  refine ensures_bind ((inv.ensures_reclaimTx).mono
    (fun _ i₁ ⟨inv₁, drained₁, _⟩ => ensures_bind (ensures_get ?_)) (fun _ => False.elim))
  have pending₁ := drained₁.pending rfl
  have running₁ := drained₁.initialized.trans running
  split
  · -- the frame does not fit the transmit ring
    have counted : ({ i₁ with counters := { i₁.counters with txErrors := i₁.counters.txErrors + 1 } }).Faithful
        others held done dl := inv₁.counters rfl
    exact ensures_seq (ensures_modify (ensures_seq (ensures_emit (ensures_pure
      ⟨counted, ⟨pending₁.completions, pending₁.memory⟩, running₁⟩))))
  · refine ensures_seq ((inv₁.ensures_pin known).mono (fun _ i₂ ⟨inv₂, drained₂⟩ => ?_)
      (fun _ ⟨t, slot, _, fault⟩ => ⟨t, slot, fault⟩))
    refine (inv₂.ensures_submitFor _ inv₁.within (drained₂.initialized.trans running₁)).mono ?_
      (fun _ => False.elim)
    rintro _ i' ⟨inv', pending, running'⟩
    exact ⟨inv', (pending₁.trans (drained₂.pending rfl)).trans pending, running'⟩

end Interface

end Ethernet
