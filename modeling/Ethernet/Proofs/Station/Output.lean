import Ethernet.Proofs.Station.World
import Ethernet.Proofs.Frame.Fragments

/-! What sending a frame does over the scripted engine: the first offer decides, a frame sent is
recorded with its bytes, and each call counts once unless the interface is stopped. -/
namespace Ethernet

namespace Bench.ScriptedMac

/-- Why the engine refuses a frame offered now: the failure it was told to give, being stopped,
or a full ring; `none` when it takes the frame. -/
def refusal (m : ScriptedMac) : Option NetError :=
  match m.failTx with
  | some e => some e
  | none => if !m.started then some .notRunning
    else if m.txSlots ≤ m.inFlight.length then some .txBusy else none

/-- The engine once it took `frame`, laid out as `l`: the bytes of the fragments are recorded as
sent, and the frame finishes at once or waits in flight. -/
def accept (m : ScriptedMac) (l : FragmentList) (frame : Chain) : ScriptedMac :=
  let m := { m with sent := m.sent ++ [(l.len, l.walk.flatMap Fragment.data)] }
  if m.autoCompleteTx then { m with done := m.done ++ [{ frame, sent := true }] }
  else { m with inFlight := m.inFlight ++ [frame] }

/-- The engine takes a frame within `attempts` offers: it is offered at least once and refuses
for no reason. -/
def Takes (m : ScriptedMac) (attempts : Nat) : Prop := 0 < attempts ∧ m.refusal = none

instance (m : ScriptedMac) (attempts : Nat) : Decidable (m.Takes attempts) :=
  inferInstanceAs (Decidable (_ ∧ _))

@[simp] theorem refusal_done (m : ScriptedMac) (finished : List TxCompletion) :
    { m with done := finished }.refusal = m.refusal := rfl

/-- An engine with no finished transmission that took a frame holds one more, the frame itself,
behind those in flight. -/
theorem frames_accept {m : ScriptedMac} (idle : m.done = []) (l : FragmentList) (frame : Chain) :
    (m.accept l frame).inFlight ++ (m.accept l frame).done.map TxCompletion.frame =
      m.inFlight ++ [frame] := by
  unfold accept
  cases m.autoCompleteTx <;> simp [idle]

@[simp] theorem sent_accept (m : ScriptedMac) (l : FragmentList) (frame : Chain) :
    (m.accept l frame).sent = m.sent ++ [(l.len, l.walk.flatMap Fragment.data)] := by
  unfold accept
  cases m.autoCompleteTx <;> rfl

theorem held_accept (m : ScriptedMac) (l : FragmentList) (frame : Chain) :
    (m.accept l frame).inFlight.length + (m.accept l frame).done.length =
      m.inFlight.length + m.done.length + 1 := by
  unfold accept
  cases m.autoCompleteTx <;> simp <;> omega

end Bench.ScriptedMac

namespace InterfaceStats

/-- The counters after dropping the finished transmissions `finished`, oldest first: each counts
as completed or as aborted. -/
def reclaimed (s : InterfaceStats) : List TxCompletion → InterfaceStats
  | [] => s
  | t :: rest =>
    (if t.sent then { s with txCompleted := s.txCompleted + 1 }
      else { s with txAborted := s.txAborted + 1 }).reclaimed rest

variable (s : InterfaceStats) (finished : List TxCompletion)

theorem reclaimed_only_completions :
    ∃ completed aborted, s.reclaimed finished = { s with txCompleted := completed, txAborted := aborted } := by
  induction finished generalizing s with
  | nil => exact ⟨s.txCompleted, s.txAborted, rfl⟩
  | cons t rest ih =>
    cases sent : t.sent
    · obtain ⟨completed, aborted, moved⟩ := ih { s with txAborted := s.txAborted + 1 }
      exact ⟨completed, aborted, by simp only [reclaimed, sent, Bool.false_eq_true, if_false, moved]⟩
    · obtain ⟨completed, aborted, moved⟩ := ih { s with txCompleted := s.txCompleted + 1 }
      exact ⟨completed, aborted, by simp only [reclaimed, sent, if_true, moved]⟩

@[simp] theorem txFrames_reclaimed : (s.reclaimed finished).txFrames = s.txFrames := by
  obtain ⟨_, _, moved⟩ := s.reclaimed_only_completions finished
  rw [moved]

@[simp] theorem txErrors_reclaimed : (s.reclaimed finished).txErrors = s.txErrors := by
  obtain ⟨_, _, moved⟩ := s.reclaimed_only_completions finished
  rw [moved]

@[simp] theorem rxFrames_reclaimed : (s.reclaimed finished).rxFrames = s.rxFrames := by
  obtain ⟨_, _, moved⟩ := s.reclaimed_only_completions finished
  rw [moved]

theorem finished_reclaimed : (s.reclaimed finished).txCompleted + (s.reclaimed finished).txAborted =
    s.txCompleted + s.txAborted + finished.length := by
  induction finished generalizing s with
  | nil => rfl
  | cons t rest ih =>
    cases sent : t.sent
    · simp only [reclaimed, sent, Bool.false_eq_true, if_false, ih, List.length_cons]
      omega
    · simp only [reclaimed, sent, if_true, ih, List.length_cons]
      omega

end InterfaceStats

/-- A frame's segments read the same bytes from a pool with the same memory in which the frame's
slots keep their lengths. -/
theorem Segment.bytes_congr_of_keeps {p p' : Pool} {c : Chain} (keeps : p.Keeps p' (· ∈ c.slots))
    (memory : p'.memory = p.memory) : ∀ s ∈ c.segments, s.bytes p' = s.bytes p := by
  intro s member
  cases s with
  | pooled t =>
    have slot : t ∈ c.slots := List.mem_filterMap.mpr ⟨_, member, rfl⟩
    simp only [Segment.bytes, Pool.payload, (keeps t slot).1, Pool.read_congr memory]
  | shared d => rfl

namespace Interface

open Bench

/-- `i` once its finished transmissions are dropped and counted, over the pool `p`. -/
def afterReclaim {α : Type} (i : Interface ScriptedBoard α) (p : Pool) : Interface ScriptedBoard α :=
  { i.withMac { i.board.mac with done := [] } with
    counters := i.counters.reclaimed i.board.mac.done, pool := p }

variable {α : Type} {i i' : Interface ScriptedBoard α} {p : Pool} {l : FragmentList} {frame : Chain}
  {e : NetError}

@[simp] theorem afterReclaim_mac : (i.afterReclaim p).board.mac = { i.board.mac with done := [] } := rfl
@[simp] theorem afterReclaim_counters :
    (i.afterReclaim p).counters = i.counters.reclaimed i.board.mac.done := rfl
@[simp] theorem afterReclaim_pool : (i.afterReclaim p).pool = p := rfl
@[simp] theorem afterReclaim_rx : (i.afterReclaim p).rx = i.rx := rfl

/-! ### The engine's answer to one offer -/

theorem returns_txSubmit_refused (refused : i.board.mac.refusal = some e) :
    Returns (onBoard (MacEngine.txSubmit p l frame) : IfRun ScriptedBoard α _) i (.error (e, frame)) i := by
  intro j
  refine ⟨j, ?_⟩
  unfold ScriptedMac.refusal at refused
  cases failing : i.board.mac.failTx with
  | some e' =>
    rw [failing, Option.some.injEq] at refused
    subst refused
    simp [onBoard, MacEngine.txSubmit, Board.onMac, failing]
  | none =>
    rw [failing] at refused
    cases started : i.board.mac.started
    · simp only [started, Bool.not_false, if_true, Option.some.injEq] at refused
      subst refused
      simp [onBoard, MacEngine.txSubmit, Board.onMac, failing, started]
    · by_cases busy : i.board.mac.txSlots ≤ i.board.mac.inFlight.length
      · simp only [started, busy, Bool.not_true, Bool.false_eq_true, if_false, if_true,
          Option.some.injEq] at refused
        subst refused
        simp [onBoard, MacEngine.txSubmit, Board.onMac, failing, started, busy]
      · simp [started, busy] at refused

theorem returns_txSubmit_accepted (takes : i.board.mac.refusal = none) :
    Returns (onBoard (MacEngine.txSubmit p l frame) : IfRun ScriptedBoard α _) i (.ok ())
      (i.withMac (i.board.mac.accept l frame)) := by
  intro j
  refine ⟨j, ?_⟩
  unfold ScriptedMac.refusal at takes
  cases failing : i.board.mac.failTx with
  | some e' => simp [failing] at takes
  | none =>
    rw [failing] at takes
    cases started : i.board.mac.started
    · simp [started] at takes
    by_cases busy : i.board.mac.txSlots ≤ i.board.mac.inFlight.length
    · simp [started, busy] at takes
    cases auto : i.board.mac.autoCompleteTx <;>
      simp [onBoard, MacEngine.txSubmit, Board.onMac, failing, started, busy, auto,
        ScriptedMac.accept, withMac]

/-! ### Dropping finished transmissions -/

/-- Dropping finished transmissions changes the pool, the engine's list of finished ones and the
counters, and nothing else; each one dropped counts as completed or aborted. -/
theorem ensures_reclaimTxFor_counts (fuel : Nat) :
    Ensures (reclaimTxFor fuel : IfRun ScriptedBoard α Nat) i
      (fun _ i' => ∃ p, i' = { i.withMac { i.board.mac with done := i.board.mac.done.drop fuel } with
        counters := i.counters.reclaimed (i.board.mac.done.take fuel), pool := p })
      (fun _ => True) := by
  induction fuel generalizing i with
  | zero => exact ensures_pure ⟨i.pool, rfl⟩
  | succ fuel ih =>
    unfold reclaimTxFor
    apply ensures_bind
    cases head : i.board.mac.done with
    | nil =>
      refine (returns_txReclaim_nil head).ensures (ensures_pure ⟨i.pool, ?_⟩)
      show i = { i.withMac { i.board.mac with done := [] } with counters := i.counters, pool := i.pool }
      rw [← head]
      rfl
    | cons t finished =>
      -- the transmission counts as completed or aborted; the rest of the loop is the same
      have rest : ∀ c : InterfaceStats, (∀ f, c.reclaimed f = i.counters.reclaimed (t :: f)) →
          Ensures (do onPool t.frame.release; let n ← reclaimTxFor fuel; pure (n + 1))
            ({ i with counters := c }.withMac { i.board.mac with done := finished })
            (fun _ i' => ∃ p, i' = { i.withMac { i.board.mac with done := (t :: finished).drop (fuel + 1) } with
              counters := i.counters.reclaimed ((t :: finished).take (fuel + 1)), pool := p })
            (fun _ => True) := by
        intro c counted
        refine ensures_bind (ensures_focus fun j => ?_)
        split
        · refine ensures_bind (ih.mono (fun _ i' same => ensures_pure ?_) (fun _ => id))
          obtain ⟨p, rfl⟩ := same
          refine ⟨p, ?_⟩
          rw [List.drop_succ_cons, List.take_succ_cons, ← counted]
          rfl
        · trivial
      refine (returns_txReclaim_cons head).ensures ?_
      simp only []
      split
      · rename_i sent
        exact ensures_bind (ensures_modify (rest { i.counters with txCompleted := i.counters.txCompleted + 1 }
          fun f => by simp [InterfaceStats.reclaimed, sent]))
      · rename_i sent
        exact ensures_bind (ensures_modify (rest { i.counters with txAborted := i.counters.txAborted + 1 }
          fun f => by simp [InterfaceStats.reclaimed, sent]))

theorem ensures_reclaimTx_counts :
    Ensures (reclaimTx : IfRun ScriptedBoard α Nat) i (fun _ i' => ∃ p, i' = i.afterReclaim p)
      (fun _ => True) := by
  refine ensures_bind (ensures_get ((ensures_reclaimTxFor_counts _).mono (fun _ i' same => ?_)
    (fun _ => id)))
  rwa [List.drop_eq_nil_of_le (by simp only [txHeld_board]; omega),
    List.take_of_length_le (by simp only [txHeld_board]; omega)] at same

theorem returns_reclaimTx_idle (idle : i.board.mac.done = []) :
    Returns (reclaimTx : IfRun ScriptedBoard α Nat) i 0 i := by
  intro j
  refine ⟨j, ?_⟩
  simp [reclaimTx, reclaimTxFor, onBoard, MacEngine.txReclaim, Board.onMac, idle]

/-! ### Offering the pinned copy -/

/-- An engine that does not take the frame within the attempts: one more error counts, the copy
is handed back and let go, and the engine is as it was. -/
theorem ensures_submitFor_refused (attempts : Nat) (idle : i.board.mac.done = [])
    (refused : ¬ i.board.mac.Takes attempts) :
    Ensures (submitFor l attempts frame : IfRun ScriptedBoard α _) i
      (fun r i' => (∃ e, r = .error e) ∧
        ∃ p, i' = { i with counters := { i.counters with txErrors := i.counters.txErrors + 1 }, pool := p })
      (fun _ => True) := by
  induction attempts with
  | zero =>
    unfold submitFor
    refine ensures_seq (ensures_modify (ensures_seq (ensures_emit (ensures_seq (ensures_focus fun j => ?_)))))
    split
    · exact ensures_pure ⟨⟨_, rfl⟩, _, rfl⟩
    · trivial
  | succ attempts ih =>
    obtain ⟨e, reason⟩ : ∃ e, i.board.mac.refusal = some e := by
      cases h : i.board.mac.refusal with
      | none => exact absurd ⟨Nat.succ_pos _, h⟩ refused
      | some e => exact ⟨e, rfl⟩
    unfold submitFor
    refine ensures_bind (ensures_get (Returns.bind (returns_txSubmit_refused reason) ?_))
    cases e
    case txBusy =>
      -- the next offers meet the same refusal: dropping nothing changes nothing
      exact Returns.bind (returns_reclaimTx_idle idle)
        (ih fun takes => Option.some_ne_none _ (reason.symm.trans takes.2))
    all_goals
      refine ensures_seq (ensures_modify (ensures_seq (ensures_emit (ensures_seq (ensures_focus fun j => ?_)))))
      split
      · exact ensures_pure ⟨⟨_, rfl⟩, _, rfl⟩
      · trivial

/-- An engine that takes the frame takes it at the first offer, and one more frame counts as
sent. -/
theorem ensures_submitFor_taken (attempts : Nat) (takes : i.board.mac.Takes attempts) :
    Ensures (submitFor l attempts frame : IfRun ScriptedBoard α _) i
      (fun r i' => r = .ok () ∧ i' = { i.withMac (i.board.mac.accept l frame) with
        counters := { i.counters with txFrames := i.counters.txFrames + 1 } })
      (fun _ => True) := by
  obtain ⟨n, rfl⟩ : ∃ n, attempts = n + 1 := ⟨attempts - 1, by have := takes.1; omega⟩
  unfold submitFor
  exact ensures_bind (ensures_get (Returns.bind (returns_txSubmit_accepted takes.2)
    (ensures_seq (ensures_modify (ensures_pure ⟨rfl, rfl⟩)))))

theorem ensures_onPool {β : Type} (act : PoolRun β) :
    Ensures (onPool act : IfRun ScriptedBoard α β) i (fun _ i' => ∃ p, i' = { i with pool := p })
      (fun _ => True) := by
  refine ensures_focus fun j => ?_
  split
  · exact ⟨_, rfl⟩
  · trivial

/-! ### What one call does -/

/-- What one call sending `frame` from `i` did, answering `r` and leaving `i'`. -/
structure Sends (i : Interface ScriptedBoard α) (frame : Chain) (r : Except NetError Unit)
    (i' : Interface ScriptedBoard α) : Prop where
  /-- The frame goes out exactly when the interface runs, the link is up, the frame fits the
  transmit ring and the engine takes it within the attempts allowed. -/
  ok_iff : r = .ok () ↔ i.initialized = true ∧ i.link.state.isUp = true ∧
    (∃ l, FragmentList.build i.pool frame i.board.mac.txDepth = .ok l) ∧
    i.board.mac.Takes i.settings.txAcceptAttempts
  /-- A frame sent is recorded with the frame's bytes, laid out as built, and the engine holds it
  once, behind the frames in flight, the finished ones dropped; one more frame counts as sent
  and no error. -/
  sent : r = .ok () → ∃ l, FragmentList.build i.pool frame i.board.mac.txDepth = .ok l ∧
    i'.board.mac.sent = i.board.mac.sent ++ [(l.len, frame.toBytes i.pool)] ∧
    i'.board.mac.inFlight ++ i'.board.mac.done.map TxCompletion.frame = i.board.mac.inFlight ++ [frame] ∧
    i'.counters.txFrames = i.counters.txFrames + 1 ∧ i'.counters.txErrors = i.counters.txErrors
  /-- A frame refused is neither recorded nor queued, no frame counts as sent, and one more error
  counts while the interface runs. -/
  refused : ∀ e, r = .error e → i'.board.mac.sent = i.board.mac.sent ∧
    i'.board.mac.inFlight = i.board.mac.inFlight ∧ i'.board.mac.done.Sublist i.board.mac.done ∧
    i'.counters.txFrames = i.counters.txFrames ∧
    (i.initialized = true → i'.counters.txErrors = i.counters.txErrors + 1)
  /-- A stopped interface refuses as not initialized and changes nothing. -/
  stopped : i.initialized = false → r = .error .notInitialized ∧ i' = i

theorem sends_stopped (running : i.initialized = false) : i.Sends frame (.error .notInitialized) i where
  ok_iff := by simp [running]
  sent := by intro sent; cases sent
  refused _ _ := ⟨rfl, rfl, List.Sublist.refl _, rfl, by simp [running]⟩
  stopped _ := ⟨rfl, rfl⟩

theorem sends_linkDown (running : i.initialized = true) (down : i.link.state.isUp = false) :
    i.Sends frame (.error .linkDown)
      { i with counters := { i.counters with txErrors := i.counters.txErrors + 1 } } where
  ok_iff := by simp [down]
  sent := by intro sent; cases sent
  refused _ _ := ⟨rfl, rfl, List.Sublist.refl _, rfl, fun _ => rfl⟩
  stopped := by simp [running]

theorem sends_unbuilt (running : i.initialized = true)
    (fails : FragmentList.build i.pool frame i.board.mac.txDepth = .error e) :
    i.Sends frame (.error e) { i.afterReclaim p with
      counters := { (i.afterReclaim p).counters with txErrors := (i.afterReclaim p).counters.txErrors + 1 } } where
  ok_iff := by simp [fails]
  sent := by intro sent; cases sent
  refused _ _ := ⟨rfl, rfl, List.nil_sublist _, by simp, fun _ => by simp⟩
  stopped := by simp [running]

theorem sends_taken (running : i.initialized = true) (up : i.link.state.isUp = true)
    (built : FragmentList.build i.pool frame i.board.mac.txDepth = .ok l)
    (takes : i.board.mac.Takes i.settings.txAcceptAttempts)
    (mac : i'.board.mac = { i.board.mac with done := [] }.accept l frame)
    (txFrames : i'.counters.txFrames = i.counters.txFrames + 1)
    (txErrors : i'.counters.txErrors = i.counters.txErrors) : i.Sends frame (.ok ()) i' where
  ok_iff := iff_of_true rfl ⟨running, up, ⟨l, built⟩, takes⟩
  sent _ := by
    refine ⟨l, built, ?_, ?_, txFrames, txErrors⟩
    · rw [mac, ScriptedMac.sent_accept, (FragmentList.laysOut_of_build built).walk_bytes]
    · rw [mac, ScriptedMac.frames_accept rfl]
  refused _ sent := by cases sent
  stopped := by simp [running]

theorem sends_refused (running : i.initialized = true)
    (refused : ¬ i.board.mac.Takes i.settings.txAcceptAttempts) {r : Except NetError Unit}
    (answered : ∃ e, r = .error e) (mac : i'.board.mac = { i.board.mac with done := [] })
    (txFrames : i'.counters.txFrames = i.counters.txFrames)
    (txErrors : i'.counters.txErrors = i.counters.txErrors + 1) : i.Sends frame r i' where
  ok_iff := by
    obtain ⟨e, rfl⟩ := answered
    simp [refused]
  sent sent := by
    obtain ⟨e, rfl⟩ := answered
    cases sent
  refused _ _ := ⟨by rw [mac], by rw [mac], by simp [mac], txFrames, fun _ => txErrors⟩
  stopped := by simp [running]

/-! ### Sending a frame -/

section

variable {others : List SlotId} {held held' : List (Chain × List UInt8)} {done done' : List Mark}
  {dl dl' : List (List UInt8)}

/-- Dropping finished transmissions gives references back and takes none: a slot held outside
has at most as many references after. -/
theorem Faithful.refcount_afterReclaim (inv : i.Faithful others held done dl)
    (inv' : (i.afterReclaim p).Faithful others held' done' dl') {t : SlotId} (member : t ∈ others) :
    (p.header t).refcount ≤ (i.pool.header t).refcount := by
  have before := inv.sound.books.refcount_eq
    (show t ∈ i.rx.holding ++ others ++ i.board.mac.txPinned by simp [member])
  have after := inv'.sound.books.refcount_eq (show t ∈ (i.afterReclaim p).rx.holding ++ others ++
    (i.afterReclaim p).board.mac.txPinned by simp [member])
  simp only [afterReclaim_pool, afterReclaim_rx, afterReclaim_mac] at after
  rw [before, after]
  simp only [ScriptedMac.txPinned, List.map_nil, List.append_nil, List.flatMap_append,
    List.count_append]
  omega

/-- Sending a frame whose slots are held outside does what `Sends` says and keeps the invariant;
it halts only when pinning the copy would take a slot past the most references a count holds. -/
theorem Faithful.ensures_output_sends (inv : i.Faithful others held done dl)
    (known : ∀ t ∈ frame.slots, t ∈ others) :
    Ensures (output frame : IfRun ScriptedBoard α _) i
      (fun r i' => i.Sends frame r i' ∧ i'.Faithful others held done dl)
      (fun f => ∃ t ∈ frame.slots, maxRefcount < (i.pool.header t).refcount + frame.slots.count t ∧
        f = .refcountOverflow t.index) := by
  unfold output
  refine ensures_bind (ensures_get ?_)
  cases running : i.initialized
  · simp only [Bool.not_false, if_true]
    exact ensures_pure ⟨sends_stopped running, inv⟩
  simp only [Bool.not_true, Bool.false_eq_true, if_false]
  cases up : i.link.state.isUp
  · simp only [Bool.not_false, if_true]
    exact ensures_seq (ensures_modify (ensures_seq (ensures_emit
      (ensures_pure ⟨sends_linkDown running up, inv.counters rfl⟩))))
  simp only [Bool.not_true, Bool.false_eq_true, if_false]
  refine ensures_bind ((inv.ensures_reclaimTx.and ensures_reclaimTx_counts).mono
    (fun _ i₁ ⟨⟨inv₁, drained₁, kept₁⟩, after⟩ => ensures_bind (ensures_get ?_))
    (fun _ halted => halted.1.elim))
  obtain ⟨p₁, rfl⟩ := after
  have same : ∀ s ∈ frame.segments, s.bytes p₁ = s.bytes i.pool :=
    Segment.bytes_congr_of_keeps (kept₁.mono fun t slot => known t slot) drained₁.memory
  rw [show FragmentList.build (i.afterReclaim p₁).pool frame
      (MacEngine.txRingDepth (i.afterReclaim p₁).board) =
      FragmentList.build i.pool frame i.board.mac.txDepth from FragmentList.build_congr same]
  cases built : FragmentList.build i.pool frame i.board.mac.txDepth with
  | error e =>
    exact ensures_seq (ensures_modify (ensures_seq (ensures_emit
      (ensures_pure ⟨sends_unbuilt running built, inv₁.counters rfl⟩))))
  | ok l =>
    refine ensures_seq (((inv₁.ensures_pin known).and (ensures_onPool _)).mono
      (fun _ i₂ ⟨⟨inv₂, _⟩, pinned⟩ => ?_) ?_)
    · obtain ⟨p₂, rfl⟩ := pinned
      by_cases takes : i.board.mac.Takes i.settings.txAcceptAttempts
      · refine ((inv₂.ensures_submitFor _ inv₁.within running).and
          (ensures_submitFor_taken _ takes)).mono
          (fun r i' ⟨⟨inv', _⟩, answered, shape⟩ => ⟨?_, inv'⟩) (fun _ halted => halted.1.elim)
        subst answered shape
        exact sends_taken running up built takes rfl (by simp) (by simp)
      · refine ((inv₂.ensures_submitFor _ inv₁.within running).and
          (ensures_submitFor_refused _ rfl takes)).mono
          (fun r i' ⟨⟨inv', _⟩, answered, _, shape⟩ => ⟨?_, inv'⟩) (fun _ halted => halted.1.elim)
        subst shape
        exact sends_refused running takes answered rfl (by simp) (by simp)
    · -- the references a slot had when it was pinned are at most those it had at the call
      rintro f ⟨⟨t, slot, beyond, fault⟩, -⟩
      have fewer := inv.refcount_afterReclaim inv₁ (known t slot)
      simp only [afterReclaim_pool] at beyond
      exact ⟨t, slot, by omega, fault⟩

end

end Interface

end Ethernet
