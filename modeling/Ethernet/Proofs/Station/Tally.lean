import Ethernet.Proofs.Station.Output
import Ethernet.Proofs.Interface.Within

/-! The transmit counters balance: at every station reached from an idle engine, the frames sent
are those completed, aborted and still queued. -/
namespace Ethernet

namespace Bench

namespace ScriptedMac

theorem held_abortTx (m : ScriptedMac) :
    m.abortTx.inFlight.length + m.abortTx.done.length = m.inFlight.length + m.done.length := by
  simp only [abortTx, List.length_nil, List.length_append, List.length_map]
  omega

theorem held_finishTx (m : ScriptedMac) :
    m.finishTx.inFlight.length + m.finishTx.done.length = m.inFlight.length + m.done.length := by
  simp only [finishTx, List.length_nil, List.length_append, List.length_map]
  omega

end ScriptedMac

/-- A board operation that keeps the number of frames the engine holds to send, whenever it
ends. -/
def HeldKept {β : Type} (act : StateT ScriptedBoard Run β) : Prop :=
  ∀ b, Ensures act b (fun _ b' => MacEngine.txHeld b' = MacEngine.txHeld b) (fun _ => True)

section

variable {β γ : Type}

theorem heldKept_pure (a : β) : HeldKept (pure a : StateT ScriptedBoard Run β) :=
  fun _ => ensures_pure rfl

theorem heldKept_bind {x : StateT ScriptedBoard Run β} {f : β → StateT ScriptedBoard Run γ}
    (first : HeldKept x) (rest : ∀ a, HeldKept (f a)) : HeldKept (x >>= f) := fun b =>
  ensures_bind ((first b).mono (fun a b₁ same => (rest a b₁).mono
    (fun _ _ same' => same'.trans same) (fun _ => id)) (fun _ => id))

theorem heldKept_emit {level : Level} {text : String} :
    HeldKept (liftM (emit level text) : StateT ScriptedBoard Run PUnit) :=
  fun _ => ensures_emit rfl

theorem heldKept_negotiationDone : HeldKept (PhyControl.negotiationDone : StateT ScriptedBoard Run _) := by
  intro b j
  simp [PhyControl.negotiationDone, ScriptedPhy.answer]

theorem heldKept_linkStatus : HeldKept (PhyControl.linkStatus : StateT ScriptedBoard Run _) := by
  intro b j
  simp [PhyControl.linkStatus, ScriptedPhy.answer]

theorem heldKept_speedIndication : HeldKept (PhyControl.speedIndication : StateT ScriptedBoard Run _) := by
  intro b j
  simp [PhyControl.speedIndication, ScriptedPhy.answer]

theorem heldKept_setLinkParams (p : LinkParams) :
    HeldKept (MacEngine.setLinkParams p : StateT ScriptedBoard Run _) := by
  intro b j
  by_cases fails : b.mac.failSetLink = true
  · simp [MacEngine.setLinkParams, Board.onMac, fails]
  · simp [MacEngine.setLinkParams, Board.onMac, fails, ScriptedMac.ok, ScriptedMac.record]

theorem heldKept_start : HeldKept (MacEngine.start : StateT ScriptedBoard Run _) := by
  intro b j
  simp [MacEngine.start, Board.onMac, ScriptedMac.ok, ScriptedMac.record]

theorem heldKept_stop : HeldKept (MacEngine.stop : StateT ScriptedBoard Run _) := by
  intro b j
  simp only [MacEngine.stop, Board.onMac, ScriptedMac.ok, focus_apply, bind_apply, modify_apply,
    pure_apply, txHeld_board]
  exact ScriptedMac.held_abortTx _

/-- A poll of the link reads the PHY and may program, start or stop the engine; it keeps the
frames the engine holds. -/
theorem heldKept_poll (m : LinkMonitor) : HeldKept (m.poll : StateT ScriptedBoard Run _) :=
  LinkMonitor.poll_closed HeldKept heldKept_pure heldKept_bind (fun _ _ => heldKept_emit)
    heldKept_negotiationDone heldKept_linkStatus heldKept_speedIndication heldKept_setLinkParams
    heldKept_start heldKept_stop m

theorem heldKept_rxProvide (s : SlotId) :
    HeldKept (MacEngine.rxProvide s : StateT ScriptedBoard Run _) := by
  intro b j
  cases wants : b.mac.wantsBuffer <;> simp [MacEngine.rxProvide, Board.onMac, wants]

theorem heldKept_rxPoll : HeldKept (MacEngine.rxPoll : StateT ScriptedBoard Run _) := by
  intro b j
  cases queue : b.mac.completions <;> simp [MacEngine.rxPoll, Board.onMac, queue]

theorem heldKept_rxRevoke : HeldKept (MacEngine.rxRevoke : StateT ScriptedBoard Run _) := by
  intro b j
  cases queue : b.mac.armed <;> simp [MacEngine.rxRevoke, Board.onMac, queue]

end

end Bench

namespace Interface

open Bench

variable {α β γ : Type}

/-- Every frame the engine took counts once: as completed or as aborted once its finished
transmission is dropped, or it is still in the engine's queues. -/
def TxBalanced (i : Interface ScriptedBoard α) : Prop :=
  i.counters.txFrames = i.counters.txCompleted + i.counters.txAborted +
    i.board.mac.inFlight.length + i.board.mac.done.length

/-- A board operation that keeps the frames the engine holds to send keeps the balance. -/
theorem keepsBalance_onBoard {act : StateT ScriptedBoard Run β} (kept : HeldKept act) :
    Within (Preserved TxBalanced) (onBoard act : IfRun ScriptedBoard α β) :=
  within_onBoard_of kept fun _ _ same balanced => by
    simp only [TxBalanced, txHeld_board] at balanced same ⊢
    omega

theorem keepsBalance_countError :
    Within (Preserved TxBalanced) (modifyCounters fun s => { s with txErrors := s.txErrors + 1 } :
      IfRun ScriptedBoard α Unit) :=
  within_modify fun _ => id

/-- The receive path leaves the engine's transmit queues and the transmit counters alone. -/
theorem balanceSteps :
    RxSteps (Within (Preserved TxBalanced :
      Interface ScriptedBoard α → Interface ScriptedBoard α → Prop)) where
  toClosed := Footprint.closed
  onPool := within_onPool fun _ _ => id
  provide _ := keepsBalance_onBoard (heldKept_rxProvide _)
  setRx _ := within_modify fun _ => id
  poll := keepsBalance_onBoard heldKept_rxPoll
  revoke := keepsBalance_onBoard heldKept_rxRevoke

/-! ### Sending keeps the balance -/

/-- Each finished transmission dropped leaves the engine's queues and joins the completed or the
aborted ones. -/
theorem keepsBalance_reclaimTxFor (fuel : Nat) :
    Within (Preserved TxBalanced) (reclaimTxFor fuel : IfRun ScriptedBoard α Nat) := fun i =>
  (ensures_reclaimTxFor_counts fuel).mono (fun _ _ ⟨_, same⟩ balanced => by
    subst same
    have counted := i.counters.finished_reclaimed (i.board.mac.done.take fuel)
    simp only [TxBalanced, withMac_mac, InterfaceStats.txFrames_reclaimed, List.length_take,
      List.length_drop] at balanced counted ⊢
    omega) (fun _ => id)

theorem keepsBalance_reclaimTx : Within (Preserved TxBalanced) (reclaimTx : IfRun ScriptedBoard α Nat) :=
  within_get.bind fun _ => keepsBalance_reclaimTxFor _

theorem keepsBalance_submitFor (l : FragmentList) : ∀ attempts pinned,
    Within (Preserved TxBalanced) (submitFor l attempts pinned : IfRun ScriptedBoard α _)
  | 0, pinned => by
    unfold submitFor
    exact keepsBalance_countError.bind fun _ => within_emit.bind
      fun _ => (balanceSteps.onPool _).bind fun _ => within_pure _
  | attempts + 1, pinned => within_preserved fun i balanced => by
    unfold submitFor
    refine ensures_bind (ensures_get ?_)
    cases reason : i.board.mac.refusal with
    | none =>
      refine Returns.bind (returns_txSubmit_accepted reason) (ensures_seq (ensures_modify
        (ensures_pure ?_)))
      have held := ScriptedMac.held_accept i.board.mac l pinned
      simp only [TxBalanced, withMac_mac, withMac_counters] at balanced ⊢
      omega
    | some e =>
      refine Returns.bind (returns_txSubmit_refused reason) ?_
      cases e
      case txBusy =>
        exact (keepsBalance_reclaimTx.bind fun _ => keepsBalance_submitFor l attempts _).preserves balanced
      all_goals exact (keepsBalance_countError.bind fun _ => within_emit.bind fun _ =>
        (balanceSteps.onPool _).bind fun _ => within_pure _).preserves balanced

theorem keepsBalance_output (frame : Chain) :
    Within (Preserved TxBalanced) (output frame : IfRun ScriptedBoard α (Except NetError Unit)) :=
  Footprint.closed.output balanceSteps.onPool keepsBalance_countError keepsBalance_reclaimTx
    keepsBalance_submitFor frame

theorem keepsBalance_sendCopy (frame : Chain) :
    Within (Preserved TxBalanced) (sendCopy frame : IfRun ScriptedBoard α Unit) :=
  (balanceSteps.onPool _).bind fun _ => (keepsBalance_output frame).bind fun _ => balanceSteps.onPool _

/-! ### Starting, pacing and stopping keep the balance -/

variable [AddressProtocol α]

/-- Polling the link may start or stop the engine, which keeps the frames it holds; address
acquisition touches neither the engine nor the counters. -/
theorem keepsBalance_pollLink : Within (Preserved TxBalanced) (pollLink : IfRun ScriptedBoard α _) :=
    within_preserved fun i balanced => by
  unfold pollLink
  refine ensures_bind (ensures_get (ensures_bind (ensures_focus ((heldKept_poll i.link i.board).mono
    (fun r b same => ?_) (fun _ => id)))))
  obtain ⟨result, monitor⟩ := r
  have balanced₁ : ({ { i with board := b } with link := monitor } : Interface ScriptedBoard α).TxBalanced := by
    simp only [TxBalanced, txHeld_board] at balanced same ⊢
    omega
  refine ensures_seq (ensures_modify ?_)
  split
  · exact ensures_seq (ensures_emit (ensures_pure balanced₁))
  · exact ensures_pure balanced₁
  · refine ensures_bind (ensures_get ?_)
    split
    · exact ensures_bind (ensures_lift_ok fun _ _ _ _ =>
        ensures_seq (ensures_set (ensures_pure balanced₁)))
    · exact ensures_pure balanced₁

theorem keepsBalance_init : Within (Preserved TxBalanced) (init : IfRun ScriptedBoard α _) :=
    within_preserved fun i balanced => by
  unfold init
  refine ensures_bind (ensures_get ?_)
  split
  · exact ensures_pure balanced
  apply ensures_bind
  cases fails : i.board.mac.failInit
  case true => exact (returns_init_refused fails).ensures (ensures_pure balanced)
  refine (returns_init fails).ensures (ensures_seq (ensures_modify ?_))
  refine ensures_bind ((balanceSteps.refill.preserves (by exact balanced)).mono
    (fun _ i₁ balanced₁ => ensures_bind (ensures_get (ensures_seq (ensures_emit ?_)))) (fun _ => id))
  have polled : ∀ i₂ : Interface ScriptedBoard α, i₂.TxBalanced →
      Ensures (do let _ ← pollLink; pure (Except.ok ())) i₂
        (fun (_ : Except NetError Unit) i' => i'.TxBalanced) (fun _ => True) :=
    fun _ balanced₂ => (keepsBalance_pollLink.bind fun _ => within_pure _).preserves balanced₂
  split
  · exact ensures_seq (ensures_set (ensures_seq (ensures_emit (polled _ balanced₁))))
  · exact polled _ balanced₁

/-- Stopping moves the frames in flight to the finished ones, drops those, and gives the receive
slots back. -/
theorem keepsBalance_deinit : Within (Preserved TxBalanced) (deinit : IfRun ScriptedBoard α _) :=
    within_preserved fun i balanced => by
  unfold deinit
  refine ensures_bind (ensures_get ?_)
  split
  · exact ensures_pure balanced
  refine Returns.bind returns_stop (Returns.bind returns_deinit ?_)
  have stopped : ((i.withMac (i.board.mac.record .stop).abortTx).withMac
      ((i.board.mac.record .stop).abortTx.record .deinit).abortTx).TxBalanced := by
    have first := ScriptedMac.held_abortTx (i.board.mac.record .stop)
    have second := ScriptedMac.held_abortTx ((i.board.mac.record .stop).abortTx.record .deinit)
    simp only [TxBalanced, withMac_mac, withMac_counters, ScriptedMac.record] at balanced first second ⊢
    omega
  refine ensures_bind (ensures_get (ensures_bind (((balanceSteps.abandonCompletedFor _).preserves stopped).mono
    (fun _ i₃ balanced₃ => ?_) (fun _ => id))))
  refine ensures_bind (ensures_get (ensures_bind (((balanceSteps.abandonArmedFor _).preserves balanced₃).mono
    (fun _ i₄ balanced₄ => ?_) (fun _ => id))))
  refine ensures_bind ((keepsBalance_reclaimTx.preserves balanced₄).mono (fun _ i₅ balanced₅ => ?_) (fun _ => id))
  refine ensures_bind (ensures_get (ensures_seq (ensures_set (ensures_bind
    (((balanceSteps.onPool _).preserves (by exact balanced₅)).mono (fun _ i₆ balanced₆ => ?_) (fun _ => id))))))
  refine ensures_bind (ensures_get ?_)
  split
  · exact ensures_bind (ensures_lift_ok fun _ _ _ _ => ensures_seq (ensures_set (ensures_seq
      (ensures_modify (ensures_seq (ensures_emit (ensures_pure balanced₆)))))))
  · exact ensures_seq (ensures_modify (ensures_seq (ensures_emit (ensures_pure balanced₆))))

theorem keepsBalance_serviceTick (now : Nat) :
    Within (Preserved TxBalanced) (serviceTick now : IfRun ScriptedBoard α _) :=
    within_preserved fun i balanced => by
  unfold serviceTick
  refine ensures_bind (ensures_get ?_)
  split
  · exact ensures_pure balanced
  refine ensures_bind ((keepsBalance_reclaimTx.preserves balanced).mono
    (fun _ i₁ balanced₁ => ensures_bind (ensures_get ?_)) (fun _ => id))
  split
  on_goal 1 => refine ensures_seq (ensures_modify (ensures_bind_via (fun _ i₂ => i₂.TxBalanced)
    (keepsBalance_pollLink.preserves balanced₁) ?_))
  on_goal 2 => refine ensures_bind_via (fun _ i₂ => i₂.TxBalanced) (ensures_pure balanced₁) ?_
  all_goals
    intro link i₂ balanced₂
    refine ensures_bind (ensures_get ?_)
    split
    · exact ensures_bind (ensures_lift_ok fun _ _ _ _ =>
        ensures_seq (ensures_set (ensures_bind (ensures_pure (ensures_pure balanced₂)))))
    · exact ensures_bind (ensures_pure (ensures_pure balanced₂))

end Interface

theorem Interface.create_fresh {η α : Type} {settings : Settings} {board : η} {proto : α}
    {i : Interface η α} {j j' : Journal} (made : Interface.create settings board proto j = .ok (.ok i) j') :
    i.counters = {} ∧ i.board = board := by
  unfold Interface.create at made
  cases valid : settings.validate with
  | error e => simp [valid, pure, EStateM.pure] at made
  | ok =>
  simp only [valid] at made
  cases pool : Pool.create settings.rxBufferCount j with
  | error f j₁ => simp [pool, bind, EStateM.bind] at made
  | ok p j₁ =>
    simp only [bind, EStateM.bind, pool, pure, EStateM.pure, EStateM.Result.ok.injEq,
      Except.ok.injEq] at made
    obtain ⟨rfl, -⟩ := made
    exact ⟨rfl, rfl⟩

namespace Station

open Bench

variable {α : Type} {w : Station α}

theorem ensures_onIface_balanced {β : Type} {act : IfRun ScriptedBoard α β}
    (keeps : Interface.Within (Interface.Preserved Interface.TxBalanced) act) (balanced : w.iface.TxBalanced) :
    Ensures (onIface act) w (fun _ w' => w'.iface.TxBalanced) (fun _ => True) :=
  ensures_focus (keeps.preserves balanced)

variable [AddressProtocol α]

/-- Every action keeps the transmit counters balanced: besides the interface's own operations,
only the bench finishing transmissions touches the engine's transmit queues, and it moves frames
from one to the other. -/
theorem ensures_perform_balanced (a : Action α) (balanced : w.iface.TxBalanced) :
    Ensures (perform a) w (fun _ w' => w'.iface.TxBalanced) (fun _ => True) := by
  cases a with
  | init =>
    refine ensures_bind ((ensures_onIface_balanced Interface.keepsBalance_init balanced).mono
      (fun r _ balanced' => ?_) (fun _ => id))
    cases r with
    | ok => exact ensures_modify balanced'
    | error => exact ensures_pure balanced'
  | deinit =>
    exact ensures_bind ((ensures_onIface_balanced Interface.keepsBalance_deinit balanced).mono
      (fun _ _ balanced' => ensures_pure balanced') (fun _ => id))
  | receive =>
    exact ensures_bind ((ensures_onIface_balanced Interface.balanceSteps.receive balanced).mono
      (fun _ _ balanced' => ensures_modify balanced') (fun _ => id))
  | pollInput =>
    exact ensures_bind ((ensures_onIface_balanced Interface.balanceSteps.pollInput balanced).mono
      (fun _ _ balanced' => ensures_modify balanced') (fun _ => id))
  | output items =>
    refine ensures_bind (ensures_get ?_)
    cases items.mapM w.chainOf? with
    | none => exact ensures_pure balanced
    | some cs => exact ensures_onIface_balanced (Interface.keepsBalance_sendCopy _) balanced
  | reclaimTx =>
    exact ensures_bind ((ensures_onIface_balanced Interface.keepsBalance_reclaimTx balanced).mono
      (fun _ _ balanced' => ensures_pure balanced') (fun _ => id))
  | serviceTick now =>
    exact ensures_bind ((ensures_onIface_balanced (Interface.keepsBalance_serviceTick now)
      balanced).mono (fun _ _ balanced' => ensures_pure balanced') (fun _ => id))
  | inject bytes last error fits =>
    refine ensures_bind (ensures_get ?_)
    cases head : w.iface.board.mac.armed with
    | nil =>
      simp only [ScriptedMac.deliver, ScriptedMac.inject, head, Option.map_none]
      exact ensures_pure balanced
    | cons s rest =>
      simp only [ScriptedMac.deliver, ScriptedMac.inject, head, Option.map_some]
      exact ensures_set balanced
  | finishTx =>
    refine ensures_modify ?_
    have moved := ScriptedMac.held_finishTx w.iface.board.mac
    simp only [Interface.TxBalanced, Interface.withMac_mac, Interface.withMac_counters] at balanced ⊢
    omega
  | plug bits => exact ensures_modify balanced
  | unplug => exact ensures_modify balanced
  | switches => exact ensures_modify balanced
  | proto p => exact ensures_modify balanced
  | clone k =>
    refine ensures_bind (ensures_get ?_)
    cases w.consumer[k]? with
    | none => exact ensures_pure balanced
    | some x =>
      exact ensures_seq ((ensures_onIface_balanced (Interface.balanceSteps.onPool _) balanced).mono
        (fun _ _ balanced' => ensures_modify balanced') (fun _ => id))
  | drop k =>
    refine ensures_bind (ensures_get ?_)
    cases w.consumer[k]? with
    | none => exact ensures_pure balanced
    | some x =>
      exact ensures_seq (ensures_modify (ensures_onIface_balanced (Interface.balanceSteps.onPool _)
        balanced))

/-- The stations reached from a new interface over an engine that holds nothing at all: no
receive slot, and no frame to send, in flight or finished. -/
inductive FromIdle : Station α → Prop where
  | created {settings : Settings} {board : ScriptedBoard} {proto : α} {i : Interface ScriptedBoard α}
      {j j' : Journal} (idle : board.mac.rxSlots = [])
      (empty : board.mac.inFlight = [] ∧ board.mac.done = [])
      (made : Interface.create settings board proto j = .ok (.ok i) j') : FromIdle { iface := i }
  | step {w w' : Station α} {j j' : Journal} (a : Action α) (before : FromIdle w)
      (ran : perform a w j = .ok (⟨⟩, w') j') : FromIdle w'

theorem FromIdle.reached (reached : w.FromIdle) : w.Reached := by
  induction reached with
  | created idle empty made =>
    refine Reached.created idle ?_ made
    simp [ScriptedMac.txPinned, empty.1, empty.2]
  | step a _ ran before => exact Reached.step a before ran

/-- At every station reached from an idle engine the transmit counters balance: by induction on
the actions taken. -/
theorem FromIdle.txBalanced (reached : w.FromIdle) : w.iface.TxBalanced := by
  induction reached with
  | created idle empty made =>
    obtain ⟨counted, rfl⟩ := Interface.create_fresh made
    simp [Interface.TxBalanced, counted, empty.1, empty.2]
  | step a _ ran balanced => exact (ensures_perform_balanced a balanced).of_ok ran

/-! ### Sending from a station -/

/-- What sending a frame from a station guarantees. -/
structure Outputs (w : Station α) (frame : Chain) : Prop where
  /-- Every frame the engine took is counted once: completed, aborted, or still queued. -/
  balanced : w.iface.TxBalanced
  /-- Sending does what `Interface.Sends` says and keeps that balance, and it leaves each
  software slot with one reference for each handle on it: of the frame being assembled, of the
  consumer's chains and of the frames the engine holds, so no copy of the frame outlives a
  refusal. It halts only where pinning the copy would take a slot of the frame past the most
  references a count holds. -/
  sends : Ensures (Interface.output frame) w.iface
    (fun r i' => w.iface.Sends frame r i' ∧ i'.TxBalanced ∧ ∀ t, i'.pool.owner t = .software →
      (i'.pool.header t).refcount =
        i'.rx.holding.count t + w.slots.count t + i'.board.mac.txPinned.count t)
    (fun f => ∃ t ∈ frame.slots,
      maxRefcount < (w.iface.pool.header t).refcount + frame.slots.count t ∧
        f = .refcountOverflow t.index)

/-- Sending a frame built from fresh bytes and the consumer's chains, at any station reached
from an idle engine, is all or nothing, and the transmit counters balance before and after. -/
theorem output_all_or_nothing (reached : w.FromIdle) (frame : Chain)
    (known : ∀ t ∈ frame.slots, t ∈ w.slots) : w.Outputs frame := by
  obtain ⟨⟨done, inv, -⟩, -⟩ := reached.reached.holds
  refine ⟨reached.txBalanced, ((inv.ensures_output_sends known).and
    ((Interface.keepsBalance_output frame).preserves reached.txBalanced)).mono
    (fun r i' ⟨⟨sends, inv'⟩, balanced'⟩ => ⟨sends, balanced', fun t software => ?_⟩)
    (fun _ halted => halted.1)⟩
  rw [inv'.sound.books.refcount_of_software software, List.count_append, List.count_append]

theorem fromIdle_created : created.FromIdle := by
  have made : Interface.create ({} : Settings) (⟨{}, {}⟩ : ScriptedBoard) ({} : ScriptedProtocol) #[] =
      .ok (.ok created.iface) #[] := by
    rfl
  exact FromIdle.created (by rfl) ⟨rfl, rfl⟩ made

theorem fromIdle_delivered : delivered.FromIdle :=
  runScript_getD_keeps (fun a _ _ _ _ before ran => .step a before ran) fromIdle_created
    (by decide +kernel)

/-- The frame the consumer of `delivered` keeps, a copy of which is sent back. -/
def echoed : Chain := Chain.concat [Chain.ofShared ⟨0, [1, 2, 3]⟩, ⟨[.pooled ⟨0⟩], 60⟩]

theorem delivered_outputs_echo : delivered.FromIdle ∧ delivered.iface.initialized = true ∧
    delivered.iface.link.state.isUp = true ∧ (∀ t ∈ echoed.slots, t ∈ delivered.slots) ∧
    delivered.Outputs echoed := by
  have known : ∀ t ∈ echoed.slots, t ∈ delivered.slots := by decide +kernel
  exact ⟨fromIdle_delivered, by decide +kernel, by decide +kernel, known,
    output_all_or_nothing fromIdle_delivered _ known⟩

/-- An interface up over an engine that refuses every frame as not initialized. -/
def refusingIface : Interface ScriptedBoard ScriptedProtocol where
  settings := {}
  board := ⟨{ started := true, failTx := some .notInitialized }, ({} : ScriptedPhy).plug 6⟩
  proto := {}
  pool := Pool.fresh 10
  acquisition := .create 4 Ipv4Config.fallback
  link := { state := .up ⟨.mbps100, .full⟩ }
  initialized := true

/-- The engine refusing a frame as not initialized counts as a transmit error like any other
refusal: only the interface's own not-initialized exit leaves the counters alone. -/
theorem engine_not_initialized_counted : ∃ i' j',
    (Interface.output (Chain.ofShared ⟨0, [1, 2, 3]⟩) : IfRun ScriptedBoard ScriptedProtocol _)
      refusingIface #[] = .ok (.error .notInitialized, i') j' ∧
    i'.counters.txErrors = refusingIface.counters.txErrors + 1 := by
  refine ⟨_, _, rfl, ?_⟩
  rfl

end Station

end Ethernet
