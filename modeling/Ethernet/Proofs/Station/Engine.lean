import Ethernet.Proofs.Ensures
import Ethernet.Interface.Lifecycle
import Ethernet.Interface.Datapath
import Ethernet.Bench.Boards

/-! The scripted engine inside an interface: each board operation moves the engine's queues as
said here, or keeps them (`Settled`). -/
namespace Ethernet

/-- The interface with the engine `m` on its board. -/
def Interface.withMac {μ π α : Type} (i : Interface (Board μ π) α) (m : μ) :
    Interface (Board μ π) α :=
  { i with board := { i.board with mac := m } }

namespace Bench

namespace ScriptedMac

/-- The slots the engine holds for receive: armed, then completed. -/
def rxSlots (m : ScriptedMac) : List SlotId := m.armed ++ m.completions.map RxCompletion.slot

/-- The packet buffers the engine holds through the frames it was given to send, one per
pooled segment. -/
def txPinned (m : ScriptedMac) : List SlotId :=
  (m.inFlight ++ m.done.map TxCompletion.frame).flatMap Chain.slots

/-- The two engines hold the same receive slots in the same order, and the same frames to send
up to their order. -/
structure SameQueues (m m' : ScriptedMac) : Prop where
  armed : m'.armed = m.armed
  completions : m'.completions = m.completions
  rxRing : m'.rxRing = m.rxRing
  txPinned : m'.txPinned.Perm m.txPinned

variable {m m₁ m₂ : ScriptedMac}

theorem SameQueues.refl (m : ScriptedMac) : m.SameQueues m := ⟨rfl, rfl, rfl, .refl _⟩

theorem SameQueues.trans (first : m.SameQueues m₁) (second : m₁.SameQueues m₂) : m.SameQueues m₂ :=
  ⟨second.armed.trans first.armed, second.completions.trans first.completions,
    second.rxRing.trans first.rxRing, second.txPinned.trans first.txPinned⟩

theorem SameQueues.rxSlots (same : m.SameQueues m') : m'.rxSlots = m.rxSlots := by
  simp [ScriptedMac.rxSlots, same.armed, same.completions]

theorem sameQueues_record (c : MacCall) (m : ScriptedMac) : m.SameQueues (m.record c) :=
  ⟨rfl, rfl, rfl, .refl _⟩

theorem sameQueues_abortTx (m : ScriptedMac) : m.SameQueues m.abortTx := by
  refine ⟨rfl, rfl, rfl, ?_⟩
  have frames : (m.inFlight.map fun f => ({ frame := f, sent := false } : TxCompletion)).map
      TxCompletion.frame = m.inFlight := by simp [Function.comp_def]
  simp only [txPinned, abortTx, List.nil_append, List.map_append, frames]
  exact List.perm_append_comm.flatMap_right _

theorem sameQueues_finishTx (m : ScriptedMac) : m.SameQueues m.finishTx := by
  refine ⟨rfl, rfl, rfl, ?_⟩
  have frames : (m.inFlight.map fun f => ({ frame := f, sent := true } : TxCompletion)).map
      TxCompletion.frame = m.inFlight := by simp [Function.comp_def]
  simp only [txPinned, finishTx, List.nil_append, List.map_append, frames]
  exact List.perm_append_comm.flatMap_right _

end ScriptedMac

section

variable (b : ScriptedBoard)

@[simp] theorem rxWantsBuffer_board : MacEngine.rxWantsBuffer b = b.mac.wantsBuffer := rfl

@[simp] theorem pendingCompletions_board :
    MacEngine.pendingCompletions b = b.mac.completions.length := rfl

@[simp] theorem rxHeld_board : MacEngine.rxHeld b = b.mac.armed.length + b.mac.completions.length :=
  rfl

@[simp] theorem txHeld_board : MacEngine.txHeld b = b.mac.inFlight.length + b.mac.done.length := rfl

end

/-! ### Board operations that keep the queues -/

/-- A board operation that never halts and keeps the engine's queues. -/
def Settled {β : Type} (act : StateT ScriptedBoard Run β) : Prop :=
  ∀ b, Ensures act b (fun _ b' => b.mac.SameQueues b'.mac) (fun _ => False)

section

variable {β γ : Type}

theorem settled_pure (a : β) : Settled (pure a : StateT ScriptedBoard Run β) :=
  fun b => ensures_pure (.refl b.mac)

theorem settled_bind {x : StateT ScriptedBoard Run β} {f : β → StateT ScriptedBoard Run γ}
    (first : Settled x) (rest : ∀ a, Settled (f a)) : Settled (x >>= f) := fun b =>
  ensures_bind ((first b).mono (fun a b₁ same => (rest a b₁).mono
    (fun _ _ same' => same.trans same') (fun _ => id)) (fun _ => id))

theorem settled_emit {level : Level} {text : String} :
    Settled (liftM (emit level text) : StateT ScriptedBoard Run PUnit) :=
  fun b => ensures_emit (.refl b.mac)

theorem settled_negotiationDone : Settled (PhyControl.negotiationDone : StateT ScriptedBoard Run _) := by
  intro b j
  simp [PhyControl.negotiationDone, ScriptedPhy.answer]
  exact .refl b.mac

theorem settled_linkStatus : Settled (PhyControl.linkStatus : StateT ScriptedBoard Run _) := by
  intro b j
  simp [PhyControl.linkStatus, ScriptedPhy.answer]
  exact .refl b.mac

theorem settled_speedIndication : Settled (PhyControl.speedIndication : StateT ScriptedBoard Run _) := by
  intro b j
  simp [PhyControl.speedIndication, ScriptedPhy.answer]
  exact .refl b.mac

theorem settled_setLinkParams {p : LinkParams} :
    Settled (MacEngine.setLinkParams p : StateT ScriptedBoard Run _) := by
  intro b j
  by_cases fails : b.mac.failSetLink = true
  · simp [MacEngine.setLinkParams, Board.onMac, fails]
    exact .refl b.mac
  · simp [MacEngine.setLinkParams, Board.onMac, fails, ScriptedMac.ok, ScriptedMac.record]
    exact ⟨rfl, rfl, rfl, .refl _⟩

theorem settled_start : Settled (MacEngine.start : StateT ScriptedBoard Run _) := by
  intro b j
  simp [MacEngine.start, Board.onMac, ScriptedMac.ok, ScriptedMac.record]
  exact ⟨rfl, rfl, rfl, .refl _⟩

theorem settled_stop : Settled (MacEngine.stop : StateT ScriptedBoard Run _) := by
  intro b j
  simp [MacEngine.stop, Board.onMac, ScriptedMac.ok]
  exact (ScriptedMac.sameQueues_record _ _).trans (ScriptedMac.sameQueues_abortTx _)

/-- A property of board operations that holds of returning a value, of sequencing, of logging, of
the PHY's three reads and of programming, starting and stopping the engine holds of a poll of
the link: the proof follows the poll's branches. -/
theorem LinkMonitor.poll_closed (P : {β : Type} → StateT ScriptedBoard Run β → Prop)
    (pure : ∀ {β : Type} (a : β), P (pure a))
    (bind : ∀ {β γ : Type} {x : StateT ScriptedBoard Run β} {f : β → StateT ScriptedBoard Run γ},
      P x → (∀ a, P (f a)) → P (x >>= f))
    (emit : ∀ level text, P (liftM (emit level text) : StateT ScriptedBoard Run PUnit))
    (negotiationDone : P (PhyControl.negotiationDone : StateT ScriptedBoard Run _))
    (linkStatus : P (PhyControl.linkStatus : StateT ScriptedBoard Run _))
    (speedIndication : P (PhyControl.speedIndication : StateT ScriptedBoard Run _))
    (setLinkParams : ∀ p, P (MacEngine.setLinkParams p : StateT ScriptedBoard Run _))
    (start : P (MacEngine.start : StateT ScriptedBoard Run _))
    (stop : P (MacEngine.stop : StateT ScriptedBoard Run _)) (m : LinkMonitor) :
    P (m.poll : StateT ScriptedBoard Run _) := by
  have phyRead : ∀ {β : Type} {act : StateT ScriptedBoard Run (Except PhyError β)}, P act →
      P (LinkMonitor.phyRead act) := fun reads => bind reads fun _ => pure _
  unfold LinkMonitor.poll
  split
  · refine bind (phyRead negotiationDone) fun done => ?_
    split
    · exact pure _
    · exact pure _
    refine bind (phyRead linkStatus) fun status => ?_
    split
    · exact pure _
    · exact bind (emit _ _) fun _ => pure _
    refine bind (phyRead speedIndication) fun indication => ?_
    split
    · exact pure _
    split
    · exact bind (emit _ _) fun _ => pure _
    refine bind (setLinkParams _) fun programmed => ?_
    split
    · exact pure _
    refine bind start fun started => ?_
    split
    · exact pure _
    · exact bind (emit _ _) fun _ => pure _
  · refine bind (phyRead linkStatus) fun status => ?_
    split
    · exact pure _
    · exact pure _
    refine bind stop fun stopped => ?_
    cases stopped with
    | error e => exact bind (emit _ _) fun _ => bind (emit _ _) fun _ => pure _
    | ok u => exact bind (emit _ _) fun _ => pure _

/-- A poll of the link reads the PHY and may program, start or stop the engine; it keeps the
queues. -/
theorem settled_poll (m : LinkMonitor) : Settled (m.poll : StateT ScriptedBoard Run _) :=
  LinkMonitor.poll_closed Settled settled_pure settled_bind (fun _ _ => settled_emit)
    settled_negotiationDone settled_linkStatus settled_speedIndication (fun _ => settled_setLinkParams)
    settled_start settled_stop m

end

end Bench

/-! ### The interface around the engine -/

namespace Interface

open Bench

variable {α : Type} {i i₁ i₂ : Interface ScriptedBoard α} {m : ScriptedMac}

@[simp] theorem withMac_mac : (i.withMac m).board.mac = m := rfl
@[simp] theorem withMac_phy : (i.withMac m).board.phy = i.board.phy := rfl
@[simp] theorem withMac_pool : (i.withMac m).pool = i.pool := rfl
@[simp] theorem withMac_rx : (i.withMac m).rx = i.rx := rfl
@[simp] theorem withMac_initialized : (i.withMac m).initialized = i.initialized := rfl
@[simp] theorem withMac_counters : (i.withMac m).counters = i.counters := rfl

/-- The interface changed only where its receive slots do not look: the engine kept its queues,
and the pool, the assembler, the running flag and the count of frames received are as they
were. -/
structure Steady (i i' : Interface ScriptedBoard α) : Prop where
  queues : i.board.mac.SameQueues i'.board.mac
  pool : i'.pool = i.pool
  rx : i'.rx = i.rx
  initialized : i'.initialized = i.initialized
  rxFrames : i'.counters.rxFrames = i.counters.rxFrames

theorem Steady.refl (i : Interface ScriptedBoard α) : i.Steady i :=
  ⟨.refl _, rfl, rfl, rfl, rfl⟩

theorem Steady.trans (first : i.Steady i₁) (second : i₁.Steady i₂) : i.Steady i₂ :=
  ⟨first.queues.trans second.queues, second.pool.trans first.pool, second.rx.trans first.rx,
    second.initialized.trans first.initialized, second.rxFrames.trans first.rxFrames⟩

theorem steady_withMac (same : i.board.mac.SameQueues m) : i.Steady (i.withMac m) :=
  ⟨same, rfl, rfl, rfl, rfl⟩

/-! What each queue operation of the engine does to the interface. -/

section

variable {c : RxCompletion} {rest : List RxCompletion} {s : SlotId} {armed : List SlotId}
  {t : TxCompletion} {finished : List TxCompletion}

theorem returns_rxPoll_cons (head : i.board.mac.completions = c :: rest) :
    Returns (onBoard MacEngine.rxPoll) i (some c) (i.withMac { i.board.mac with completions := rest }) :=
  fun j => ⟨j, by simp [onBoard, MacEngine.rxPoll, Board.onMac, head, withMac]⟩

theorem returns_rxPoll_nil (head : i.board.mac.completions = []) :
    Returns (onBoard MacEngine.rxPoll) i none i :=
  fun j => ⟨j, by simp [onBoard, MacEngine.rxPoll, Board.onMac, head]⟩

theorem returns_rxRevoke_cons (head : i.board.mac.armed = s :: armed) :
    Returns (onBoard MacEngine.rxRevoke) i (some s) (i.withMac { i.board.mac with armed }) :=
  fun j => ⟨j, by simp [onBoard, MacEngine.rxRevoke, Board.onMac, head, withMac]⟩

theorem returns_rxRevoke_nil (head : i.board.mac.armed = []) :
    Returns (onBoard MacEngine.rxRevoke) i none i :=
  fun j => ⟨j, by simp [onBoard, MacEngine.rxRevoke, Board.onMac, head]⟩

theorem returns_rxProvide (wants : i.board.mac.wantsBuffer = true) :
    Returns (onBoard (MacEngine.rxProvide s)) i (.ok ())
      (i.withMac { i.board.mac with armed := i.board.mac.armed ++ [s] }) :=
  fun j => ⟨j, by simp [onBoard, MacEngine.rxProvide, Board.onMac, wants, withMac]⟩

theorem returns_txReclaim_cons (head : i.board.mac.done = t :: finished) :
    Returns (onBoard MacEngine.txReclaim) i (some t) (i.withMac { i.board.mac with done := finished }) :=
  fun j => ⟨j, by simp [onBoard, MacEngine.txReclaim, Board.onMac, head, withMac]⟩

theorem returns_txReclaim_nil (head : i.board.mac.done = []) :
    Returns (onBoard MacEngine.txReclaim) i none i :=
  fun j => ⟨j, by simp [onBoard, MacEngine.txReclaim, Board.onMac, head]⟩

end

theorem returns_stop :
    Returns (onBoard MacEngine.stop) i (.ok ()) (i.withMac (i.board.mac.record .stop).abortTx) :=
  fun j => ⟨j, by simp [onBoard, MacEngine.stop, Board.onMac, ScriptedMac.ok, withMac]⟩

theorem returns_deinit :
    Returns (onBoard MacEngine.deinit) i (.ok ()) (i.withMac (i.board.mac.record .deinit).abortTx) :=
  fun j => ⟨j, by simp [onBoard, MacEngine.deinit, Board.onMac, ScriptedMac.ok, withMac]⟩

theorem ensures_txSubmit {p : Pool} {l : FragmentList} {frame : Chain} :
    Ensures (onBoard (MacEngine.txSubmit p l frame) : IfRun ScriptedBoard α _) i
      (fun r i' => match r with
        | .ok () => ∃ m, i' = i.withMac m ∧ m.armed = i.board.mac.armed ∧
            m.completions = i.board.mac.completions ∧ m.rxRing = i.board.mac.rxRing ∧
            m.txPinned.Perm (frame.slots ++ i.board.mac.txPinned)
        | .error (_, back) => back = frame ∧ i' = i) (fun _ => False) := by
  intro j
  cases failing : i.board.mac.failTx with
  | some e => simp [onBoard, MacEngine.txSubmit, Board.onMac, failing]
  | none =>
  cases started : i.board.mac.started
  · simp [onBoard, MacEngine.txSubmit, Board.onMac, failing, started]
  by_cases busy : i.board.mac.txSlots ≤ i.board.mac.inFlight.length
  · simp [onBoard, MacEngine.txSubmit, Board.onMac, failing, started, busy]
  cases auto : i.board.mac.autoCompleteTx
  · simp only [onBoard, MacEngine.txSubmit, Board.onMac, failing, started, busy, auto, focus_apply,
      bind_apply, get_apply]
    refine ⟨_, rfl, rfl, rfl, rfl, ?_⟩
    simpa [ScriptedMac.txPinned] using List.perm_append_comm_assoc _ _ _
  · simp only [onBoard, MacEngine.txSubmit, Board.onMac, failing, started, busy, auto, focus_apply,
      bind_apply, get_apply]
    refine ⟨_, rfl, rfl, rfl, rfl, ?_⟩
    simp only [ScriptedMac.txPinned, List.map_append, List.map_cons, List.map_nil,
      List.flatMap_append, List.flatMap_cons, List.flatMap_nil, List.append_nil]
    rw [← List.append_assoc]
    exact List.perm_append_comm

theorem returns_init_refused {mac : MacAddress} (fails : i.board.mac.failInit = true) :
    Returns (onBoardAndPool (MacEngine.init mac)) i (.error .hardwareError) i :=
  fun j => ⟨j, by simp [onBoardAndPool, MacEngine.init, Board.onMac, focus, besidePool, StateT.lift, fails]⟩

theorem returns_init {mac : MacAddress} (works : i.board.mac.failInit = false) :
    Returns (onBoardAndPool (MacEngine.init mac)) i (.ok ())
      (i.withMac (i.board.mac.record (.init mac))) :=
  fun j => ⟨j, by simp [onBoardAndPool, MacEngine.init, Board.onMac, focus, besidePool, StateT.lift, works,
    ScriptedMac.ok, withMac]⟩

end Interface

namespace Acquisition

variable {α : Type} [AddressProtocol α] (a : Acquisition) (proto : α) (j : Journal)

theorem onLinkEvent_ok (e : LinkEvent) : ∃ r j', a.onLinkEvent proto e j = .ok r j' := by
  cases e with
  | up p => by_cases idle : a.state = .off ∨ a.state = .linkDown <;> simp [onLinkEvent, idle]
  | down => by_cases gone : a.state = .linkDown <;> simp [onLinkEvent, gone]

theorem tick_ok : ∃ r j', a.tick proto j = .ok r j' := by
  cases state : a.state <;> simp only [tick, state]
  case start => cases (AddressProtocol.start (AddressProtocol.apply none proto)).1 <;> simp
  case waitAddress =>
    cases (AddressProtocol.supplied proto).1 with
    | none => by_cases more : a.retries + 1 < a.maxRetries <;> simp [more]
    | some c => simp
  case assigned =>
    cases (AddressProtocol.supplied proto).1 with
    | none => simp
    | some c => by_cases same : some c = a.address <;> simp [same]
  all_goals simp

end Acquisition

namespace Interface

open Bench

variable {α : Type} [AddressProtocol α] {i : Interface ScriptedBoard α}

/-- Polling the link touches only the board, keeping the engine's queues, the link monitor, and
address acquisition with its protocol; it never halts. -/
theorem ensures_pollLink :
    Ensures (pollLink : IfRun ScriptedBoard α _) i (fun _ i' => i.Steady i') (fun _ => False) := by
  unfold pollLink
  apply ensures_bind
  apply ensures_get
  apply ensures_bind
  refine ensures_focus ((settled_poll i.link i.board).mono (fun r b same => ?_) (fun _ => id))
  obtain ⟨result, monitor⟩ := r
  apply ensures_seq
  apply ensures_modify
  have steady : i.Steady { { i with board := b } with link := monitor } := ⟨same, rfl, rfl, rfl, rfl⟩
  split
  · exact ensures_seq (ensures_emit (ensures_pure steady))
  · exact ensures_pure steady
  · rename_i _ event
    apply ensures_bind
    apply ensures_get
    split
    · apply ensures_bind
      refine ensures_lift fun j => ?_
      obtain ⟨r, j', ran⟩ := Acquisition.onLinkEvent_ok i.acquisition i.proto j event
      rw [ran]
      exact ensures_seq (ensures_set (ensures_pure ⟨same, rfl, rfl, rfl, rfl⟩))
    · exact ensures_pure steady

end Interface

end Ethernet
