import Ethernet.Proofs.Ensures
import Ethernet.Interface.Lifecycle
import Ethernet.Interface.Datapath

/-! The traffic loops, walked once for every property of operations that holds of their steps
and of the ways they are built (`Closed`). Keeping the interface within a relation (`Within`),
such as a view left alone (`Kept`) or an invariant kept (`Preserved`), is one such property. -/
namespace Ethernet.Interface

variable {η α β γ κ : Type}

/-- `act` leaves the interface related by `R` to the one it started from, whenever it ends. -/
def Within (R : Interface η α → Interface η α → Prop) (act : IfRun η α β) : Prop :=
  ∀ i, Ensures act i (fun _ i' => R i i') (fun _ => True)

/-- A relation an operation can be checked against step by step: doing nothing keeps to it,
and two steps that keep to it make one. -/
class Footprint (R : Interface η α → Interface η α → Prop) : Prop where
  refl : ∀ i, R i i
  trans : ∀ {i₁ i₂ i₃}, R i₁ i₂ → R i₂ i₃ → R i₁ i₃

/-- The view `view` of the interface is the same after as before. -/
def Kept (view : Interface η α → κ) (i i' : Interface η α) : Prop := view i' = view i

/-- The invariant `P` holds after whenever it held before. -/
def Preserved (P : Interface η α → Prop) (i i' : Interface η α) : Prop := P i → P i'

instance (view : Interface η α → κ) : Footprint (Kept view) where
  refl _ := rfl
  trans first second := Eq.trans second first

instance (P : Interface η α → Prop) : Footprint (Preserved P) where
  refl _ := id
  trans first second := second ∘ first

section Steps

variable {R : Interface η α → Interface η α → Prop}

theorem within_modify {f : Interface η α → Interface η α} (moved : ∀ i, R i (f i)) :
    Within R (modify f) :=
  fun i => ensures_modify (moved i)

/-- A pool operation keeps to `R` when replacing the pool does. -/
theorem within_onPool (moved : ∀ i p, R i { i with pool := p }) (act : PoolRun β) :
    Within R (onPool act : IfRun η α β) :=
  fun i => ensures_focus (ensures_true.mono (fun _ p _ => moved i p) (fun _ => id))

/-- A board operation keeps to `R` when what it ensures of the board does. -/
theorem within_onBoard_of {act : StateT η Run β} {moved : η → η → Prop}
    (kept : ∀ b, Ensures act b (fun _ b' => moved b b') (fun _ => True))
    (lifts : ∀ i b, moved i.board b → R i { i with board := b }) :
    Within R (onBoard act : IfRun η α β) :=
  fun i => ensures_focus ((kept i.board).mono (fun _ b board => lifts i b board) (fun _ => id))

/-- A board operation keeps to `R` when replacing the board does. -/
theorem within_onBoard (moved : ∀ i b, R i { i with board := b }) (act : StateT η Run β) :
    Within R (onBoard act : IfRun η α β) :=
  within_onBoard_of (fun _ => ensures_true) fun i b _ => moved i b

/-- An invariant kept from every interface where it holds. -/
theorem within_preserved {P : Interface η α → Prop} {act : IfRun η α β}
    (kept : ∀ i, P i → Ensures act i (fun _ i' => P i') (fun _ => True)) :
    Within (Preserved P) act := by
  intro i
  by_cases holds : P i
  · exact (kept i holds).mono (fun _ _ holds' _ => holds') (fun _ => id)
  · exact ensures_true.mono (fun _ _ _ held => absurd held holds) (fun _ => id)

theorem Within.preserves {P : Interface η α → Prop} {act : IfRun η α β} {i : Interface η α}
    (within : Within (Preserved P) act) (holds : P i) :
    Ensures act i (fun _ i' => P i') (fun _ => True) :=
  (within i).mono (fun _ _ kept => kept holds) (fun _ => id)

variable [Footprint R]

theorem within_pure (a : β) : Within R (pure a : IfRun η α β) :=
  fun i => ensures_pure (Footprint.refl i)

theorem within_get : Within R (get : IfRun η α _) := fun i => ensures_get (Footprint.refl i)

theorem within_emit {level : Level} {text : String} :
    Within R (liftM (emit level text) : IfRun η α PUnit) :=
  fun i => ensures_emit (Footprint.refl i)

theorem Within.bind {x : IfRun η α β} {f : β → IfRun η α γ} (first : Within R x)
    (rest : ∀ a, Within R (f a)) : Within R (x >>= f) := fun i =>
  ensures_bind ((first i).mono (fun a i₁ moved => (rest a i₁).mono
    (fun _ _ moved' => Footprint.trans moved moved') (fun _ => id)) (fun _ => id))

end Steps

/-! ### The loops, from their steps -/

/-- The interface with its poll stamps replaced. -/
def restamp (i : Interface η α) (link dhcp : Option Nat) : Interface η α :=
  { i with lastLinkPoll := link, lastDhcpPoll := dhcp }

/-- A property of operations that holds of the ways the traffic loops are built: returning,
sequencing, logging, and reading the interface where what follows never reads the poll
stamps. -/
structure Closed (Q : {β : Type} → IfRun η α β → Prop) : Prop where
  pure : ∀ {β : Type} (a : β), Q (pure a : IfRun η α β)
  bind : ∀ {β γ : Type} {x : IfRun η α β} {f : β → IfRun η α γ}, Q x → (∀ a, Q (f a)) →
    Q (x >>= f)
  read : ∀ {β : Type} {f : Interface η α → IfRun η α β}, (∀ i, Q (f i)) →
    (∀ i link dhcp, f (i.restamp link dhcp) = f i) → Q (get >>= f)
  emit : ∀ (level : Level) (text : String), Q (liftM (emit level text) : IfRun η α PUnit)

theorem Footprint.closed {R : Interface η α → Interface η α → Prop} [Footprint R] :
    Closed (Within R) where
  pure := within_pure
  bind := Within.bind
  read rest _ := within_get.bind rest
  emit _ _ := within_emit

variable [MacEngine η]

/-- What refilling is made of has `Q`: pool operations and arming a descriptor. -/
structure RefillSteps (Q : {β : Type} → IfRun η α β → Prop) : Prop extends Closed Q where
  onPool : ∀ {β : Type} (act : PoolRun β), Q (onPool act : IfRun η α β)
  provide : ∀ s, Q (onBoard (MacEngine.rxProvide s) : IfRun η α (Except SlotId Unit))

/-- What the receive path is made of has `Q`: besides refilling, replacing the assembler and
reading back or revoking a descriptor. -/
structure RxSteps (Q : {β : Type} → IfRun η α β → Prop) : Prop extends RefillSteps Q where
  setRx : ∀ a : Assembler, Q (modify fun i => { i with rx := a } : IfRun η α PUnit)
  poll : Q (onBoard MacEngine.rxPoll : IfRun η α (Option RxCompletion))
  revoke : Q (onBoard MacEngine.rxRevoke : IfRun η α (Option SlotId))

/-- Every step of the traffic has `Q`: besides the receive path, counting, and the engine's
transmit calls. -/
structure DatapathSteps (Q : {β : Type} → IfRun η α β → Prop) : Prop extends RxSteps Q where
  counted : ∀ f, Q (modifyCounters f : IfRun η α Unit)
  reclaim : Q (onBoard MacEngine.txReclaim : IfRun η α (Option TxCompletion))
  submit : ∀ p l frame, Q (onBoard (MacEngine.txSubmit p l frame) :
    IfRun η α (Except (NetError × Chain) Unit))

variable {Q : {β : Type} → IfRun η α β → Prop}

namespace RefillSteps

variable (steps : RefillSteps Q)
include steps

theorem refillFor : ∀ fuel, Q (Interface.refillFor fuel : IfRun η α Bool)
  | 0 => steps.pure _
  | fuel + 1 => by
    unfold Interface.refillFor
    refine steps.read (fun i => ?_) (fun _ _ _ => rfl)
    split
    · exact steps.pure _
    split
    · exact steps.pure _
    refine steps.bind (steps.onPool _) fun allocated => ?_
    split
    · exact steps.pure _
    refine steps.bind (steps.provide _) fun provided => ?_
    split
    · exact steps.bind (steps.onPool _) fun _ => steps.pure _
    · exact refillFor fuel

theorem refill : Q (Interface.refill : IfRun η α Bool) :=
  steps.read (fun _ => steps.refillFor _) fun _ _ _ => rfl

end RefillSteps

namespace RxSteps

variable (steps : RxSteps Q)
include steps

theorem takeNext {next : IfRun η α (Option Chain)} (rest : Q next) : Q (Interface.takeNext next) := by
  unfold Interface.takeNext
  refine steps.bind steps.poll fun polled => ?_
  split
  · exact steps.pure _
  refine steps.read (fun i => steps.bind (steps.onPool _) fun taken => ?_) (fun _ _ _ => rfl)
  obtain ⟨frame, a⟩ := taken
  refine steps.bind (steps.setRx a) fun _ => ?_
  split
  · exact steps.pure _
  · exact rest

theorem receiveFor : ∀ fuel, Q (Interface.receiveFor fuel : IfRun η α (Option Chain))
  | 0 => steps.pure _
  | fuel + 1 => by
    unfold Interface.receiveFor
    refine steps.bind steps.refill fun starved => steps.read (fun i => ?_) (fun _ _ _ => rfl)
    have rest := steps.takeNext (receiveFor fuel)
    split
    · exact steps.read (fun _ => steps.bind (steps.onPool _) fun _ => steps.bind (steps.setRx _)
        fun _ => rest) (fun _ _ _ => rfl)
    · exact rest

theorem receive : Q (Interface.receive : IfRun η α (Option Chain)) := by
  unfold Interface.receive
  refine steps.read (fun i => ?_) (fun _ _ _ => rfl)
  split
  · exact steps.pure _
  · exact steps.receiveFor _

theorem pollInputFor : ∀ fuel, Q (Interface.pollInputFor fuel : IfRun η α (List Chain))
  | 0 => steps.pure _
  | fuel + 1 => by
    unfold Interface.pollInputFor
    refine steps.bind steps.receive fun received => ?_
    split
    · exact steps.pure _
    · exact steps.bind (pollInputFor fuel) fun _ => steps.pure _

theorem pollInput : Q (Interface.pollInput : IfRun η α (List Chain)) :=
  steps.read (fun _ => steps.pollInputFor _) fun _ _ _ => rfl

theorem abandonCompletedFor : ∀ fuel, Q (Interface.abandonCompletedFor fuel : IfRun η α Unit)
  | 0 => steps.pure _
  | fuel + 1 => by
    unfold Interface.abandonCompletedFor
    refine steps.bind steps.poll fun polled => ?_
    split
    · exact steps.pure _
    · exact steps.bind (steps.onPool _) fun _ => abandonCompletedFor fuel

theorem abandonArmedFor : ∀ fuel, Q (Interface.abandonArmedFor fuel : IfRun η α Unit)
  | 0 => steps.pure _
  | fuel + 1 => by
    unfold Interface.abandonArmedFor
    refine steps.bind steps.revoke fun revoked => ?_
    split
    · exact steps.pure _
    · exact steps.bind (steps.onPool _) fun _ => abandonArmedFor fuel

end RxSteps

/-- Sending has `Q` when its pool operations, counting an error, dropping finished
transmissions and offering the frame do. -/
theorem Closed.output (closed : Closed Q)
    (pool : ∀ {β : Type} (act : PoolRun β), Q (onPool act : IfRun η α β))
    (countError : Q (modifyCounters fun s => { s with txErrors := s.txErrors + 1 } : IfRun η α Unit))
    (reclaim : Q (Interface.reclaimTx : IfRun η α Nat))
    (submit : ∀ fragments attempts pinned, Q (Interface.submitFor fragments attempts pinned :
      IfRun η α (Except NetError Unit)))
    (frame : Chain) : Q (Interface.output frame : IfRun η α (Except NetError Unit)) := by
  unfold Interface.output
  refine closed.read (fun i => ?_) (fun _ _ _ => rfl)
  split
  · exact closed.pure _
  split
  · exact closed.bind countError fun _ => closed.bind (closed.emit _ _) fun _ => closed.pure _
  refine closed.bind reclaim fun _ => closed.read (fun i' => ?_) (fun _ _ _ => rfl)
  split
  · exact closed.bind countError fun _ => closed.bind (closed.emit _ _) fun _ => closed.pure _
  · exact closed.bind (pool _) fun _ => submit _ _ _

namespace DatapathSteps

variable (steps : DatapathSteps Q)
include steps

theorem reclaimTxFor : ∀ fuel, Q (Interface.reclaimTxFor fuel : IfRun η α Nat)
  | 0 => steps.pure _
  | fuel + 1 => by
    unfold Interface.reclaimTxFor
    refine steps.bind steps.reclaim fun reclaimed => ?_
    split
    · exact steps.pure _
    · rename_i c
      have rest : Q (do onPool c.frame.release; let n ← Interface.reclaimTxFor fuel; pure (n + 1)) :=
        steps.bind (steps.onPool _) fun _ => steps.bind (reclaimTxFor fuel) fun _ => steps.pure _
      split <;> exact steps.bind (steps.counted _) fun _ => rest

theorem reclaimTx : Q (Interface.reclaimTx : IfRun η α Nat) :=
  steps.read (fun _ => steps.reclaimTxFor _) fun _ _ _ => rfl

theorem submitFor (fragments : FragmentList) : ∀ attempts pinned,
    Q (Interface.submitFor fragments attempts pinned : IfRun η α (Except NetError Unit))
  | 0, pinned => by
    unfold Interface.submitFor
    exact steps.bind (steps.counted _) fun _ => steps.bind (steps.emit _ _) fun _ =>
      steps.bind (steps.onPool _) fun _ => steps.pure _
  | attempts + 1, pinned => by
    unfold Interface.submitFor
    refine steps.read (fun i => steps.bind (steps.submit _ _ _) fun submitted => ?_) (fun _ _ _ => rfl)
    split
    · exact steps.bind (steps.counted _) fun _ => steps.pure _
    · exact steps.bind steps.reclaimTx fun _ => submitFor fragments attempts _
    · exact steps.bind (steps.counted _) fun _ => steps.bind (steps.emit _ _) fun _ =>
        steps.bind (steps.onPool _) fun _ => steps.pure _

theorem output (frame : Chain) : Q (Interface.output frame : IfRun η α (Except NetError Unit)) :=
  steps.toClosed.output steps.onPool (steps.counted _) steps.reclaimTx steps.submitFor frame

theorem transmitShared (d : Shared) : Q (Interface.transmitShared d : IfRun η α Unit) := by
  unfold Interface.transmitShared
  refine steps.bind (steps.output _) fun sent => ?_
  split
  · exact steps.pure _
  · exact steps.emit _ _

end DatapathSteps

end Ethernet.Interface
