import Ethernet.Proofs.Interface.Within
import Ethernet.Interface.Lifecycle
import Ethernet.Interface.Datapath
import Ethernet.Bench.Boards
import Ethernet.Bench.Protocol

/-! Pacing the housekeeping on a wrapping millisecond counter: every operation but the housekeeping
is blind to the poll stamps, so replaying any run with every time moved by `c` runs alike. -/
namespace Ethernet

namespace Interface

variable {η α β γ : Type}

section Restamp

variable {i : Interface η α} {link dhcp : Option Nat}

@[simp] theorem settings_restamp : (i.restamp link dhcp).settings = i.settings := rfl
@[simp] theorem board_restamp : (i.restamp link dhcp).board = i.board := rfl
@[simp] theorem proto_restamp : (i.restamp link dhcp).proto = i.proto := rfl
@[simp] theorem pool_restamp : (i.restamp link dhcp).pool = i.pool := rfl
@[simp] theorem rx_restamp : (i.restamp link dhcp).rx = i.rx := rfl
@[simp] theorem link_restamp : (i.restamp link dhcp).link = i.link := rfl
@[simp] theorem acquisition_restamp : (i.restamp link dhcp).acquisition = i.acquisition := rfl
@[simp] theorem initialized_restamp : (i.restamp link dhcp).initialized = i.initialized := rfl
@[simp] theorem counters_restamp : (i.restamp link dhcp).counters = i.counters := rfl
@[simp] theorem lastLinkPoll_restamp : (i.restamp link dhcp).lastLinkPoll = link := rfl
@[simp] theorem lastDhcpPoll_restamp : (i.restamp link dhcp).lastDhcpPoll = dhcp := rfl

@[simp] theorem restamp_self : i.restamp i.lastLinkPoll i.lastDhcpPoll = i := rfl

@[simp] theorem restamp_restamp {link' dhcp' : Option Nat} :
    (i.restamp link dhcp).restamp link' dhcp' = i.restamp link' dhcp' := rfl

end Restamp

/-- An outcome with its interface's poll stamps replaced. -/
def restampOutcome (link dhcp : Option Nat) :
    EStateM.Result Fault Journal (β × Interface η α) → EStateM.Result Fault Journal (β × Interface η α)
  | .ok (a, i) j => .ok (a, i.restamp link dhcp) j
  | .error f j => .error f j

section Blind

variable (l d : Option Nat)

/-- Two operations that run alike when the second runs on the interface with its poll stamps
replaced by `l` and `d`: the same answer, the same log, and the replaced stamps kept. -/
def Blind (x y : IfRun η α β) : Prop :=
  ∀ i j, y (i.restamp l d) j = restampOutcome l d (x i j)

variable {l d}

theorem blind_pure (a : β) : Blind l d (pure a : IfRun η α β) (pure a) :=
  fun _ _ => rfl

theorem Blind.bind {x₁ x₂ : IfRun η α β} {f₁ f₂ : β → IfRun η α γ} (first : Blind l d x₁ x₂)
    (rest : ∀ a, Blind l d (f₁ a) (f₂ a)) : Blind l d (x₁ >>= f₁) (x₂ >>= f₂) := by
  intro i j
  rw [bind_apply, bind_apply, first i j]
  cases x₁ i j with
  | ok p j' => exact rest p.1 p.2 j'
  | error f j' => rfl

theorem blind_get {f₁ f₂ : Interface η α → IfRun η α β}
    (rest : ∀ i, Blind l d (f₁ i) (f₂ (i.restamp l d))) : Blind l d (get >>= f₁) (get >>= f₂) :=
  fun i j => rest i i j

theorem blind_set (i : Interface η α) :
    Blind l d (set i : IfRun η α PUnit) (set (i.restamp l d)) :=
  fun _ _ => rfl

theorem blind_modify {f₁ f₂ : Interface η α → Interface η α}
    (same : ∀ i, f₂ (i.restamp l d) = (f₁ i).restamp l d) :
    Blind l d (modify f₁ : IfRun η α PUnit) (modify f₂) := by
  intro i j
  simp only [modify_apply, same]
  rfl

theorem blind_lift (act : Run β) : Blind l d (liftM act : IfRun η α β) (liftM act) := by
  intro i j
  simp only [liftM_apply]
  cases act j <;> rfl

theorem blind_onPool (act : PoolRun β) : Blind l d (onPool act : IfRun η α β) (onPool act) := by
  intro i j
  simp only [onPool, focus_apply, pool_restamp]
  cases act i.pool j <;> rfl

theorem blind_onBoard (act : StateT η Run β) : Blind l d (onBoard act : IfRun η α β) (onBoard act) := by
  intro i j
  simp only [onBoard, focus_apply, board_restamp]
  cases act i.board j <;> rfl

theorem blind_onBoardAndPool (act : StateT η PoolRun β) :
    Blind l d (onBoardAndPool act : IfRun η α β) (onBoardAndPool act) := by
  intro i j
  simp only [onBoardAndPool, run_bind_apply, board_restamp, pool_restamp]
  cases act i.board i.pool j <;> rfl

theorem blind_ite {c : Prop} [Decidable c] {x₁ x₂ y₁ y₂ : IfRun η α β} (yes : Blind l d x₁ x₂)
    (no : Blind l d y₁ y₂) : Blind l d (if c then x₁ else y₁) (if c then x₂ else y₂) := by
  split
  · exact yes
  · exact no

theorem blind_modifyCounters (f : InterfaceStats → InterfaceStats) :
    Blind l d (modifyCounters f : IfRun η α Unit) (modifyCounters f) :=
  blind_modify fun _ => rfl

end Blind

/-! ### The operations that never look at the stamps -/

section Operations

variable [MacEngine η] {l d : Option Nat}

/-- The steps of the traffic run alike on an interface with its stamps replaced, and every read
of the interface they make is stamp-free. -/
theorem blindSteps : DatapathSteps (fun {β : Type} (act : IfRun η α β) => Blind l d act act) where
  pure := blind_pure
  bind := Blind.bind
  read rest stampFree := blind_get fun i => by
    rw [stampFree]
    exact rest i
  emit _ _ := blind_lift _
  onPool := blind_onPool
  provide _ := blind_onBoard _
  setRx _ := blind_modify fun _ => rfl
  poll := blind_onBoard _
  revoke := blind_onBoard _
  counted := blind_modifyCounters
  reclaim := blind_onBoard _
  submit _ _ _ := blind_onBoard _

variable [AddressProtocol α]

theorem blind_deinit : Blind l d (deinit : IfRun η α (Except NetError Unit)) deinit := by
  unfold deinit
  refine blind_get fun i => blind_ite (blind_pure _) ?_
  dsimp only
  refine (blind_onBoard _).bind fun stopped => ?_
  -- a failure to stop is only logged; both branches go on with the same shutdown
  split
  all_goals first | refine (blind_lift _).bind fun _ => ?_ | skip
  all_goals
    refine (blind_onBoard _).bind fun shut => ?_
    split
    · exact blind_pure _
    refine blind_get fun _ => (blindSteps.abandonCompletedFor _).bind fun _ => blind_get fun _ =>
      (blindSteps.abandonArmedFor _).bind fun _ => blindSteps.reclaimTx.bind fun _ => blind_get fun _ =>
      (blind_set _).bind fun _ => (blind_onPool _).bind fun _ => blind_get fun _ => ?_
    refine blind_ite ((blind_lift _).bind fun _ => (blind_set _).bind fun _ => ?_) ?_
    all_goals exact (blind_modify fun _ => rfl).bind fun _ => (blind_lift _).bind fun _ => blind_pure _

variable [PhyControl η]

theorem blind_pollLink : Blind l d (pollLink : IfRun η α (Option LinkEvent)) pollLink := by
  unfold pollLink
  refine blind_get fun i => (blind_onBoard _).bind fun polled => ?_
  obtain ⟨r, m⟩ := polled
  refine (blind_modify fun _ => rfl).bind fun _ => ?_
  split
  · exact (blind_lift _).bind fun _ => blind_pure _
  · exact blind_pure _
  · refine blind_get fun i' => ?_
    dsimp only
    refine blind_ite ((blind_lift _).bind fun changed => ?_) (blind_pure _)
    obtain ⟨a, p⟩ := changed
    exact (blind_set _).bind fun _ => blind_pure _

end Operations

/-! ### Moving every time by a constant -/

/-- A time moved `c` milliseconds on along the 32-bit counter. -/
def shiftTime (c t : Nat) : Nat := (t + c) % Nat.pow 2 32

/-- The interface with both poll stamps moved `c` on. -/
def shifted (c : Nat) (i : Interface η α) : Interface η α :=
  i.restamp (i.lastLinkPoll.map (shiftTime c)) (i.lastDhcpPoll.map (shiftTime c))

/-- An outcome with its interface's poll stamps moved `c` on. -/
def shiftOutcome (c : Nat) :
    EStateM.Result Fault Journal (β × Interface η α) → EStateM.Result Fault Journal (β × Interface η α)
  | .ok (a, i) j => .ok (a, i.shifted c) j
  | .error f j => .error f j

/-- An operation blind to the stamps, whatever they are replaced by. -/
def StampFree (act : IfRun η α β) : Prop := ∀ l d, Blind l d act act

theorem StampFree.run_eq {act : IfRun η α β} (free : StampFree act) (i : Interface η α) (j : Journal) :
    act i j = restampOutcome i.lastLinkPoll i.lastDhcpPoll (act i j) := by
  have kept := free i.lastLinkPoll i.lastDhcpPoll i j
  rwa [restamp_self] at kept

theorem StampFree.keeps {act : IfRun η α β} (free : StampFree act) (i : Interface η α) :
    Ensures act i (fun _ i' => i'.lastLinkPoll = i.lastLinkPoll ∧ i'.lastDhcpPoll = i.lastDhcpPoll)
      (fun _ => True) := by
  intro j
  rw [free.run_eq i j]
  cases act i j with
  | ok p j' =>
    obtain ⟨a, i'⟩ := p
    exact ⟨rfl, rfl⟩
  | error f j' => trivial

/-- The stamps are times on the 32-bit counter. -/
def Stamped (i : Interface η α) : Prop :=
  (∀ t ∈ i.lastLinkPoll, t < Nat.pow 2 32) ∧ ∀ t ∈ i.lastDhcpPoll, t < Nat.pow 2 32

/-- An outcome whose interface, if any, has its stamps on the counter. -/
def StampedOutcome : EStateM.Result Fault Journal (β × Interface η α) → Prop
  | .ok (_, i) _ => Stamped i
  | .error _ _ => True

/-- Whether an interval has passed depends on two times only through their difference on the
counter, so moving both by the same constant changes nothing. -/
theorem due_shiftTime {t : Nat} (stamp : t < Nat.pow 2 32) (now c interval : Nat) :
    due (some (shiftTime c t)) (shiftTime c now) interval = due (some t) now interval := by
  have counter : Nat.pow 2 32 = 4294967296 := rfl
  simp only [due, shiftTime, counter] at stamp ⊢
  congr 2
  omega

theorem due_map_shiftTime {last : Option Nat} (stamped : ∀ t ∈ last, t < Nat.pow 2 32)
    (now c interval : Nat) :
    due (last.map (shiftTime c)) (shiftTime c now) interval = due last now interval := by
  cases last with
  | none => rfl
  | some t => exact due_shiftTime (stamped t rfl) now c interval

section Moves

variable (c : Nat)

/-- Two operations that run alike when the second runs on the interface with its stamps moved
`c` on, from any interface whose stamps are on the counter: the same answer, the same log, the
stamps still moved, and on the counter again. -/
def Moves (x y : IfRun η α β) : Prop :=
  ∀ i, Stamped i → ∀ j, y (i.shifted c) j = shiftOutcome c (x i j) ∧ StampedOutcome (x i j)

variable {c}

theorem moves_pure (a : β) : Moves c (pure a : IfRun η α β) (pure a) :=
  fun _ stamped _ => ⟨rfl, stamped⟩

theorem Moves.bind {x₁ x₂ : IfRun η α β} {f₁ f₂ : β → IfRun η α γ} (first : Moves c x₁ x₂)
    (rest : ∀ a, Moves c (f₁ a) (f₂ a)) : Moves c (x₁ >>= f₁) (x₂ >>= f₂) := by
  intro i stamped j
  obtain ⟨same, landed⟩ := first i stamped j
  rw [bind_apply, bind_apply, same]
  generalize x₁ i j = r at landed ⊢
  cases r with
  | ok p j' => exact rest p.1 p.2 landed j'
  | error f j' => exact ⟨rfl, trivial⟩

theorem moves_get {f₁ f₂ : Interface η α → IfRun η α β}
    (rest : ∀ i, Stamped i → Moves c (f₁ i) (f₂ (i.shifted c))) : Moves c (get >>= f₁) (get >>= f₂) :=
  fun i stamped j => rest i stamped i stamped j

theorem moves_modify {f₁ f₂ : Interface η α → Interface η α}
    (same : ∀ i, Stamped i → f₂ (i.shifted c) = (f₁ i).shifted c ∧ Stamped (f₁ i)) :
    Moves c (modify f₁ : IfRun η α PUnit) (modify f₂) := by
  intro i stamped j
  obtain ⟨moved, landed⟩ := same i stamped
  simp only [modify_apply, moved]
  exact ⟨rfl, landed⟩

theorem moves_set {i₁ : Interface η α} (landed : Stamped i₁) :
    Moves c (set i₁ : IfRun η α PUnit) (set (i₁.shifted c)) :=
  fun _ _ _ => ⟨rfl, landed⟩

theorem moves_lift (act : Run β) : Moves c (liftM act : IfRun η α β) (liftM act) := by
  intro i stamped j
  simp only [liftM_apply]
  cases act j with
  | ok a j' => exact ⟨rfl, stamped⟩
  | error f j' => exact ⟨rfl, trivial⟩

theorem moves_ite {b : Prop} [Decidable b] {x₁ x₂ y₁ y₂ : IfRun η α β} (yes : Moves c x₁ x₂)
    (no : Moves c y₁ y₂) : Moves c (if b then x₁ else y₁) (if b then x₂ else y₂) := by
  split
  · exact yes
  · exact no

theorem StampFree.moves {act : IfRun η α β} (free : StampFree act) : Moves c act act := by
  intro i stamped j
  have moved := free (i.lastLinkPoll.map (shiftTime c)) (i.lastDhcpPoll.map (shiftTime c)) i j
  rw [free.run_eq i j] at moved ⊢
  refine ⟨moved.trans ?_, ?_⟩
  all_goals cases act i j with
    | ok p j' => obtain ⟨a, i'⟩ := p; first | rfl | exact stamped
    | error f j' => first | rfl | trivial

end Moves

@[simp] theorem lastLinkPoll_shifted {c : Nat} {i : Interface η α} :
    (i.shifted c).lastLinkPoll = i.lastLinkPoll.map (shiftTime c) := rfl

@[simp] theorem lastDhcpPoll_shifted {c : Nat} {i : Interface η α} :
    (i.shifted c).lastDhcpPoll = i.lastDhcpPoll.map (shiftTime c) := rfl

theorem stamped_some {now : Nat} (time : now < Nat.pow 2 32) : ∀ t ∈ some now, t < Nat.pow 2 32 := by
  intro t member
  cases Option.mem_def.mp member
  exact time

/-! ### What the housekeeping decides by -/

/-- What the housekeeping decides by: the settings, whether the interface runs, and the
stamps. -/
def pacing (i : Interface η α) : Settings × Bool × Option Nat × Option Nat :=
  (i.settings, i.initialized, i.lastLinkPoll, i.lastDhcpPoll)

section Paced

theorem pacing_eq_iff {i i' : Interface η α} :
    i'.pacing = i.pacing ↔ i'.settings = i.settings ∧ i'.initialized = i.initialized ∧
      i'.lastLinkPoll = i.lastLinkPoll ∧ i'.lastDhcpPoll = i.lastDhcpPoll := by
  simp only [pacing, Prod.mk.injEq]

/-- What follows an operation that keeps the pacing runs from an interface with the same
settings, the same running flag and the same stamps. -/
theorem Within.bind_paced {x : IfRun η α β} {f : β → IfRun η α γ} {i : Interface η α}
    {post : γ → Interface η α → Prop} (first : Within (Kept pacing) x)
    (rest : ∀ a i', i'.settings = i.settings → i'.initialized = i.initialized →
      i'.lastLinkPoll = i.lastLinkPoll → i'.lastDhcpPoll = i.lastDhcpPoll →
        Ensures (f a) i' post (fun _ => True)) :
    Ensures (x >>= f) i post (fun _ => True) := by
  refine ensures_bind_via _ (first i) fun a i' same => ?_
  obtain ⟨settings, running, link, dhcp⟩ := pacing_eq_iff.mp same
  exact rest a i' settings running link dhcp

theorem keepsPacing_onBoardAndPool (act : StateT η PoolRun β) :
    Within (Kept pacing) (onBoardAndPool act : IfRun η α β) := by
  intro i j
  simp only [onBoardAndPool, run_bind_apply]
  cases act i.board i.pool j <;> trivial

variable [MacEngine η]

/-- Every step of the traffic leaves what the housekeeping decides by alone. -/
theorem pacingSteps :
    DatapathSteps (Within (Kept pacing : Interface η α → Interface η α → Prop)) where
  toClosed := Footprint.closed
  onPool := within_onPool fun _ _ => rfl
  provide _ := within_onBoard (fun _ _ => rfl) _
  setRx _ := within_modify fun _ => rfl
  poll := within_onBoard (fun _ _ => rfl) _
  revoke := within_onBoard (fun _ _ => rfl) _
  counted _ := within_modify fun _ => rfl
  reclaim := within_onBoard (fun _ _ => rfl) _
  submit _ _ _ := within_onBoard (fun _ _ => rfl) _

variable [PhyControl η] [AddressProtocol α]

theorem keepsPacing_pollLink : Within (Kept pacing) (pollLink : IfRun η α (Option LinkEvent)) := by
  intro i
  unfold pollLink
  refine ensures_bind (ensures_get (ensures_bind_via _ (within_onBoard (R := Kept pacing) (fun _ _ => rfl) _ i)
    fun polled i₁ same => ?_))
  obtain ⟨r, m⟩ := polled
  refine ensures_bind (ensures_modify ?_)
  split
  · exact ensures_bind (ensures_emit (ensures_pure same))
  · exact ensures_pure same
  · refine ensures_bind (ensures_get ?_)
    dsimp only
    split
    · refine ensures_bind (ensures_lift_ok fun _ changed _ _ => ?_)
      exact ensures_bind (ensures_set (ensures_pure same))
    · exact ensures_pure same

end Paced

section Decisions

variable [MacEngine η] [PhyControl η] [AddressProtocol α]

theorem bind_apply_congr {σ : Type} {x : StateT σ Run β} {f g : β → StateT σ Run γ} {s : σ}
    {P : σ → Prop} (ends : Ensures x s (fun _ s' => P s') (fun _ => True))
    (same : ∀ a s', P s' → ∀ j, f a s' j = g a s' j) (j : Journal) : (x >>= f) s j = (x >>= g) s j := by
  have ended := ends j
  rw [bind_apply, bind_apply]
  revert ended
  cases x s j with
  | ok p j' => exact fun landed => same p.1 p.2 landed j'
  | error e j' => exact fun _ => rfl

/-- A start-up that succeeds leaves the interface running with neither stamp, so the first
housekeeping after it polls the link and, if acquisition is on, ticks it. -/
theorem ensures_init_clears (i : Interface η α) :
    Ensures (init : IfRun η α (Except NetError Unit)) i
      (fun r i' => r = .ok () → i'.initialized = true ∧ i'.lastLinkPoll = none ∧ i'.lastDhcpPoll = none)
      (fun _ => True) := by
  unfold init
  refine ensures_bind (ensures_get ?_)
  split
  · exact ensures_pure nofun
  refine ensures_bind_via _ (keepsPacing_onBoardAndPool _ i) fun started _ _ => ?_
  split
  · exact ensures_pure nofun
  -- the stamps are cleared here, and nothing else start-up runs writes them
  refine ensures_bind (ensures_modify (pacingSteps.refill.bind_paced fun _ i₁ _ running₁ link₁ dhcp₁ => ?_))
  refine ensures_bind (ensures_get (ensures_bind (ensures_emit ?_)))
  dsimp only
  split
  all_goals first
    | refine ensures_bind (ensures_set (ensures_bind (ensures_emit ?_)))
    | skip
  all_goals exact keepsPacing_pollLink.bind_paced fun _ _ _ running₂ link₂ dhcp₂ =>
    ensures_pure fun _ => ⟨running₂.trans running₁, link₂.trans link₁, dhcp₂.trans dhcp₁⟩

/-- The housekeeping at `now` with its two decisions taken: reclaim finished transmissions, then
poll the link if `link`, then tick address acquisition if `address`, stamping each with `now`. -/
def tickWith (link address : Bool) (now : Nat) : IfRun η α TickEvents := do
  let _ ← reclaimTx
  let polled ← if link then do
      modify fun i => { i with lastLinkPoll := some now }
      pollLink
    else pure none
  let i ← get
  let ticked ← if address then do
      let (e, a, p) ← (i.acquisition.tick i.proto : Run _)
      set { i with lastDhcpPoll := some now, acquisition := a, proto := p }
      pure e
    else pure none
  return { link := polled, address := ticked }

/-- A running interface's housekeeping polls the link exactly when the link interval has
passed since its stamp, and ticks address acquisition exactly when acquisition is on and its
interval has passed since its stamp. -/
theorem serviceTick_eq_tickWith {i : Interface η α} {now : Nat} (running : i.initialized = true)
    (j : Journal) :
    serviceTick now i j = tickWith (due i.lastLinkPoll now i.settings.linkPollIntervalMs)
      (i.settings.dhcpEnabled && due i.lastDhcpPoll now i.settings.dhcpPollIntervalMs) now i j := by
  unfold serviceTick tickWith
  simp only [bind_apply, get_apply, running, Bool.not_true, Bool.false_eq_true, if_false]
  have reclaimed := pacingSteps.reclaimTx i j
  cases ran : reclaimTx i j with
  | error f j' => rfl
  | ok p j₁ =>
    obtain ⟨n, i₁⟩ := p
    rw [ran] at reclaimed
    obtain ⟨settings₁, -, link₁, dhcp₁⟩ := pacing_eq_iff.mp reclaimed
    simp only [settings₁, link₁]
    -- whichever way the link goes, the acquisition decision is read from an interface with the
    -- settings and acquisition stamp it started with
    have decided : ∀ i₂ : Interface η α, i₂.settings = i.settings → i₂.lastDhcpPoll = i.lastDhcpPoll →
        (i₂.settings.dhcpEnabled && due i₂.lastDhcpPoll now i₂.settings.dhcpPollIntervalMs) =
          (i.settings.dhcpEnabled && due i.lastDhcpPoll now i.settings.dhcpPollIntervalMs) := by
      intro i₂ settings₂ dhcp₂
      rw [settings₂, dhcp₂]
    split
    · have stamped : Ensures (modify fun i => { i with lastLinkPoll := some now } : IfRun η α PUnit) i₁
          (fun _ i₂ => i₂.settings = i.settings ∧ i₂.lastDhcpPoll = i.lastDhcpPoll) (fun _ => True) :=
        ensures_modify ⟨settings₁, dhcp₁⟩
      refine bind_apply_congr stamped (fun _ i₂ kept₂ j₂ => ?_) j₁
      have polled : Ensures (pollLink : IfRun η α (Option LinkEvent)) i₂
          (fun _ i₃ => i₃.settings = i.settings ∧ i₃.lastDhcpPoll = i.lastDhcpPoll) (fun _ => True) :=
        (keepsPacing_pollLink i₂).mono (fun _ i₃ same =>
          ⟨(pacing_eq_iff.mp same).1.trans kept₂.1, (pacing_eq_iff.mp same).2.2.2.trans kept₂.2⟩)
          (fun _ => id)
      refine bind_apply_congr polled (fun _ i₃ kept₃ j₃ => ?_) j₂
      simp only [bind_apply, get_apply]
      rw [decided i₃ kept₃.1 kept₃.2]
    · simp only [bind_apply, pure_apply, get_apply]
      rw [decided i₁ settings₁ dhcp₁]

/-- The housekeeping with its decisions taken keeps the settings and whether the interface
runs, and stamps exactly what it decided to do. -/
theorem ensures_tickWith (link address : Bool) (now : Nat) (i : Interface η α) :
    Ensures (tickWith link address now) i (fun _ i' => i'.settings = i.settings ∧
      i'.initialized = i.initialized ∧ i'.lastLinkPoll = (if link then some now else i.lastLinkPoll) ∧
      i'.lastDhcpPoll = (if address then some now else i.lastDhcpPoll)) (fun _ => True) := by
  unfold tickWith
  refine pacingSteps.reclaimTx.bind_paced fun _ i₁ settings₁ running₁ link₁ dhcp₁ => ?_
  dsimp only
  split
  · -- the link is polled: only its stamp moves, to `now`
    refine ensures_bind (ensures_modify (keepsPacing_pollLink.bind_paced
      fun _ i₂ settings₂ running₂ link₂ dhcp₂ => ?_))
    refine ensures_bind (ensures_get ?_)
    split
    · exact ensures_bind (ensures_lift_ok fun _ _ _ _ => ensures_bind (ensures_set (ensures_bind
        (ensures_pure (ensures_pure ⟨settings₂.trans settings₁, running₂.trans running₁, link₂, rfl⟩)))))
    · exact ensures_bind (ensures_pure (ensures_pure
        ⟨settings₂.trans settings₁, running₂.trans running₁, link₂, dhcp₂.trans dhcp₁⟩))
  · refine ensures_bind (ensures_pure (ensures_bind (ensures_get ?_)))
    split
    · exact ensures_bind (ensures_lift_ok fun _ _ _ _ => ensures_bind (ensures_set (ensures_bind
        (ensures_pure (ensures_pure ⟨settings₁, running₁, link₁, rfl⟩)))))
    · exact ensures_bind (ensures_pure (ensures_pure ⟨settings₁, running₁, link₁, dhcp₁⟩))

/-- The pacing rule at a tick at `now`: the first tick since start-up polls (there is no stamp
yet), and a later one polls when `interval` milliseconds have passed since `t`, the time of the
last tick that polled, their difference taken on the 32-bit counter, modulo 2^32. -/
def paced (interval : Nat) (last : Option Nat) (now : Nat) : Bool :=
  match last with
  | none => true
  | some t => decide ((interval : Int) ≤ ((now : Int) - t) % (Nat.pow 2 32 : Nat))

theorem due_eq_paced {last : Option Nat} (stamped : ∀ t ∈ last, t < Nat.pow 2 32) (now interval : Nat) :
    due last now interval = paced interval last now := by
  cases last with
  | none => rfl
  | some t =>
    have stamp := stamped t rfl
    have counter : Nat.pow 2 32 = 4294967296 := rfl
    simp only [due, paced, counter] at stamp ⊢
    exact decide_eq_decide.mpr (by omega)

/-- Service ticks at the times `nows` as the pacing rule alone decides them, from the times
`link` and `dhcp` of the last link poll and the last acquisition tick, if any. -/
def pacedTicks (settings : Settings) :
    Option Nat → Option Nat → List Nat → IfRun η α (List TickEvents)
  | _, _, [] => pure []
  | link, dhcp, now :: rest => do
    let polls := paced settings.linkPollIntervalMs link now
    let ticks := settings.dhcpEnabled && paced settings.dhcpPollIntervalMs dhcp now
    let events ← tickWith polls ticks now
    let later ← pacedTicks settings (if polls then some now else link) (if ticks then some now else dhcp) rest
    return events :: later

/-- Ticks at times on the counter keep a running interface's stamps on the counter and let the
pacing rule decide every poll, with the stamps playing the times of the last polls. -/
theorem serviceTicks_paced {i : Interface η α} (running : i.initialized = true) (stamped : i.Stamped)
    {nows : List Nat} (times : ∀ now ∈ nows, now < Nat.pow 2 32) (j : Journal) :
    nows.mapM serviceTick i j = pacedTicks i.settings i.lastLinkPoll i.lastDhcpPoll nows i j := by
  induction nows generalizing i j with
  | nil => rfl
  | cons now rest ih =>
    have time := times now List.mem_cons_self
    rw [List.mapM_cons, pacedTicks, bind_apply, bind_apply, serviceTick_eq_tickWith running,
      due_eq_paced stamped.1, due_eq_paced stamped.2]
    have ticked := ensures_tickWith (η := η) (paced i.settings.linkPollIntervalMs i.lastLinkPoll now)
      (i.settings.dhcpEnabled && paced i.settings.dhcpPollIntervalMs i.lastDhcpPoll now) now i j
    cases ran : tickWith _ _ now i j with
    | error f j' => rfl
    | ok p j₁ =>
      obtain ⟨events, i₁⟩ := p
      rw [ran] at ticked
      obtain ⟨settings₁, running₁, link₁, dhcp₁⟩ := ticked
      have stamped₁ : i₁.Stamped := by
        refine ⟨?_, ?_⟩
        · rw [link₁]
          split
          · exact stamped_some time
          · exact stamped.1
        · rw [dhcp₁]
          split
          · exact stamped_some time
          · exact stamped.2
      dsimp only
      rw [bind_apply, bind_apply, ih (running₁.trans running) stamped₁
        (fun t member => times t (List.mem_cons_of_mem now member)), settings₁, link₁, dhcp₁]

end Decisions

section Housekeeping

variable [MacEngine η] [PhyControl η] [AddressProtocol α] {c now : Nat}

/-- The housekeeping at a time moved `c` on, over the interface with its stamps moved `c` on,
runs as at the time itself. -/
theorem moves_serviceTick (time : now < Nat.pow 2 32) :
    Moves c (serviceTick now : IfRun η α TickEvents) (serviceTick (shiftTime c now)) := by
  unfold serviceTick
  refine moves_get fun i _ => moves_ite (moves_pure _) ?_
  refine (StampFree.moves fun _ _ => blindSteps.reclaimTx).bind fun _ => moves_get fun i₁ stamped₁ => ?_
  dsimp only
  rw [lastLinkPoll_shifted, due_map_shiftTime stamped₁.1]
  refine moves_ite ?_ ?_
  all_goals first
    | refine Moves.bind (moves_modify fun _ stamped => ⟨rfl, stamped_some time, stamped.2⟩) fun _ =>
        (StampFree.moves fun _ _ => blind_pollLink).bind fun link => ?_
    | refine (moves_pure _).bind fun link => ?_
  all_goals
    refine moves_get fun i₂ stamped₂ => ?_
    rw [lastDhcpPoll_shifted, due_map_shiftTime stamped₂.2]
    exact moves_ite ((moves_lift _).bind fun _ => Moves.bind (moves_set ⟨stamped₂.1, stamped_some time⟩)
      fun _ => (moves_pure _).bind fun _ => moves_pure _) ((moves_pure _).bind fun _ => moves_pure _)

theorem moves_init : Moves c (init : IfRun η α (Except NetError Unit)) init := by
  unfold init
  refine moves_get fun i _ => moves_ite (moves_pure _) ?_
  refine (StampFree.moves fun _ _ => blind_onBoardAndPool _).bind fun started => ?_
  split
  · exact moves_pure _
  refine Moves.bind (moves_modify fun _ _ => ⟨rfl, nofun, nofun⟩) fun _ =>
    (StampFree.moves fun _ _ => blindSteps.refill).bind fun _ => moves_get fun i₁ stamped₁ => ?_
  dsimp only
  refine (moves_lift _).bind fun _ => moves_ite ?_ ?_
  all_goals first
    | refine Moves.bind (moves_set stamped₁) fun _ => (moves_lift _).bind fun _ => ?_
    | skip
  all_goals exact (StampFree.moves fun _ _ => blind_pollLink).bind fun _ => moves_pure _

end Housekeeping

/-! ### Replaying a run with every time moved -/

/-- What happens to an interface: one of its operations, or its surroundings changing the board
(a cable plugged in, a fault injected) or the address protocol (an offer arriving). -/
inductive Step (η α : Type) where
  | init
  | deinit
  | serviceTick (now : Nat)
  | receive
  | pollInput
  | output (frame : Chain)
  | transmitShared (data : Shared)
  | reclaimTx
  | board (change : η → η)
  | proto (change : α → α)

/-- What a step answers. -/
inductive Answer where
  | done (result : Except NetError Unit)
  | events (events : TickEvents)
  | frame (frame : Option Chain)
  | frames (frames : List Chain)
  | count (count : Nat)
  | changed
  deriving DecidableEq, Repr

namespace Step

variable [MacEngine η] [PhyControl η] [AddressProtocol α]

def run : Step η α → IfRun η α Answer
  | .init => do return .done (← Interface.init)
  | .deinit => do return .done (← Interface.deinit)
  | .serviceTick now => do return .events (← Interface.serviceTick now)
  | .receive => do return .frame (← Interface.receive)
  | .pollInput => do return .frames (← Interface.pollInput)
  | .output frame => do return .done (← Interface.output frame)
  | .transmitShared data => do
    Interface.transmitShared data
    return .changed
  | .reclaimTx => do return .count (← Interface.reclaimTx)
  | .board change => do
    modify fun i => { i with board := change i.board }
    return .changed
  | .proto change => do
    modify fun i => { i with proto := change i.proto }
    return .changed

/-- Whether the step reads or writes the stamps: start-up and the housekeeping. -/
def paces : Step η α → Bool
  | .init | .serviceTick _ => true
  | _ => false

theorem stampFree_run (step : Step η α) (quiet : step.paces = false) : StampFree step.run := by
  intro l d
  cases step with
  | init | serviceTick => nomatch quiet
  | deinit => exact blind_deinit.bind fun _ => blind_pure _
  | receive => exact blindSteps.receive.bind fun _ => blind_pure _
  | pollInput => exact blindSteps.pollInput.bind fun _ => blind_pure _
  | output frame => exact (blindSteps.output frame).bind fun _ => blind_pure _
  | transmitShared data => exact (blindSteps.transmitShared data).bind fun _ => blind_pure _
  | reclaimTx => exact blindSteps.reclaimTx.bind fun _ => blind_pure _
  | board change => exact (blind_modify fun _ => rfl).bind fun _ => blind_pure _
  | proto change => exact (blind_modify fun _ => rfl).bind fun _ => blind_pure _

/-- The step with its time, if it has one, moved `c` on along the counter. -/
def shift (c : Nat) : Step η α → Step η α
  | .serviceTick now => .serviceTick (shiftTime c now)
  | step => step

theorem moves_run {c : Nat} (step : Step η α) (time : ∀ now, step = .serviceTick now → now < Nat.pow 2 32) :
    Moves c step.run (step.shift c).run := by
  cases step with
  | init => exact moves_init.bind fun _ => moves_pure _
  | serviceTick now => exact (moves_serviceTick (time now rfl)).bind fun _ => moves_pure _
  | _ => exact (stampFree_run _ rfl).moves

end Step

variable [MacEngine η] [PhyControl η] [AddressProtocol α]

/-- Takes the steps in turn; answers what each answered. -/
def runAll (steps : List (Step η α)) : IfRun η α (List Answer) := steps.mapM Step.run

/-- Steps at times on the counter run alike with the stamps and every time moved; induction on
the steps, one `Step.moves_run` each. -/
theorem moves_runAll {c : Nat} (steps : List (Step η α))
    (times : ∀ now, Step.serviceTick now ∈ steps → now < Nat.pow 2 32) :
    Moves c (runAll steps) (runAll (steps.map (Step.shift c))) := by
  induction steps with
  | nil => exact moves_pure _
  | cons step rest ih =>
    simp only [runAll, List.map_cons, List.mapM_cons] at ih ⊢
    exact (step.moves_run fun now same => times now (same ▸ List.mem_cons_self)).bind fun _ =>
      (ih fun now member => times now (List.mem_cons_of_mem step member)).bind fun _ => moves_pure _

/-- The housekeeping's pacing survives the wrap of its 32-bit millisecond counter.

* After a start-up that succeeds, ticks at any times on the counter, in any order, poll the
  link and tick address acquisition exactly as `pacedTicks` decides from no stamps: the first
  tick polls the link, and ticks acquisition if it is on.
* From any running interface, ticks poll as `pacedTicks` decides from its stamps, the times of
  the last polls.
* Every step but start-up and the housekeeping leaves the stamps as they were.
* Replaying any steps with every time moved `c` on along the counter answers the same, logs the
  same and ends in the same interface, only its stamps moved `c` on. -/
theorem housekeeping_pacing_is_wrap_safe :
    (∀ (i i' : Interface η α) (j j' : Journal), init i j = .ok (.ok (), i') j' →
      ∀ nows : List Nat, (∀ now ∈ nows, now < Nat.pow 2 32) → ∀ j'' : Journal,
        nows.mapM serviceTick i' j'' = pacedTicks i'.settings none none nows i' j'') ∧
    (∀ (i : Interface η α) (nows : List Nat) (j : Journal), i.initialized = true → i.Stamped →
      (∀ now ∈ nows, now < Nat.pow 2 32) →
        nows.mapM serviceTick i j = pacedTicks i.settings i.lastLinkPoll i.lastDhcpPoll nows i j) ∧
    (∀ (step : Step η α) (i : Interface η α), step.paces = false →
      Ensures step.run i (fun _ i' => i'.lastLinkPoll = i.lastLinkPoll ∧
        i'.lastDhcpPoll = i.lastDhcpPoll) (fun _ => True)) ∧
    (∀ (c : Nat) (steps : List (Step η α)) (i : Interface η α) (j : Journal), i.Stamped →
      (∀ now, Step.serviceTick now ∈ steps → now < Nat.pow 2 32) →
        runAll (steps.map (Step.shift c)) (i.shifted c) j = shiftOutcome c (runAll steps i j)) := by
  refine ⟨?_, ?_, ?_, ?_⟩
  · intro i i' j j' started nows times j''
    obtain ⟨running, link, dhcp⟩ := (ensures_init_clears i).of_ok started rfl
    have stamped : i'.Stamped := by
      rw [Stamped, link, dhcp]
      exact ⟨nofun, nofun⟩
    rw [serviceTicks_paced running stamped times, link, dhcp]
  · intro i nows j running stamped times
    exact serviceTicks_paced running stamped times j
  · intro step i quiet
    exact (step.stampFree_run quiet).keeps i
  · intro c steps i j stamped times
    exact (moves_runAll steps times i stamped j).1

def idleOnBench : Interface Bench.ScriptedBoard Bench.ScriptedProtocol where
  settings := {}
  board := ⟨{}, {}⟩
  proto := {}
  pool := { headers := #[], freeList := [], memory := #[] }
  acquisition := .create 4 Ipv4Config.fallback

/-- Started, the bench interface polls its link at the first tick, 2^32 - 21; not twenty
milliseconds on, at the top of the counter; and again a hundred milliseconds on, at 79 past the
wrap. A link last polled at 2^32 - 21 by an interface already running is paced the same way, a
receive leaves the stamps alone, and the whole session replayed 21 milliseconds later runs alike. -/
theorem near_wrap_ticks_paced :
    (paced 100 none 4294967275 = true ∧ paced 100 (some 4294967275) 4294967295 = false ∧
      paced 100 (some 4294967275) 79 = true) ∧
    (∃ i j, init idleOnBench #[] = .ok (.ok (), i) j ∧
      [4294967275, 4294967295, 79].mapM serviceTick i j =
        pacedTicks i.settings none none [4294967275, 4294967295, 79] i j ∧
      [4294967295, 79].mapM serviceTick (i.restamp (some 4294967275) none) j =
        pacedTicks i.settings (some 4294967275) none [4294967295, 79] (i.restamp (some 4294967275) none) j) ∧
    Ensures (Step.receive.run : IfRun _ _ Answer) idleOnBench
      (fun _ i' => i'.lastLinkPoll = none ∧ i'.lastDhcpPoll = none) (fun _ => True) ∧
    runAll ([.init, .serviceTick 4294967275, .serviceTick 4294967295, .serviceTick 79].map (Step.shift 21))
        (idleOnBench.shifted 21) #[] =
      shiftOutcome 21 (runAll [.init, .serviceTick 4294967275, .serviceTick 4294967295, .serviceTick 79]
        idleOnBench #[]) := by
  have wraps := housekeeping_pacing_is_wrap_safe (η := Bench.ScriptedBoard) (α := Bench.ScriptedProtocol)
  refine ⟨⟨by decide, by decide, by decide⟩, ⟨_, _, rfl, ?_, ?_⟩, wraps.2.2.1 .receive _ rfl, ?_⟩
  · exact wraps.1 idleOnBench _ #[] _ rfl _ (by decide) _
  · exact wraps.2.1 _ _ _ rfl ⟨stamped_some (by decide), nofun⟩ (by decide)
  · refine wraps.2.2.2 21 _ _ _ ⟨nofun, nofun⟩ fun now member => ?_
    simp only [List.mem_cons, reduceCtorEq, Step.serviceTick.injEq, List.not_mem_nil, or_false,
      false_or] at member
    rcases member with rfl | rfl | rfl <;> decide

end Interface

end Ethernet
