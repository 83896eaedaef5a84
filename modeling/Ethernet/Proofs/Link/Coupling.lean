import Ethernet.Proofs.Link.Record
import Ethernet.Proofs.Pool.Books

/-! The link monitor and address acquisition stay coupled in every session of an interface with
acquisition on: `Coupled` survives stopping the engine, and `Linked` adds what the engine shows. -/
namespace Ethernet

open Bench

namespace AcquisitionState

/-- The phases in which address acquisition follows a link that is up: looking for an
address, holding one, or falling back to the static one. -/
def Engaged (s : AcquisitionState) : Prop :=
  s = .start ∨ s = .waitAddress ∨ s = .assigned ∨ s = .timeout

instance : DecidablePred Engaged := fun _ => inferInstanceAs (Decidable (_ ∨ _))

theorem not_engaged_iff {s : AcquisitionState} : ¬s.Engaged ↔ s = .off ∨ s = .linkDown := by
  cases s <;> simp [Engaged]

end AcquisitionState

namespace Acquisition

variable {α : Type} [AddressProtocol α] {a a' : Acquisition} {p p' : α}

theorem Ticked.engaged_iff {r : Option AddressEvent} (ticked : Ticked a p r a' p') :
    a'.state.Engaged ↔ a.state.Engaged := by
  cases ticked <;> simp [AcquisitionState.Engaged, *]

theorem Reacted.engaged_of_up {q : LinkParams} (reacted : Reacted a p (.up q) a' p')
    (resting : ¬a.state.Engaged) : a'.state.Engaged := by
  cases reacted with
  | up _ => simp [AcquisitionState.Engaged]
  | upBusy busy => exact absurd (AcquisitionState.not_engaged_iff.mp resting) busy

theorem Reacted.resting_of_down (reacted : Reacted a p .down a' p') (engaged : a.state.Engaged) :
    ¬a'.state.Engaged := by
  cases reacted with
  | down _ => simp [AcquisitionState.Engaged]
  | downGone gone => exact absurd gone (by rcases engaged with s | s | s | s <;> simp [s])

end Acquisition

/-- Each of the four known speed indications decodes to its own link parameters, so every
link parameters come from one of them. -/
theorem LinkParams.decoded (p : LinkParams) : ∃ indication : SpeedIndication, indication.params? = some p := by
  obtain ⟨speed, duplex⟩ := p
  cases speed <;> cases duplex
  · exact ⟨.half10, rfl⟩
  · exact ⟨.full10, rfl⟩
  · exact ⟨.half100, rfl⟩
  · exact ⟨.full100, rfl⟩

namespace Bench.ScriptedMac

/-- The engine was last programmed with `p` and then started, and is running with `p`. -/
def Raised (m : ScriptedMac) (p : LinkParams) : Prop :=
  m.linkParams = some p ∧ m.started = true ∧ ∃ earlier, m.calls = earlier ++ [.setLinkParams p, .start]

theorem raised_raised (m : ScriptedMac) (p : LinkParams) : (m.raised p).Raised p :=
  ⟨rfl, rfl, m.calls, by simp [raised, record]⟩

theorem Raised.of_controls {m m' : ScriptedMac} {p : LinkParams} (raised : m.Raised p)
    (same : m'.controls = m.controls) : m'.Raised p := by
  simp only [controls, Prod.mk.injEq] at same
  obtain ⟨calls, params, started⟩ := same
  exact ⟨params ▸ raised.1, started ▸ raised.2.1, calls ▸ raised.2.2⟩

end Bench.ScriptedMac

namespace Interface

variable {β : Type} {i i' : Interface ScriptedBoard ScriptedProtocol} {j j' : Journal}

/-! ### The invariant -/

/-- The two machines agree: acquisition is on, it follows the link exactly while the link is up,
and the address it holds is the one last put into force through the protocol. -/
structure Coupled (i : Interface ScriptedBoard ScriptedProtocol) : Prop where
  dhcp : i.settings.dhcpEnabled = true
  engaged : i.link.state.isUp = true ↔ i.acquisition.state.Engaged
  coherent : i.acquisition.Coherent i.proto.lastApplied

/-- The machines agree, the link is down while the interface is stopped, and the engine shows
the link that is up. -/
structure Linked (i : Interface ScriptedBoard ScriptedProtocol) : Prop extends Coupled i where
  stopped : i.initialized = false → i.link.state = .down
  programmed : ∀ p, i.link.state = .up p → i.board.mac.Raised p

/-- `Linked`, on an interface that runs. -/
def Running (i : Interface ScriptedBoard ScriptedProtocol) : Prop := i.Linked ∧ i.initialized = true

theorem Coupled.of_linkRecord (coupled : i.Coupled) (same : i'.linkRecord = i.linkRecord) :
    i'.Coupled := by
  obtain ⟨settings, -, link, acquisition, applied, -⟩ := linkRecord_eq_iff.mp same
  exact ⟨settings ▸ coupled.dhcp, link ▸ acquisition ▸ coupled.engaged,
    acquisition ▸ applied ▸ coupled.coherent⟩

theorem Linked.of_linkRecord (linked : i.Linked) (same : i'.linkRecord = i.linkRecord) :
    i'.Linked := by
  obtain ⟨-, initialized, link, -, -, controls⟩ := linkRecord_eq_iff.mp same
  exact ⟨linked.toCoupled.of_linkRecord same, initialized ▸ link ▸ linked.stopped,
    fun p up => (linked.programmed p (link ▸ up)).of_controls controls⟩

theorem Running.of_linkRecord (running : i.Running) (same : i'.linkRecord = i.linkRecord) :
    i'.Running :=
  ⟨running.1.of_linkRecord same, (linkRecord_eq_iff.mp same).2.1.trans running.2⟩

theorem Coupled.withMac (coupled : i.Coupled) (m : ScriptedMac) : (i.withMac m).Coupled :=
  ⟨coupled.dhcp, coupled.engaged, coupled.coherent⟩

/-- Acquisition is on, rests, and agrees with the protocol: the link may go down. -/
structure Resting (i : Interface ScriptedBoard ScriptedProtocol) : Prop where
  dhcp : i.settings.dhcpEnabled = true
  resting : ¬i.acquisition.state.Engaged
  coherent : i.acquisition.Coherent i.proto.lastApplied

theorem Resting.unheld (resting : i.Resting) : i.acquisition.address = none := by
  rw [← Option.not_isSome_iff_eq_none, resting.coherent.held]
  rcases AcquisitionState.not_engaged_iff.mp resting.resting with s | s <;> simp [s]

theorem Resting.linked (resting : i.Resting) (down : i.link.state = .down) : i.Linked :=
  ⟨⟨resting.dhcp, by simp [down, LinkState.isUp, resting.resting], resting.coherent⟩, fun _ => down,
    fun p up => by rw [down] at up; cases up⟩

theorem Coupled.resting (coupled : i.Coupled) (down : i.link.state.isUp = false) : i.Resting :=
  ⟨coupled.dhcp, fun engaged => by simp [coupled.engaged.mpr engaged] at down, coupled.coherent⟩

theorem Linked.lastApplied_of_stopped (linked : i.Linked) (stopped : i.initialized = false) :
    i.proto.lastApplied = none := by
  have resting := linked.toCoupled.resting (by simp [linked.stopped stopped, LinkState.isUp])
  rw [← linked.coherent.applied, resting.unheld]

/-- Starting the interface afresh, with whatever the engine became, leaves it linked and
running: the link is down and acquisition off, and nothing was in force while it was stopped. -/
theorem Linked.restart (linked : i.Linked) (stopped : i.initialized = false) (m : ScriptedMac) :
    Running { i.withMac m with
      link := {}, lastLinkPoll := none, lastDhcpPoll := none
      acquisition := .create i.settings.maxDhcpTries i.settings.staticAddress
      initialized := true } := by
  refine ⟨⟨⟨linked.dhcp, ?_, ?_⟩, fun restarted => by simp at restarted, fun p up => by cases up⟩, rfl⟩
  · simp [LinkState.isUp, Acquisition.create, AcquisitionState.Engaged]
  · rw [show (i.withMac m).proto = i.proto from rfl, linked.lastApplied_of_stopped stopped]
    exact Acquisition.coherent_create _ _

/-! ### What each step keeps -/

/-- An interface operation that, started where `pre` holds, ends where `post` holds, whenever
it ends. -/
def Leads (pre post : Interface ScriptedBoard ScriptedProtocol → Prop)
    (act : IfRun ScriptedBoard ScriptedProtocol β) : Prop :=
  ∀ i, pre i → Ensures act i (fun _ i' => post i') (fun _ => True)

section Leads

variable {γ : Type} {pre mid post : Interface ScriptedBoard ScriptedProtocol → Prop}

theorem leads_pure (a : β) : Leads pre pre (pure a : IfRun ScriptedBoard ScriptedProtocol β) :=
  fun _ holds => ensures_pure holds

theorem Leads.bind {x : IfRun ScriptedBoard ScriptedProtocol β}
    {f : β → IfRun ScriptedBoard ScriptedProtocol γ} (first : Leads pre mid x)
    (rest : ∀ a, Leads mid post (f a)) : Leads pre post (x >>= f) := fun i holds =>
  ensures_bind ((first i holds).mono (fun a i₁ holds₁ => rest a i₁ holds₁) (fun _ => id))

/-- An operation that reads the interface first leads to `post` if each continuation does from
the interface it read. -/
theorem leads_read {f : Interface ScriptedBoard ScriptedProtocol → IfRun ScriptedBoard ScriptedProtocol β}
    (each : ∀ i, pre i → Ensures (f i) i (fun _ i' => post i') (fun _ => True)) :
    Leads pre post (get >>= f) :=
  fun i holds => ensures_bind (ensures_get (each i holds))

theorem Within.leads {act : IfRun ScriptedBoard ScriptedProtocol β} (keeps : Within (Kept linkRecord) act)
    (respects : ∀ i i', pre i → i'.linkRecord = i.linkRecord → pre i') : Leads pre pre act :=
  fun i holds => (keeps i).mono (fun _ i' same => respects i i' holds same) (fun _ => id)

end Leads

theorem Within.coupled {act : IfRun ScriptedBoard ScriptedProtocol β} (keeps : Within (Kept linkRecord) act) :
    Leads Coupled Coupled act :=
  keeps.leads fun _ _ coupled same => coupled.of_linkRecord same

theorem Within.linked {act : IfRun ScriptedBoard ScriptedProtocol β} (keeps : Within (Kept linkRecord) act) :
    Leads Linked Linked act :=
  keeps.leads fun _ _ linked same => linked.of_linkRecord same

theorem Within.running {act : IfRun ScriptedBoard ScriptedProtocol β} (keeps : Within (Kept linkRecord) act) :
    Leads Running Running act :=
  keeps.leads fun _ _ running same => running.of_linkRecord same

theorem Leads.ensures_linked {act : IfRun ScriptedBoard ScriptedProtocol β}
    (leads : Leads Running Running act) (running : i.Running) :
    Ensures act i (fun _ i' => i'.Linked) (fun _ => True) :=
  (leads i running).mono (fun _ _ running' => running'.1) (fun _ => id)

/-- A poll of a running interface keeps it linked: a published change moves the link, the
engine and acquisition together. -/
theorem Running.pollLink {ev : Option LinkEvent} (running : i.Running)
    (ran : i.pollLink j = .ok (ev, i') j') : i'.Running := by
  obtain ⟨linked, started⟩ := running
  rcases pollLink_cases linked.dhcp ran with rfl | ⟨e, m, b, a, p, polled, reacted, rfl⟩
  · exact ⟨linked, started⟩
  have coherent := linked.coherent.reacted ScriptedProtocol.records reacted
  cases polled with
  | @up q down _ _ _ _ _ =>
    -- the link was down, so acquisition rested and now follows it
    have resting : ¬i.acquisition.state.Engaged := mt linked.engaged.mpr (by simp [down, LinkState.isUp])
    exact ⟨⟨⟨linked.dhcp, iff_of_true rfl (reacted.engaged_of_up resting), coherent⟩,
      fun stopped => absurd (started.symm.trans stopped) (by simp),
      fun p' up => by cases up; exact ScriptedMac.raised_raised _ _⟩, started⟩
  | @down q up _ _ =>
    -- the link was up, so acquisition followed it and now rests
    have engaged := linked.engaged.mp (by simp [up, LinkState.isUp])
    exact ⟨⟨⟨linked.dhcp, iff_of_false (by simp [LinkState.isUp]) (reacted.resting_of_down engaged),
      coherent⟩, fun _ => rfl, fun p' up => by cases up⟩, started⟩

theorem leads_pollLink : Leads Running Running (pollLink : IfRun ScriptedBoard ScriptedProtocol _) := by
  intro i running j
  split
  · rename_i ran
    exact running.pollLink ran
  · trivial

theorem Running.tick {e : Option AddressEvent} {a : Acquisition} {p : ScriptedProtocol} (running : i.Running)
    (ran : i.acquisition.tick i.proto j = .ok (e, a, p) j') (now : Nat) :
    { i with lastDhcpPoll := some now, acquisition := a, proto := p }.Running := by
  obtain ⟨linked, started⟩ := running
  have ticked := Acquisition.ticked_of_tick ran
  exact ⟨⟨⟨linked.dhcp, linked.engaged.trans ticked.engaged_iff.symm,
    linked.coherent.ticked ScriptedProtocol.records ticked⟩, linked.stopped, linked.programmed⟩,
    started⟩

theorem leads_serviceTick (now : Nat) :
    Leads Linked Linked (serviceTick now : IfRun ScriptedBoard ScriptedProtocol _) := by
  unfold serviceTick
  refine leads_read fun i linked => ?_
  split
  · exact ensures_pure linked
  rename_i started
  refine Leads.ensures_linked ?_ ⟨linked, by simpa using started⟩
  refine linkSteps.reclaimTx.running.bind fun _ => ?_
  refine leads_read fun i₁ running₁ => ?_
  extract_lets afterPoll
  have ticks : ∀ link, Leads Running Running (afterPoll link) := by
    intro link
    refine leads_read fun i₂ running₂ => ?_
    extract_lets finish
    split
    · refine ensures_bind (ensures_lift_ok fun _ x _ ran => ?_)
      obtain ⟨e, a, p⟩ := x
      exact ensures_bind (ensures_set (ensures_bind (ensures_pure (ensures_pure (running₂.tick ran now)))))
    · exact ensures_bind (ensures_pure (ensures_pure running₂))
  split
  · refine (Leads.bind ?_ fun _ => leads_pollLink.bind ticks) i₁ running₁
    exact Within.running (within_modify fun _ => rfl)
  · exact ((leads_pure _).bind ticks) i₁ running₁

theorem leads_init : Leads Linked Linked (init : IfRun ScriptedBoard ScriptedProtocol _) := by
  unfold init
  refine leads_read fun i linked => ?_
  split
  · exact ensures_pure linked
  rename_i fresh
  have stopped : i.initialized = false := by simpa using fresh
  cases works : i.board.mac.failInit
  case true => exact (returns_init_refused works).bind (ensures_pure linked)
  refine (returns_init works).bind ?_
  dsimp only
  -- the engine took the address: the interface starts over, running with the link down
  refine ensures_bind (ensures_modify (Leads.ensures_linked ?_ (linked.restart stopped _)))
  refine linkSteps.refill.running.bind fun _ => leads_read fun i₁ running₁ => ?_
  extract_lets
  refine ensures_bind (ensures_emit ?_)
  extract_lets
  split
  · rename_i static
    simp [running₁.1.dhcp] at static
  · exact (leads_pollLink.bind fun _ => leads_pure _) i₁ running₁

theorem leads_deinit : Leads Linked Linked (deinit : IfRun ScriptedBoard ScriptedProtocol _) := by
  unfold deinit
  refine leads_read fun i linked => ?_
  split
  · exact ensures_pure linked
  -- the engine stops: until the link is taken down, only the machines' agreement holds
  refine returns_stop.bind ?_
  extract_lets takeDown afterStop
  dsimp only
  refine returns_deinit.bind ?_
  dsimp only
  refine (within_get.coupled.bind fun _ => (linkSteps.abandonCompletedFor _).coupled.bind fun _ =>
    within_get.coupled.bind fun _ => (linkSteps.abandonArmedFor _).coupled.bind fun _ =>
    linkSteps.reclaimTx.coupled.bind fun _ => leads_read fun i₃ coupled₃ => ?_) _
    ((linked.toCoupled.withMac _).withMac _)
  refine ensures_bind (ensures_set ?_)
  refine ((linkSteps.onPool _).coupled.bind fun _ => leads_read fun i₄ coupled₄ => ?_) _
    ⟨coupled₃.dhcp, coupled₃.engaged, coupled₃.coherent⟩
  have down : ∀ u i₅, Resting i₅ → Ensures (takeDown u) i₅ (fun _ i' => i'.Linked) (fun _ => True) :=
    fun _ i₅ resting => ensures_bind (ensures_modify (ensures_bind (ensures_emit (ensures_pure
      (Resting.linked ⟨resting.dhcp, resting.resting, resting.coherent⟩ rfl)))))
  split
  · rename_i up
    have engaged := coupled₄.engaged.mp (by simpa [coupled₄.dhcp] using up)
    refine ensures_bind (ensures_lift_ok fun _ x _ ran => ?_)
    obtain ⟨a, p⟩ := x
    have reacted := Acquisition.reacted_of_onLinkEvent ran
    exact ensures_bind (ensures_set (down () _ ⟨coupled₄.dhcp, reacted.resting_of_down engaged,
      coupled₄.coherent.reacted ScriptedProtocol.records reacted⟩))
  · rename_i notUp
    exact down () _ (coupled₄.resting (by simpa [coupled₄.dhcp] using notUp))

/-! ### Every session -/

/-- A new interface with address acquisition on, over any board and a protocol that has put
no address into force, has its link down and acquisition off, and is linked. -/
theorem linked_of_create {settings : Settings} {board : ScriptedBoard} {proto : ScriptedProtocol}
    (made : create settings board proto j = .ok (.ok i) j') (dhcp : settings.dhcpEnabled = true)
    (unapplied : proto.lastApplied = none) : i.Linked := by
  unfold create at made
  cases valid : settings.validate with
  | error e => simp [valid] at made
  | ok u =>
    simp only [valid] at made
    cases pool : Pool.create settings.rxBufferCount j with
    | error f j₁ => simp [pool] at made
    | ok p j₁ =>
      simp [pool] at made
      obtain ⟨rfl, -⟩ := made
      refine Resting.linked ⟨dhcp, by simp [Acquisition.create, AcquisitionState.Engaged], ?_⟩ rfl
      rw [unapplied]
      exact Acquisition.coherent_create _ _

/-- The calls a user of the interface makes. -/
inductive Call : {β : Type} → IfRun ScriptedBoard ScriptedProtocol β → Prop
  | init : Call init
  | deinit : Call deinit
  | serviceTick (now : Nat) : Call (serviceTick now)
  | receive : Call receive
  | pollInput : Call pollInput
  | output (frame : Chain) : Call (output frame)
  | reclaimTx : Call reclaimTx

theorem Call.leads {act : IfRun ScriptedBoard ScriptedProtocol β} (call : Call act) :
    Leads Linked Linked act := by
  cases call with
  | init => exact leads_init
  | deinit => exact leads_deinit
  | serviceTick now => exact leads_serviceTick now
  | receive => exact linkSteps.receive.linked
  | pollInput => exact linkSteps.pollInput.linked
  | output frame => exact (linkSteps.output frame).linked
  | reclaimTx => exact linkSteps.reclaimTx.linked

/-- The interfaces reached from a new one with address acquisition on, by the user's calls,
with the bench between calls setting the PHY to any state (plugging, unplugging, failing its
reads), switching the engine's failures, and changing the protocol's offer and whether its
exchanges fail to start. -/
inductive Reached : Interface ScriptedBoard ScriptedProtocol → Prop
  | created {settings : Settings} {board : ScriptedBoard} {i : Interface ScriptedBoard ScriptedProtocol}
      {j j' : Journal} (offer : Option Ipv4Config) (failStart : Bool) (dhcp : settings.dhcpEnabled = true)
      (made : create settings board { offer, failStart } j = .ok (.ok i) j') : Reached i
  | call {β : Type} {act : IfRun ScriptedBoard ScriptedProtocol β} {i i' : Interface ScriptedBoard ScriptedProtocol}
      {a : β} {j j' : Journal} : Call act → Reached i → act i j = .ok (a, i') j' → Reached i'
  | phy {i : Interface ScriptedBoard ScriptedProtocol} (p : ScriptedPhy) :
      Reached i → Reached { i with board := { i.board with phy := p } }
  | switches {i : Interface ScriptedBoard ScriptedProtocol} (failInit failSetLink : Bool)
      (failTx : Option NetError) :
      Reached i → Reached (i.withMac { i.board.mac with failInit, failSetLink, failTx })
  | offer {i : Interface ScriptedBoard ScriptedProtocol} (offer : Option Ipv4Config) (failStart : Bool) :
      Reached i → Reached { i with proto := { i.proto with offer, failStart } }

/-- Every interface reached is linked: by induction on the session, each call keeping the
invariant and the bench touching nothing of the link record. -/
theorem Reached.linked (reached : Reached i) : i.Linked := by
  induction reached with
  | created offer failStart dhcp made => exact linked_of_create made dhcp rfl
  | call call _ ran ih => exact (call.leads _ ih).of_ok ran
  | phy p _ ih => exact ih.of_linkRecord rfl
  | switches failInit failSetLink failTx _ ih => exact ih.of_linkRecord rfl
  | offer offer failStart _ ih => exact ih.of_linkRecord rfl

/-- What every session guarantees of the link and address acquisition. -/
structure LinkAgrees (i : Interface ScriptedBoard ScriptedProtocol) : Prop where
  /-- A link that is up carries parameters that a known speed indication decodes to; the engine
  was last programmed with them and then started, and runs with them. -/
  up : ∀ p, i.linkState = .up p → (∃ indication : SpeedIndication, indication.params? = some p) ∧
    i.board.mac.linkParams = some p ∧ i.board.mac.started = true ∧
    ∃ earlier, i.board.mac.calls = earlier ++ [.setLinkParams p, .start]
  /-- The link is up exactly while acquisition looks for, holds or falls back to an address. -/
  engaged : (∃ p, i.linkState = .up p) ↔ i.acquisition.state.Engaged
  /-- The link is down exactly while acquisition is off or has seen the link go. -/
  resting : i.linkState = .down ↔ i.acquisition.state = .off ∨ i.acquisition.state = .linkDown
  /-- No address is in force while the link is down. -/
  offline : i.linkState = .down → i.ipConfig = none
  /-- While the interface runs, the address in force is the one last put into force through the
  protocol, none before the first. -/
  applied : i.initialized = true → i.ipConfig = i.proto.lastApplied
  /-- A link poll that fails, on a PHY read or on programming the engine, changes nothing. -/
  pollFailed : ∀ {e : NetError} {m : LinkMonitor} {b : ScriptedBoard} {j j₁ : Journal},
    i.link.poll i.board j = .ok ((.error e, m), b) j₁ → ∃ j', i.pollLink j = .ok (none, i) j'

theorem Linked.agrees (linked : i.Linked) : i.LinkAgrees := by
  have upIff : (∃ p, i.linkState = .up p) ↔ i.link.state.isUp = true := by
    cases state : i.link.state <;> simp [linkState, LinkState.isUp, state]
  have downIff : i.linkState = .down ↔ i.link.state.isUp = false := by
    cases state : i.link.state <;> simp [linkState, LinkState.isUp, state]
  have resting : i.linkState = .down ↔ ¬i.acquisition.state.Engaged := by
    rw [downIff, ← linked.engaged]
    simp
  refine ⟨fun p up => ⟨LinkParams.decoded p, linked.programmed p up⟩, upIff.trans linked.engaged,
    resting.trans AcquisitionState.not_engaged_iff, fun down => ?_, fun started => ?_,
    pollLink_of_failed⟩
  · -- with the link down acquisition rests, holding no address
    have unheld := (linked.toCoupled.resting (downIff.mp down)).unheld
    by_cases started : i.initialized = true <;> simp [ipConfig, started, linked.dhcp, unheld]
  · simp [ipConfig, started, linked.dhcp, linked.coherent.applied]

/-- The link monitor and address acquisition stay coupled in every session of an interface with
address acquisition on: a link that is up is the one the engine was last programmed with and
started on; the link is up exactly while acquisition follows it; no address is in force while
the link is down, and while the interface runs the address in force is the one last put into
force through the protocol; a failed poll changes nothing. -/
theorem link_and_address_stay_coupled (reached : Reached i) : i.LinkAgrees :=
  reached.linked.agrees

/-- A new interface with the default settings, over an idle scripted board and a new
protocol. -/
def freshOnBench : Interface ScriptedBoard ScriptedProtocol where
  settings := {}
  board := ⟨{}, {}⟩
  proto := {}
  pool := Pool.fresh 10
  acquisition := .create 4 Ipv4Config.fallback

theorem reached_freshOnBench : Reached freshOnBench := by
  have made : create ({} : Settings) (⟨{}, {}⟩ : ScriptedBoard) ({} : ScriptedProtocol) #[] =
      .ok (.ok freshOnBench) #[] := by
    rfl
  exact .created none false rfl made

theorem Reached.after {β : Type} {act : IfRun ScriptedBoard ScriptedProtocol β} (reached : Reached i)
    (call : Call act) (done : Completes act i = true) : Reached (after act i) :=
  have ⟨_, _, ran⟩ := ran_of_completes act i done
  .call call reached ran

/-- `freshOnBench` with its cable plugged and the protocol offering the fallback address. -/
def offeredOnBench : Interface ScriptedBoard ScriptedProtocol :=
  let plugged := { freshOnBench with board := { freshOnBench.board with phy := freshOnBench.board.phy.plug 6 } }
  { plugged with proto := { plugged.proto with offer := some Ipv4Config.fallback, failStart := false } }

/-- Started and ticked at 0 and 1000 ms, which brings the link up and puts the address into
force. -/
def acquiredOnBench : Interface ScriptedBoard ScriptedProtocol :=
  after (serviceTick 1000) (after (serviceTick 0) (after init offeredOnBench))

/-- Then unplugged and ticked at 2000 ms, which takes the link down and the address out of
force. -/
def relinked : Interface ScriptedBoard ScriptedProtocol :=
  after (serviceTick 2000)
    { acquiredOnBench with board := { acquiredOnBench.board with phy := acquiredOnBench.board.phy.unplug } }

theorem reached_relinked : Reached relinked := by
  have offered : Reached offeredOnBench :=
    (reached_freshOnBench.phy (freshOnBench.board.phy.plug 6)).offer (some Ipv4Config.fallback) false
  have acquired : Reached acquiredOnBench :=
    ((offered.after .init (by decide +kernel)).after (.serviceTick 0) (by decide +kernel)).after
      (.serviceTick 1000) (by decide +kernel)
  exact (acquired.phy acquiredOnBench.board.phy.unplug).after (.serviceTick 2000) (by decide +kernel)

theorem relinked_stays_coupled : Reached relinked ∧
    relinked.proto.applied = [none, some Ipv4Config.fallback, none] ∧ relinked.LinkAgrees :=
  ⟨reached_relinked, by decide +kernel, link_and_address_stay_coupled reached_relinked⟩

end Interface

end Ethernet
