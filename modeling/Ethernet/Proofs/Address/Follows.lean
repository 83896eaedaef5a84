import Ethernet.Proofs.Link.Coupling

/-! The protocol follows address acquisition, over any protocol read through `last` and `started`:
every call of the interface keeps `Follows`, so while the interface runs, or acquisition is on,
the address last put into force is the interface's. -/
namespace Ethernet

open Bench

variable {α : Type}

/-- `started` reads off a protocol whether the last of its starts and stops was a start. -/
structure StartRecords [AddressProtocol α] (started : α → Bool) : Prop where
  start : ∀ p, started (AddressProtocol.start p).2 = true
  stop : ∀ p, started (AddressProtocol.stop p) = false
  apply : ∀ a p, started (AddressProtocol.apply a p) = started p
  supplied : ∀ p, started (AddressProtocol.supplied p).2 = started p

/-- `inv` holds of a protocol after each call if it held before. -/
structure Stable [AddressProtocol α] (inv : α → Prop) : Prop where
  start : ∀ p, inv p → inv (AddressProtocol.start p).2
  stop : ∀ p, inv p → inv (AddressProtocol.stop p)
  apply : ∀ a p, inv p → inv (AddressProtocol.apply a p)
  supplied : ∀ p, inv p → inv (AddressProtocol.supplied p).2

/-- The laws of the three readings of a protocol that `Follows` takes. -/
structure Readings [AddressProtocol α] (last : α → Option Ipv4Config) (started : α → Bool)
    (inv : α → Prop) : Prop where
  records : Records last
  starts : StartRecords started
  stable : Stable inv

namespace ProtocolCall

/-- Whether the exchange runs after a call, given whether it ran before. -/
def startedAfter (running : Bool) : ProtocolCall → Bool
  | .start => true
  | .stop => false
  | _ => running

/-- Whether the last start or stop of a list of calls was a start; false without one. -/
def lastStarted (calls : List ProtocolCall) : Bool := calls.foldl startedAfter false

@[simp] theorem lastStarted_append (calls : List ProtocolCall) (c : ProtocolCall) :
    lastStarted (calls ++ [c]) = startedAfter (lastStarted calls) c := by
  simp [lastStarted]

end ProtocolCall

/-- Whether the calls of a logged protocol last started or stopped it. -/
def Logged.started (p : Logged α) : Bool := ProtocolCall.lastStarted p.calls

theorem Logged.startRecords [AddressProtocol α] : StartRecords (Logged.started (α := α)) where
  start _ := by simp [AddressProtocol.start, Logged.started, ProtocolCall.startedAfter]
  stop _ := by simp [AddressProtocol.stop, Logged.started, ProtocolCall.startedAfter]
  apply _ _ := by simp [AddressProtocol.apply, Logged.started, ProtocolCall.startedAfter]
  supplied _ := by simp [AddressProtocol.supplied, Logged.started, ProtocolCall.startedAfter]

namespace Acquisition

/-- The exchange runs while the machine waits for or holds a lease, and not while it is off,
timed out, or has seen the link go. Just after a lost lease the machine is back in `start`
with the exchange still running; after the link came up it is in `start` with none. -/
structure Runs (a : Acquisition) (running : Bool) : Prop where
  busy : a.state = .waitAddress ∨ a.state = .assigned → running = true
  idle : a.state = .off ∨ a.state = .timeout ∨ a.state = .linkDown → running = false

variable [AddressProtocol α] {started : α → Bool} {a a' : Acquisition} {p p' : α}

theorem Runs.ticked (starts : StartRecords started) (runs : a.Runs (started p))
    {r : Option AddressEvent} (ticked : Ticked a p r a' p') : a'.Runs (started p') := by
  cases ticked with
  | start starting => exact ⟨fun _ => starts.start _, by simp⟩
  | assign waiting offer =>
    exact ⟨fun _ => by rw [starts.apply, starts.supplied, runs.busy (.inl waiting)], by simp⟩
  | retry waiting silent more =>
    exact ⟨fun _ => by rw [starts.supplied, runs.busy (.inl waiting)], by simp [waiting]⟩
  | giveUp waiting silent spent => exact ⟨by simp, fun _ => by rw [starts.apply, starts.stop]⟩
  | lose assigned silent => exact ⟨by simp, by simp⟩
  | keep assigned offer same =>
    exact ⟨fun _ => by rw [starts.supplied, runs.busy (.inr assigned)], by simp [assigned]⟩
  | renew assigned offer changed =>
    exact ⟨fun _ => by rw [starts.apply, starts.supplied, runs.busy (.inr assigned)],
      by simp [assigned]⟩
  | rest resting => exact runs

theorem Runs.reacted (starts : StartRecords started) (runs : a.Runs (started p)) {e : LinkEvent}
    (reacted : Reacted a p e a' p') : a'.Runs (started p') := by
  cases reacted with
  | up resting => exact ⟨by simp, by simp⟩
  | upBusy busy => exact runs
  | down present => exact ⟨by simp, fun _ => by rw [starts.apply, starts.stop]⟩
  | downGone gone => exact runs

variable {inv : α → Prop}

theorem Ticked.stable (stable : Stable inv) {r : Option AddressEvent} (ticked : Ticked a p r a' p')
    (holds : inv p) : inv p' := by
  cases ticked with
  | start starting => exact stable.start _ (stable.apply _ _ holds)
  | assign waiting offer => exact stable.apply _ _ (stable.supplied _ holds)
  | retry waiting silent more => exact stable.supplied _ holds
  | giveUp waiting silent spent => exact stable.apply _ _ (stable.stop _ (stable.supplied _ holds))
  | lose assigned silent => exact stable.apply _ _ (stable.supplied _ holds)
  | keep assigned offer same => exact stable.supplied _ holds
  | renew assigned offer changed => exact stable.apply _ _ (stable.supplied _ holds)
  | rest resting => exact holds

theorem Reacted.stable (stable : Stable inv) {e : LinkEvent} (reacted : Reacted a p e a' p')
    (holds : inv p) : inv p' := by
  cases reacted with
  | up resting => exact holds
  | upBusy busy => exact holds
  | down present => exact stable.apply _ _ (stable.stop _ holds)
  | downGone gone => exact holds

theorem Reacted.linkDown (reacted : Reacted a p .down a' p') : a'.state = .linkDown := by
  cases reacted with
  | down present => rfl
  | downGone gone => exact gone

end Acquisition

namespace Interface

variable {β γ : Type} {last : α → Option Ipv4Config} {started : α → Bool} {inv : α → Prop}
  {i i' : Interface ScriptedBoard α} {j j' : Journal}

/-! ### The traffic leaves the address record alone -/

/-- The address record: what address acquisition reads and writes, that is the settings,
whether the interface runs, the link, the machine and the protocol. -/
def addressRecord (i : Interface ScriptedBoard α) : Settings × Bool × LinkMonitor × Acquisition × α :=
  (i.settings, i.initialized, i.link, i.acquisition, i.proto)

theorem addressRecord_eq_iff :
    i'.addressRecord = i.addressRecord ↔ i'.settings = i.settings ∧
      i'.initialized = i.initialized ∧ i'.link = i.link ∧ i'.acquisition = i.acquisition ∧
      i'.proto = i.proto := by
  simp [addressRecord]

/-- Every step of the traffic leaves the address record alone. -/
theorem addressSteps :
    DatapathSteps (Within (Kept addressRecord :
      Interface ScriptedBoard α → Interface ScriptedBoard α → Prop)) where
  toClosed := Footprint.closed
  onPool := within_onPool fun _ _ => rfl
  provide _ := within_onBoard (fun _ _ => rfl) _
  setRx _ := within_modify fun _ => rfl
  poll := within_onBoard (fun _ _ => rfl) _
  revoke := within_onBoard (fun _ _ => rfl) _
  counted _ := within_modify fun _ => rfl
  reclaim := within_onBoard (fun _ _ => rfl) _
  submit _ _ _ := within_onBoard (fun _ _ => rfl) _

/-! ### Operations that lead from one property to another -/

/-- An interface operation that, started where `pre` holds, ends where `post` holds, whenever
it ends. -/
def LeadsTo (pre post : Interface ScriptedBoard α → Prop) (act : IfRun ScriptedBoard α β) : Prop :=
  ∀ i, pre i → Ensures act i (fun _ i' => post i') (fun _ => True)

section LeadsTo

variable {pre mid post : Interface ScriptedBoard α → Prop}

theorem leadsTo_pure (a : β) : LeadsTo pre pre (pure a : IfRun ScriptedBoard α β) :=
  fun _ holds => ensures_pure holds

theorem LeadsTo.bind {x : IfRun ScriptedBoard α β} {f : β → IfRun ScriptedBoard α γ}
    (first : LeadsTo pre mid x) (rest : ∀ a, LeadsTo mid post (f a)) : LeadsTo pre post (x >>= f) :=
  fun i holds => ensures_bind ((first i holds).mono (fun a i₁ holds₁ => rest a i₁ holds₁) (fun _ => id))

/-- An operation that reads the interface first leads to `post` if each continuation does from
the interface it read. -/
theorem leadsTo_read {f : Interface ScriptedBoard α → IfRun ScriptedBoard α β}
    (each : ∀ i, pre i → Ensures (f i) i (fun _ i' => post i') (fun _ => True)) :
    LeadsTo pre post (get >>= f) :=
  fun i holds => ensures_bind (ensures_get (each i holds))

theorem Within.leadsTo {act : IfRun ScriptedBoard α β} (keeps : Within (Kept addressRecord) act)
    (respects : ∀ i i', pre i → i'.addressRecord = i.addressRecord → pre i') : LeadsTo pre pre act :=
  fun i holds => (keeps i).mono (fun _ i' same => respects i i' holds same) (fun _ => id)

end LeadsTo

/-! ### The invariant -/

/-- With acquisition on: a stopped interface has its link down, acquisition rests while the
link is down, holds the address last put into force, and runs the exchange as `Runs` says. -/
structure Acquiring (last : α → Option Ipv4Config) (started : α → Bool)
    (i : Interface ScriptedBoard α) : Prop where
  stopped : i.initialized = false → i.link.state.isUp = false
  resting : i.link.state.isUp = false → ¬i.acquisition.state.Engaged
  coherent : i.acquisition.Coherent (last i.proto)
  runs : i.acquisition.Runs (started i.proto)

/-- With a static address: the exchange never ran, and the address in force is none or the
static one. -/
structure Fixed (last : α → Option Ipv4Config) (started : α → Bool)
    (i : Interface ScriptedBoard α) : Prop where
  quiet : started i.proto = false
  applied : last i.proto = none ∨ last i.proto = some i.settings.staticAddress

/-- The protocol, read through `last` and `started`, follows address acquisition, and `inv`
holds of it. -/
structure Follows (last : α → Option Ipv4Config) (started : α → Bool) (inv : α → Prop)
    (i : Interface ScriptedBoard α) : Prop where
  acquiring : i.settings.dhcpEnabled = true → i.Acquiring last started
  fixed : i.settings.dhcpEnabled = false → i.Fixed last started
  /-- A running interface with a static address has that address in force. -/
  running : i.settings.dhcpEnabled = false → i.initialized = true →
    last i.proto = some i.settings.staticAddress
  holds : inv i.proto

theorem Acquiring.unheld (acquiring : i.Acquiring last started) (down : i.link.state.isUp = false) :
    last i.proto = none := by
  rw [← acquiring.coherent.applied, ← Option.not_isSome_iff_eq_none, acquiring.coherent.held]
  rcases AcquisitionState.not_engaged_iff.mp (acquiring.resting down) with s | s <;> simp [s]

theorem Acquiring.quiet (acquiring : i.Acquiring last started) (down : i.link.state.isUp = false) :
    started i.proto = false := by
  apply acquiring.runs.idle
  rcases AcquisitionState.not_engaged_iff.mp (acquiring.resting down) with s | s <;> simp [s]

/-- While the interface runs, or acquisition is on, the address last put into force is the
interface's address. -/
theorem Follows.inForce (follows : i.Follows last started inv)
    (on : i.initialized = true ∨ i.settings.dhcpEnabled = true) : last i.proto = i.ipConfig := by
  cases dhcp : i.settings.dhcpEnabled
  case false =>
    have running : i.initialized = true := by simpa [dhcp] using on
    simp [ipConfig, running, dhcp, follows.running dhcp running]
  have acquiring := follows.acquiring dhcp
  cases running : i.initialized
  case true => simp [ipConfig, running, dhcp, acquiring.coherent.applied]
  case false => simp [ipConfig, running, acquiring.unheld (acquiring.stopped running)]

theorem Follows.of_addressRecord (follows : i.Follows last started inv)
    (same : i'.addressRecord = i.addressRecord) : i'.Follows last started inv := by
  obtain ⟨settings, initialized, link, acquisition, proto⟩ := addressRecord_eq_iff.mp same
  refine ⟨fun dhcp => ?_, fun static => ?_, fun static running => ?_, proto ▸ follows.holds⟩
  · have acquiring := follows.acquiring (by rwa [settings] at dhcp)
    refine ⟨fun stopped => ?_, fun down => ?_, ?_, ?_⟩
    · rw [link]
      exact acquiring.stopped (by rwa [initialized] at stopped)
    · rw [acquisition]
      exact acquiring.resting (by rwa [link] at down)
    · rw [acquisition, proto]
      exact acquiring.coherent
    · rw [acquisition, proto]
      exact acquiring.runs
  · have fixed := follows.fixed (by rwa [settings] at static)
    exact ⟨by rw [proto]; exact fixed.quiet, by rw [proto, settings]; exact fixed.applied⟩
  · rw [proto, settings]
    exact follows.running (by rwa [settings] at static) (by rwa [initialized] at running)

/-- `Follows` reads the protocol only through `last` and `started`: another protocol, read
through other functions to the same answers, follows acquisition as well. -/
theorem Follows.reread {last' : α → Option Ipv4Config} {started' : α → Bool} {inv' : α → Prop}
    (follows : i.Follows last started inv) (p : α) (same : last' p = last i.proto)
    (same' : started' p = started i.proto) (holds : inv' p) :
    { i with proto := p }.Follows last' started' inv' := by
  refine ⟨fun dhcp => ?_, fun static => ?_, fun static running => ?_, holds⟩
  · have acquiring := follows.acquiring dhcp
    refine ⟨acquiring.stopped, acquiring.resting, ?_, ?_⟩
    · show i.acquisition.Coherent (last' p)
      rw [same]
      exact acquiring.coherent
    · show i.acquisition.Runs (started' p)
      rw [same']
      exact acquiring.runs
  · have fixed := follows.fixed static
    exact ⟨same'.trans fixed.quiet, same ▸ fixed.applied⟩
  · exact same.trans (follows.running static running)

/-- `Follows`, on an interface that runs. -/
def RunningFollows (last : α → Option Ipv4Config) (started : α → Bool) (inv : α → Prop)
    (i : Interface ScriptedBoard α) : Prop :=
  i.Follows last started inv ∧ i.initialized = true

theorem Within.follows {act : IfRun ScriptedBoard α β} (keeps : Within (Kept addressRecord) act) :
    LeadsTo (Follows last started inv) (Follows last started inv) act :=
  keeps.leadsTo fun _ _ follows same => follows.of_addressRecord same

theorem Within.runningFollows {act : IfRun ScriptedBoard α β} (keeps : Within (Kept addressRecord) act) :
    LeadsTo (RunningFollows last started inv) (RunningFollows last started inv) act :=
  keeps.leadsTo fun _ _ running same =>
    ⟨running.1.of_addressRecord same, (addressRecord_eq_iff.mp same).2.1.trans running.2⟩

/-! ### What each step keeps -/

/-- Starting afresh with acquisition on: the link is down and acquisition off, and nothing was
in force or running while the interface was stopped. -/
theorem Follows.restart (follows : i.Follows last started inv) (dhcp : i.settings.dhcpEnabled = true)
    (stopped : i.initialized = false) (m : ScriptedMac) :
    { i.withMac m with
      link := {}, lastLinkPoll := none, lastDhcpPoll := none
      acquisition := .create i.settings.maxDhcpTries i.settings.staticAddress
      initialized := true }.Follows last started inv := by
  have acquiring := follows.acquiring dhcp
  have down := acquiring.stopped stopped
  refine ⟨fun _ => ⟨fun restarted => by simp at restarted,
    fun _ => by simp [Acquisition.create, AcquisitionState.Engaged], ?_,
    ⟨by simp [Acquisition.create], fun _ => acquiring.quiet down⟩⟩,
    fun static => Bool.noConfusion (dhcp.symm.trans static),
    fun static => Bool.noConfusion (dhcp.symm.trans static), follows.holds⟩
  show (Acquisition.create _ _).Coherent (last i.proto)
  rw [acquiring.unheld down]
  exact Acquisition.coherent_create _ _

/-- Taking the link down and stopping, with acquisition at rest; nothing is called on the
protocol, so a static address stays in force. -/
theorem Follows.takeDown (follows : i.Follows last started inv)
    (resting : i.settings.dhcpEnabled = true → ¬i.acquisition.state.Engaged) :
    { i with link := {}, initialized := false }.Follows last started inv := by
  refine ⟨fun dhcp => ?_, fun static => ⟨(follows.fixed static).quiet, (follows.fixed static).applied⟩,
    fun _ running => by simp at running, follows.holds⟩
  have acquiring := follows.acquiring dhcp
  exact ⟨fun _ => rfl, fun _ => resting dhcp, acquiring.coherent, acquiring.runs⟩

/-- A new interface is stopped, its link down and acquisition off, over the protocol it was
given. -/
theorem create_addressRecord {settings : Settings} {board : ScriptedBoard} {proto : α}
    (made : create settings board proto j = .ok (.ok i) j') :
    i.settings = settings ∧ i.initialized = false ∧ i.link = {} ∧
      i.acquisition = .create settings.maxDhcpTries settings.staticAddress ∧ i.proto = proto := by
  unfold create at made
  cases valid : settings.validate with
  | error e => simp [valid] at made
  | ok u =>
    simp only [valid] at made
    cases pool : Pool.create settings.rxBufferCount j with
    | error f j₁ => simp [pool] at made
    | ok p j₁ =>
      simp [pool] at made
      obtain ⟨rfl, -⟩ := made
      exact ⟨rfl, rfl, rfl, rfl, rfl⟩

/-- A new interface follows acquisition over a protocol that has put nothing into force and
started nothing. -/
theorem follows_create {settings : Settings} {board : ScriptedBoard} {proto : α}
    (made : create settings board proto j = .ok (.ok i) j') (unapplied : last proto = none)
    (unstarted : started proto = false) (holds : inv proto) : i.Follows last started inv := by
  obtain ⟨-, initialized, link, acquisition, proto'⟩ := create_addressRecord made
  have off : i.acquisition.state = .off := by rw [acquisition]; rfl
  refine ⟨fun _ => ⟨fun _ => by rw [link]; rfl, fun _ => by simp [off, AcquisitionState.Engaged],
    ?_, ⟨fun busy => by simp [off] at busy, fun _ => by rw [proto']; exact unstarted⟩⟩,
    fun _ => ⟨by rw [proto']; exact unstarted, .inl (by rw [proto']; exact unapplied)⟩,
    fun _ running => by simp [initialized] at running, by rw [proto']; exact holds⟩
  rw [acquisition, proto', unapplied]
  exact Acquisition.coherent_create _ _

variable [AddressProtocol α]

theorem pollLink_static (static : i.settings.dhcpEnabled = false) {ev : Option LinkEvent}
    (ran : i.pollLink j = .ok (ev, i') j') :
    ∃ (m : LinkMonitor) (b : ScriptedBoard), i' = { i with board := b, link := m } := by
  cases polled : i.link.poll i.board j with
  | error f j₁ => simp [pollLink, onBoard, polled] at ran
  | ok x j₁ =>
    obtain ⟨⟨r, m⟩, b⟩ := x
    refine ⟨m, b, ?_⟩
    rcases r with e | _ | e <;> simp [pollLink, onBoard, polled, static] at ran <;> exact ran.1.2.symm

/-- Acquisition reacting to a change of the link, on a running interface whose link becomes `m`:
the protocol still follows it, as long as a link that ends down was seen to go. -/
theorem Follows.reacted (reads : Readings last started inv)
    (follows : i.Follows last started inv) (dhcp : i.settings.dhcpEnabled = true)
    (running : i.initialized = true) {e : LinkEvent} {a : Acquisition} {p : α}
    (reacted : i.acquisition.Reacted i.proto e a p) (m : LinkMonitor) (b : ScriptedBoard)
    (seen : m.state.isUp = false → e = .down) :
    { i with board := b, link := m, acquisition := a, proto := p }.Follows last started inv := by
  have acquiring := follows.acquiring dhcp
  refine ⟨fun _ => ⟨fun stopped => by simp [running] at stopped, fun down => ?_,
    acquiring.coherent.reacted reads.records reacted, acquiring.runs.reacted reads.starts reacted⟩,
    fun static => by simp [dhcp] at static, fun static => by simp [dhcp] at static,
    reacted.stable reads.stable follows.holds⟩
  obtain rfl := seen down
  simp [reacted.linkDown, AcquisitionState.Engaged]

theorem Follows.pollLink (reads : Readings last started inv)
    (follows : i.Follows last started inv) (running : i.initialized = true) {ev : Option LinkEvent}
    (ran : i.pollLink j = .ok (ev, i') j') : i'.Follows last started inv ∧ i'.initialized = true := by
  cases dhcp : i.settings.dhcpEnabled
  case false =>
    obtain ⟨m, b, rfl⟩ := pollLink_static dhcp ran
    have fixed := follows.fixed dhcp
    exact ⟨⟨fun on => by simp [dhcp] at on, fun _ => ⟨fixed.quiet, fixed.applied⟩,
      fun _ => follows.running dhcp, follows.holds⟩, running⟩
  rcases pollLink_cases dhcp ran with rfl | ⟨e, m, b, a, p, polled, reacted, rfl⟩
  · exact ⟨follows, running⟩
  -- a published change takes the link up, or down with acquisition seeing it go
  refine ⟨follows.reacted reads dhcp running reacted m b fun down => ?_, running⟩
  cases polled with
  | up => simp [LinkState.isUp] at down
  | down => rfl

theorem Follows.tick (reads : Readings last started inv)
    (follows : i.Follows last started inv) (dhcp : i.settings.dhcpEnabled = true)
    {e : Option AddressEvent} {a : Acquisition} {p : α}
    (ran : i.acquisition.tick i.proto j = .ok (e, a, p) j') (now : Nat) :
    { i with lastDhcpPoll := some now, acquisition := a, proto := p }.Follows last started inv := by
  have acquiring := follows.acquiring dhcp
  have ticked := Acquisition.ticked_of_tick ran
  refine ⟨fun _ => ⟨acquiring.stopped, fun down => ?_, acquiring.coherent.ticked reads.records ticked,
    acquiring.runs.ticked reads.starts ticked⟩, fun static => by simp [dhcp] at static,
    fun static => by simp [dhcp] at static, ticked.stable reads.stable follows.holds⟩
  rw [show a.state.Engaged ↔ i.acquisition.state.Engaged from ticked.engaged_iff]
  exact acquiring.resting down

/-- Putting the static address into force, with a static address configured and no exchange
run. -/
theorem Follows.applyStatic (reads : Readings last started inv)
    (static : i.settings.dhcpEnabled = false) (quiet : started i.proto = false) (holds : inv i.proto) :
    { i with proto := AddressProtocol.apply (some i.settings.staticAddress) i.proto }.Follows
      last started inv :=
  ⟨fun dhcp => by simp [static] at dhcp,
    fun _ => ⟨by simp [reads.starts.apply, quiet], .inr (reads.records.apply _ _)⟩,
    fun _ _ => reads.records.apply _ _, reads.stable.apply _ _ holds⟩

/-! ### Every call keeps the protocol following acquisition -/

theorem leadsTo_pollLink (reads : Readings last started inv) :
    LeadsTo (RunningFollows last started inv) (RunningFollows last started inv) (pollLink : IfRun ScriptedBoard α _) := by
  intro i running j
  split
  · rename_i ran
    exact running.1.pollLink reads running.2 ran
  · trivial

theorem leadsTo_init (reads : Readings last started inv) :
    LeadsTo (Follows last started inv) (Follows last started inv) (init : IfRun ScriptedBoard α _) := by
  unfold init
  refine leadsTo_read fun i follows => ?_
  split
  · exact ensures_pure follows
  rename_i fresh
  have stopped : i.initialized = false := by simpa using fresh
  apply ensures_bind
  cases works : i.board.mac.failInit
  case true => exact (returns_init_refused works).ensures (ensures_pure follows)
  refine (returns_init works).ensures (ensures_seq (ensures_modify ?_))
  refine ensures_bind ((addressSteps.refill _).mono
    (fun _ i₁ same => ensures_bind (ensures_get (ensures_seq (ensures_emit ?_)))) (fun _ => id))
  obtain ⟨settings, running, -, -, proto⟩ := addressRecord_eq_iff.mp same
  have settings : i₁.settings = i.settings := settings
  have polled : ∀ i₂ : Interface ScriptedBoard α, RunningFollows last started inv i₂ →
      Ensures (do let _ ← pollLink; pure (Except.ok ())) i₂
        (fun (_ : Except NetError Unit) i' => i'.Follows last started inv) (fun _ => True) :=
    fun i₂ running₂ => (((leadsTo_pollLink reads).bind fun _ => leadsTo_pure _) i₂
      running₂).mono (fun _ _ post => post.1) (fun _ => id)
  split
  · -- a static address goes into force
    rename_i static
    have static : i.settings.dhcpEnabled = false := by simpa [settings] using static
    refine ensures_seq (ensures_set (ensures_seq (ensures_emit (polled _ ⟨?_, running⟩))))
    have quiet : started i₁.proto = false := by
      rw [proto]
      exact (follows.fixed static).quiet
    exact Follows.applyStatic reads (by rwa [settings]) quiet (proto ▸ follows.holds)
  · -- acquisition starts over, off and with nothing in force
    rename_i acquiring
    have dhcp : i.settings.dhcpEnabled = true := by simpa [settings] using acquiring
    exact polled _ ⟨(follows.restart dhcp stopped _).of_addressRecord same, running⟩

theorem leadsTo_deinit (reads : Readings last started inv) :
    LeadsTo (Follows last started inv) (Follows last started inv) (deinit : IfRun ScriptedBoard α _) := by
  unfold deinit
  refine leadsTo_read fun i follows => ?_
  split
  · exact ensures_pure follows
  rename_i on
  refine returns_stop.bind ?_
  extract_lets takeDown afterStop
  dsimp only
  refine returns_deinit.bind ?_
  dsimp only
  refine (within_get.runningFollows.bind fun _ =>
    (addressSteps.abandonCompletedFor _).runningFollows.bind fun _ =>
    within_get.runningFollows.bind fun _ =>
    (addressSteps.abandonArmedFor _).runningFollows.bind fun _ =>
    addressSteps.reclaimTx.runningFollows.bind fun _ => leadsTo_read fun i₃ running₃ => ?_) _
    ⟨follows.of_addressRecord rfl, by simpa using on⟩
  refine ensures_bind (ensures_set ?_)
  refine ((addressSteps.onPool _).runningFollows.bind fun _ => leadsTo_read fun i₄ running₄ => ?_) _
    ⟨running₃.1.of_addressRecord rfl, running₃.2⟩
  have down : ∀ u i₅, i₅.Follows last started inv →
      (i₅.settings.dhcpEnabled = true → ¬i₅.acquisition.state.Engaged) →
      Ensures (takeDown u) i₅ (fun _ i' => i'.Follows last started inv) (fun _ => True) :=
    fun _ i₅ follows₅ resting => ensures_bind (ensures_modify (ensures_bind (ensures_emit
      (ensures_pure (follows₅.takeDown resting)))))
  split
  · -- acquisition follows a link that is up, and sees it go
    rename_i up
    have dhcp : i₄.settings.dhcpEnabled = true := by simp at up; exact up.2
    have isUp : i₄.link.state.isUp = true := by simp at up; exact up.1
    refine ensures_bind (ensures_lift_ok fun _ x _ ran => ?_)
    obtain ⟨a, p⟩ := x
    have reacted := Acquisition.reacted_of_onLinkEvent ran
    refine ensures_bind (ensures_set (down () _ (running₄.1.reacted reads dhcp running₄.2
      reacted i₄.link i₄.board fun notUp => by simp [isUp] at notUp) fun _ => ?_))
    simp [reacted.linkDown, AcquisitionState.Engaged]
  · -- the link is down already, or acquisition is off
    rename_i notBoth
    exact down () _ running₄.1 fun dhcp => (running₄.1.acquiring dhcp).resting (by simpa [dhcp] using notBoth)

theorem leadsTo_serviceTick (reads : Readings last started inv) (now : Nat) :
    LeadsTo (Follows last started inv) (Follows last started inv)
      (serviceTick now : IfRun ScriptedBoard α _) := by
  unfold serviceTick
  refine leadsTo_read fun i follows => ?_
  split
  · exact ensures_pure follows
  rename_i on
  refine ((addressSteps.reclaimTx.runningFollows.bind fun _ => leadsTo_read fun i₁ running₁ => ?_) i
    ⟨follows, by simpa using on⟩).mono
    (fun _ i' (running : RunningFollows last started inv i') => running.1) (fun _ => id)
  extract_lets afterPoll
  have ticks : ∀ link, LeadsTo (RunningFollows last started inv) (RunningFollows last started inv)
      (afterPoll link) := by
    intro link
    refine leadsTo_read fun i₂ running₂ => ?_
    extract_lets finish
    split
    · rename_i due
      have dhcp : i₂.settings.dhcpEnabled = true := by simp at due; exact due.1
      refine ensures_bind (ensures_lift_ok fun _ x _ ran => ?_)
      obtain ⟨e, a, p⟩ := x
      exact ensures_bind (ensures_set (ensures_bind (ensures_pure (ensures_pure
        ⟨running₂.1.tick reads dhcp ran now, running₂.2⟩))))
    · exact ensures_bind (ensures_pure (ensures_pure running₂))
  split
  · refine (LeadsTo.bind ?_ fun _ => (leadsTo_pollLink reads).bind ticks) i₁ running₁
    exact Within.runningFollows (within_modify fun _ => rfl)
  · exact ((leadsTo_pure _).bind ticks) i₁ running₁

/-- The calls a user makes on an interface, over any protocol. -/
inductive FacadeCall : {β : Type} → IfRun ScriptedBoard α β → Prop
  | init : FacadeCall init
  | deinit : FacadeCall deinit
  | serviceTick (now : Nat) : FacadeCall (serviceTick now)
  | receive : FacadeCall receive
  | pollInput : FacadeCall pollInput
  | output (frame : Chain) : FacadeCall (output frame)
  | reclaimTx : FacadeCall reclaimTx

theorem FacadeCall.follows (reads : Readings last started inv)
    {act : IfRun ScriptedBoard α β} (call : FacadeCall act) :
    LeadsTo (Follows last started inv) (Follows last started inv) act := by
  cases call with
  | init => exact leadsTo_init reads
  | deinit => exact leadsTo_deinit reads
  | serviceTick now => exact leadsTo_serviceTick reads now
  | receive => exact addressSteps.receive.follows
  | pollInput => exact addressSteps.pollInput.follows
  | output frame => exact (addressSteps.output frame).follows
  | reclaimTx => exact addressSteps.reclaimTx.follows

end Interface

end Ethernet
