import Ethernet.Proofs.Stack.Device

/-! The stack carries out the mailbox. Over a confined IP layer, after every poll the mailbox is
empty, the stack holds the address its interface has in force (a stopped interface with a
static address apart), and the DHCP socket runs exactly when the last start or stop called on
the protocol was a start. -/
namespace Ethernet

open Bench Interface

variable {α : Type}

instance [DhcpMailbox α] : DhcpMailbox (Logged α) where
  mailbox p := DhcpMailbox.mailbox p.inner
  withMailbox p m := { p with inner := DhcpMailbox.withMailbox p.inner m }

@[simp] theorem Logged.mailbox_eq [DhcpMailbox α] (p : Logged α) :
    DhcpMailbox.mailbox p = DhcpMailbox.mailbox p.inner := rfl

@[simp] theorem DhcpClient.mailbox_eq (m : DhcpClient) : DhcpMailbox.mailbox m = m := rfl

namespace DhcpClient

/-- The address last put into force through the mailbox: the change waiting in it, or else
`held`, the one the stack holds. -/
def lastVia (held : Option Ipv4Config) (m : DhcpClient) : Option Ipv4Config := m.pending.getD held

/-- Whether the last start or stop of the socket was a start: the command waiting in the
mailbox, or else `running`, whether the stack runs the socket. -/
def startedVia (running : Bool) (m : DhcpClient) : Bool :=
  match m.command with
  | some .restart => true
  | some .stop => false
  | none => running

end DhcpClient

namespace Logged

open DhcpClient

/-- The socket runs, or the command waiting in the mailbox will start it, exactly when the
last start or stop called on the protocol was a start. -/
def Tracks (running : Bool) (p : Logged DhcpClient) : Prop := startedVia running p.inner = p.started

/-- The readings of a logged mailbox: the address put into force through it, whether its calls
last started the exchange, and whether the socket tracks them. -/
theorem readings (held : Option Ipv4Config) (running : Bool) :
    Readings (fun p : Logged DhcpClient => lastVia held p.inner) Logged.started (Tracks running) where
  records := ⟨fun _ _ => rfl, fun _ => rfl, fun _ => rfl, fun _ => rfl⟩
  starts := Logged.startRecords
  stable :=
    ⟨fun p _ => (Logged.startRecords.start p).symm, fun p _ => (Logged.startRecords.stop p).symm,
      fun a p tracks => tracks.trans (Logged.startRecords.apply a p).symm,
      fun p tracks => tracks.trans (Logged.startRecords.supplied p).symm⟩

end Logged

namespace NetStack

open DhcpClient

variable {η ι δ : Type} {j j' : Journal}

section Generic

variable {s s' : NetStack η α ι δ}

/-- The stack holds the address `c`: its one IPv4 CIDR with `c`'s prefix length and its default
route through `c`'s gateway, or no address and no route for none. -/
def Holds (s : NetStack η α ι δ) (c : Option Ipv4Config) : Prop :=
  s.addresses = c.toList.map (fun c => ⟨c.address, c.prefixLen⟩) ∧ s.gateway = c.bind (·.gateway)

theorem setAddress_ok {a : Option Ipv4Config} (ran : s.setAddress a j = .ok s' j') :
    s' = { s with
      addresses := a.toList.map fun c => ⟨c.address, c.prefixLen⟩
      gateway := a.bind (·.gateway) } := by
  cases a with
  | none =>
    simp [setAddress] at ran
    exact ran.1.symm
  | some c =>
    by_cases refused : (!c.address.isUnicast && !c.address.isUnspecified) = true
    · simp [setAddress, refused] at ran
    · simp [setAddress, refused] at ran
      exact ran.1.symm

theorem postEvent_ok [DhcpMailbox α] {e : Option DhcpEvent} (ran : s.postEvent e j = .ok s' j') :
    ∃ c, s' = s.setMailbox { s.mailbox with lease := c } ∨ s' = s := by
  rcases e with _ | ⟨_, _, _⟩ | _
  · simp [postEvent] at ran
    exact ⟨none, .inr ran.1.symm⟩
  · simp [postEvent] at ran
    exact ⟨_, .inl ran.1.symm⟩
  · simp [postEvent] at ran
    exact ⟨none, .inl ran.1.symm⟩

end Generic

section Logged

variable {s s' : NetStack η (Logged DhcpClient) ι δ}

/-- Carrying out the mailbox: the socket starts or stops as the command says, the address
change waiting goes into force, and the mailbox is left empty; the interface is otherwise
untouched. -/
theorem runMailbox_ok [IpLayer ι δ] (ran : s.runMailbox j = .ok s' j') :
    s'.netif = { s.netif with
      proto := { s.netif.proto with inner := { s.mailbox with command := none, pending := none } } } ∧
      s'.dhcp.isSome = startedVia s.dhcp.isSome s.mailbox ∧
      ∀ held, s.Holds held → s'.Holds (lastVia held s.mailbox) := by
  simp only [runMailbox, mailbox, setMailbox, DhcpMailbox.mailbox, DhcpMailbox.withMailbox] at ran ⊢
  -- split on the address change, then on the command; a socket that runs stops with a log line
  cases hp : s.netif.proto.inner.pending with
  | none =>
    rcases hc : s.netif.proto.inner.command with _ | _ | _ <;>
      by_cases running : s.dhcp.isSome = true
    all_goals
      simp [hc, hp, running] at ran
      obtain ⟨rfl, -⟩ := ran
      exact ⟨rfl, by simp [startedVia, hc, running],
        fun held holds => by simpa [Holds, lastVia, hp] using holds⟩
  | some a =>
    rcases hc : s.netif.proto.inner.command with _ | _ | _ <;>
      by_cases running : s.dhcp.isSome = true
    all_goals
      simp [hc, hp, running] at ran
      rw [setAddress_ok ran]
      exact ⟨rfl, by simp [startedVia, hc, running], fun _ _ => by simp [Holds, lastVia, hp]⟩

/-! ### The stack mirrors its interface -/

/-- The stack and its interface agree: read over the address the stack holds, the mailbox
follows address acquisition, and the socket tracks the calls on the protocol. -/
def Mirrors (s : NetStack ScriptedBoard (Logged DhcpClient) ι δ) : Prop :=
  ∃ held, s.Holds held ∧
    s.netif.Follows (fun p => lastVia held p.inner) Logged.started (Logged.Tracks s.dhcp.isSome)

variable {s s' : NetStack ScriptedBoard (Logged DhcpClient) ι δ} {β : Type}

theorem Mirrors.setLease (mirrors : s.Mirrors) (c : Option Ipv4Config) :
    (s.setMailbox { s.mailbox with lease := c }).Mirrors := by
  obtain ⟨held, holds, follows⟩ := mirrors
  exact ⟨held, holds, follows.reread _ rfl rfl follows.holds⟩

/-- A call on the interface that keeps the protocol following acquisition, for every reading
with the laws, keeps the stack mirroring it. -/
theorem Mirrors.ensures_onNetif {act : IfRun ScriptedBoard (Logged DhcpClient) β}
    (mirrors : s.Mirrors)
    (leads : ∀ held running, LeadsTo
      (Follows (fun p => lastVia held p.inner) Logged.started (Logged.Tracks running))
      (Follows (fun p => lastVia held p.inner) Logged.started (Logged.Tracks running)) act) :
    Ensures (onNetif act) s (fun _ s' => s'.Mirrors) (fun _ => True) := by
  obtain ⟨held, holds, follows⟩ := mirrors
  exact ensures_focus ((leads held s.dhcp.isSome s.netif follows).mono
    (fun _ _ follows' => ⟨held, holds, follows'⟩) (fun _ => id))

/-- Where a poll leaves the stack. The mailbox is carried out. While the interface runs or
acquisition is on, the stack holds the interface's address, with that address's gateway as the
default route, and nothing when there is none. With a static address it holds nothing or the
static one. The socket runs exactly when the last start or stop called on the protocol was a
start, which is as acquisition's state says, and never with a static address. -/
structure InStep (s : NetStack ScriptedBoard (Logged DhcpClient) ι δ) : Prop where
  carried : s.mailbox.command = none ∧ s.mailbox.pending = none
  inForce : s.netif.initialized = true ∨ s.netif.settings.dhcpEnabled = true →
    s.Holds s.netif.ipConfig
  static : s.netif.settings.dhcpEnabled = false →
    s.Holds none ∨ s.Holds (some s.netif.settings.staticAddress)
  socket : s.isDhcpRunning = ProtocolCall.lastStarted s.netif.proto.calls
  runs : s.netif.settings.dhcpEnabled = true → s.netif.acquisition.Runs s.isDhcpRunning
  noSocket : s.netif.settings.dhcpEnabled = false → s.isDhcpRunning = false

/-- With the mailbox carried out, the readings are the stack's own: the address it holds and
whether it runs the socket. -/
theorem Mirrors.inStep (mirrors : s.Mirrors) (command : s.mailbox.command = none)
    (pending : s.mailbox.pending = none) : s.InStep := by
  obtain ⟨held, holds, follows⟩ := mirrors
  have last : lastVia held s.netif.proto.inner = held := by
    simp only [lastVia, show s.netif.proto.inner.pending = none from pending, Option.getD_none]
  have started : s.isDhcpRunning = s.netif.proto.started := by
    have tracks : startedVia s.dhcp.isSome s.netif.proto.inner = s.netif.proto.started := follows.holds
    simpa only [startedVia, show s.netif.proto.inner.command = none from command, isDhcpRunning]
      using tracks
  refine ⟨⟨command, pending⟩, fun on => ?_, fun static => ?_, started, fun dhcp => ?_,
    fun static => ?_⟩
  · rw [← follows.inForce on, last]
    exact holds
  · rcases (follows.fixed static).applied with applied | applied <;> rw [last] at applied
    · exact .inl (applied ▸ holds)
    · exact .inr (applied ▸ holds)
  · rw [started]
    exact (follows.acquiring dhcp).runs
  · rw [started]
    exact (follows.fixed static).quiet

variable [IpLayer ι δ]

theorem Mirrors.runMailbox (mirrors : s.Mirrors) (ran : s.runMailbox j = .ok s' j') :
    s'.Mirrors ∧ s'.mailbox.command = none ∧ s'.mailbox.pending = none := by
  obtain ⟨held, holds, follows⟩ := mirrors
  obtain ⟨netif, running, moved⟩ := runMailbox_ok ran
  refine ⟨⟨lastVia held s.mailbox, moved held holds, ?_⟩, by simp [mailbox, netif],
    by simp [mailbox, netif]⟩
  rw [netif, running]
  exact follows.reread _ rfl rfl follows.holds

theorem Mirrors.pollDhcp (mirrors : s.Mirrors) (ran : s.pollDhcp j = .ok s' j') : s'.Mirrors := by
  unfold NetStack.pollDhcp at ran
  cases socket : s.dhcp with
  | none =>
    simp [socket] at ran
    obtain ⟨rfl, -⟩ := ran
    exact mirrors
  | some d =>
    simp only [socket] at ran
    obtain ⟨held, holds, follows⟩ := mirrors
    simp only [socket, Option.isSome_some] at follows
    have polled : Mirrors { s with dhcp := some (IpLayer.pollDhcp ι d).2 } := ⟨held, holds, follows⟩
    obtain ⟨c, rfl | rfl⟩ := postEvent_ok ran
    · exact polled.setLease c
    · exact polled

/-- The IP layer's exchange moves the interface by device calls only, which leave the address
record alone, and keeps the socket. -/
theorem Mirrors.ensures_exchange (confined : IpLayer.Confined ι δ) (mirrors : s.Mirrors) (now : Int) :
    Ensures (exchange now) s (fun _ s' => s'.Mirrors) (fun _ => True) := by
  obtain ⟨held, holds, follows⟩ := mirrors
  apply ensures_focus
  intro j
  split
  · rename_i ran
    obtain ⟨handled, socket⟩ := confined.exchange now _ _ _ _ ran
    refine ⟨held, holds, ?_⟩
    rw [socket]
    exact follows.of_addressRecord handled.addressRecord
  · trivial

/-- A poll keeps the stack mirroring its interface and ends with the mailbox empty: the service
tick writes the mailbox, the stack carries it out, and what the socket reports on the way is
carried out too. -/
theorem Mirrors.ensures_poll (confined : IpLayer.Confined ι δ) (mirrors : s.Mirrors) (now : Nat) :
    Ensures (poll now) s
      (fun _ s' => s'.Mirrors ∧ s'.mailbox.command = none ∧ s'.mailbox.pending = none)
      (fun _ => True) := by
  unfold poll
  -- the clock's reading does not matter, and leaving it closed keeps the unifier from running it
  generalize clockOfMillis now = clock
  refine ensures_bind ((mirrors.ensures_onNetif fun held running =>
    leadsTo_serviceTick (Logged.readings held running) _).mono
      (fun _ s₁ mirrors₁ => ?_) (fun _ => id))
  refine ensures_bind (ensures_get (ensures_bind (ensures_lift_ok fun _ s₂ _ ran₂ => ?_)))
  refine ensures_seq (ensures_set (ensures_bind (ensures_lift_ok fun _ t _ _ => ?_)))
  refine ensures_seq (((mirrors₁.runMailbox ran₂).1.ensures_exchange confined t).mono
    (fun _ s₃ mirrors₃ => ?_) (fun _ => id))
  refine ensures_bind (ensures_get (ensures_bind (ensures_lift_ok fun _ s₄ _ ran₄ => ?_)))
  refine ensures_seq (ensures_set (ensures_bind (ensures_get (ensures_bind
    (ensures_lift_ok fun _ s₅ _ ran₅ => ?_)))))
  exact ensures_seq (ensures_set (ensures_pure ((mirrors₃.pollDhcp ran₄).runMailbox ran₅)))

/-! ### Every session -/

/-- A stack opened over an interface holds no address and runs no socket. The clock reading
is dropped as a whole: opening it up would make the kernel count through the clock's range. -/
theorem create_ok {i : Interface ScriptedBoard (Logged DhcpClient)} {now : Nat}
    (opened : NetStack.create i now j = .ok s j') : s = { netif := i, ip := IpLayer.empty δ } :=
  eq_of_bind_pure_ok opened

/-- The stacks reached over a new interface, a new mailbox and a new IP layer, by polls and the
interface's calls, with the bench between them setting the board to any state (plugging and
unplugging the PHY among them), posting leases to the mailbox, and changing the IP layer's own
sockets. -/
inductive Reached : NetStack ScriptedBoard (Logged DhcpClient) ι δ → Prop
  | created {settings : Settings} {board : ScriptedBoard} {i : Interface ScriptedBoard (Logged DhcpClient)}
      {now : Nat} {j j' j₁ j₂ : Journal} {s : NetStack ScriptedBoard (Logged DhcpClient) ι δ}
      (made : Interface.create settings board { inner := {} } j = .ok (.ok i) j')
      (opened : NetStack.create i now j₁ = .ok s j₂) : Reached s
  | poll {s s' : NetStack ScriptedBoard (Logged DhcpClient) ι δ} {now : Nat} {e : TickEvents}
      {j j' : Journal} : Reached s → poll now s j = .ok (e, s') j' → Reached s'
  | call {β : Type} {act : IfRun ScriptedBoard (Logged DhcpClient) β}
      {s s' : NetStack ScriptedBoard (Logged DhcpClient) ι δ} {a : β} {j j' : Journal} :
      FacadeCall act → Reached s → onNetif act s j = .ok (a, s') j' → Reached s'
  | board {s : NetStack ScriptedBoard (Logged DhcpClient) ι δ} (b : ScriptedBoard) :
      Reached s → Reached { s with netif := { s.netif with board := b } }
  | lease {s : NetStack ScriptedBoard (Logged DhcpClient) ι δ} (c : Option Ipv4Config) :
      Reached s → Reached (s.setMailbox { s.mailbox with lease := c })
  | sockets {s : NetStack ScriptedBoard (Logged DhcpClient) ι δ} (ip : ι) :
      Reached s → Reached { s with ip }

/-- Every stack reached mirrors its interface: by induction on the session, polls and calls
keeping the invariant, and the bench touching neither the addresses nor what `Follows` reads. -/
theorem Reached.mirrors (confined : IpLayer.Confined ι δ) (reached : s.Reached) : s.Mirrors := by
  induction reached with
  | created made opened =>
    obtain rfl := create_ok opened
    exact ⟨none, ⟨rfl, rfl⟩, follows_create made rfl rfl rfl⟩
  | poll _ ran ih => exact ((ih.ensures_poll confined _).of_ok ran).1
  | call call _ ran ih =>
    exact (ih.ensures_onNetif fun held running =>
      call.follows (Logged.readings held running)).of_ok ran
  | board b _ ih =>
    obtain ⟨held, holds, follows⟩ := ih
    exact ⟨held, holds, follows.of_addressRecord rfl⟩
  | lease c _ ih => exact ih.setLease c
  | sockets ip _ ih => exact ih

theorem Reached.afterPoll (reached : s.Reached) (now : Nat) (done : Completes (NetStack.poll now) s = true) :
    (after (NetStack.poll now) s).Reached :=
  have ⟨_, _, ran⟩ := ran_of_completes _ s done
  .poll reached ran

theorem Reached.afterCall {act : IfRun ScriptedBoard (Logged DhcpClient) β} (call : FacadeCall act)
    (reached : s.Reached) (done : Completes (onNetif act) s = true) : (after (onNetif act) s).Reached :=
  have ⟨_, _, ran⟩ := ran_of_completes _ s done
  .call call reached ran

/-- After every poll of every session over a confined IP layer, the stack is in step with its
interface. -/
theorem poll_keeps_stack_in_step (confined : IpLayer.Confined ι δ) {now : Nat} {e : TickEvents}
    (reached : s.Reached) (ran : poll now s j = .ok (e, s') j') : s'.InStep := by
  obtain ⟨mirrors, command, pending⟩ := ((reached.mirrors confined).ensures_poll confined now).of_ok ran
  exact mirrors.inStep command pending

end Logged

/-- A new stack over a new interface on the scripted board, its PHY plugged in. -/
def onBench : NetStack ScriptedBoard (Logged DhcpClient) ScriptedIp ScriptedDhcp where
  netif :=
    { settings := {}
      board := ⟨{}, ({} : ScriptedPhy).plug 6⟩
      proto := { inner := {} }
      pool := Pool.fresh 10
      acquisition := .create 4 Ipv4Config.fallback }
  ip := {}

theorem reached_onBench : onBench.Reached := by
  have made : Interface.create ({} : Settings) (⟨{}, ({} : ScriptedPhy).plug 6⟩ : ScriptedBoard)
      ({ inner := {} } : Logged DhcpClient) #[] = .ok (.ok onBench.netif) #[] := by
    rfl
  have opened : NetStack.create onBench.netif 0 #[] = .ok onBench #[] := by
    rfl
  exact Reached.created made opened

/-- A lease a DHCP server hands out, with its router. -/
def benchLease : Ipv4Config :=
  ⟨Ipv4Addr.ofOctets 10 0 0 7, Ipv4Addr.ofOctets 255 0 0 0, some (Ipv4Addr.ofOctets 10 0 0 1)⟩

/-- The stack after the interface started and a first poll, which starts the socket. -/
def startedOnBench : NetStack ScriptedBoard (Logged DhcpClient) ScriptedIp ScriptedDhcp :=
  after (poll 0) (after (onNetif Interface.init) onBench)

/-- The same stack with a lease posted to the mailbox. -/
def offered : NetStack ScriptedBoard (Logged DhcpClient) ScriptedIp ScriptedDhcp :=
  startedOnBench.setMailbox { startedOnBench.mailbox with lease := some benchLease }

/-- The poll after the lease came puts it into force, with the socket running. -/
theorem offered_lease_in_step : offered.Reached ∧
    ∃ e s' j', poll 1000 offered #[] = .ok (e, s') j' ∧
      s'.ipv4Cidr = some ⟨benchLease.address, 8⟩ ∧ s'.gateway = benchLease.gateway ∧
      s'.isDhcpRunning = true ∧ s'.InStep := by
  have reached : offered.Reached :=
    .lease _ ((reached_onBench.afterCall .init (by decide +kernel)).afterPoll 0 (by decide +kernel))
  obtain ⟨e, j', ran⟩ := ran_of_completes (poll 1000) offered (by decide +kernel)
  exact ⟨reached, e, _, j', ran, by decide +kernel, by decide +kernel, by decide +kernel,
    poll_keeps_stack_in_step ScriptedIp.confined reached ran⟩

/-- A stack over a running interface with the static address in force and the link up. -/
def runningStatic : NetStack ScriptedBoard DhcpClient ScriptedIp ScriptedDhcp where
  netif :=
    { settings := { dhcpEnabled := false }
      board := ⟨{ started := true }, ({} : ScriptedPhy).plug 6⟩
      proto := {}
      pool := Pool.fresh 10
      acquisition := .create 4 Ipv4Config.fallback
      link := { state := .up ⟨.mbps100, .full⟩ }
      initialized := true }
  ip := {}
  addresses := [⟨Ipv4Config.fallback.address, Ipv4Config.fallback.prefixLen⟩]
  gateway := Ipv4Config.fallback.gateway

/-- Stopping an interface with a static address calls nothing on the mailbox, so after the next
poll the stack still holds the static address while the interface has none in force. -/
theorem stopped_static_address_kept : ∃ r s₁ j₁ e s₂ j₂,
    onNetif Interface.deinit runningStatic #[] = .ok (r, s₁) j₁ ∧
    poll 1 s₁ j₁ = .ok (e, s₂) j₂ ∧ s₂.netif.ipConfig = none ∧
    s₂.ipv4Cidr = some ⟨Ipv4Config.fallback.address, Ipv4Config.fallback.prefixLen⟩ := by
  refine ⟨_, _, _, _, _, _, rfl, rfl, ?_, ?_⟩ <;> rfl

end NetStack

end Ethernet
