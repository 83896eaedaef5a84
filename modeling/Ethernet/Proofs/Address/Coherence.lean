import Ethernet.Proofs.Ensures
import Ethernet.Address.Acquisition
import Ethernet.Bench.Protocol

/-! Address acquisition agrees with its protocol: the machine holds an address exactly in `assigned`
and `timeout`, and it is the one last put into force through the protocol. `Ticked` and
`Reacted` say what a step can do; `Logged` records the calls made on a protocol. -/
namespace Ethernet

/-- A call the machine makes on its protocol. -/
inductive ProtocolCall where
  | start
  | stop
  | supplied
  | apply (address : Option Ipv4Config)
  deriving DecidableEq, Repr

namespace ProtocolCall

/-- The address in force after a call, given the one in force before. -/
def after (last : Option Ipv4Config) : ProtocolCall → Option Ipv4Config
  | .apply a => a
  | _ => last

/-- The address put into force by the last `apply` of a list of calls, `none` without one. -/
def lastApplied (calls : List ProtocolCall) : Option Ipv4Config := calls.foldl after none

@[simp] theorem lastApplied_append (calls : List ProtocolCall) (c : ProtocolCall) :
    lastApplied (calls ++ [c]) = after (lastApplied calls) c := by
  simp [lastApplied]

end ProtocolCall

/-- A protocol with the calls made on it, oldest first. -/
structure Logged (α : Type) where
  inner : α
  calls : List ProtocolCall := []

variable {α : Type} [AddressProtocol α]

open AddressProtocol in
instance : AddressProtocol (Logged α) where
  start p := ((start p.inner).1, ⟨(start p.inner).2, p.calls ++ [.start]⟩)
  stop p := ⟨stop p.inner, p.calls ++ [.stop]⟩
  supplied p := ((supplied p.inner).1, ⟨(supplied p.inner).2, p.calls ++ [.supplied]⟩)
  apply a p := ⟨apply a p.inner, p.calls ++ [.apply a]⟩

/-- `last` reads off a protocol the address last put into force: `apply` sets it and no other
call touches it. -/
structure Records (last : α → Option Ipv4Config) : Prop where
  apply : ∀ a p, last (AddressProtocol.apply a p) = a
  stop : ∀ p, last (AddressProtocol.stop p) = last p
  start : ∀ p, last (AddressProtocol.start p).2 = last p
  supplied : ∀ p, last (AddressProtocol.supplied p).2 = last p

/-- The address the calls of a logged protocol last put into force. -/
def Logged.last (p : Logged α) : Option Ipv4Config := ProtocolCall.lastApplied p.calls

theorem Logged.records : Records (Logged.last (α := α)) where
  apply _ _ := by simp [AddressProtocol.apply, Logged.last, ProtocolCall.after]
  stop _ := by simp [AddressProtocol.stop, Logged.last, ProtocolCall.after]
  start _ := by simp [AddressProtocol.start, Logged.last, ProtocolCall.after]
  supplied _ := by simp [AddressProtocol.supplied, Logged.last, ProtocolCall.after]

namespace Acquisition

variable {a a' : Acquisition} {p p' : α} {j j' : Journal}

open AddressProtocol in
/-- What one tick can do, branch by branch, with the protocol calls each branch makes. -/
inductive Ticked (a : Acquisition) (p : α) : Option AddressEvent → Acquisition → α → Prop
  | start (starting : a.state = .start) :
      Ticked a p none { a with address := none, retries := 0, state := .waitAddress }
        (start (apply none p)).2
  | assign {c : Ipv4Config} (waiting : a.state = .waitAddress) (offer : (supplied p).1 = some c) :
      Ticked a p (some (.assigned c)) { a with address := some c, state := .assigned }
        (apply (some c) (supplied p).2)
  | retry (waiting : a.state = .waitAddress) (silent : (supplied p).1 = none)
      (more : a.retries + 1 < a.maxRetries) :
      Ticked a p none { a with retries := a.retries + 1 } (supplied p).2
  | giveUp (waiting : a.state = .waitAddress) (silent : (supplied p).1 = none)
      (spent : a.maxRetries ≤ a.retries + 1) :
      Ticked a p (some (.fallback a.fallback))
        { a with retries := a.retries + 1, address := some a.fallback, state := .timeout }
        (apply (some a.fallback) (stop (supplied p).2))
  | lose (assigned : a.state = .assigned) (silent : (supplied p).1 = none) :
      Ticked a p (some .lost) { a with address := none, state := .start } (apply none (supplied p).2)
  | keep {c : Ipv4Config} (assigned : a.state = .assigned) (offer : (supplied p).1 = some c)
      (same : some c = a.address) :
      Ticked a p none a (supplied p).2
  | renew {c : Ipv4Config} (assigned : a.state = .assigned) (offer : (supplied p).1 = some c)
      (changed : some c ≠ a.address) :
      Ticked a p (some (.assigned c)) { a with address := some c } (apply (some c) (supplied p).2)
  | rest (resting : a.state = .off ∨ a.state = .timeout ∨ a.state = .linkDown) : Ticked a p none a p

theorem ticked_of_tick {r : Option AddressEvent} (ran : a.tick p j = .ok (r, a', p') j') :
    Ticked a p r a' p' := by
  cases hs : a.state with
  | start =>
    have done := Ticked.start (p := p) hs
    simp only [tick, hs] at ran
    generalize AddressProtocol.start (AddressProtocol.apply none p) = q at ran done
    obtain ⟨res, q⟩ := q
    cases res <;> simp at ran <;> obtain ⟨⟨rfl, rfl, rfl⟩, -⟩ := ran <;> exact done
  | waitAddress =>
    simp only [tick, hs] at ran
    cases offer : (AddressProtocol.supplied p).1 with
    | some c =>
      simp [offer] at ran
      obtain ⟨⟨rfl, rfl, rfl⟩, -⟩ := ran
      exact .assign hs offer
    | none =>
      by_cases more : a.retries + 1 < a.maxRetries
      · simp [offer, more] at ran
        obtain ⟨⟨rfl, rfl, rfl⟩, -⟩ := ran
        exact hs ▸ .retry hs offer more
      · simp [offer, more] at ran
        obtain ⟨⟨rfl, rfl, rfl⟩, -⟩ := ran
        exact .giveUp hs offer (Nat.le_of_not_lt more)
  | assigned =>
    simp only [tick, hs] at ran
    cases offer : (AddressProtocol.supplied p).1 with
    | none =>
      simp [offer] at ran
      obtain ⟨⟨rfl, rfl, rfl⟩, -⟩ := ran
      exact .lose hs offer
    | some c =>
      by_cases same : some c = a.address
      · simp only [offer, if_pos same] at ran
        simp at ran
        obtain ⟨⟨rfl, rfl, rfl⟩, -⟩ := ran
        exact .keep hs offer same
      · simp [offer, same] at ran
        obtain ⟨⟨rfl, rfl, rfl⟩, -⟩ := ran
        exact hs ▸ .renew hs offer same
  | off | timeout | linkDown =>
    simp [tick, hs] at ran
    obtain ⟨⟨rfl, rfl, rfl⟩, -⟩ := ran
    exact .rest (by simp [hs])

open AddressProtocol in
/-- What a link event can do. -/
inductive Reacted (a : Acquisition) (p : α) : LinkEvent → Acquisition → α → Prop
  | up {q : LinkParams} (resting : a.state = .off ∨ a.state = .linkDown) :
      Reacted a p (.up q) { a with retries := 0, state := .start } p
  | upBusy {q : LinkParams} (busy : ¬(a.state = .off ∨ a.state = .linkDown)) : Reacted a p (.up q) a p
  | down (present : a.state ≠ .linkDown) :
      Reacted a p .down { a with address := none, retries := 0, state := .linkDown } (apply none (stop p))
  | downGone (gone : a.state = .linkDown) : Reacted a p .down a p

theorem reacted_of_onLinkEvent {e : LinkEvent} (ran : a.onLinkEvent p e j = .ok (a', p') j') :
    Reacted a p e a' p' := by
  cases e with
  | up q =>
    by_cases resting : a.state = .off ∨ a.state = .linkDown
    · simp [onLinkEvent, resting] at ran
      obtain ⟨⟨rfl, rfl⟩, -⟩ := ran
      exact .up resting
    · simp only [onLinkEvent, if_neg resting] at ran
      simp at ran
      obtain ⟨⟨rfl, rfl⟩, -⟩ := ran
      exact .upBusy resting
  | down =>
    by_cases gone : a.state = .linkDown
    · simp [onLinkEvent, gone] at ran
      obtain ⟨⟨rfl, rfl⟩, -⟩ := ran
      exact .downGone gone
    · simp [onLinkEvent, gone] at ran
      obtain ⟨⟨rfl, rfl⟩, -⟩ := ran
      exact .down gone

/-! ### Steps with nothing to do -/

theorem tick_resting (resting : a.state = .off ∨ a.state = .timeout ∨ a.state = .linkDown) :
    a.tick p j = .ok (none, a, p) j := by
  rcases resting with h | h | h <;> simp [tick, h]

theorem onLinkEvent_down_gone (gone : a.state = .linkDown) : a.onLinkEvent p .down j = .ok (a, p) j := by
  simp [onLinkEvent, gone]

theorem onLinkEvent_up_busy (busy : ¬(a.state = .off ∨ a.state = .linkDown)) (q : LinkParams) :
    a.onLinkEvent p (.up q) j = .ok (a, p) j := by
  simp only [onLinkEvent, if_neg busy]
  rfl

/-! ### The invariant -/

/-- The machine's books agree with a protocol whose address in force is `last`. -/
structure Coherent (a : Acquisition) (last : Option Ipv4Config) : Prop where
  held : a.address.isSome ↔ a.state = .assigned ∨ a.state = .timeout
  fallback : a.state = .timeout → a.address = some a.fallback
  applied : a.address = last
  bounded : a.retries ≤ max 1 a.maxRetries
  /-- In `wait address` one more try still fits under the bound. -/
  waiting : a.state = .waitAddress → a.retries < max 1 a.maxRetries

theorem coherent_create (maxRetries : Nat) (fallback : Ipv4Config) :
    Coherent (create maxRetries fallback) none where
  held := by simp [create]
  fallback := by simp [create]
  applied := rfl
  bounded := by simp [create]
  waiting := by simp [create]

variable {last : α → Option Ipv4Config}

theorem Coherent.ticked (records : Records last) (c : Coherent a (last p)) {r : Option AddressEvent}
    (ticked : Ticked a p r a' p') : Coherent a' (last p') := by
  cases ticked with
  | start starting => exact ⟨by simp, by simp, by simp [records.start, records.apply], by simp, by simp⟩
  | assign waiting offer =>
    exact ⟨by simp, by simp, by simp [records.apply], c.bounded, by simp⟩
  | retry waiting silent more =>
    refine ⟨by simpa using c.held, by simp [waiting], by simpa [records.supplied] using c.applied,
      ?_, fun _ => ?_⟩ <;> (simp only; omega)
  | giveUp waiting silent spent =>
    have room := c.waiting waiting
    refine ⟨by simp, by simp, by simp [records.apply], ?_, by simp⟩
    simp only
    omega
  | lose assigned silent => exact ⟨by simp, by simp, by simp [records.apply], c.bounded, by simp⟩
  | keep assigned offer same =>
    exact ⟨c.held, c.fallback, by rw [records.supplied]; exact c.applied, c.bounded, c.waiting⟩
  | renew assigned offer changed =>
    exact ⟨by simp [assigned], by simp [assigned], by simp [records.apply], c.bounded, by simp [assigned]⟩
  | rest resting => exact c

theorem Coherent.reacted (records : Records last) (c : Coherent a (last p)) {e : LinkEvent}
    (reacted : Reacted a p e a' p') : Coherent a' (last p') := by
  cases reacted with
  | up resting =>
    have none : a.address = none := by
      rw [← Option.not_isSome_iff_eq_none, c.held]
      rcases resting with s | s <;> simp [s]
    exact ⟨by simp [none], by simp, by simpa using c.applied, by simp, by simp⟩
  | upBusy busy => exact c
  | down present => exact ⟨by simp, by simp, by simp [records.apply], by simp, by simp⟩
  | downGone gone => exact c

theorem Ticked.limits {r : Option AddressEvent} (ticked : Ticked a p r a' p') :
    a'.maxRetries = a.maxRetries ∧ a'.fallback = a.fallback := by
  cases ticked <;> exact ⟨rfl, rfl⟩

theorem Reacted.limits {e : LinkEvent} (reacted : Reacted a p e a' p') :
    a'.maxRetries = a.maxRetries ∧ a'.fallback = a.fallback := by
  cases reacted <;> exact ⟨rfl, rfl⟩

/-! ### Every run from a new machine -/

/-- The machines and logged protocols reached from a new machine with limit `maxRetries` and
fallback `fallback` by link events and ticks, while the protocol's own side may change between
calls (a new offer, a start that will fail). -/
inductive Reached (maxRetries : Nat) (fallback : Ipv4Config) : Acquisition → Logged α → Prop
  | created (inner : α) : Reached maxRetries fallback (create maxRetries fallback) ⟨inner, []⟩
  | link {a a' : Acquisition} {p p' : Logged α} {j j' : Journal} (e : LinkEvent)
      (before : Reached maxRetries fallback a p) (ran : a.onLinkEvent p e j = .ok (a', p') j') :
      Reached maxRetries fallback a' p'
  | tick {a a' : Acquisition} {p p' : Logged α} {r : Option AddressEvent} {j j' : Journal}
      (before : Reached maxRetries fallback a p) (ran : a.tick p j = .ok (r, a', p') j') :
      Reached maxRetries fallback a' p'
  | meddle {a : Acquisition} {p : Logged α} (inner : α) (before : Reached maxRetries fallback a p) :
      Reached maxRetries fallback a { p with inner }

/-- What a machine reached guarantees, over the calls it made on its protocol. -/
structure Agrees (maxRetries : Nat) (fallback : Ipv4Config) (a : Acquisition) (p : Logged α) :
    Prop where
  held : a.address.isSome ↔ a.state = .assigned ∨ a.state = .timeout
  timeout : a.state = .timeout → a.address = some fallback
  /-- The address held is the one last put into force, `none` before the first. -/
  applied : a.address = ProtocolCall.lastApplied p.calls
  bounded : a.retries ≤ max 1 maxRetries
  /-- The count a tick in `wait address` makes stays within the bound, so within a byte for a
  limit that is one. -/
  waiting : a.state = .waitAddress → a.retries + 1 ≤ max 1 maxRetries
  /-- Steps with nothing to do change nothing, and the unchanged log shows they call nothing. -/
  resting : a.state = .off ∨ a.state = .timeout ∨ a.state = .linkDown →
    ∀ j, a.tick p j = .ok (none, a, p) j
  gone : a.state = .linkDown → ∀ j, a.onLinkEvent p .down j = .ok (a, p) j
  busy : ¬(a.state = .off ∨ a.state = .linkDown) → ∀ q j, a.onLinkEvent p (.up q) j = .ok (a, p) j

variable {maxRetries : Nat} {fallback : Ipv4Config} {p p' : Logged α}

/-- The invariant and the unchanged settings hold of every machine reached: by induction on
the steps taken. -/
theorem Reached.coherent (reached : Reached maxRetries fallback a p) :
    Coherent a p.last ∧ a.maxRetries = maxRetries ∧ a.fallback = fallback := by
  induction reached with
  | created inner => exact ⟨coherent_create maxRetries fallback, rfl, rfl⟩
  | link e _ ran ih =>
    have reacted := reacted_of_onLinkEvent ran
    obtain ⟨c, limit, fb⟩ := ih
    obtain ⟨limit', fb'⟩ := reacted.limits
    exact ⟨c.reacted Logged.records reacted, limit'.trans limit, fb'.trans fb⟩
  | tick _ ran ih =>
    have ticked := ticked_of_tick ran
    obtain ⟨c, limit, fb⟩ := ih
    obtain ⟨limit', fb'⟩ := ticked.limits
    exact ⟨c.ticked Logged.records ticked, limit'.trans limit, fb'.trans fb⟩
  | meddle inner _ ih => exact ih

theorem address_agrees_with_protocol (reached : Reached maxRetries fallback a p) :
    Agrees maxRetries fallback a p := by
  obtain ⟨c, rfl, rfl⟩ := reached.coherent
  exact ⟨c.held, c.fallback, c.applied, c.bounded, c.waiting, fun resting _ => tick_resting resting,
    fun gone _ => onLinkEvent_down_gone gone, fun busy q _ => onLinkEvent_up_busy busy q⟩

def leased : Ipv4Config := ⟨Ipv4Addr.ofOctets 10 0 0 7, Ipv4Addr.ofOctets 255 0 0 0, none⟩

/-- The link comes up, the machine starts and gets the offered lease; the server then stops
answering, so the lease is lost, and the link goes down. -/
theorem leased_then_lost_agrees :
    ∃ (a : Acquisition) (p : Logged Bench.ScriptedProtocol), Reached 4 Ipv4Config.fallback a p ∧
      p.calls = [.apply none, .start, .supplied, .apply (some leased), .supplied, .apply none,
        .stop, .apply none] ∧ Agrees 4 Ipv4Config.fallback a p := by
  have up : Reached 4 Ipv4Config.fallback _ _ := Reached.link (.up ⟨.mbps100, .full⟩)
    (Reached.created ({ offer := some leased } : Bench.ScriptedProtocol)) (rfl : onLinkEvent _ _ _ #[] = _)
  have assigned := Reached.tick (Reached.tick up (rfl : tick _ _ #[] = _)) (rfl : tick _ _ #[] = _)
  have lost := Reached.tick (assigned.meddle { offer := none, starts := 1, applied := [none, some leased] })
    (rfl : tick _ _ #[] = _)
  have down := Reached.link .down lost (rfl : onLinkEvent _ _ _ #[] = _)
  exact ⟨_, _, down, rfl, address_agrees_with_protocol down⟩

end Acquisition

end Ethernet
