import Ethernet.Proofs.Address.Coherence

/-! Address acquisition gives up after a bounded number of tries: unanswered, the machine falls
back after `max 1 m` ticks in `wait address`; answered within them, it is `assigned`. -/
namespace Ethernet

namespace Logged

/-! What each call does to a logged protocol. -/

variable {α : Type} [AddressProtocol α] (i : α) (cs : List ProtocolCall) (x : Option Ipv4Config)

@[simp] theorem apply_eq :
    AddressProtocol.apply x (⟨i, cs⟩ : Logged α) = ⟨AddressProtocol.apply x i, cs ++ [.apply x]⟩ := rfl

@[simp] theorem stop_eq :
    AddressProtocol.stop (⟨i, cs⟩ : Logged α) = ⟨AddressProtocol.stop i, cs ++ [.stop]⟩ := rfl

@[simp] theorem start_eq :
    AddressProtocol.start (⟨i, cs⟩ : Logged α) =
      ((AddressProtocol.start i).1, ⟨(AddressProtocol.start i).2, cs ++ [.start]⟩) := rfl

@[simp] theorem supplied_eq :
    AddressProtocol.supplied (⟨i, cs⟩ : Logged α) =
      ((AddressProtocol.supplied i).1, ⟨(AddressProtocol.supplied i).2, cs ++ [.supplied]⟩) := rfl

end Logged

namespace Acquisition

variable {α : Type} [AddressProtocol α]

/-- `n` ticks in a row: each tick's event with the phase it leaves the machine in. -/
def ticks : Nat → StateT (Acquisition × α) Run (List (Option AddressEvent × AcquisitionState))
  | 0 => pure []
  | n + 1 => do
    let (a, p) ← get
    let (e, a, p) ← (a.tick p : Run _)
    set (a, p)
    return (e, a.state) :: (← ticks n)

/-- The protocol after `k` polls for an address. -/
def polled (q : α) (k : Nat) : α := (fun r => (AddressProtocol.supplied r).2)^[k] q

/-- The first `n` polls for an address from `q` go unanswered. -/
def Unanswered (q : α) (n : Nat) : Prop := ∀ k < n, (AddressProtocol.supplied (polled q k)).1 = none

@[simp] theorem polled_zero (q : α) : polled q 0 = q := rfl

variable {a a' : Acquisition} {p p' : α} {r : Option AddressEvent}

theorem Ticked.returns (ticked : Ticked a p r a' p') (j : Journal) :
    ∃ j', a.tick p j = .ok (r, a', p') j' := by
  cases ticked with
  | start starting =>
    simp only [tick, starting]
    cases (AddressProtocol.start (AddressProtocol.apply none p)).1 <;> simp
  | assign waiting offer => simp [tick, waiting, offer]
  | retry waiting silent more => simp [tick, waiting, silent, more]
  | giveUp waiting silent spent => simp [tick, waiting, silent, Nat.not_lt.mpr spent]
  | lose assigned silent => simp [tick, assigned, silent]
  | keep assigned offer same =>
    simp only [tick, assigned, offer, if_pos same]
    simp
  | renew assigned offer changed => simp [tick, assigned, offer, changed]
  | rest resting => exact ⟨j, tick_resting resting⟩

theorem returns_ticks_zero : Returns (ticks 0 : StateT (Acquisition × α) Run _) (a, p) [] (a, p) :=
  fun j => ⟨j, rfl⟩

theorem Ticked.returns_ticks {n : Nat} {rest : List (Option AddressEvent × AcquisitionState)}
    {after : Acquisition × α} (ticked : Ticked a p r a' p') (later : Returns (ticks n) (a', p') rest after) :
    Returns (ticks (n + 1)) (a, p) ((r, a'.state) :: rest) after := by
  intro j
  obtain ⟨j₁, ran⟩ := ticked.returns j
  obtain ⟨j₂, ranRest⟩ := later j₁
  exact ⟨j₂, by simp [ticks, ran, ranRest]⟩

/-! ### Unanswered polls on a logged protocol -/

variable {q : α} {calls : List ProtocolCall}

/-- Polls that go unanswered while tries remain only count: the machine stays in
`wait address`, and the log shows one poll each; the run then goes on as `later` does. -/
theorem returns_ticks_waiting (n : Nat) {m : Nat} {rest : List (Option AddressEvent × AcquisitionState)}
    {done : Acquisition × Logged α} (waiting : a.state = .waitAddress)
    (room : a.retries + n < max 1 a.maxRetries) (silent : Unanswered q n)
    (later : Returns (ticks m)
      ({ a with retries := a.retries + n }, ⟨polled q n, calls ++ List.replicate n ProtocolCall.supplied⟩) rest done) :
    Returns (ticks (n + m)) (a, (⟨q, calls⟩ : Logged α)) (List.replicate n (none, .waitAddress) ++ rest)
      done := by
  induction n generalizing a q calls with
  | zero =>
    simp only [Nat.add_zero, List.replicate_zero, List.append_nil, polled_zero] at later
    simpa using later
  | succ n ih =>
    -- the first poll is a retry: one more try still fits under the limit
    have more : a.retries + 1 < a.maxRetries := by
      rcases Nat.le_total a.maxRetries 1 with low | high
      · rw [Nat.max_eq_left low] at room; omega
      · rw [Nat.max_eq_right high] at room; omega
    have ticked : Ticked a (⟨q, calls⟩ : Logged α) none { a with retries := a.retries + 1 }
        ⟨(AddressProtocol.supplied q).2, calls ++ [ProtocolCall.supplied]⟩ :=
      .retry waiting (silent 0 (Nat.succ_pos n)) more
    have tries : a.retries + (n + 1) = a.retries + 1 + n := by omega
    have protocol : polled q (n + 1) = polled (AddressProtocol.supplied q).2 n :=
      Function.iterate_succ_apply _ n q
    have log : calls ++ List.replicate (n + 1) ProtocolCall.supplied =
        calls ++ [ProtocolCall.supplied] ++ List.replicate n ProtocolCall.supplied := by
      simp [List.replicate_succ]
    rw [tries, protocol, log] at later
    have rest' := @ih { a with retries := a.retries + 1 } (AddressProtocol.supplied q).2
      (calls ++ [ProtocolCall.supplied]) waiting (by simp only; omega)
      (fun k lt => by simpa [polled, Function.iterate_succ_apply] using silent (k + 1) (by omega)) later
    have count : n + 1 + m = n + m + 1 := by omega
    rw [count, List.replicate_succ, List.cons_append]
    simpa [waiting] using ticked.returns_ticks rest'

theorem returns_ticks_resting (n : Nat) (resting : a.state = .off ∨ a.state = .timeout ∨ a.state = .linkDown) :
    Returns (ticks n) (a, p) (List.replicate n (none, a.state)) (a, p) := by
  induction n with
  | zero => exact returns_ticks_zero
  | succ n ih => exact (Ticked.rest resting).returns_ticks ih

/-! ### From `start` -/

variable (a) (q) (calls)

/-- The machine in `wait address` after the start tick and `n` unanswered polls. -/
def waitedFor (n : Nat) : Acquisition := { a with address := none, retries := n, state := .waitAddress }

/-- The logged protocol after the start tick and `n` unanswered polls. -/
def loggedFor (n : Nat) : Logged α :=
  ⟨polled (AddressProtocol.start (AddressProtocol.apply none q)).2 n,
    calls ++ [ProtocolCall.apply none, ProtocolCall.start] ++ List.replicate n ProtocolCall.supplied⟩

theorem returns_ticks_started (starting : a.state = .start) {n m : Nat}
    {rest : List (Option AddressEvent × AcquisitionState)} {done : Acquisition × Logged α}
    (inTime : n < max 1 a.maxRetries)
    (silent : Unanswered (AddressProtocol.start (AddressProtocol.apply none q)).2 n)
    (later : Returns (ticks m) (waitedFor a n, loggedFor q calls n) rest done) :
    Returns (ticks (n + m + 1)) (a, ⟨q, calls⟩)
      (List.replicate (n + 1) (none, .waitAddress) ++ rest) done := by
  have started : Ticked a (⟨q, calls⟩ : Logged α) none (waitedFor a 0)
      ⟨(AddressProtocol.start (AddressProtocol.apply none q)).2, calls ++ [ProtocolCall.apply none, ProtocolCall.start]⟩ := by
    simpa [waitedFor] using Ticked.start (p := (⟨q, calls⟩ : Logged α)) starting
  have counted : ({ waitedFor a 0 with retries := (waitedFor a 0).retries + n } : Acquisition) =
      waitedFor a n := by
    simp [waitedFor]
  have polls : Returns (ticks (n + m)) (waitedFor a 0,
      (⟨(AddressProtocol.start (AddressProtocol.apply none q)).2, calls ++ [ProtocolCall.apply none, ProtocolCall.start]⟩ : Logged α))
      (List.replicate n (none, .waitAddress) ++ rest) done :=
    returns_ticks_waiting n rfl (by simpa [waitedFor] using inTime) silent (by rw [counted]; exact later)
  rw [List.replicate_succ, List.cons_append]
  exact started.returns_ticks polls

/-- With every poll unanswered, the machine spends `max 1 m` ticks in `wait address`; the next
tick stops the protocol, puts the fallback into force and rests in `timeout`, where ticks and
reports of the link coming up change nothing. -/
theorem times_out_when_unanswered (starting : a.state = .start)
    (silent : Unanswered (AddressProtocol.start (AddressProtocol.apply none q)).2 (max 1 a.maxRetries)) :
    ∃ done : Acquisition × Logged α,
      (∀ extra : Nat, Returns (ticks (max 1 a.maxRetries + 1 + extra)) (a, ⟨q, calls⟩)
        (List.replicate (max 1 a.maxRetries) (none, .waitAddress) ++
          (some (.fallback a.fallback), .timeout) :: List.replicate extra (none, .timeout)) done) ∧
      done.1.state = .timeout ∧ done.1.address = some a.fallback ∧
      done.2.calls = calls ++ [ProtocolCall.apply none, ProtocolCall.start] ++
        List.replicate (max 1 a.maxRetries) ProtocolCall.supplied ++ [ProtocolCall.stop, ProtocolCall.apply (some a.fallback)] ∧
      ∀ (l : LinkParams) (j : Journal), done.1.onLinkEvent done.2 (.up l) j = .ok done j := by
  obtain ⟨k, hk⟩ : ∃ k, max 1 a.maxRetries = k + 1 :=
    ⟨max 1 a.maxRetries - 1, (Nat.sub_add_cancel (Nat.le_max_left 1 a.maxRetries)).symm⟩
  rw [hk] at silent ⊢
  -- the `k + 1`-th poll gives up: the limit is reached
  have spent : (waitedFor a k).maxRetries ≤ (waitedFor a k).retries + 1 := by
    have := Nat.le_max_right 1 a.maxRetries
    simp only [waitedFor]
    omega
  have giveUp := Ticked.giveUp (p := loggedFor q calls k) rfl (silent k (by omega)) spent
  set timedOut : Acquisition :=
    { waitedFor a k with retries := k + 1, address := some a.fallback, state := .timeout }
  have resting : timedOut.state = .off ∨ timedOut.state = .timeout ∨ timedOut.state = .linkDown := by
    simp [timedOut]
  set loggedOut : Logged α := AddressProtocol.apply (some a.fallback)
    (AddressProtocol.stop (AddressProtocol.supplied (loggedFor q calls k)).2)
  refine ⟨(timedOut, loggedOut), fun extra => ?_, rfl, rfl, ?_,
    fun l j => onLinkEvent_up_busy (by simp [timedOut]) l⟩
  · have all := returns_ticks_started a q calls starting (by omega) (fun i lt => silent i (by omega))
      (giveUp.returns_ticks (returns_ticks_resting extra resting))
    rw [show k + 1 + 1 + extra = k + (extra + 1) + 1 by omega]
    exact all
  · simp [loggedOut, loggedFor, List.replicate_succ']

/-- When the `n + 1`-th poll (`n + 1 ≤ max 1 m`) is the first answered, that tick puts the
address into force and the machine is `assigned`. -/
theorem assigned_when_answered (starting : a.state = .start) (n : Nat) (c : Ipv4Config)
    (inTime : n < max 1 a.maxRetries)
    (silent : Unanswered (AddressProtocol.start (AddressProtocol.apply none q)).2 n)
    (answer : (AddressProtocol.supplied
      (polled (AddressProtocol.start (AddressProtocol.apply none q)).2 n)).1 = some c) :
    ∃ done : Acquisition × Logged α,
      Returns (ticks (n + 2)) (a, ⟨q, calls⟩)
        (List.replicate (n + 1) (none, .waitAddress) ++ [(some (.assigned c), .assigned)]) done ∧
      done.1.state = .assigned ∧ done.1.address = some c ∧
      done.2.calls = calls ++ [ProtocolCall.apply none, ProtocolCall.start] ++ List.replicate (n + 1) ProtocolCall.supplied ++
        [ProtocolCall.apply (some c)] := by
  have assign := Ticked.assign (a := waitedFor a n) (p := loggedFor q calls n) rfl answer
  refine ⟨_, returns_ticks_started a q calls starting inTime silent
    (assign.returns_ticks returns_ticks_zero), rfl, rfl, ?_⟩
  simp [loggedFor, List.replicate_succ']

/-- Address acquisition from `start` is bounded: unanswered, it falls back after exactly
`max 1 m` ticks in `wait address` and then rests; answered at a poll within the bound, it is
assigned that address. The protocol is started once either way. -/
theorem acquisition_settles_within_tries (starting : a.state = .start) :
    (Unanswered (AddressProtocol.start (AddressProtocol.apply none q)).2 (max 1 a.maxRetries) →
      ∃ done : Acquisition × Logged α,
        (∀ extra : Nat, Returns (ticks (max 1 a.maxRetries + 1 + extra)) (a, ⟨q, calls⟩)
          (List.replicate (max 1 a.maxRetries) (none, .waitAddress) ++
            (some (.fallback a.fallback), .timeout) :: List.replicate extra (none, .timeout)) done) ∧
        done.1.state = .timeout ∧ done.1.address = some a.fallback ∧
        done.2.calls = calls ++ [ProtocolCall.apply none, ProtocolCall.start] ++
          List.replicate (max 1 a.maxRetries) ProtocolCall.supplied ++ [ProtocolCall.stop, ProtocolCall.apply (some a.fallback)] ∧
        ∀ (l : LinkParams) (j : Journal), done.1.onLinkEvent done.2 (.up l) j = .ok done j) ∧
    (∀ n c, n < max 1 a.maxRetries →
      Unanswered (AddressProtocol.start (AddressProtocol.apply none q)).2 n →
      (AddressProtocol.supplied
        (polled (AddressProtocol.start (AddressProtocol.apply none q)).2 n)).1 = some c →
      ∃ done : Acquisition × Logged α,
        Returns (ticks (n + 2)) (a, ⟨q, calls⟩)
          (List.replicate (n + 1) (none, .waitAddress) ++ [(some (.assigned c), .assigned)]) done ∧
        done.1.state = .assigned ∧ done.1.address = some c ∧
        done.2.calls = calls ++ [ProtocolCall.apply none, ProtocolCall.start] ++ List.replicate (n + 1) ProtocolCall.supplied ++
          [ProtocolCall.apply (some c)]) :=
  ⟨times_out_when_unanswered a q calls starting,
    fun n c inTime silent answer => assigned_when_answered a q calls starting n c inTime silent answer⟩

theorem four_unanswered_polls_fall_back :
    ({ maxRetries := 4, fallback := .fallback, state := .start } : Acquisition).state = .start ∧
    Unanswered (AddressProtocol.start (AddressProtocol.apply none ({} : Bench.ScriptedProtocol))).2
      (max 1 4) ∧
    ∃ done : Acquisition × Logged Bench.ScriptedProtocol,
      (∀ extra : Nat, Returns (ticks (max 1 4 + 1 + extra))
        (({ maxRetries := 4, fallback := .fallback, state := .start } : Acquisition), ⟨{}, []⟩)
        (List.replicate (max 1 4) (none, .waitAddress) ++
          (some (.fallback .fallback), .timeout) :: List.replicate extra (none, .timeout)) done) ∧
      done.1.state = .timeout ∧ done.1.address = some .fallback ∧
      done.2.calls = [] ++ [ProtocolCall.apply none, ProtocolCall.start] ++ List.replicate (max 1 4) ProtocolCall.supplied ++
        [ProtocolCall.stop, ProtocolCall.apply (some .fallback)] ∧
      ∀ (l : LinkParams) (j : Journal), done.1.onLinkEvent done.2 (.up l) j = .ok done j :=
  have silent : Unanswered (AddressProtocol.start
      (AddressProtocol.apply none ({} : Bench.ScriptedProtocol))).2 (max 1 4) := by
    unfold Unanswered
    decide
  ⟨rfl, silent, (acquisition_settles_within_tries
    ({ maxRetries := 4, fallback := .fallback, state := .start } : Acquisition)
    ({} : Bench.ScriptedProtocol) [] rfl).1 silent⟩

end Acquisition

end Ethernet
