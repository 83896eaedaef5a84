import Ethernet.Proofs.Interface.Within
import Ethernet.Interface.Datapath
import Ethernet.Bench.ScriptedMac

/-! Why the receive loops end: each round of `receive` ends the loop or consumes one completion
(`Hands`), so every bound above the backlog gives the same run (`Agree`). `Drains` is what the
engine promises. -/
namespace Ethernet

variable {η : Type}

/-- What reading back `r` did to the backlog, from `b` to `b'`: reading back nothing added
nothing, and reading back a completion took it off, counted among those that end a frame when
it ends one. `lastDone` counts the completions `rxPoll` can still return that end a frame. -/
def Polled [MacEngine η] (lastDone : η → Nat) : Option RxCompletion → η → η → Prop
  | none, b, b' => MacEngine.pendingCompletions b' ≤ MacEngine.pendingCompletions b ∧
      lastDone b' ≤ lastDone b
  | some c, b, b' => MacEngine.pendingCompletions b' + 1 = MacEngine.pendingCompletions b ∧
      lastDone b' + c.last.toNat = lastDone b

/-- An engine whose receive backlog only drains: arming a descriptor adds no completion, and
reading one back takes it off. -/
structure Drains (η : Type) [MacEngine η] (lastDone : η → Nat) : Prop where
  provide : ∀ (s : SlotId) (b : η), Ensures (MacEngine.rxProvide s) b (fun _ b' =>
    MacEngine.pendingCompletions b' = MacEngine.pendingCompletions b ∧ lastDone b' = lastDone b)
    (fun _ => True)
  poll : ∀ b : η, Ensures MacEngine.rxPoll b (fun r b' => Polled lastDone r b b') (fun _ => True)

variable {σ β γ : Type}

theorem Drains.lift {μ : Type} [MacEngine μ] [MacEngine η] {lastDone : μ → Nat}
    (drains : Drains μ lastDone) (part : η → μ) (put : μ → η → η)
    (provide : ∀ s, (MacEngine.rxProvide s : StateT η Run _) = focus part put (MacEngine.rxProvide s))
    (poll : (MacEngine.rxPoll : StateT η Run _) = focus part put MacEngine.rxPoll)
    (pending : ∀ b, MacEngine.pendingCompletions b = MacEngine.pendingCompletions (part b))
    (back : ∀ m b, part (put m b) = m) : Drains η (fun b => lastDone (part b)) where
  provide s b := by
    rw [provide]
    exact ensures_focus ((drains.provide s (part b)).mono
      (fun _ m ⟨same, last⟩ => by simp only [pending, back, same, last, and_self]) (fun _ => id))
  poll b := by
    rw [poll]
    refine ensures_focus ((drains.poll (part b)).mono (fun r m polled => ?_) (fun _ => id))
    cases r <;> simpa only [Polled, pending, back] using polled

theorem Drains.board {μ π : Type} [MacEngine μ] {lastDone : μ → Nat} (drains : Drains μ lastDone) :
    Drains (Board μ π) (fun b => lastDone b.mac) :=
  drains.lift Board.mac (fun m b => { b with mac := m }) (fun _ => rfl) rfl (fun _ => rfl)
    (fun _ _ => rfl)

/-- The scripted engine's completions that end a frame. -/
def Bench.ScriptedMac.lastDone (m : Bench.ScriptedMac) : Nat := m.completions.countP (·.last)

/-- The scripted engine arms a slot by queueing it as armed, and reads back the head of its
completion queue. -/
theorem Bench.ScriptedMac.drains : Drains Bench.ScriptedMac Bench.ScriptedMac.lastDone where
  provide s m j := by
    cases wants : m.wantsBuffer <;> simp [MacEngine.rxProvide, MacEngine.pendingCompletions, wants, lastDone]
  poll m j := by
    cases queue : m.completions with
    | nil => simp [MacEngine.rxPoll, MacEngine.pendingCompletions, queue, Polled, lastDone]
    | cons c rest =>
      cases last : c.last <;> simp [MacEngine.rxPoll, MacEngine.pendingCompletions, queue, Polled, lastDone, last]

theorem Assembler.ensures_take_last (a : Assembler) (c : RxCompletion) (p : Pool) :
    Ensures (a.take c) p (fun r _ => r.1.isSome → c.last = true) (fun _ => True) := by
  unfold Assembler.take
  refine ensures_seq (ensures_true.mono (fun _ _ _ => ?_) (fun _ => id))
  split
  · exact ensures_seq (ensures_emit (ensures_bind (ensures_true.mono
      (fun _ _ _ => ensures_pure nofun) (fun _ => id))))
  · unfold Assembler.push
    split
    · refine ensures_seq (ensures_true.mono (fun _ _ _ => ?_) (fun _ => id))
      split
      · exact ensures_seq (ensures_emit (ensures_pure nofun))
      · exact ensures_pure nofun
    · refine ensures_seq (ensures_true.mono (fun _ _ _ => ensures_bind (ensures_get ?_)) (fun _ => id))
      split
      · exact ensures_pure fun _ => by assumption
      · exact ensures_pure nofun

theorem Pool.ensures_allocate_shortens (p : Pool) :
    Ensures Pool.allocate p (fun r p' => ∀ s, r = .ok s → p'.freeList.length + 1 = p.freeList.length)
      (fun _ => True) := by
  intro j
  cases top : p.freeList with
  | nil => cases exhausted : p.exhausted <;> simp [Pool.allocate, top, exhausted]
  | cons i rest =>
    by_cases free : p.owner ⟨i⟩ = .free
    · simp [Pool.allocate, top, free]
    · simp [Pool.allocate, top, free]

namespace Interface

open MacEngine

variable {α : Type}

/-! ### Rounds -/

/-- A round of a loop, run from `i` with any journal, either ends the loop by itself, whatever
would follow it, in a state that satisfies `ends`; or hands over to what follows at a state that
satisfies `goesOn`. -/
def Hands (round : IfRun η α γ → IfRun η α γ) (i : Interface η α) (ends : γ → Interface η α → Prop)
    (goesOn : Interface η α → Prop) : Prop :=
  ∀ j, (∃ r, (∀ next, round next i j = r) ∧ ∀ a i' j', r = .ok (a, i') j' → ends a i') ∨
    ∃ i₂ j₂, goesOn i₂ ∧ ∀ next, round next i j = next i₂ j₂

/-- Two operations that run alike from `i`: the same outcome and log, from every journal. -/
def Agree (x y : IfRun η α β) (i : Interface η α) : Prop := ∀ j, x i j = y i j

section Rounds

variable {i : Interface η α} {ends ends' : γ → Interface η α → Prop}
  {goesOn goesOn' : Interface η α → Prop} {round : IfRun η α γ → IfRun η α γ}

theorem hands_stop {x : IfRun η α γ} (h : Ensures x i ends (fun _ => True)) :
    Hands (fun _ => x) i ends goesOn := fun j =>
  .inl ⟨x i j, fun _ => rfl, fun _ _ _ ran => h.of_ok ran⟩

theorem hands_next (h : goesOn i) : Hands (fun next => next) i ends goesOn := fun j =>
  .inr ⟨i, j, h, fun _ => rfl⟩

theorem Hands.mono (h : Hands round i ends goesOn) (weaker : ∀ a i', ends a i' → ends' a i')
    (further : ∀ i₂, goesOn i₂ → goesOn' i₂) : Hands round i ends' goesOn' := fun j =>
  (h j).imp (fun ⟨r, runs, ok⟩ => ⟨r, runs, fun a i' j' ran => weaker a i' (ok a i' j' ran)⟩)
    (fun ⟨i₂, j₂, holds, runs⟩ => ⟨i₂, j₂, further i₂ holds, runs⟩)

theorem hands_bind {x : IfRun η α β} {f : β → IfRun η α γ → IfRun η α γ}
    (mid : β → Interface η α → Prop) (first : Ensures x i mid (fun _ => True))
    (rest : ∀ a i₁, mid a i₁ → Hands (f a) i₁ ends goesOn) :
    Hands (fun next => x >>= fun a => f a next) i ends goesOn := by
  intro j
  cases ran : x i j with
  | ok r j₁ =>
    obtain ⟨a, i₁⟩ := r
    rcases rest a i₁ (first.of_ok ran) j₁ with ⟨r, runs, ok⟩ | ⟨i₂, j₂, holds, runs⟩
    · exact .inl ⟨r, fun next => by dsimp only; rw [bind_apply, ran]; exact runs next, ok⟩
    · exact .inr ⟨i₂, j₂, holds, fun next => by dsimp only; rw [bind_apply, ran]; exact runs next⟩
  | error f j₁ =>
    refine .inl ⟨.error f j₁, fun next => ?_, fun _ _ _ halted => by cases halted⟩
    dsimp only
    rw [bind_apply, ran]

theorem hands_get {f : Interface η α → IfRun η α γ → IfRun η α γ} (h : Hands (f i) i ends goesOn) :
    Hands (fun next => get >>= fun s => f s next) i ends goesOn :=
  hands_bind (fun s i' => i = s ∧ i = i') (ensures_get ⟨rfl, rfl⟩) fun _ _ ⟨got, same⟩ =>
    got ▸ same ▸ h

theorem hands_ite {c : Prop} [Decidable c] {x y : IfRun η α γ → IfRun η α γ}
    (yes : c → Hands x i ends goesOn) (no : ¬c → Hands y i ends goesOn) :
    Hands (fun next => if c then x next else y next) i ends goesOn := by
  by_cases hc : c
  · simpa only [if_pos hc] using yes hc
  · simpa only [if_neg hc] using no hc

/-- A round followed by `next` ensures what the round ensures where it ends the loop and what
`next` ensures from where the round hands over. -/
theorem Hands.ensures {next : IfRun η α γ} {post : γ → Interface η α → Prop}
    (h : Hands round i ends goesOn) (stops : ∀ a i', ends a i' → post a i')
    (rest : ∀ i₂, goesOn i₂ → Ensures next i₂ post (fun _ => True)) :
    Ensures (round next) i post (fun _ => True) := by
  intro j
  rcases h j with ⟨r, runs, ok⟩ | ⟨i₂, j₂, holds, runs⟩
  · rw [runs next]
    cases r with
    | ok r j' => exact stops r.1 r.2 (ok r.1 r.2 j' rfl)
    | error => trivial
  · rw [runs next]
    exact rest i₂ holds j₂

theorem Hands.agree {next next' : IfRun η α γ} (h : Hands round i ends goesOn)
    (same : ∀ i₂, goesOn i₂ → Agree next next' i₂) : Agree (round next) (round next') i := by
  intro j
  rcases h j with ⟨r, runs, -⟩ | ⟨i₂, j₂, holds, runs⟩
  · rw [runs, runs]
  · rw [runs, runs]
    exact same i₂ holds j₂

theorem Agree.refl {x : IfRun η α β} : Agree x x i := fun _ => rfl

theorem Agree.bind {x y : IfRun η α β} {f g : β → IfRun η α γ} (first : Agree x y i)
    (mid : β → Interface η α → Prop) (ensures : Ensures x i mid (fun _ => True))
    (rest : ∀ a i₁, mid a i₁ → Agree (f a) (g a) i₁) : Agree (x >>= f) (y >>= g) i := by
  intro j
  rw [bind_apply, bind_apply, ← first j]
  cases ran : x i j with
  | ok r j₁ =>
    obtain ⟨a, i₁⟩ := r
    exact rest a i₁ (ensures.of_ok ran) j₁
  | error => rfl

theorem agree_ite {c : Prop} [Decidable c] {x x' y y' : IfRun η α β}
    (yes : c → Agree x x' i) (no : ¬c → Agree y y' i) :
    Agree (if c then x else y) (if c then x' else y') i := by
  by_cases hc : c
  · simpa only [if_pos hc] using yes hc
  · simpa only [if_neg hc] using no hc

end Rounds

variable [MacEngine η] {lastDone : η → Nat}

/-! ### The backlog -/

/-- The receive backlog of the engine: the completions `rxPoll` can still return, and those of
them that end a frame. -/
def backlog (lastDone : η → Nat) (i : Interface η α) : Nat × Nat :=
  (pendingCompletions i.board, lastDone i.board)

/-- From `i` to `i'` the backlog has not grown, and has shrunk in both counts when the frame
`r` was delivered. -/
def Consumed (lastDone : η → Nat) (r : Option γ) (i i' : Interface η α) : Prop :=
  pendingCompletions i'.board + r.isSome.toNat ≤ pendingCompletions i.board ∧
    lastDone i'.board + r.isSome.toNat ≤ lastDone i.board

theorem Consumed.of_le {r : Option γ} {i i₁ i' : Interface η α} (later : Consumed lastDone r i₁ i')
    (pending : pendingCompletions i₁.board ≤ pendingCompletions i.board)
    (last : lastDone i₁.board ≤ lastDone i.board) : Consumed lastDone r i i' :=
  ⟨later.1.trans pending, later.2.trans last⟩

/-- Pool operations and arming a descriptor leave the backlog alone, so refilling does. -/
theorem backlogSteps (drains : Drains η lastDone) :
    RefillSteps (Within (Kept (backlog lastDone) : Interface η α → Interface η α → Prop)) where
  toClosed := Footprint.closed
  onPool := within_onPool fun _ _ => rfl
  provide s := within_onBoard_of (drains.provide s) fun _ _ ⟨pending, last⟩ => by
    simp [Kept, backlog, pending, last]

/-- Reading back one completion ends the loop with the backlog not grown, and shrunk in both
counts when it finishes a frame; or it hands over with one completion fewer. -/
theorem hands_takeNext (drains : Drains η lastDone) (i : Interface η α) :
    Hands takeNext i (fun r i' => Consumed lastDone r i i') (fun i₂ =>
      pendingCompletions i₂.board + 1 = pendingCompletions i.board ∧
        lastDone i₂.board ≤ lastDone i.board) := by
  unfold takeNext
  refine hands_bind (fun r i₁ => Polled lastDone r i.board i₁.board)
    (ensures_focus (drains.poll i.board)) fun polled i₁ drained => ?_
  cases polled with
  | none =>
    obtain ⟨pending, last⟩ := drained
    exact hands_stop (ensures_pure ⟨by simpa using pending, by simpa using last⟩)
  | some c =>
    obtain ⟨pending, last⟩ := drained
    refine hands_get ?_
    refine hands_bind (fun r i₂ => (r.1.isSome → c.last = true) ∧ i₂.board = i₁.board)
      (ensures_focus ((Assembler.ensures_take_last i₁.rx c i₁.pool).mono
        (fun _ _ finished => ⟨finished, rfl⟩) (fun _ => id))) ?_
    rintro ⟨frame, a⟩ i₂ ⟨finished, board⟩
    refine hands_bind (fun _ i₃ => i₃.board = i₁.board) (ensures_modify board) ?_
    rintro _ i₃ board₃
    cases frame with
    | some f =>
      have ends : c.last = true := finished rfl
      simp only [ends, Bool.toNat_true] at last
      exact hands_stop (ensures_pure ⟨by simp [board₃]; omega, by simp [board₃]; omega⟩)
    | none => exact hands_next ⟨by rw [board₃, pending], by rw [board₃, ← last]; omega⟩

/-- One round of the receive loop, going on with `next` when it finishes no frame. -/
def receiveRound (next : IfRun η α (Option Chain)) : IfRun η α (Option Chain) := do
  let starved ← refill
  if starved && (← get).rx.isAssembling then
    let a ← onPool (← get).rx.discard
    modify fun i => { i with rx := a }
  takeNext next

theorem receiveFor_succ (fuel : Nat) :
    (receiveFor (fuel + 1) : IfRun η α _) = receiveRound (receiveFor fuel) := rfl

/-- Each round of the receive loop ends the loop, or consumes one completed descriptor: the
refill at its top and giving up a starved frame leave the backlog alone. -/
theorem hands_receiveRound (drains : Drains η lastDone) (i : Interface η α) :
    Hands receiveRound i (fun r i' => Consumed lastDone r i i') (fun i₂ =>
      pendingCompletions i₂.board + 1 = pendingCompletions i.board ∧
        lastDone i₂.board ≤ lastDone i.board) := by
  -- whatever leaves the backlog as it was, the rest of the round sees as `i`
  have rest : ∀ i₁, backlog lastDone i₁ = backlog lastDone i → Hands takeNext i₁
      (fun r i' => Consumed lastDone r i i') (fun i₂ =>
        pendingCompletions i₂.board + 1 = pendingCompletions i.board ∧
          lastDone i₂.board ≤ lastDone i.board) := by
    intro i₁ same
    simp only [backlog, Prod.mk.injEq] at same
    exact (hands_takeNext drains i₁).mono
      (fun _ _ consumed => consumed.of_le same.1.le same.2.le)
      (fun _ ⟨pending, last⟩ => ⟨pending.trans same.1, same.2 ▸ last⟩)
  unfold receiveRound
  refine hands_bind _ ((backlogSteps drains).refill i) fun starved i₁ same₁ => ?_
  refine hands_get ?_
  dsimp only
  refine hands_ite (fun _ => ?_) (fun _ => rest i₁ same₁)
  refine hands_get ?_
  refine hands_bind _ ((backlogSteps drains).onPool _ i₁) fun a i₂ same₂ => ?_
  refine hands_bind _ (within_modify (R := Kept (backlog lastDone)) (f := fun i => { i with rx := a }) (fun _ => rfl) i₂) fun _ i₃ same₃ => ?_
  exact rest i₃ (same₃.trans (same₂.trans same₁))

theorem ensures_receiveFor (drains : Drains η lastDone) :
    ∀ (fuel : Nat) (i : Interface η α),
      Ensures (receiveFor fuel) i (fun r i' => Consumed lastDone r i i') (fun _ => True)
  | 0, _ => ensures_pure ⟨le_rfl, le_rfl⟩
  | fuel + 1, i => by
    rw [receiveFor_succ]
    exact (hands_receiveRound drains i).ensures (fun _ _ => id) fun i₂ ⟨pending, last⟩ =>
      (ensures_receiveFor drains fuel i₂).mono
        (fun _ _ consumed => consumed.of_le (by omega) last) (fun _ => id)

theorem agree_receiveFor (drains : Drains η lastDone) :
    ∀ (n n' : Nat) (i : Interface η α), pendingCompletions i.board < n →
      pendingCompletions i.board < n' → Agree (receiveFor n) (receiveFor n') i
  | 0, _, _, short, _ => absurd short (Nat.not_lt_zero _)
  | _, 0, _, _, short' => absurd short' (Nat.not_lt_zero _)
  | n + 1, n' + 1, i, _, _ => by
    rw [receiveFor_succ, receiveFor_succ]
    exact (hands_receiveRound drains i).agree fun i₂ ⟨fewer, _⟩ =>
      agree_receiveFor drains n n' i₂ (by omega) (by omega)

theorem ensures_receive (drains : Drains η lastDone) (i : Interface η α) :
    Ensures receive i (fun r i' => Consumed lastDone r i i') (fun _ => True) := by
  unfold receive
  refine ensures_bind (ensures_get ?_)
  split
  · exact ensures_pure ⟨le_rfl, le_rfl⟩
  · exact ensures_receiveFor drains _ i

theorem agree_receive (drains : Drains η lastDone) {i : Interface η α} (running : i.initialized = true)
    {n : Nat} (short : pendingCompletions i.board < n) : Agree (receiveFor n) receive i := by
  intro j
  have loop : receive i j = receiveFor (pendingCompletions i.board + 1) i j := by
    simp [receive, running]
  rw [loop]
  exact agree_receiveFor drains n _ i short (Nat.lt_succ_self _) j

theorem ensures_pollInputFor (drains : Drains η lastDone) :
    ∀ (fuel : Nat) (i : Interface η α), Ensures (pollInputFor fuel) i
      (fun fs i' => fs.length + lastDone i'.board ≤ lastDone i.board) (fun _ => True)
  | 0, _ => ensures_pure (by simp)
  | fuel + 1, i => by
    unfold pollInputFor
    refine ensures_bind ((ensures_receive drains i).mono (fun r i₁ consumed => ?_) (fun _ => id))
    cases r with
    | none => exact ensures_pure (by simpa using consumed.2)
    | some f =>
      have last := consumed.2
      simp only [Option.isSome_some, Bool.toNat_true] at last
      exact ensures_bind ((ensures_pollInputFor drains fuel i₁).mono
        (fun fs i' delivered => ensures_pure (by simp only [List.length_cons]; omega)) (fun _ => id))

theorem agree_pollInputFor (drains : Drains η lastDone) :
    ∀ (n n' : Nat) (i : Interface η α), pendingCompletions i.board < n →
      pendingCompletions i.board < n' → Agree (pollInputFor n) (pollInputFor n') i
  | 0, _, _, short, _ => absurd short (Nat.not_lt_zero _)
  | _, 0, _, _, short' => absurd short' (Nat.not_lt_zero _)
  | n + 1, n' + 1, i, _, _ => by
    unfold pollInputFor
    refine Agree.refl.bind _ (ensures_receive drains i) fun r i₁ consumed => ?_
    cases r with
    | none => exact Agree.refl
    | some f =>
      have fewer := consumed.1
      simp only [Option.isSome_some, Bool.toNat_true] at fewer
      exact (agree_pollInputFor drains n n' i₁ (by omega) (by omega)).bind _ ensures_true
        fun _ _ _ => Agree.refl

theorem agree_refillFor :
    ∀ (n n' : Nat) (i : Interface η α), i.pool.freeList.length < n →
      i.pool.freeList.length < n' → Agree (refillFor n) (refillFor n') i
  | 0, _, _, short, _ => absurd short (Nat.not_lt_zero _)
  | _, 0, _, _, short' => absurd short' (Nat.not_lt_zero _)
  | n + 1, n' + 1, i, _, _ => by
    unfold refillFor
    refine Agree.refl.bind (fun i₁ i₂ => i = i₁ ∧ i = i₂) (ensures_get ⟨rfl, rfl⟩) ?_
    rintro _ _ ⟨rfl, rfl⟩
    refine agree_ite (fun _ => Agree.refl) fun _ => agree_ite (fun _ => Agree.refl) fun _ => ?_
    refine Agree.refl.bind
      (fun r i₁ => ∀ s, r = .ok s → i₁.pool.freeList.length + 1 = i.pool.freeList.length)
      (ensures_focus (Pool.ensures_allocate_shortens i.pool)) ?_
    rintro (e | s) i₁ shorter
    · exact Agree.refl
    refine Agree.refl.bind (fun _ i₂ => i₂.pool = i₁.pool)
      (ensures_focus (ensures_true.mono (fun _ _ _ => rfl) (fun _ => id))) ?_
    rintro (s' | ⟨⟩) i₂ pool
    · exact Agree.refl
    · have fewer := shorter s rfl
      exact agree_refillFor n n' i₂ (by rw [pool]; omega) (by rw [pool]; omega)

/-- What ends the receive loops of an interface at `i`, on an engine whose backlog `lastDone`
counts the completions that end a frame. -/
structure Ends (lastDone : η → Nat) (i : Interface η α) : Prop where
  /-- Refilling arms only descriptors that have not completed. -/
  refill_keeps : Ensures refill i (fun _ i' => backlog lastDone i' = backlog lastDone i)
    (fun _ => True)
  /-- A bound above the free list is never what stops refilling. -/
  refill_ends : ∀ n, i.pool.freeList.length < n → Agree (refillFor n) refill i
  /-- Each round of the receive loop ends it, or consumes one completed descriptor. -/
  round : Hands receiveRound i (fun r i' => Consumed lastDone r i i') (fun i₂ =>
    pendingCompletions i₂.board + 1 = pendingCompletions i.board ∧
      lastDone i₂.board ≤ lastDone i.board)
  /-- A bound above the backlog is never what stops receiving. -/
  receive_ends : i.initialized = true → ∀ n, pendingCompletions i.board < n →
    Agree (receiveFor n) receive i
  /-- Nor what stops `pollInput`. -/
  pollInput_ends : ∀ n, pendingCompletions i.board < n → Agree (pollInputFor n) pollInput i
  /-- `pollInput` delivers at most as many frames as completions that end one were pending. -/
  delivers : Ensures pollInput i (fun fs _ => fs.length ≤ lastDone i.board) (fun _ => True)

end Interface

open Interface MacEngine in
theorem Drains.ends {α : Type} [MacEngine η] {lastDone : η → Nat} (drains : Drains η lastDone)
    (i : Interface η α) : i.Ends lastDone where
  refill_keeps := (backlogSteps drains).refill i
  refill_ends n short j := by
    have loop : (refill : IfRun η α Bool) i j = refillFor (i.pool.freeList.length + 1) i j := rfl
    rw [loop]
    exact agree_refillFor n _ i short (Nat.lt_succ_self _) j
  round := hands_receiveRound drains i
  receive_ends running _ short := agree_receive drains running short
  pollInput_ends n short j := by
    have loop : (pollInput : IfRun η α _) i j =
        pollInputFor (pendingCompletions i.board + 1) i j := rfl
    rw [loop]
    exact agree_pollInputFor drains n _ i short (Nat.lt_succ_self _) j
  delivers := ensures_bind (ensures_get ((ensures_pollInputFor drains _ i).mono
    (fun _ _ delivered => by omega) (fun _ => id)))

end Ethernet
