import Ethernet.Proofs.Station.Invariant

/-! Receiving over the scripted engine keeps the invariant. -/
namespace Ethernet

namespace Interface

open Bench

variable {α : Type} {i i₁ i₂ : Interface ScriptedBoard α} {others : List SlotId}
  {held : List (Chain × List UInt8)} {done : List Mark} {dl : List (List UInt8)}

/-- The engine holds the same completions and the slots the same bytes, so the arrivals still to
be taken read the same. -/
structure Pending (i i' : Interface ScriptedBoard α) : Prop where
  completions : i'.board.mac.completions = i.board.mac.completions
  memory : i'.pool.memory = i.pool.memory

theorem Pending.refl (i : Interface ScriptedBoard α) : i.Pending i := ⟨rfl, rfl⟩

theorem Pending.trans (first : i.Pending i₁) (second : i₁.Pending i₂) : i.Pending i₂ :=
  ⟨second.completions.trans first.completions, second.memory.trans first.memory⟩

theorem Steady.pending (steady : i.Steady i₁) : i.Pending i₁ :=
  ⟨steady.queues.completions, by rw [steady.pool]⟩

theorem Pending.arrivals (pending : i.Pending i₁) :
    i₁.board.mac.completions.map i₁.pool.arrivalOf = i.board.mac.completions.map i.pool.arrivalOf := by
  rw [pending.completions, Pool.arrivalOf_congr pending.memory]

/-! ### Arming descriptors -/

theorem Faithful.ensures_refillFor (fuel : Nat) (inv : i.Faithful others held done dl)
    (running : i.initialized = true) :
    Ensures (refillFor fuel : IfRun ScriptedBoard α Bool) i
      (fun _ i' => i'.Faithful others held done dl ∧ i.Pending i' ∧ i'.initialized = true)
      (fun _ => False) := by
  induction fuel generalizing i with
  | zero => exact ensures_pure ⟨inv, .refl i, running⟩
  | succ fuel ih =>
    unfold refillFor
    refine ensures_bind (ensures_get ?_)
    cases wants : i.board.mac.wantsBuffer
    · simp only [rxWantsBuffer_board, wants, Bool.not_false, if_true]
      exact ensures_pure ⟨inv, .refl i, running⟩
    cases exhausted : i.pool.exhausted
    · simp only [rxWantsBuffer_board, wants, Bool.not_true, Bool.false_eq_true, if_false]
      apply ensures_bind
      refine ensures_focus (inv.sound.books.ensures_allocate.mono (fun r p' post => ?_) (fun _ => id))
      cases r with
      | error _ =>
        obtain ⟨same, books⟩ := post
        exact ensures_pure ⟨inv.of_books same books, ⟨rfl, same.2.1⟩, running⟩
      | ok s =>
        obtain ⟨same, books⟩ := post
        have armed : i.Pending ({ i with pool := p' }.withMac
            { i.board.mac with armed := i.board.mac.armed ++ [s] }) := ⟨rfl, same.2.1⟩
        refine Returns.bind (returns_rxProvide wants) ?_
        exact (ih (inv.arm running wants same books) running).mono
          (fun _ _ ⟨inv', pending, running'⟩ => ⟨inv', armed.trans pending, running'⟩) (fun _ => id)
    · simp only [rxWantsBuffer_board, wants, Bool.not_true, Bool.false_eq_true, if_false,
        if_true]
      exact ensures_pure ⟨inv, .refl i, running⟩

theorem Faithful.ensures_refill (inv : i.Faithful others held done dl)
    (running : i.initialized = true) :
    Ensures (refill : IfRun ScriptedBoard α Bool) i
      (fun _ i' => i'.Faithful others held done dl ∧ i.Pending i' ∧ i'.initialized = true)
      (fun _ => False) :=
  ensures_bind (ensures_get (inv.ensures_refillFor _ running))

/-! ### Taking completions -/

/-- What receiving the frames `fs` leaves, from `i` with the invariant over `others`, `held`,
`done` and `dl`: completions `taken` off the front of the engine's queue, recorded in the history
as read from the memory of `i`, which is unchanged; and the frames joining the chains held
outside with the bytes they show. -/
def Received (i : Interface ScriptedBoard α) (others : List SlotId) (held : List (Chain × List UInt8))
    (done : List Mark) (dl : List (List UInt8)) (fs : List Chain) (i' : Interface ScriptedBoard α) :
    Prop :=
  ∃ taken, i.board.mac.completions = taken ++ i'.board.mac.completions ∧
    i'.pool.memory = i.pool.memory ∧ i'.initialized = i.initialized ∧
    i'.Faithful (others ++ fs.flatMap Chain.slots) (held ++ fs.map fun f => (f, f.toBytes i'.pool))
      (done ++ taken.map i.pool.arrivalOf) (dl ++ fs.map fun f => f.toBytes i'.pool)

namespace Received

variable {fs gs : List Chain} {i' : Interface ScriptedBoard α} {c : RxCompletion}

theorem refl (inv : i.Faithful others held done dl) : Received i others held done dl [] i :=
  ⟨[], rfl, rfl, rfl, by simpa using inv⟩

theorem of_pending (received : Received i₁ others held done dl fs i') (pending : i.Pending i₁)
    (initialized : i₁.initialized = i.initialized) : Received i others held done dl fs i' := by
  obtain ⟨taken, completions, memory, initialized', inv⟩ := received
  refine ⟨taken, by rw [← pending.completions, completions], memory.trans pending.memory,
    initialized'.trans initialized, ?_⟩
  rwa [← Pool.arrivalOf_congr pending.memory]

theorem cons (received : Received i₁ others held (done ++ [i.pool.arrivalOf c]) dl fs i')
    (head : i.board.mac.completions = c :: i₁.board.mac.completions)
    (memory : i₁.pool.memory = i.pool.memory) (initialized : i₁.initialized = i.initialized) :
    Received i others held done dl fs i' := by
  obtain ⟨taken, completions, memory', initialized', inv⟩ := received
  refine ⟨c :: taken, by rw [head, completions]; rfl, memory'.trans memory,
    initialized'.trans initialized, ?_⟩
  rw [Pool.arrivalOf_congr memory] at inv
  simpa using inv

/-- A receive after one that took the completions `taken` and handed out `fs`: the chains
handed out first still show the same bytes. -/
theorem append {taken : List RxCompletion}
    (completions : i.board.mac.completions = taken ++ i₁.board.mac.completions)
    (memory : i₁.pool.memory = i.pool.memory) (initialized : i₁.initialized = i.initialized)
    (second : Received i₁ (others ++ fs.flatMap Chain.slots)
      (held ++ fs.map fun f => (f, f.toBytes i₁.pool)) (done ++ taken.map i.pool.arrivalOf)
      (dl ++ fs.map fun f => f.toBytes i₁.pool) gs i') :
    Received i others held done dl (fs ++ gs) i' := by
  obtain ⟨later, completions', memory', initialized', inv⟩ := second
  have bytes : ∀ f ∈ fs, f.toBytes i₁.pool = f.toBytes i'.pool := fun f member =>
    (inv.shows.toBytes_eq (x := (f, f.toBytes i₁.pool)) (by simp [member])).symm
  have pairs : (fs.map fun f => (f, f.toBytes i₁.pool)) = fs.map fun f => (f, f.toBytes i'.pool) :=
    List.map_congr_left fun f member => by rw [bytes f member]
  have views : (fs.map fun f => f.toBytes i₁.pool) = fs.map fun f => f.toBytes i'.pool :=
    List.map_congr_left bytes
  refine ⟨taken ++ later, by rw [completions, completions', List.append_assoc],
    memory'.trans memory, initialized'.trans initialized, ?_⟩
  rw [Pool.arrivalOf_congr memory, pairs, views] at inv
  simpa using inv

end Received

theorem Faithful.ensures_takeNext {next : IfRun ScriptedBoard α (Option Chain)}
    (inv : i.Faithful others held done dl)
    (later : ∀ c i₁, i.board.mac.completions = c :: i₁.board.mac.completions →
      i₁.pool.memory = i.pool.memory → i₁.initialized = i.initialized →
      i₁.Faithful others held (done ++ [i.pool.arrivalOf c]) dl →
      Ensures next i₁ (fun f i' => Received i others held done dl f.toList i') (fun _ => False)) :
    Ensures (takeNext next) i (fun f i' => Received i others held done dl f.toList i')
      (fun _ => False) := by
  unfold takeNext
  apply ensures_bind
  cases head : i.board.mac.completions with
  | nil => exact (returns_rxPoll_nil head).ensures (ensures_pure (Received.refl inv))
  | cons c rest =>
    refine (returns_rxPoll_cons head).ensures (ensures_bind (ensures_get (ensures_bind ?_)))
    refine (inv.ensures_take head).mono (fun r i₁ ⟨board, memory, initialized, inv₁⟩ => ?_)
      (fun _ => id)
    obtain ⟨frame, a⟩ := r
    have completions : i.board.mac.completions = c :: i₁.board.mac.completions := by
      rw [head, board]
      rfl
    refine ensures_seq (ensures_modify ?_)
    cases frame with
    | some f =>
      refine ensures_pure ⟨[c], completions, memory, initialized, ?_⟩
      simpa using inv₁
    | none =>
      exact later c _ completions memory initialized (by simpa using inv₁)

theorem Faithful.ensures_receiveFor (fuel : Nat) (inv : i.Faithful others held done dl)
    (running : i.initialized = true) :
    Ensures (receiveFor fuel : IfRun ScriptedBoard α _) i
      (fun f i' => Received i others held done dl f.toList i') (fun _ => False) := by
  induction fuel generalizing i done with
  | zero => exact ensures_pure (Received.refl inv)
  | succ fuel ih =>
    have next : ∀ i₂, i₂.Faithful others held done dl → i.Pending i₂ → i₂.initialized = true →
        Ensures (takeNext (receiveFor fuel)) i₂
          (fun f i' => Received i others held done dl f.toList i') (fun _ => False) := by
      intro i₂ inv₂ pending running₂
      refine (inv₂.ensures_takeNext fun c i₃ head memory initialized inv₃ => ?_).mono
        (fun f i' received => received.of_pending pending (running₂.trans running.symm)) (fun _ => id)
      exact (ih inv₃ (initialized.trans running₂)).mono
        (fun f i' received => received.cons head memory initialized) (fun _ => id)
    unfold receiveFor
    apply ensures_bind
    refine (inv.ensures_refill running).mono
      (fun starved i₁ ⟨inv₁, pending, running₁⟩ => ensures_bind (ensures_get ?_)) (fun _ => id)
    by_cases starving : (starved && i₁.rx.isAssembling) = true
    · simp only [starving, if_true]
      refine ensures_bind (ensures_get (ensures_bind ?_))
      refine (inv₁.ensures_discard running₁).mono
        (fun a i₂ ⟨board, memory, initialized, inv₂⟩ => ensures_bind (ensures_modify ?_))
        (fun _ => id)
      have kept : i₁.Pending { i₂ with rx := a } := ⟨by simp [board], memory⟩
      exact next _ inv₂ (pending.trans kept) (initialized.trans running₁)
    · simp only [starving, Bool.false_eq_true, if_false]
      exact next i₁ inv₁ pending running₁

theorem Faithful.ensures_receive (inv : i.Faithful others held done dl) :
    Ensures (receive : IfRun ScriptedBoard α _) i
      (fun f i' => Received i others held done dl f.toList i') (fun _ => False) := by
  unfold receive
  refine ensures_bind (ensures_get ?_)
  cases running : i.initialized
  · simp only [Bool.not_false, if_true]
    exact ensures_pure (Received.refl inv)
  · simp only [Bool.not_true, Bool.false_eq_true, if_false]
    exact inv.ensures_receiveFor _ running

theorem Faithful.ensures_pollInputFor (fuel : Nat) (inv : i.Faithful others held done dl) :
    Ensures (pollInputFor fuel : IfRun ScriptedBoard α _) i
      (fun fs i' => Received i others held done dl fs i') (fun _ => False) := by
  induction fuel generalizing i others held done dl with
  | zero => exact ensures_pure (Received.refl inv)
  | succ fuel ih =>
    unfold pollInputFor
    apply ensures_bind
    refine inv.ensures_receive.mono (fun f i₁ received => ?_) (fun _ => id)
    obtain ⟨taken, completions, memory, initialized, inv₁⟩ := received
    cases f with
    | none => exact ensures_pure ⟨taken, completions, memory, initialized, inv₁⟩
    | some f =>
      refine ensures_bind ((ih inv₁).mono (fun gs i' received => ensures_pure ?_) (fun _ => id))
      exact Received.append completions memory initialized received

theorem Faithful.ensures_pollInput (inv : i.Faithful others held done dl) :
    Ensures (pollInput : IfRun ScriptedBoard α _) i
      (fun fs i' => Received i others held done dl fs i') (fun _ => False) :=
  ensures_bind (ensures_get (inv.ensures_pollInputFor _))

end Interface

end Ethernet
