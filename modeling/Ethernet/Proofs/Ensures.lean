import Mathlib
import Ethernet.Journal

/-! Total correctness of operations that log and may halt: `Ensures act s post halts`, with one
lemma for each way a `do` block builds an operation. -/
namespace Ethernet

variable {σ τ α β : Type}

/-! How the primitives run, for evaluating straight-line operations by `simp`. -/

section

variable {s s' : σ} {j : Journal}

@[simp] theorem pure_apply {a : α} : (pure a : StateT σ Run α) s j = .ok (a, s) j := rfl

@[simp] theorem bind_apply {x : StateT σ Run α} {f : α → StateT σ Run β} :
    (x >>= f) s j = match x s j with
      | .ok (a, s') j' => f a s' j'
      | .error e j' => .error e j' := by
  change EStateM.bind (x s) (fun p => f p.1 p.2) j = _
  unfold EStateM.bind
  cases x s j <;> rfl

@[simp] theorem map_apply {x : StateT σ Run α} {f : α → β} :
    (f <$> x) s j = match x s j with
      | .ok (a, s') j' => .ok (f a, s') j'
      | .error e j' => .error e j' := by
  change EStateM.map (fun p => (f p.1, p.2)) (x s) j = _
  unfold EStateM.map
  cases x s j <;> rfl

@[simp] theorem get_apply : (get : StateT σ Run σ) s j = .ok (s, s) j := rfl

@[simp] theorem set_apply : (set s' : StateT σ Run PUnit) s j = .ok (⟨⟩, s') j := rfl

@[simp] theorem modify_apply {f : σ → σ} : (modify f : StateT σ Run PUnit) s j = .ok (⟨⟩, f s) j :=
  rfl

@[simp] theorem liftM_apply {act : Run α} :
    (liftM act : StateT σ Run α) s j = match act j with
      | .ok a j' => .ok (a, s) j'
      | .error e j' => .error e j' := by
  change EStateM.bind act (fun a => EStateM.pure (a, s)) j = _
  unfold EStateM.bind
  cases act j <;> rfl

@[simp] theorem emit_apply {level : Level} {text : String} :
    emit level text j = .ok ⟨⟩ (j.push ⟨level, text⟩) := rfl

@[simp] theorem halt_apply {f : Fault} : (halt f : Run α) j = .error f j := rfl

@[simp] theorem run_pure_apply {a : α} : (pure a : Run α) j = .ok a j := rfl

@[simp] theorem run_bind_apply {x : Run α} {f : α → Run β} :
    (x >>= f) j = match x j with
      | .ok a j' => f a j'
      | .error e j' => .error e j' := by
  change EStateM.bind x f j = _
  unfold EStateM.bind
  cases x j <;> rfl

@[simp] theorem run_map_apply {x : Run α} {f : α → β} :
    (f <$> x) j = match x j with
      | .ok a j' => .ok (f a) j'
      | .error e j' => .error e j' := by
  change EStateM.map f x j = _
  unfold EStateM.map
  cases x j <;> rfl

theorem eq_of_bind_pure_ok {x y : β} {act : Run α} {j' : Journal}
    (ran : (act >>= fun _ => pure x) j = .ok y j') : y = x := by
  rw [run_bind_apply] at ran
  cases stepped : act j with
  | ok a j₁ =>
    rw [stepped] at ran
    cases ran
    rfl
  | error f j₁ =>
    rw [stepped] at ran
    cases ran

@[simp] theorem focus_apply {get : σ → τ} {set : τ → σ → σ} {act : StateT τ Run β} :
    focus get set act s j = match act (get s) j with
      | .ok (a, t) j' => .ok (a, set t s) j'
      | .error e j' => .error e j' := by
  change EStateM.bind (act (get s)) (fun p => EStateM.pure (p.1, set p.2 s)) j = _
  unfold EStateM.bind
  cases act (get s) j <;> rfl

end

def Ensures (act : StateT σ Run α) (s : σ) (post : α → σ → Prop) (halts : Fault → Prop) : Prop :=
  ∀ j, match act s j with
    | .ok (a, s') _ => post a s'
    | .error f _ => halts f

section

variable {s : σ} {post post' : β → σ → Prop} {halts halts' : Fault → Prop}

theorem Ensures.mono {act : StateT σ Run β} (h : Ensures act s post halts)
    (weaker : ∀ a s', post a s' → post' a s') (more : ∀ f, halts f → halts' f) :
    Ensures act s post' halts' := by
  intro j
  have hj := h j
  revert hj
  cases act s j with
  | ok r _ => exact weaker r.1 r.2
  | error f _ => exact more f

theorem Ensures.and {act : StateT σ Run β} (h : Ensures act s post halts)
    (h' : Ensures act s post' halts') :
    Ensures act s (fun a s' => post a s' ∧ post' a s') (fun f => halts f ∧ halts' f) := by
  intro j
  have hj := h j
  have hj' := h' j
  revert hj hj'
  cases act s j with
  | ok r _ => exact And.intro
  | error f _ => exact And.intro

theorem ensures_true {act : StateT σ Run β} : Ensures act s (fun _ _ => True) (fun _ => True) := by
  intro j
  split <;> trivial

theorem Ensures.of_ok {act : StateT σ Run β} (h : Ensures act s post halts) {j j' : Journal}
    {a : β} {s' : σ} (ran : act s j = .ok (a, s') j') : post a s' := by
  have hj := h j
  rw [ran] at hj
  exact hj

theorem ensures_pure {a : β} (h : post a s) : Ensures (pure a) s post halts := fun _ => h

theorem ensures_bind {x : StateT σ Run α} {f : α → StateT σ Run β}
    (first : Ensures x s (fun a s' => Ensures (f a) s' post halts) halts) :
    Ensures (x >>= f) s post halts := by
  intro j
  have hj := first j
  change match (EStateM.bind (x s) fun p => f p.1 p.2) j with
    | .ok (a, s') _ => post a s' | .error f _ => halts f
  unfold EStateM.bind
  revert hj
  cases x s j with
  | ok r j' => exact fun rest => rest j'
  | error e _ => exact id

theorem ensures_bind_via {x : StateT σ Run α} {f : α → StateT σ Run β} (mid : α → σ → Prop)
    (first : Ensures x s mid halts) (rest : ∀ a s', mid a s' → Ensures (f a) s' post halts) :
    Ensures (x >>= f) s post halts :=
  ensures_bind (first.mono rest (fun _ => id))

theorem ensures_seq {x : StateT σ Run PUnit} {y : StateT σ Run β}
    (first : Ensures x s (fun _ s' => Ensures y s' post halts) halts) :
    Ensures (x >>= fun _ => y) s post halts :=
  ensures_bind first

theorem ensures_get {post : σ → σ → Prop} (h : post s s) :
    Ensures (get : StateT σ Run σ) s post halts := fun _ => h

theorem ensures_set {post : PUnit → σ → Prop} {s' : σ} (h : post ⟨⟩ s') :
    Ensures (set s' : StateT σ Run PUnit) s post halts := fun _ => h

theorem ensures_modify {post : PUnit → σ → Prop} {f : σ → σ} (h : post ⟨⟩ (f s)) :
    Ensures (modify f : StateT σ Run PUnit) s post halts := fun _ => h

theorem ensures_lift {act : Run β}
    (h : ∀ j, match act j with | .ok a _ => post a s | .error f _ => halts f) :
    Ensures (liftM act : StateT σ Run β) s post halts := by
  intro j
  have hj := h j
  change match (EStateM.bind act fun a => EStateM.pure (a, s)) j with
    | .ok (a, s') _ => post a s' | .error f _ => halts f
  unfold EStateM.bind
  revert hj
  cases act j with
  | ok a _ => exact id
  | error f _ => exact id

theorem ensures_lift_ok {act : Run β} (ok : ∀ j a j', act j = .ok a j' → post a s) :
    Ensures (liftM act : StateT σ Run β) s post (fun _ => True) :=
  ensures_lift fun j => by
    cases ran : act j with
    | ok a j' => exact ok j a j' ran
    | error => trivial

theorem ensures_emit {post : PUnit → σ → Prop} {level : Level} {text : String} (h : post ⟨⟩ s) :
    Ensures (liftM (emit level text) : StateT σ Run PUnit) s post halts :=
  ensures_lift fun _ => h

theorem ensures_ite {c : Prop} [Decidable c] {x y : StateT σ Run β}
    (yes : c → Ensures x s post halts) (no : ¬c → Ensures y s post halts) :
    Ensures (if c then x else y) s post halts := by
  by_cases hc : c
  · simpa only [if_pos hc] using yes hc
  · simpa only [if_neg hc] using no hc

end

/-- An operation on a part of the state: what it ensures of the part, put back, it ensures
of the whole. -/
theorem ensures_focus {get : σ → τ} {set : τ → σ → σ} {act : StateT τ Run β} {s : σ}
    {post : β → σ → Prop} {halts : Fault → Prop}
    (h : Ensures act (get s) (fun a t => post a (set t s)) halts) :
    Ensures (focus get set act) s post halts := by
  intro j
  have hj := h j
  change match (EStateM.bind (act (get s)) fun p => EStateM.pure (p.1, set p.2 s)) j with
    | .ok (a, s') _ => post a s' | .error f _ => halts f
  unfold EStateM.bind
  revert hj
  cases act (get s) j with
  | ok r _ => exact id
  | error f _ => exact id

/-- The operation, run from `s`, answers `a` and leaves `s'`, whatever it logs. -/
def Returns (act : StateT σ Run α) (s : σ) (a : α) (s' : σ) : Prop :=
  ∀ j, ∃ j', act s j = .ok (a, s') j'

section

variable {act : StateT σ Run α} {s s' : σ} {a : α} {post : α → σ → Prop} {halts : Fault → Prop}

theorem Returns.ensures (ret : Returns act s a s') (h : post a s') : Ensures act s post halts := by
  intro j
  obtain ⟨j', ran⟩ := ret j
  rw [ran]
  exact h

theorem Returns.bind {f : α → StateT σ Run β} {post : β → σ → Prop} (ret : Returns act s a s')
    (rest : Ensures (f a) s' post halts) : Ensures (act >>= f) s post halts :=
  ensures_bind (ret.ensures rest)

theorem Returns.of_ok {b : α} {s'' : σ} {j j' : Journal} (ret : Returns act s a s')
    (ran : act s j = .ok (b, s'') j') : b = a ∧ s'' = s' := by
  obtain ⟨j'', known⟩ := ret j
  rw [known] at ran
  cases ran
  exact ⟨rfl, rfl⟩

theorem Returns.andThen {f : α → StateT σ Run β} {b : β} {s'' : σ} (ret : Returns act s a s')
    (rest : Returns (f a) s' b s'') : Returns (act >>= f) s b s'' := by
  intro j
  obtain ⟨j', ran⟩ := ret j
  obtain ⟨j'', ran'⟩ := rest j'
  exact ⟨j'', by rw [bind_apply, ran]; exact ran'⟩

end

/-! ### Runs on fixed inputs -/

/-- Whether `act` ends from `s` and an empty journal without halting. -/
def Completes (act : StateT σ Run α) (s : σ) : Bool :=
  match act s #[] with
  | .ok _ _ => true
  | .error _ _ => false

/-- The state `act` leaves from `s` and an empty journal, or `s` where it halts. -/
def after (act : StateT σ Run α) (s : σ) : σ :=
  match act s #[] with
  | .ok (_, s') _ => s'
  | .error _ _ => s

theorem ran_of_completes (act : StateT σ Run α) (s : σ) (done : Completes act s = true) :
    ∃ a j', act s #[] = .ok (a, after act s) j' := by
  unfold Completes at done
  unfold after
  split at done
  · next r j' ran => exact ⟨r.1, j', by rw [ran]⟩
  · cases done

end Ethernet
