import Ethernet.Proofs.Pool.Operations
import Ethernet.Frame.Chain

/-! Pool operations over many handles at once: releasing a frame's packet buffers, and adding to
the running totals of distinct ones. -/
namespace Ethernet.Pool

variable {p : Pool} {armed held : List SlotId} {s : SlotId}

theorem lt_capacity_of_software (software : p.owner s = .software) : s.index < p.capacity := by
  by_contra beyond
  rw [owner, header_of_capacity_le (Nat.le_of_not_lt beyond)] at software
  cases software

theorem length_le_capacity {l : List SlotId} (distinct : l.Nodup)
    (inRange : ∀ s ∈ l, s.index < p.capacity) : l.length ≤ p.capacity := by
  have indices : (l.map SlotId.index).Nodup :=
    distinct.map fun _ _ same => SlotId.eq_of_index_eq same
  have within : l.map SlotId.index ⊆ List.range p.capacity := by
    intro i member
    obtain ⟨s, sMember, rfl⟩ := List.mem_map.mp member
    exact List.mem_range.mpr (inRange s sMember)
  simpa using (indices.subperm within).length_le

/-- Dropping a list of packet buffers gives each reference back and touches only their
slots; the slots still held afterwards keep their lengths and totals. -/
theorem Books.ensures_releaseAll {L : List SlotId} (books : p.Books armed (L ++ held)) :
    Ensures (L.forM release) p (fun _ p' => p.SameExcept p' (· ∈ L) ∧ p'.Books armed held ∧
      p.Keeps p' (· ∈ held)) (fun _ => False) := by
  induction L generalizing p with
  | nil => exact ensures_pure ⟨SameExcept.refl.mono fun _ => False.elim, books, fun _ _ => ⟨rfl, rfl⟩⟩
  | cons t rest ih =>
    show Ensures (release t >>= fun _ => rest.forM release) p _ _
    apply ensures_bind
    refine (books.ensures_release List.mem_cons_self).mono (fun _ p₁ first => ?_) (fun _ => id)
    obtain ⟨same, kept, keeps⟩ := first
    rw [List.cons_append, List.erase_cons_head] at kept keeps
    refine (ih kept).mono (fun _ p' ⟨same', kept', keeps'⟩ => ⟨(same.trans same').mono ?_, kept',
      (keeps.mono fun u member => List.mem_append_right rest member).trans keeps'⟩) (fun _ => id)
    rintro u (rfl | member)
    · exact List.mem_cons_self
    · exact List.mem_cons_of_mem t member

theorem Books.ensures_chainRelease {c : Chain} (books : p.Books armed (c.slots ++ held)) :
    Ensures c.release p (fun _ p' => p.SameExcept p' (· ∈ c.slots) ∧ p'.Books armed held ∧
      p.Keeps p' (· ∈ held)) (fun _ => False) :=
  books.ensures_releaseAll

/-- Cloning packet buffers already held takes one more reference on each slot, and halts only at a
slot whose handles, with those the list adds, are more than a reference count holds. -/
theorem Books.ensures_retainAll {L : List SlotId} (books : p.Books armed held)
    (known : ∀ t ∈ L, t ∈ held) :
    Ensures (L.forM retain) p (fun _ p' => p.SameExcept p' (· ∈ L) ∧ p'.Books armed (L ++ held) ∧
      p.Keeps p' fun _ => True)
      (fun f => ∃ t ∈ L, maxRefcount < held.count t + L.count t ∧ f = .refcountOverflow t.index) := by
  induction L generalizing p held with
  | nil => exact ensures_pure ⟨SameExcept.refl.mono fun _ => False.elim, books, fun _ _ => ⟨rfl, rfl⟩⟩
  | cons t rest ih =>
    show Ensures (retain t >>= fun _ => rest.forM retain) p _ _
    apply ensures_bind
    refine (books.ensures_retain (known t List.mem_cons_self)).mono (fun _ p₁ first => ?_)
      (fun _ ⟨full, overflow⟩ => ⟨t, List.mem_cons_self, by simp [full], overflow⟩)
    obtain ⟨same, kept, keeps⟩ := first
    -- the handles taken so far count among those held for the rest of the list
    refine (ih kept fun u member => List.mem_cons_of_mem t (known u (List.mem_cons_of_mem t member))).mono
      (fun _ p' ⟨same', kept', keeps'⟩ => ⟨(same.trans same').mono ?_, kept'.perm (.refl _)
        List.perm_middle, keeps.trans keeps'⟩)
      (fun _ ⟨u, member, beyond, overflow⟩ => ⟨u, List.mem_cons_of_mem t member, ?_, overflow⟩)
    · rintro u (rfl | member)
      · exact List.mem_cons_self
      · exact List.mem_cons_of_mem t member
    · simp only [List.count_cons, beq_iff_eq] at beyond ⊢
      split_ifs at beyond ⊢ <;> omega

/-- Adding `n` to the running totals of distinct packet buffers changes those totals and
nothing else, and keeps the books. -/
theorem Books.ensures_addTotals {n : Nat} {L : List SlotId} (books : p.Books armed held)
    (distinct : L.Nodup) (software : ∀ t ∈ L, p.owner t = .software)
    (fits : ∀ t ∈ L, (p.header t).total + n ≤ maxTotal) :
    Ensures (L.forM (addTotal · n)) p (fun _ p' => p.SameExcept p' (· ∈ L) ∧
      (∀ t ∈ L, p'.header t = { p.header t with total := (p.header t).total + n }) ∧
      p'.Books armed held) (fun _ => False) := by
  induction L generalizing p with
  | nil => exact ensures_pure ⟨SameExcept.refl.mono fun _ => False.elim, by simp, books⟩
  | cons t rest ih =>
    show Ensures (addTotal t n >>= fun _ => rest.forM (addTotal · n)) p _ _
    obtain ⟨fresh, distinct⟩ := List.nodup_cons.mp distinct
    have tSoftware := software t List.mem_cons_self
    have tFits := fits t List.mem_cons_self
    have small : n % Nat.pow 2 32 = n := by
      apply Nat.mod_eq_of_lt
      show n < 4294967296
      simp only [maxTotal] at tFits
      omega
    apply ensures_bind
    refine (ensures_addTotal tSoftware (by rw [small]; exact tFits)).mono (fun _ p₁ pool => ?_)
      (fun _ => id)
    rw [small] at pool
    subst pool
    have inRange := lt_capacity_of_software tSoftware
    -- every later slot differs from `t`, so it kept its header through the first step
    have later : ∀ u ∈ rest, (p.setHeader t { p.header t with total := (p.header t).total + n }).header u
        = p.header u := fun u member => header_setHeader_of_ne fun same => fresh (same ▸ member)
    have books' : (p.setHeader t { p.header t with total := (p.header t).total + n }).Books armed held :=
      books.kept inRange rfl rfl
    have rest' := ih books' distinct
      (fun u member => by rw [owner, later u member]; exact software u (List.mem_cons_of_mem t member))
      (fun u member => by rw [later u member]; exact fits u (List.mem_cons_of_mem t member))
    refine rest'.mono (fun _ p' after => ?_) (fun _ => id)
    obtain ⟨same, totals, kept⟩ := after
    refine ⟨?_, ?_, kept⟩
    · refine (sameExcept_setHeader.trans same).mono ?_
      rintro u (rfl | member)
      · exact List.mem_cons_self
      · exact List.mem_cons_of_mem t member
    · rintro u (_ | ⟨_, member⟩)
      · rw [same.2.2 t fresh, header_setHeader_self inRange]
      · rw [totals u member, later u member]

end Ethernet.Pool
