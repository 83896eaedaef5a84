import Ethernet.Proofs.Frame.Splitter
import Ethernet.Frame.Assembly

/-! The assembler refines the reference splitter: fed the events of the receive path, it hands out
at each event the chain of what the splitter delivers there. `Assembler.Tracks` is the
simulation relation. -/
namespace Ethernet

/-! ### Running totals -/

namespace Pool

/-- The headers of the slots carry a frame's pieces: each slot holds its piece's length, and
its running total counts the bytes from it to the frame's end. -/
def Carries (p : Pool) : List (SlotId × Nat) → Prop
  | [] => True
  | (s, n) :: rest =>
    (p.header s).len = n ∧ (p.header s).total = n + (rest.map Prod.snd).sum ∧ p.Carries rest

variable {p p' : Pool} {armed held : List SlotId} {s : SlotId} {ps : List (SlotId × Nat)}

@[simp] theorem carries_nil : p.Carries [] := trivial

theorem Carries.congr (carries : p.Carries ps)
    (same : ∀ t ∈ pieceSlots ps, p'.header t = p.header t) : p'.Carries ps := by
  induction ps with
  | nil => trivial
  | cons x rest ih =>
    obtain ⟨len, total, later⟩ := carries
    have here := same x.1 List.mem_cons_self
    refine ⟨by rw [here]; exact len, by rw [here]; exact total, ih later ?_⟩
    exact fun t member => same t (List.mem_cons_of_mem x.1 member)

/-- A frame grows by a piece of `n` bytes when every earlier total grows by `n` and the new
slot holds `n` bytes and counts only them. -/
theorem Carries.snoc {n : Nat} (carries : p.Carries ps)
    (grown : ∀ t ∈ pieceSlots ps, p'.header t = { p.header t with total := (p.header t).total + n })
    (len : (p'.header s).len = n) (total : (p'.header s).total = n) :
    p'.Carries (ps ++ [(s, n)]) := by
  induction ps with
  | nil => exact ⟨len, by simp [total], trivial⟩
  | cons x rest ih =>
    obtain ⟨xLen, xTotal, later⟩ := carries
    have here := grown x.1 List.mem_cons_self
    refine ⟨by rw [here]; exact xLen, ?_, ih later ?_⟩
    · rw [here]
      simp only [List.append_eq, List.map_append, List.sum_append, List.map_cons, List.map_nil,
        List.sum_cons, List.sum_nil, xTotal]
      omega
    · exact fun t member => grown t (List.mem_cons_of_mem x.1 member)

theorem Carries.total_le (carries : p.Carries ps) {x : SlotId × Nat} (member : x ∈ ps) :
    (p.header x.1).total ≤ (ps.map Prod.snd).sum := by
  induction ps with
  | nil => cases member
  | cons y rest ih =>
    obtain ⟨_, yTotal, later⟩ := carries
    simp only [List.map_cons, List.sum_cons]
    rcases List.mem_cons.mp member with rfl | member
    · exact yTotal.le
    · have := ih later member
      omega

theorem Carries.head_total {n : Nat} {rest : List (SlotId × Nat)}
    (carries : p.Carries ((s, n) :: rest)) : (p.header s).total = (chainOf ((s, n) :: rest)).total :=
  by simpa [chainOf] using carries.2.1

/-- A frame in distinct slots leaves room in every running total for one more slot's bytes:
the pool has at most 65535 slots of 1536 bytes. -/
theorem Books.total_room (books : p.Books armed (s :: pieceSlots ps ++ held))
    (carries : p.Carries ps) (distinct : (pieceSlots ps).Nodup) (fresh : s ∉ pieceSlots ps)
    (small : ∀ x ∈ ps, x.2 ≤ slotSize) {n : Nat} (le : n ≤ slotSize) :
    ∀ t ∈ pieceSlots ps, (p.header t).total + n ≤ maxTotal := by
  intro t member
  obtain ⟨x, xMember, rfl⟩ := List.mem_map.mp member
  have counted : (s :: pieceSlots ps).length ≤ p.capacity :=
    length_le_capacity (List.nodup_cons.mpr ⟨fresh, distinct⟩)
      fun u uMember => books.held_lt u (List.mem_append_left held uMember)
  have sum : (ps.map Prod.snd).sum ≤ ps.length * slotSize := by
    refine (List.sum_le_card_nsmul (ps.map Prod.snd) slotSize fun m member => ?_).trans (by simp)
    obtain ⟨x, xMember, rfl⟩ := List.mem_map.mp member
    exact small x xMember
  have bound := carries.total_le xMember
  have capacity := books.capacity_le
  simp only [List.length_cons, pieceSlots, List.length_map] at counted
  simp only [slotSize, maxTotal] at sum le ⊢
  omega

end Pool

/-! ### The assembler on the receive path -/

namespace Assembler

/-- The receive path's use of the assembler for one event: the slot is taken back from the
hardware and pushed with the length of its packet buffer, or rejected; or the frame in progress
is given up. -/
def feed (a : Assembler) : RxEvent → PoolRun (Option Chain × Assembler)
  | .push s len last => do
    Pool.reclaim s len
    a.push s ((← get).header s).len last
  | .reject s len last => do
    Pool.reclaim s len
    return (none, ← a.reject s last)
  | .discard => do
    return (none, ← a.discard)

/-- The assembler over a run of events: what comes out at each, and the assembler after them. -/
def feedAll (a : Assembler) : List RxEvent → PoolRun (List (Option Chain) × Assembler)
  | [] => pure ([], a)
  | e :: rest => do
    let r ← a.feed e
    let rs ← feedAll r.2 rest
    return (r.1 :: rs.1, rs.2)

/-- The assembler `a` over the pool `p` is where the splitter is with the frame `frame` in
progress: it assembles the frame's pieces while the frame can still be delivered and drops the
rest of the frame otherwise, and the slots of the pieces it holds are distinct and carry them. -/
structure Tracks (a : Assembler) (frame : List RxEvent) (p : Pool) : Prop where
  inProgress : a.inProgress = (Splitter.pending frame).map chainOf
  discarding : a.discarding = !Splitter.deliverable frame
  carries : p.Carries (Splitter.kept frame)
  distinct : (pieceSlots (Splitter.kept frame)).Nodup

variable {a : Assembler} {p : Pool} {armed held : List SlotId} {s : SlotId}

/-! Each operation of the assembler, as it changes the pool. -/

theorem ensures_push_discarding (discarding : a.discarding = true)
    (books : p.Books armed (s :: held)) (n : Nat) (last : Bool) :
    Ensures (a.push s n last) p (fun r p' =>
      r = (none, if last then { a with discarding := false, dropped := a.dropped + 1 } else a) ∧
      p.SameExcept p' (· = s) ∧ p'.Books armed held) (fun _ => False) := by
  unfold push
  rw [if_pos discarding]
  apply ensures_bind
  refine (books.ensures_release List.mem_cons_self).mono (fun _ p' ⟨same, kept, _⟩ => ?_) (fun _ => id)
  rw [List.erase_cons_head] at kept
  cases last
  · exact ensures_pure ⟨rfl, same, kept⟩
  · exact ensures_seq (ensures_emit (ensures_pure ⟨rfl, same, kept⟩))

/-- Pushing a slot just taken back with `len` bytes onto the pieces `ps` the assembler holds:
every earlier running total grows by the slot's length, and the chain grows by the new piece,
which the assembler hands out when it ends the frame. -/
theorem ensures_push_assembling {ps : List (SlotId × Nat)} {len : Nat}
    (discarding : a.discarding = false) (inProgress : a.inProgress.getD {} = chainOf ps)
    (books : p.Books armed (s :: pieceSlots ps ++ held)) (carries : p.Carries ps)
    (distinct : (pieceSlots ps).Nodup) (fresh : s ∉ pieceSlots ps)
    (small : ∀ x ∈ ps, x.2 ≤ slotSize) (header : p.header s = Header.received len) (last : Bool) :
    Ensures (a.push s (min len slotSize) last) p (fun r p' =>
      r = (if last then (some (chainOf (ps ++ [(s, min len slotSize)])),
            { a with inProgress := none, frames := a.frames + 1 })
          else (none, { a with inProgress := some (chainOf (ps ++ [(s, min len slotSize)])) })) ∧
      p.SameExcept p' (· ∈ pieceSlots ps) ∧ p'.Carries (ps ++ [(s, min len slotSize)]) ∧
      p'.Books armed (s :: pieceSlots ps ++ held)) (fun _ => False) := by
  unfold push
  rw [if_neg (by simp [discarding]), inProgress]
  simp only [slots_chainOf]
  have software : ∀ t ∈ pieceSlots ps, p.owner t = .software := fun t member =>
    books.owner_of_mem_held (List.mem_cons_of_mem s (List.mem_append_left held member))
  have fits := books.total_room carries distinct fresh small (Nat.min_le_right len slotSize)
  apply ensures_bind
  refine (books.ensures_addTotals distinct software fits).mono
    (fun _ p' ⟨same, grown, kept⟩ => ?_) (fun _ => id)
  apply ensures_bind
  apply ensures_get
  -- the new slot is none of the held ones, so the totals left its header alone
  have sHeader : p'.header s = Header.received len := (same.2.2 s fresh).trans header
  have pushed : (chainOf ps).push p' (.pooled s) = chainOf (ps ++ [(s, min len slotSize)]) := by
    simp [Chain.push, chainOf, Segment.len, sHeader, Header.received]
  have carried : p'.Carries (ps ++ [(s, min len slotSize)]) :=
    carries.snoc grown (by rw [sHeader]; rfl) (by rw [sHeader]; rfl)
  simp only [pushed]
  cases last
  · exact ensures_pure ⟨rfl, same, carried, kept⟩
  · exact ensures_pure ⟨rfl, same, carried, kept⟩

theorem ensures_reject {L : List SlotId} (holding : (a.inProgress.map Chain.slots).getD [] = L)
    (books : p.Books armed (s :: L ++ held)) (last : Bool) :
    Ensures (a.reject s last) p (fun a' p' =>
      a' = (if last then { a with inProgress := none, discarding := false, dropped := a.dropped + 1 }
        else { a with inProgress := none, discarding := true }) ∧
      p.SameExcept p' (fun t => t = s ∨ t ∈ L) ∧ p'.Books armed held) (fun _ => False) := by
  unfold reject
  apply ensures_bind
  refine (books.ensures_release List.mem_cons_self).mono (fun _ p₁ ⟨same, kept, _⟩ => ?_) (fun _ => id)
  rw [List.cons_append, List.erase_cons_head] at kept
  cases inProgress : a.inProgress with
  | none =>
    simp only [inProgress, Option.map_none, Option.getD_none] at holding
    subst holding
    cases last
    · exact ensures_pure ⟨rfl, same.mono fun _ => .inl, kept⟩
    · exact ensures_pure ⟨rfl, same.mono fun _ => .inl, kept⟩
  | some c =>
    simp only [inProgress, Option.map_some, Option.getD_some] at holding
    subst holding
    apply ensures_bind
    refine (kept.ensures_chainRelease).mono (fun _ p' ⟨same', kept', _⟩ => ?_) (fun _ => id)
    cases last
    · exact ensures_pure ⟨rfl, same.trans same', kept'⟩
    · exact ensures_pure ⟨rfl, same.trans same', kept'⟩

/-- Giving up the frame in progress drops every piece the assembler holds; with no frame in
progress it changes nothing. -/
theorem ensures_discard {L : List SlotId} (holding : (a.inProgress.map Chain.slots).getD [] = L)
    (books : p.Books armed (L ++ held)) :
    Ensures a.discard p (fun a' p' =>
      a' = (if a.inProgress.isSome then { a with inProgress := none, discarding := true } else a) ∧
      p.SameExcept p' (· ∈ L) ∧ p'.Books armed held) (fun _ => False) := by
  unfold discard
  cases inProgress : a.inProgress with
  | none =>
    simp only [inProgress, Option.map_none, Option.getD_none] at holding
    subst holding
    exact ensures_pure ⟨by simp, Pool.SameExcept.refl.mono fun _ => False.elim, books⟩
  | some c =>
    simp only [inProgress, Option.map_some, Option.getD_some] at holding
    subst holding
    apply ensures_seq
    apply ensures_emit
    apply ensures_bind
    exact (books.ensures_chainRelease).mono
      (fun _ p' ⟨same, kept, _⟩ => ensures_pure ⟨by simp, same, kept⟩) (fun _ => id)

/-! ### One event against the splitter -/

namespace Tracks

variable {frame : List RxEvent}

theorem idle (inProgress : a.inProgress = none) (discarding : a.discarding = false) :
    a.Tracks [] p :=
  ⟨by simp [inProgress], by simp [discarding], trivial, List.nodup_nil⟩

theorem dropping (inProgress : a.inProgress = none) (discarding : a.discarding = true)
    (ok : Splitter.deliverable frame = false) : a.Tracks frame p :=
  ⟨by simp [inProgress, Splitter.pending_of_not_deliverable ok], by simp [discarding, ok],
    by simp [Splitter.kept_of_not_deliverable ok], by simp [Splitter.kept_of_not_deliverable ok]⟩

theorem assembling (begun : frame ≠ []) (ok : Splitter.deliverable frame = true)
    (inProgress : a.inProgress = some (chainOf (Splitter.pieces frame)))
    (discarding : a.discarding = false) (carries : p.Carries (Splitter.pieces frame))
    (distinct : (pieceSlots (Splitter.pieces frame)).Nodup) : a.Tracks frame p := by
  have kept : Splitter.kept frame = Splitter.pieces frame := by simp [Splitter.kept_eq, ok]
  exact ⟨by simp [inProgress, Splitter.pending_of_deliverable begun ok], by simp [discarding, ok],
    kept ▸ carries, kept ▸ distinct⟩

theorem holding (tracks : a.Tracks frame p) :
    (a.inProgress.map Chain.slots).getD [] = pieceSlots (Splitter.kept frame) := by
  rw [tracks.inProgress, Splitter.kept]
  cases Splitter.pending frame <;> simp

theorem getD_inProgress (tracks : a.Tracks frame p) :
    a.inProgress.getD {} = chainOf (Splitter.kept frame) := by
  rw [tracks.inProgress]
  exact Splitter.pending_map_getD frame

theorem inProgress_of_not_deliverable (tracks : a.Tracks frame p)
    (ok : Splitter.deliverable frame = false) : a.inProgress = none := by
  rw [tracks.inProgress, Splitter.pending_of_not_deliverable ok]
  rfl

end Tracks

/-- What one event `e` leaves when the splitter's step from the frame `frame` is `step`: the
chain the splitter delivers, if any; the assembler tracking the splitter's next frame; only the
event's slot and the pieces held touched; the delivered frame carried by its slots; and the
books, with the pieces held next, the slots handed out and the other packet buffers `held`; and
the assembler, from `a`, counting the frame it hands out. -/
structure Stepped (frame : List RxEvent) (e : RxEvent)
    (step : Option (List (SlotId × Nat)) × List RxEvent) (p : Pool) (armed held : List SlotId)
    (a : Assembler) (r : Option Chain × Assembler) (p' : Pool) : Prop where
  output : r.1 = step.1.map chainOf
  tracks : r.2.Tracks step.2 p'
  same : p.SameExcept p' fun t => t ∈ e.slot?.toList ∨ t ∈ pieceSlots (Splitter.kept frame)
  carries : ∀ ps, step.1 = some ps → p'.Carries ps
  books : p'.Books armed (pieceSlots (Splitter.kept step.2) ++ pieceSlots (step.1.getD []) ++ held)
  frames : r.2.frames = a.frames + r.1.toList.length

variable {frame : List RxEvent}

theorem not_mem_kept (books : p.Books (s :: armed) (pieceSlots (Splitter.kept frame) ++ held)) :
    s ∉ pieceSlots (Splitter.kept frame) := fun member => by
  have software := books.owner_of_mem_held (List.mem_append_left held member)
  rw [books.owner_of_mem_armed List.mem_cons_self] at software
  cases software

/-- What taking a slot back from the hardware with `len` bytes leaves: only its header changed,
now that of a packet buffer the caller holds. -/
def Reclaimed (p p₁ : Pool) (s : SlotId) (len : Nat) (armed held : List SlotId) : Prop :=
  p.SameExcept p₁ (· = s) ∧ p₁.Books armed (s :: held) ∧ p₁.header s = Header.received len

theorem reclaimed_of_books {len : Nat} (books : p.Books (s :: armed) held) :
    Ensures (Pool.reclaim s len) p (fun _ p₁ => Reclaimed p p₁ s len armed held) (fun _ => False) :=
  (books.ensures_reclaim List.mem_cons_self).mono
    (fun _ _ ⟨same, kept, header⟩ => ⟨same, by rwa [List.erase_cons_head] at kept, header⟩)
    (fun _ => id)

/-- A slot just taken back with `len` bytes, pushed with its packet buffer's length: what the
event `.push s len last` leaves. -/
theorem ensures_push_reclaimed {len : Nat} {last : Bool} {p₁ : Pool} (tracks : a.Tracks frame p)
    (books : p.Books (s :: armed) (pieceSlots (Splitter.kept frame) ++ held))
    (reclaimed : Reclaimed p p₁ s len armed (pieceSlots (Splitter.kept frame) ++ held)) :
    Ensures (a.push s (min len slotSize) last) p₁
      (Stepped frame (.push s len last) (Splitter.step frame (.push s len last)) p armed held a)
      (fun _ => False) := by
  have fresh := not_mem_kept books
  obtain ⟨same₁, books₁, header⟩ := reclaimed
  cases ok : Splitter.deliverable frame
  · -- the frame is being dropped, and the slot with it
    have vacant := tracks.inProgress_of_not_deliverable ok
    have kept := Splitter.kept_of_not_deliverable ok
    rw [kept, pieceSlots_nil, List.nil_append] at books₁
    refine (ensures_push_discarding (by rw [tracks.discarding, ok]; rfl) books₁ _ last).mono
      (fun r p' ⟨result, same₂, books₂⟩ => ?_) (fun _ => id)
    subst result
    rw [Splitter.step_push_of_not_deliverable ok]
    have same : p.SameExcept p' fun t => t ∈ [s] ∨ t ∈ pieceSlots (Splitter.kept frame) :=
      (same₁.trans same₂).mono fun t touched => .inl (by simpa using touched)
    cases last
    · have dropped : Splitter.kept (frame ++ [.push s len false]) = [] :=
        Splitter.kept_of_not_deliverable (by simp [ok])
      simp only [Bool.false_eq_true, if_false]
      refine ⟨rfl, ?_, same, fun _ nothing => (by cases nothing), by simpa [dropped] using books₂, rfl⟩
      exact Tracks.dropping vacant (by rw [tracks.discarding, ok]; rfl) (by simp [ok])
    · simp only [if_true]
      exact ⟨rfl, Tracks.idle vacant rfl, same, fun _ nothing => (by cases nothing),
        by simpa using books₂, rfl⟩
  · -- the frame is assembled, and the slot joins it
    have kept : Splitter.kept frame = Splitter.pieces frame := by simp [Splitter.kept_eq, ok]
    have assembling : a.discarding = false := by rw [tracks.discarding, ok]; rfl
    have carries₁ := tracks.carries.congr fun t member => same₁.2.2 t fun h => fresh (h ▸ member)
    refine (ensures_push_assembling assembling tracks.getD_inProgress books₁ carries₁
      tracks.distinct fresh (fun _ => Splitter.le_slotSize_of_mem_kept) header last).mono
      (fun r p' ⟨result, same₂, carried, books₂⟩ => ?_) (fun _ => id)
    subst result
    have same : p.SameExcept p' fun t => t ∈ [s] ∨ t ∈ pieceSlots (Splitter.kept frame) :=
      (same₁.trans same₂).mono fun t touched => by
        rcases touched with rfl | member
        · exact .inl (List.mem_singleton_self _)
        · exact .inr member
    have grown : (pieceSlots (Splitter.kept frame) ++ [s]).Nodup :=
      List.nodup_append.mpr ⟨tracks.distinct, List.nodup_singleton s,
        fun _ member _ single => by
          rw [List.mem_singleton.mp single]
          exact fun same => fresh (same ▸ member)⟩
    have rotated : p'.Books armed (pieceSlots (Splitter.kept frame) ++ [s] ++ held) :=
      books₂.perm (List.Perm.refl _) ((List.perm_append_singleton s _).symm.append_right held)
    rw [Splitter.step_push_of_deliverable ok, ← kept]
    cases last
    · have assembled : Splitter.kept (frame ++ [.push s len false]) =
          Splitter.kept frame ++ [(s, min len slotSize)] := by
        simp [Splitter.kept_eq, ok]
      simp only [Bool.false_eq_true, if_false]
      refine ⟨rfl, ?_, same, fun _ nothing => (by cases nothing), by simpa [assembled] using rotated,
        rfl⟩
      refine Tracks.assembling (by simp) (by simp [ok]) (by simp [kept]) assembling ?_ ?_
      · simpa [kept] using carried
      · simpa [kept] using grown
    · simp only [if_true]
      refine ⟨rfl, Tracks.idle rfl assembling, same, fun _ delivered => ?_, by simpa using rotated,
        rfl⟩
      cases delivered
      exact carried

theorem ensures_feed_push {len : Nat} {last : Bool} (tracks : a.Tracks frame p)
    (books : p.Books (s :: armed) (pieceSlots (Splitter.kept frame) ++ held)) :
    Ensures (a.feed (.push s len last)) p
      (Stepped frame (.push s len last) (Splitter.step frame (.push s len last)) p armed held a)
      (fun _ => False) := by
  unfold feed
  apply ensures_seq
  refine (reclaimed_of_books books).mono (fun _ p₁ reclaimed => ?_) (fun _ => id)
  apply ensures_bind
  apply ensures_get
  rw [reclaimed.2.2]
  exact ensures_push_reclaimed tracks books reclaimed

theorem ensures_reject_reclaimed {len : Nat} {last : Bool} {p₁ : Pool} (tracks : a.Tracks frame p)
    (reclaimed : Reclaimed p p₁ s len armed (pieceSlots (Splitter.kept frame) ++ held)) :
    Ensures (do return (none, ← a.reject s last)) p₁
      (Stepped frame (.reject s len last) (Splitter.step frame (.reject s len last)) p armed held a)
      (fun _ => False) := by
  obtain ⟨same₁, books₁, _⟩ := reclaimed
  apply ensures_bind
  refine (ensures_reject tracks.holding books₁ last).mono
    (fun a' p' ⟨result, same₂, books₂⟩ => ensures_pure ?_) (fun _ => id)
  subst result
  rw [Splitter.step_reject]
  have same : p.SameExcept p' fun t => t ∈ [s] ∨ t ∈ pieceSlots (Splitter.kept frame) :=
    (same₁.trans same₂).mono fun t touched => by
      rcases touched with rfl | rfl | member
      · exact .inl (List.mem_singleton_self _)
      · exact .inl (List.mem_singleton_self _)
      · exact .inr member
  cases last
  · have dropped : Splitter.kept (frame ++ [.reject s len false]) = [] :=
      Splitter.kept_of_not_deliverable (by simp)
    simp only [Bool.false_eq_true, if_false]
    exact ⟨rfl, Tracks.dropping rfl rfl (by simp), same, fun _ nothing => (by cases nothing),
      by simpa [dropped] using books₂, rfl⟩
  · simp only [if_true]
    exact ⟨rfl, Tracks.idle rfl rfl, same, fun _ nothing => (by cases nothing),
      by simpa using books₂, rfl⟩

theorem ensures_feed_reject {len : Nat} {last : Bool} (tracks : a.Tracks frame p)
    (books : p.Books (s :: armed) (pieceSlots (Splitter.kept frame) ++ held)) :
    Ensures (a.feed (.reject s len last)) p
      (Stepped frame (.reject s len last) (Splitter.step frame (.reject s len last)) p armed held a)
      (fun _ => False) := by
  unfold feed
  apply ensures_seq
  exact (reclaimed_of_books books).mono
    (fun _ _ reclaimed => ensures_reject_reclaimed tracks reclaimed) (fun _ => id)

theorem Tracks.ensures_discard_stepped (tracks : a.Tracks frame p)
    (books : p.Books armed (pieceSlots (Splitter.kept frame) ++ held)) :
    Ensures a.discard p (fun a' p' =>
      Stepped frame .discard (Splitter.step frame .discard) p armed held a (none, a') p')
      (fun _ => False) := by
  refine (ensures_discard tracks.holding books).mono
    (fun a' p' ⟨result, same, books'⟩ => ?_) (fun _ => id)
  subst result
  rw [Splitter.step_discard]
  have same' : p.SameExcept p' fun t => t ∈ RxEvent.discard.slot?.toList ∨
      t ∈ pieceSlots (Splitter.kept frame) := same.mono fun _ => .inr
  by_cases begun : frame = []
  · -- between frames a discard changes nothing
    subst begun
    have vacant : a.inProgress = none := by simp [tracks.inProgress]
    have idle : a.discarding = false := by simp [tracks.discarding]
    simp only [vacant, Option.isSome_none, Bool.false_eq_true, if_false, if_true]
    exact ⟨rfl, Tracks.idle vacant idle, same', fun _ nothing => (by cases nothing),
      by simpa using books', rfl⟩
  · have dropped : Splitter.kept (frame ++ [.discard]) = [] :=
      Splitter.kept_of_not_deliverable (by simp)
    rw [if_neg begun]
    refine ⟨rfl, ?_, same', fun _ nothing => (by cases nothing), by simpa [dropped] using books',
      by split <;> rfl⟩
    cases ok : Splitter.deliverable frame
    · have vacant := tracks.inProgress_of_not_deliverable ok
      simp only [vacant, Option.isSome_none, Bool.false_eq_true, if_false]
      exact Tracks.dropping vacant (by rw [tracks.discarding, ok]; rfl) (by simp)
    · have assembling : a.inProgress.isSome = true := by
        simp [tracks.inProgress, Splitter.pending_of_deliverable begun ok]
      simp only [assembling, if_true]
      exact Tracks.dropping rfl rfl (by simp)

theorem ensures_feed_discard (tracks : a.Tracks frame p)
    (books : p.Books armed (pieceSlots (Splitter.kept frame) ++ held)) :
    Ensures (a.feed .discard) p
      (Stepped frame .discard (Splitter.step frame .discard) p armed held a) (fun _ => False) := by
  unfold feed
  apply ensures_bind
  exact (tracks.ensures_discard_stepped books).mono (fun _ _ stepped => ensures_pure stepped)
    (fun _ => id)

theorem Tracks.ensures_feed {e : RxEvent} (tracks : a.Tracks frame p)
    (books : p.Books (e.slot?.toList ++ armed) (pieceSlots (Splitter.kept frame) ++ held)) :
    Ensures (a.feed e) p (Stepped frame e (Splitter.step frame e) p armed held a) (fun _ => False) := by
  cases e with
  | push s len last => exact ensures_feed_push tracks books
  | reject s len last => exact ensures_feed_reject tracks books
  | discard => exact ensures_feed_discard tracks books

/-! ### A run of events against the splitter -/

/-- What a run of events leaves, against the splitter's run from the frame `frame`: the chains
the splitter delivers, event by event; the assembler tracking the splitter's frame at the end;
only the events' slots and the pieces held at the start touched; every delivered frame carried
by its slots; and the books, with the pieces held at the end, every slot handed out and the other
packet buffers `held`. -/
structure Ran (frame events : List RxEvent) (p : Pool) (armed held : List SlotId)
    (r : List (Option Chain) × Assembler) (p' : Pool) : Prop where
  outputs : r.1 = (Splitter.outputs frame events).map (Option.map chainOf)
  tracks : r.2.Tracks (Splitter.after frame events) p'
  same : p.SameExcept p' fun t => t ∈ RxEvent.slots events ∨ t ∈ pieceSlots (Splitter.kept frame)
  carries : ∀ ps, some ps ∈ Splitter.outputs frame events → p'.Carries ps
  books : p'.Books armed (pieceSlots (Splitter.kept (Splitter.after frame events)) ++
    Splitter.handedOut (Splitter.outputs frame events) ++ held)

/-- A run of events keeps the assembler where the splitter is; induction on the run, with the
slots of each delivered frame joining the other packet buffers. -/
theorem Tracks.ensures_feedAll {events : List RxEvent} (tracks : a.Tracks frame p)
    (books : p.Books (RxEvent.slots events ++ armed) (pieceSlots (Splitter.kept frame) ++ held)) :
    Ensures (a.feedAll events) p (Ran frame events p armed held) (fun _ => False) := by
  induction events generalizing a frame p held with
  | nil =>
    refine ensures_pure ⟨rfl, tracks, Pool.SameExcept.refl.mono fun _ => False.elim,
      fun _ nothing => (by cases nothing), ?_⟩
    simpa [Splitter.handedOut, Splitter.outputs, Splitter.after] using books
  | cons e rest ih =>
    rw [RxEvent.slots_cons, List.append_assoc] at books
    unfold feedAll
    apply ensures_bind
    refine (tracks.ensures_feed books).mono (fun r p₁ stepped => ?_) (fun _ => id)
    have books₁ : p₁.Books (RxEvent.slots rest ++ armed)
        (pieceSlots (Splitter.kept (Splitter.step frame e).2) ++
          (pieceSlots ((Splitter.step frame e).1.getD []) ++ held)) := by
      rw [← List.append_assoc]
      exact stepped.books
    apply ensures_bind
    refine (ih stepped.tracks books₁).mono (fun rs p' ran => ensures_pure ?_) (fun _ => id)
    refine ⟨?_, ran.tracks, ?_, ?_, ?_⟩
    · show r.1 :: rs.1 = _
      rw [stepped.output, ran.outputs]
      rfl
    · refine (stepped.same.trans ran.same).mono fun t touched => ?_
      rw [RxEvent.slots_cons]
      rcases touched with (own | held) | (later | kept)
      · exact .inl (List.mem_append_left _ own)
      · exact .inr held
      · exact .inl (List.mem_append_right _ later)
      · rcases List.mem_append.mp (Splitter.kept_step_subset frame e kept) with held | own
        · exact .inr held
        · exact .inl (List.mem_append_left _ own)
    · intro ps member
      rcases List.mem_cons.mp member with here | later
      · -- no later event touches the slots of the frame just delivered: software holds them
        refine (stepped.carries ps here.symm).congr fun t delivered => ran.same.2.2 t ?_
        have software : p₁.owner t = .software := by
          refine books₁.owner_of_mem_held (List.mem_append_right _ (List.mem_append_left held ?_))
          rw [← here]
          exact delivered
        rintro (later | kept)
        · rw [books₁.owner_of_mem_armed (List.mem_append_left armed later)] at software
          cases software
        · rw [Splitter.step_delivers here.symm] at kept
          cases kept
      · exact ran.carries ps later
    · refine ran.books.perm (List.Perm.refl _) (List.perm_iff_count.mpr fun t => ?_)
      show List.count t (_ ++ _ ++ _) = List.count t (_ ++ Splitter.handedOut (_ :: _) ++ _)
      simp only [Splitter.handedOut_cons, Splitter.after_cons, List.count_append]
      omega

end Assembler

/-- A new assembler fed any run of events, each taking back a distinct armed receive buffer,
refines the reference splitter. At each event it hands out the chain of exactly what the
splitter delivers there: the pieces of a frame all of whose events were pushes, at its last
push, in push order, with their lengths summed. It ends tracking the splitter's frame in
progress. Every delivered frame's slots carry it: each slot holds its piece's length and a
running total that counts the bytes from it to the frame's end, and no total overflows, as no
check halts. The books count the pieces still held, one handle each, every delivered slot and
the other packet buffers; and every slot taken back that is neither held nor delivered has been
dropped back onto the free list. -/
theorem assembler_refines_splitter {p : Pool} {events : List RxEvent} {armed held : List SlotId}
    (books : p.Books (RxEvent.slots events ++ armed) held) :
    Ensures (({} : Assembler).feedAll events) p (fun r p' =>
      r.1 = (Splitter.outputs [] events).map (Option.map chainOf) ∧
      r.2.Tracks (Splitter.after [] events) p' ∧
      (∀ ps, some ps ∈ Splitter.outputs [] events → p'.Carries ps) ∧
      p'.Books armed (pieceSlots (Splitter.kept (Splitter.after [] events)) ++
        Splitter.handedOut (Splitter.outputs [] events) ++ held) ∧
      ∀ t ∈ RxEvent.slots events, t ∉ pieceSlots (Splitter.kept (Splitter.after [] events)) →
        t ∉ Splitter.handedOut (Splitter.outputs [] events) →
        p'.owner t = .free ∧ t.index ∈ p'.freeList)
      (fun _ => False) := by
  have start : ({} : Assembler).Tracks [] p := Assembler.Tracks.idle rfl rfl
  refine (start.ensures_feedAll (by simpa using books)).mono
    (fun r p' ran => ⟨ran.outputs, ran.tracks, ran.carries, ran.books, ?_⟩) (fun _ => id)
  intro t member notKept notHanded
  have armedBefore := List.mem_append_left armed member
  have inRange : t.index < p'.capacity := ran.same.1 ▸ books.armed_lt t armedBefore
  -- the events' slots are armed, so none of them is among the other handles
  have notArmed : t ∉ armed := fun again =>
    (List.nodup_append.mp books.armed_nodup).2.2 t member t again rfl
  have notHeld : t ∉ held := fun again => by
    have software := books.owner_of_mem_held again
    rw [books.owner_of_mem_armed armedBefore] at software
    cases software
  exact ran.books.free_of_unheld inRange notArmed (by simp [notKept, notHanded, notHeld])

/-- Two receive buffers armed in a new pool, one frame of two pushes: it is delivered whole at
its last push, the second piece clipped to a slot, and its first slot carries its length. -/
theorem assembler_delivers_two_slot_frame :
    (((Pool.fresh 2).handedOut 0 [1]).handedOut 1 []).Books
      (RxEvent.slots [.push ⟨1⟩ 1000 false, .push ⟨0⟩ 2000 true] ++ []) [] ∧
    Ensures (({} : Assembler).feedAll [.push ⟨1⟩ 1000 false, .push ⟨0⟩ 2000 true])
      (((Pool.fresh 2).handedOut 0 [1]).handedOut 1 [])
      (fun r p' => r.1 = [none, some (chainOf [(⟨1⟩, 1000), (⟨0⟩, 1536)])] ∧
        (p'.header ⟨1⟩).total = 2536) (fun _ => False) := by
  have books : (((Pool.fresh 2).handedOut 0 [1]).handedOut 1 []).Books
      (RxEvent.slots [.push ⟨1⟩ 1000 false, .push ⟨0⟩ 2000 true] ++ []) [] :=
    ((Pool.books_fresh (by decide)).handedOut rfl).handedOut rfl
  refine ⟨books, (assembler_refines_splitter books).mono
    (fun r p' ⟨outputs, _, carries, _⟩ => ⟨?_, ?_⟩) (fun _ => id)⟩
  · rw [outputs]
    decide
  · exact (carries [(⟨1⟩, 1000), (⟨0⟩, 1536)] (by decide)).2.1

end Ethernet
