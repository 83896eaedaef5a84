import Ethernet.Proofs.Station.Invariant
import Ethernet.Proofs.Frame.Fragments

/-! The views of a chain agree: its counted length, the sum of its segments' lengths, its bytes, a
copy into a buffer and the bytes a receiver is handed. -/
namespace Ethernet

namespace Chain

variable {p : Pool} {c : Chain}

theorem length_toBytes (p : Pool) (c : Chain) :
    (c.toBytes p).length = (c.segments.map (Segment.len p)).sum := by
  simp [toBytes, List.length_flatMap]

/-- The copy loop, started with `written` bytes in place, writes the segments' bytes over `out`
from there on until `out` is full or the segments end, and leaves the rest of `out` alone. -/
theorem copyTo.go_eq (p : Pool) (segs : List Segment) {written : Nat} {out : List UInt8}
    (room : written ≤ out.length) :
    copyTo.go p segs written out =
      (written + min (out.length - written) (segs.flatMap (Segment.bytes p)).length,
        out.take written ++ (segs.flatMap (Segment.bytes p)).take (out.length - written) ++
          out.drop (written + (segs.flatMap (Segment.bytes p)).length)) := by
  induction segs generalizing written out with
  | nil => simp [copyTo.go]
  | cons seg rest ih =>
    simp only [copyTo.go, List.flatMap_cons]
    generalize seg.bytes p = bytes
    generalize rest.flatMap (Segment.bytes p) = later at ih ⊢
    set n := min bytes.length (out.length - written) with hn
    have front : (out.take written).length = written := by simp [room]
    have size : (out.take written ++ bytes.take n ++ out.drop (written + n)).length = out.length := by
      simp only [List.length_append, List.length_take, List.length_drop]
      omega
    rw [size]
    split
    · -- the buffer is full: this segment's cut is the last thing written
      rename_i full
      have cut : out.length - written ≤ bytes.length := by omega
      have all : n = out.length - written := by omega
      have gone : out.drop (written + n) = [] := List.drop_eq_nil_of_le (by omega)
      have gone' : out.drop (written + (bytes ++ later).length) = [] :=
        List.drop_eq_nil_of_le (by simp only [List.length_append]; omega)
      rw [List.take_append_of_le_length cut, ← all, gone, gone']
      simp only [List.length_append, Prod.mk.injEq, and_true]
      omega
    · -- the whole segment fits with room to spare, and the loop goes on after it
      rename_i spare
      have whole : n = bytes.length := by omega
      have taken : bytes.take n = bytes := List.take_of_length_le (by omega)
      have spliced : (out.take written ++ bytes).length = written + n := by simp [front, whole]
      have before : (out.take written ++ bytes ++ out.drop (written + n)).take (written + n) =
          out.take written ++ bytes := by
        rw [List.take_append_of_le_length spliced.ge, List.take_of_length_le spliced.le]
      have after : (out.take written ++ bytes ++ out.drop (written + n)).drop (written + n + later.length) =
          out.drop (written + (bytes ++ later).length) := by
        have gone : (out.take written ++ bytes).drop (written + n + later.length) = [] :=
          List.drop_eq_nil_of_le (by rw [spliced]; omega)
        rw [List.drop_append, gone, List.nil_append, List.drop_drop, spliced, List.length_append,
          ← whole]
        congr 1
        omega
      have joined : (bytes ++ later).take (out.length - written) =
          bytes ++ later.take (out.length - (written + n)) := by
        rw [List.take_append, List.take_of_length_le (by omega), ← whole, Nat.sub_sub]
      rw [ih (by omega), size, taken, before, after, joined, List.length_append, ← whole]
      simp only [List.append_assoc, Prod.mk.injEq, and_true]
      omega

/-- The copy writes the frame's first `n` bytes over the buffer's and leaves the rest of the
buffer alone, where `n` is as many as both have. -/
theorem copyTo_eq (p : Pool) (c : Chain) (out : List UInt8) :
    c.copyTo p out = (min out.length (c.toBytes p).length,
      (c.toBytes p).take (min out.length (c.toBytes p).length) ++
        out.drop (min out.length (c.toBytes p).length)) := by
  rw [copyTo, @copyTo.go_eq p c.segments 0 out (Nat.zero_le _)]
  simp only [Nat.sub_zero, Nat.zero_add, List.take_zero, List.nil_append]
  change (min out.length (c.toBytes p).length,
    (c.toBytes p).take out.length ++ out.drop (c.toBytes p).length) = _
  rcases le_total out.length (c.toBytes p).length with fits | spills
  · rw [Nat.min_eq_left fits, List.drop_eq_nil_of_le fits, List.drop_eq_nil_of_le le_rfl]
  · rw [Nat.min_eq_right spills, List.take_of_length_le spills, List.take_of_length_le le_rfl]

/-- A chain is one slot in place exactly when it is a single pooled segment whose slot nobody
else holds. -/
theorem singleSlot?_eq_some_iff {s : SlotId} :
    c.singleSlot? p = some s ↔ c.segments = [.pooled s] ∧ (p.header s).refcount = 1 := by
  unfold singleSlot?
  split
  · rename_i t sole
    rw [sole]
    by_cases alone : (p.header t).refcount = 1
    · simp only [alone, beq_self_eq_true, if_true, Option.some.injEq, List.cons.injEq,
        Segment.pooled.injEq, and_true]
      constructor
      · rintro rfl
        exact ⟨rfl, alone⟩
      · rintro ⟨rfl, _⟩
        rfl
    · simp only [beq_iff_eq, alone, if_false, List.cons.injEq, Segment.pooled.injEq, and_true]
      constructor
      · intro none
        cases none
      · rintro ⟨rfl, one⟩
        exact absurd one alone
  · rename_i other
    simp only [reduceCtorEq, false_iff, not_and]
    intro sole
    exact absurd sole (other s)

theorem toBytes_of_singleSlot? {s : SlotId} (found : c.singleSlot? p = some s) :
    c.toBytes p = p.payload s := by
  obtain ⟨sole, _⟩ := singleSlot?_eq_some_iff.mp found
  simp [toBytes, sole, Segment.bytes]

theorem tokenBytes_eq_toBytes (p : Pool) (c : Chain) : c.tokenBytes p = c.toBytes p := by
  unfold tokenBytes
  split
  · rename_i s found
    exact (toBytes_of_singleSlot? found).symm
  · rfl

theorem sum_len_of_keeps {p p' : Pool} (keeps : p.Keeps p' (· ∈ c.slots)) :
    (c.segments.map (Segment.len p')).sum = (c.segments.map (Segment.len p)).sum := by
  congr 1
  apply List.map_congr_left
  intro seg member
  cases seg with
  | pooled t => exact (keeps t (List.mem_filterMap.mpr ⟨_, member, rfl⟩)).1
  | shared d => rfl

@[simp] theorem slots_push_pooled (p : Pool) (c : Chain) (s : SlotId) :
    (c.push p (.pooled s)).slots = c.slots ++ [s] := by
  simp [push, slots, List.filterMap_append]

@[simp] theorem slots_push_shared (p : Pool) (c : Chain) (d : Shared) :
    (c.push p (.shared d)).slots = c.slots := by
  simp [push, slots, List.filterMap_append]

/-- What a holder of chains does with the pool and its chains: arm a slot, let the hardware
fill an armed slot, reclaim it as a packet buffer, start a chain empty or over shared bytes,
push shared bytes or one of its packet buffers onto a chain, clone a chain or drop one. -/
inductive Use where
  | allocate
  | fill (slot : SlotId) (data : List UInt8)
  | reclaim (slot : SlotId) (len : Nat)
  | start (first : Option Shared)
  | pushShared (chain : Chain) (data : Shared)
  | pushBuf (chain : Chain) (slot : SlotId)
  | clone (chain : Chain)
  | drop (chain : Chain)
  deriving DecidableEq, Repr

/-- The handles a holder of chains has, one entry per handle: receive buffers armed for the
hardware, packet buffers reclaimed and not yet pushed, and chains. -/
structure Holder where
  armed : List SlotId := []
  bufs : List SlotId := []
  chains : List Chain := []
  deriving DecidableEq, Repr

namespace Holder

/-- The packet buffers a holder has, loose or in its chains. -/
def handles (h : Holder) : List SlotId := h.bufs ++ h.chains.flatMap slots

/-- Makes one use; a use of a handle the holder does not have is not made. -/
def perform (h : Holder) : Use → PoolRun Holder
  | .allocate => do
    match ← Pool.allocate with
    | .ok s => return { h with armed := s :: h.armed }
    | .error _ => return h
  | .fill s data =>
    if s ∈ h.armed then do
      modify (·.write s data)
      return h
    else pure h
  | .reclaim s len =>
    if s ∈ h.armed then do
      Pool.reclaim s len
      return { h with armed := h.armed.erase s, bufs := s :: h.bufs }
    else pure h
  | .start first =>
    pure { h with chains := (first.elim {} ofShared) :: h.chains }
  | .pushShared c d =>
    if c ∈ h.chains then do
      let p ← get
      return { h with chains := c.push p (.shared d) :: h.chains.erase c }
    else pure h
  | .pushBuf c s =>
    if c ∈ h.chains ∧ s ∈ h.bufs then do
      let p ← get
      return { h with bufs := h.bufs.erase s, chains := c.push p (.pooled s) :: h.chains.erase c }
    else pure h
  | .clone c =>
    if c ∈ h.chains then do
      c.retain
      return { h with chains := c :: h.chains }
    else pure h
  | .drop c =>
    if c ∈ h.chains then do
      c.release
      return { h with chains := h.chains.erase c }
    else pure h

/-- Every chain's counted length is the sum of its segments' lengths. -/
def Counted (p : Pool) (chains : List Chain) : Prop :=
  ∀ c ∈ chains, c.total = (c.segments.map (Segment.len p)).sum

/-- The holder's handles are the pool's books, and its chains are counted right. -/
structure Sound (h : Holder) (p : Pool) : Prop where
  books : p.Books h.armed h.handles
  counted : Counted p h.chains

variable {h : Holder} {p p' : Pool}

theorem Counted.of_keeps {chains : List Chain} (counted : Counted p chains)
    (keeps : p.Keeps p' (· ∈ chains.flatMap slots)) : Counted p' chains := by
  intro c member
  rw [counted c member, sum_len_of_keeps (keeps.mono fun t slot =>
    List.mem_flatMap.mpr ⟨c, member, slot⟩)]

theorem Counted.of_subset {chains chains' : List Chain} (counted : Counted p chains)
    (within : ∀ c ∈ chains', c ∈ chains) : Counted p chains' :=
  fun c member => counted c (within c member)

theorem Counted.push {c : Chain} {chains : List Chain} (counted : Counted p chains)
    (member : c ∈ chains) (seg : Segment) : Counted p (c.push p seg :: chains.erase c) := by
  rintro c' (_ | ⟨_, other⟩)
  · simp [Chain.push, counted c member]
  · exact counted c' (List.mem_of_mem_erase other)

theorem flatMap_slots_perm {c : Chain} {chains : List Chain} (member : c ∈ chains) :
    (chains.flatMap slots).Perm (c.slots ++ (chains.erase c).flatMap slots) := by
  simpa using (List.perm_cons_erase member).flatMap_right slots

theorem chainSlots_subset_handles {t : SlotId} (held : t ∈ h.chains.flatMap slots) :
    t ∈ h.handles :=
  List.mem_append_right _ held

/-- One use keeps a holder sound; it halts only to clone a chain with a slot whose reference
count is full. -/
theorem Sound.ensures_perform (sound : h.Sound p) (use : Use) :
    Ensures (h.perform use) p (fun h' p' => h'.Sound p')
      (fun f => ∃ c, use = .clone c ∧ ∃ t ∈ c.slots, f = .refcountOverflow t.index) := by
  cases use with
  | allocate =>
    apply ensures_bind
    refine sound.books.ensures_allocate.mono (fun r p' after => ?_) (fun _ => False.elim)
    cases r with
    | ok s =>
      -- the slot handed out was free, so no chain holds it
      have apart := after.2.not_held_of_armed List.mem_cons_self
      refine ensures_pure ⟨after.2, sound.counted.of_keeps (after.1.keeps.mono ?_)⟩
      rintro t held rfl
      exact apart (chainSlots_subset_handles held)
    | error e =>
      exact ensures_pure ⟨after.2, sound.counted.of_keeps (after.1.keeps.mono fun _ _ => id)⟩
  | fill s data =>
    apply ensures_ite
    · intro _
      exact ensures_seq (ensures_modify (ensures_pure
        ⟨sound.books.write, sound.counted.of_keeps fun _ _ => ⟨rfl, rfl⟩⟩))
    · exact fun _ => ensures_pure sound
  | reclaim s len =>
    apply ensures_ite
    · intro member
      -- an armed slot is in no chain
      have apart := sound.books.not_held_of_armed member
      refine ensures_seq ((sound.books.ensures_reclaim member).mono
        (fun _ p' after => ensures_pure ⟨after.2.1, sound.counted.of_keeps
          (after.1.keeps.mono ?_)⟩) (fun _ => False.elim))
      rintro t held rfl
      exact apart (chainSlots_subset_handles held)
    · exact fun _ => ensures_pure sound
  | start first =>
    refine ensures_pure ⟨?_, ?_⟩
    · cases first <;> exact sound.books
    · rintro c (_ | ⟨_, other⟩)
      · cases first <;> simp [ofShared, Segment.len]
      · exact sound.counted c other
  | pushShared c d =>
    apply ensures_ite
    · intro member
      refine ensures_bind (ensures_get (ensures_pure ⟨sound.books.perm (.refl _) ?_,
        sound.counted.push member _⟩))
      simpa [handles] using ((flatMap_slots_perm member).append_left h.bufs)
    · exact fun _ => ensures_pure sound
  | pushBuf c s =>
    apply ensures_ite
    · rintro ⟨member, loose⟩
      refine ensures_bind (ensures_get (ensures_pure ⟨sound.books.perm (.refl _) ?_,
        sound.counted.push member _⟩))
      have moved : h.handles.Perm
          (h.bufs.erase s ++ c.slots ++ s :: (h.chains.erase c).flatMap slots) := by
        refine ((List.perm_cons_erase loose).append (flatMap_slots_perm member)).trans ?_
        simpa using (@List.perm_middle _ s (h.bufs.erase s ++ c.slots)
          ((h.chains.erase c).flatMap slots)).symm
      simpa [handles] using moved
    · exact fun _ => ensures_pure sound
  | clone c =>
    apply ensures_ite
    · intro member
      have known : ∀ t ∈ c.slots, t ∈ h.handles := fun t slot =>
        chainSlots_subset_handles (List.mem_flatMap.mpr ⟨c, member, slot⟩)
      refine ensures_seq ((sound.books.ensures_retainAll known).mono
        (fun _ p' after => ensures_pure ⟨after.2.1.perm (.refl _) ?_, ?_⟩)
        (fun f full => ?_))
      · exact List.perm_append_comm_assoc c.slots h.bufs _
      · exact (sound.counted.of_subset fun c' other => by
          rcases List.mem_cons.mp other with same | other
          · exact same ▸ member
          · exact other).of_keeps (after.2.2.mono fun _ _ => trivial)
      · obtain ⟨t, slot, -, overflow⟩ := full
        exact ⟨c, rfl, t, slot, overflow⟩
    · exact fun _ => ensures_pure sound
  | drop c =>
    apply ensures_ite
    · intro member
      have books : p.Books h.armed (c.slots ++ (h.bufs ++ (h.chains.erase c).flatMap slots)) :=
        sound.books.perm (.refl _) (((flatMap_slots_perm member).append_left h.bufs).trans
          (List.perm_append_comm_assoc h.bufs c.slots _))
      refine ensures_seq ((books.ensures_chainRelease).mono
        (fun _ p' after => ensures_pure ⟨after.2.1, ?_⟩) (fun _ => False.elim))
      exact (sound.counted.of_subset fun _ other => List.mem_of_mem_erase other).of_keeps
        (after.2.2.mono fun _ held => List.mem_append_right _ held)
    · exact fun _ => ensures_pure sound

/-- The holders and pools reached from a new pool of `capacity` slots. -/
inductive Built (capacity : Nat) : Holder → Pool → Prop where
  | create {p : Pool} {j j' : Journal} : Pool.create capacity j = .ok p j' → Built capacity {} p
  | perform {h h' : Holder} {p p' : Pool} {j j' : Journal} (use : Use) :
      Built capacity h p → h.perform use p j = .ok (h', p') j' → Built capacity h' p'

theorem Built.sound {capacity : Nat} (built : Built capacity h p) : h.Sound p := by
  induction built with
  | create created =>
    obtain ⟨valid, rfl⟩ := Pool.create_ok created
    exact ⟨Pool.books_fresh valid.2, fun _ member => nomatch member⟩
  | perform use _ ran sound => exact (sound.ensures_perform use).of_ok ran

end Holder

/-- The views of every chain a holder builds agree: its counted length is the sum of its
segments' lengths and the length of its bytes; a copy into any buffer writes as many of the
frame's first bytes as both hold and leaves the rest of the buffer alone; the chain is one slot
in place exactly when it is a single pooled segment nobody else holds, and that slot's payload
is the whole frame; so a receiver is handed the same bytes in place as copied. -/
theorem views_agree {capacity : Nat} {h : Holder} {p : Pool} {c : Chain}
    (built : Holder.Built capacity h p) (member : c ∈ h.chains) :
    c.total = (c.segments.map (Segment.len p)).sum ∧
    (c.toBytes p).length = c.total ∧
    (∀ out : List UInt8, c.copyTo p out = (min out.length c.total,
      (c.toBytes p).take (min out.length c.total) ++ out.drop (min out.length c.total))) ∧
    (∀ s : SlotId, c.singleSlot? p = some s ↔ c.segments = [.pooled s] ∧ (p.header s).refcount = 1) ∧
    (∀ s : SlotId, c.singleSlot? p = some s → p.payload s = c.toBytes p) ∧
    c.tokenBytes p = c.toBytes p := by
  have counted := built.sound.counted c member
  have length : (c.toBytes p).length = c.total := by rw [length_toBytes, counted]
  refine ⟨counted, length, fun out => ?_, fun _ => singleSlot?_eq_some_iff,
    fun _ found => (toBytes_of_singleSlot? found).symm, tokenBytes_eq_toBytes p c⟩
  rw [copyTo_eq, length]

/-- A chain of shared bytes and a reclaimed slot copied into six zero bytes. -/
theorem shared_then_pooled_views_agree :
    ∃ p, Holder.Built 2 { chains := [⟨[.shared ⟨0, [9]⟩, .pooled ⟨0⟩], 4⟩] } p ∧
      (⟨[.shared ⟨0, [9]⟩, .pooled ⟨0⟩], 4⟩ : Chain).copyTo p (List.replicate 6 0) =
        (4, (⟨[.shared ⟨0, [9]⟩, .pooled ⟨0⟩], 4⟩ : Chain).toBytes p ++ [0, 0]) := by
  obtain ⟨p, built⟩ : ∃ p, Holder.Built 2 { chains := [⟨[.shared ⟨0, [9]⟩, .pooled ⟨0⟩], 4⟩] } p :=
    ⟨_, .perform (j := #[]) (.pushBuf (ofShared ⟨0, [9]⟩) ⟨0⟩)
      (.perform (j := #[]) (.start (some ⟨0, [9]⟩))
        (.perform (j := #[]) (.reclaim ⟨0⟩ 3)
          (.perform (j := #[]) (.fill ⟨0⟩ [1, 2, 3])
            (.perform (j := #[]) .allocate (.create (Pool.create_eq (by decide) #[])) rfl)
            rfl) rfl) rfl) rfl⟩
  obtain ⟨_, length, copy, _⟩ := views_agree built List.mem_cons_self
  refine ⟨p, built, ?_⟩
  rw [copy]
  simp only at length ⊢
  simp [List.take_of_length_le length.le]

end Chain

end Ethernet
