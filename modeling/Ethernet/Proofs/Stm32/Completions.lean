import Ethernet.Proofs.Stm32.Driver
import Ethernet.Bench.EmulatedBlock

/-! What the receive completions of one frame report: each full buffer, then the remainder less
the FCS, which overreports when the FCS straddles two descriptors. -/
namespace Ethernet.Stm32.Controller

variable {ω : Type} [EthernetBlock ω]

/-- What reading back the released descriptor `d`, armed with `slot`, reports when `bytes` of
its frame were reported before it, and the bytes reported once it is read. A first descriptor
starts the count afresh; a last one reports the rest of the frame less the FCS, at most its
buffer, and ends the count. -/
def readBack (slot : SlotId) (d : RingEntry) (bytes : Nat) : RxCompletion × Nat :=
  let capacity := (d.control &&& rdesBufferMask).toNat
  let last := d.status &&& rdesLs != 0
  let before := if d.status &&& rdesFs != 0 then 0 else bytes
  let (length, error, after) :=
    if last then (min (frameLength d.status - crcSize - before) capacity, d.status &&& rdesEs != 0, 0)
    else (capacity, false, before + capacity)
  (⟨slot, length, last, error⟩, after)

/-- What reading back the released descriptors `ds`, each with its slot, one after another
reports, when `bytes` of the frame in progress were reported before them. -/
def readBacks : List (SlotId × RingEntry) → Nat → List RxCompletion
  | [], _ => []
  | (s, d) :: rest, bytes => (readBack s d bytes).1 :: readBacks rest (readBack s d bytes).2

/-- Reads back `n` descriptors in a row. -/
def pollTimes : Nat → Op ω (List (Option RxCompletion))
  | 0 => pure []
  | n + 1 => do
    let r ← rxPoll
    let rs ← pollTimes n
    return r :: rs

variable {c : Controller ω}

theorem returns_rxPoll {s : SlotId} (armed : c.rxSlots.get (Controller.at c.rxNext) = some s)
    (done : (EthernetBlock.entry .rx c.rxNext c.block).isDmaOwned = false) :
    Returns rxPoll c (some (readBack s (EthernetBlock.entry .rx c.rxNext c.block) c.rxFrameBytes).1)
      { c with
        rxSlots := put c.rxSlots c.rxNext none
        rxNext := (c.rxNext + 1) % ringSize
        rxFrameBytes := (readBack s (EthernetBlock.entry .rx c.rxNext c.block) c.rxFrameBytes).2 } := by
  intro j
  refine ⟨j, ?_⟩
  simp only [rxPoll, armed, entry, done, bind_apply, get_apply, pure_apply, set_apply,
    Bool.false_eq_true, if_false]
  rfl

/-- The descriptors `ds` are armed one after another from the next one to read back, each
with its slot, the engine has released them all, and they fit the ring. -/
structure Armed (c : Controller ω) (ds : List (SlotId × RingEntry)) : Prop where
  next_lt : c.rxNext < ringSize
  fits : ds.length ≤ ringSize
  slots : ∀ j (h : j < ds.length), c.rxSlots.get (Controller.at (c.rxNext + j)) = some ds[j].1
  entries : ∀ j (h : j < ds.length),
    EthernetBlock.entry .rx ((c.rxNext + j) % ringSize) c.block = ds[j].2
  released : ∀ x ∈ ds, x.2.isDmaOwned = false

theorem returns_pollTimes {ds : List (SlotId × RingEntry)} (armed : Armed c ds) :
    ∃ c', Returns (pollTimes ds.length) c ((readBacks ds c.rxFrameBytes).map some) c' := by
  induction ds generalizing c with
  | nil => exact ⟨c, fun j => ⟨j, rfl⟩⟩
  | cons x rest ih =>
    obtain ⟨s, d⟩ := x
    have first : EthernetBlock.entry .rx c.rxNext c.block = d := by
      have read := armed.entries 0 (by simp)
      simp only [Nat.add_zero, Nat.mod_eq_of_lt armed.next_lt, List.getElem_cons_zero] at read
      exact read
    have slot : c.rxSlots.get (Controller.at c.rxNext) = some s := by
      have read := armed.slots 0 (by simp)
      simp only [Nat.add_zero, List.getElem_cons_zero] at read
      exact read
    have polled := returns_rxPoll slot (first ▸ armed.released _ List.mem_cons_self)
    rw [first] at polled
    -- the rest is armed from the descriptor after it, which the poll emptied no part of
    have rest_armed : Armed { c with
        rxSlots := put c.rxSlots c.rxNext none
        rxNext := (c.rxNext + 1) % ringSize
        rxFrameBytes := (readBack s d c.rxFrameBytes).2 } rest := by
      have fits := armed.fits
      have next := armed.next_lt
      simp only [List.length_cons, ringSize_eq] at fits next
      refine ⟨Nat.mod_lt _ (by decide), by simp only [ringSize_eq]; omega, fun j h => ?_, fun j h => ?_,
        fun y member => armed.released y (List.mem_cons_of_mem _ member)⟩
      · have apart : ¬c.rxNext % 4 = ((c.rxNext + 1) % ringSize + j) % 4 := by
          simp only [ringSize_eq]
          omega
        have same : ((c.rxNext + 1) % ringSize + j) % 4 = (c.rxNext + (j + 1)) % 4 := by
          simp only [ringSize_eq]
          omega
        have read := armed.slots (j + 1) (by simp only [List.length_cons]; omega)
        simp only [List.getElem_cons_succ] at read
        rw [get_put, if_neg apart, at_congr same, read]
      · have index : ((c.rxNext + 1) % ringSize + j) % ringSize = (c.rxNext + (j + 1)) % ringSize := by
          simp only [ringSize_eq]
          omega
        have read := armed.entries (j + 1) (by simp only [List.length_cons]; omega)
        simp only [List.getElem_cons_succ] at read
        rw [index, read]
    obtain ⟨c', rest⟩ := ih rest_armed
    exact ⟨c', polled.andThen (rest.andThen fun j => ⟨j, rfl⟩)⟩

/-! ### A frame written into several descriptors -/

/-- The status word the engine leaves on the `j`-th of the `k` descriptors it wrote a frame of
`len` bytes, FCS included, into: marked first on the first descriptor only, and marked last,
with the frame length, on the last only. -/
structure FrameStatus (k len j : Nat) (status : UInt32) : Prop where
  first : (status &&& rdesFs != 0) = (j == 0)
  last : (status &&& rdesLs != 0) = (j + 1 == k)
  length : j + 1 = k → frameLength status = len

instance (k len j : Nat) (status : UInt32) : Decidable (FrameStatus k len j status) :=
  decidable_of_iff (_ ∧ _ ∧ _) ⟨fun ⟨first, last, length⟩ => ⟨first, last, length⟩,
    fun ⟨first, last, length⟩ => ⟨first, last, length⟩⟩

/-- The engine wrote a frame of `len` bytes, FCS included, into the released descriptors `ds`,
armed one after another from the next one to read back, each with a buffer of `capacity` bytes:
at least one descriptor, and as few as hold the frame. -/
structure FrameWritten (c : Controller ω) (ds : List (SlotId × RingEntry)) (len capacity : Nat) : Prop
    extends Armed c ds where
  nonempty : ds ≠ []
  status : ∀ j (h : j < ds.length), FrameStatus ds.length len j ds[j].2.status
  sized : ∀ x ∈ ds, (x.2.control &&& rdesBufferMask).toNat = capacity
  fcs : crcSize ≤ len
  fills : (ds.length - 1) * capacity < len ∧ len ≤ ds.length * capacity

/-- What the `i`-th of the `k` descriptors of a frame of `len` bytes, each with a buffer of
`capacity` bytes, reports: a full buffer before the last; on the last, what is left of the
frame less its FCS once the full buffers are counted, with the engine's error flag. -/
def frameCompletion (k len capacity i : Nat) (x : SlotId × RingEntry) : RxCompletion :=
  if i + 1 = k then ⟨x.1, len - crcSize - (k - 1) * capacity, true, x.2.status &&& rdesEs != 0⟩
  else ⟨x.1, capacity, false, false⟩

theorem readBack_frame {k len capacity j bytes : Nat} {x : SlotId × RingEntry}
    (status : FrameStatus k len j x.2.status) (sized : (x.2.control &&& rdesBufferMask).toNat = capacity)
    (fills : len ≤ k * capacity) (inside : j < k) (counted : 0 < j → bytes = j * capacity) :
    readBack x.1 x.2 bytes =
      (frameCompletion k len capacity j x, if j + 1 = k then 0 else (j + 1) * capacity) := by
  have before : (if x.2.status &&& rdesFs != 0 then 0 else bytes) = j * capacity := by
    rw [status.first]
    by_cases zero : j = 0
    · simp [zero]
    · simp [zero, counted (by omega)]
  unfold readBack frameCompletion
  simp only [status.last, before, sized]
  by_cases last : j + 1 = k
  · -- the last buffer holds what the full ones before it leave of the frame
    subst last
    have rest : len - crcSize - j * capacity ≤ capacity := by
      rw [Nat.succ_mul] at fills
      omega
    simp [status.length rfl, Nat.min_eq_left rest]
  · simp [last, Nat.succ_mul]

theorem readBacks_frame {k len capacity : Nat} (fills : len ≤ k * capacity) :
    ∀ (rest : List (SlotId × RingEntry)) (j bytes : Nat), j + rest.length = k →
      (∀ i (h : i < rest.length), FrameStatus k len (j + i) rest[i].2.status) →
      (∀ x ∈ rest, (x.2.control &&& rdesBufferMask).toNat = capacity) →
      (0 < j → j < k → bytes = j * capacity) →
      readBacks rest bytes = rest.mapIdx fun i x => frameCompletion k len capacity (j + i) x
  | [], _, _, _, _, _, _ => rfl
  | x :: rest, j, bytes, count, status, sized, counted => by
    obtain ⟨s, d⟩ := x
    have first := status 0 (by simp)
    simp only [List.getElem_cons_zero, Nat.add_zero] at first
    have inside : j < k := by simp at count; omega
    have head := readBack_frame first (sized _ List.mem_cons_self) fills inside
      (fun pos => counted pos inside)
    simp only [readBacks, List.mapIdx_cons, Nat.add_zero]
    rw [head]
    have later : ∀ i (h : i < rest.length), FrameStatus k len (j + 1 + i) rest[i].2.status := by
      intro i h
      have next := status (i + 1) (by simp; omega)
      simp only [List.getElem_cons_succ] at next
      rwa [Nat.add_assoc, Nat.add_comm 1]
    have tail := readBacks_frame fills rest (j + 1) (if j + 1 = k then 0 else (j + 1) * capacity)
      (by simp at count; omega) later (fun y member => sized y (List.mem_cons_of_mem _ member))
      (fun _ below => by rw [if_neg (by omega)])
    rw [tail]
    simp [Nat.add_assoc, Nat.add_comm 1]

/-- The completions `comps` report the frame of `len` bytes, FCS included, written into `ds`
with buffers of `capacity` bytes: one per descriptor, with its slot, in order; only the last
marked last, and only the last carrying the engine's error flag; every buffer but the last
whole and the last with what is left of the frame less its FCS, so none longer than a buffer;
together the frame less its FCS, or the full buffers when part of the FCS spilled into them. -/
structure FrameReported (ds : List (SlotId × RingEntry)) (len capacity : Nat)
    (comps : List RxCompletion) : Prop where
  slots : comps.map RxCompletion.slot = ds.map Prod.fst
  last : comps.map RxCompletion.last = ds.mapIdx fun j _ => j + 1 == ds.length
  error : comps.map RxCompletion.error =
    ds.mapIdx fun j x => j + 1 == ds.length && x.2.status &&& rdesEs != 0
  lengths : comps.map RxCompletion.length =
    List.replicate (ds.length - 1) capacity ++ [len - crcSize - (ds.length - 1) * capacity]
  bounded : ∀ r ∈ comps, r.length ≤ capacity
  total : (comps.map RxCompletion.length).sum = max (len - crcSize) ((ds.length - 1) * capacity)

theorem frameReported {ds : List (SlotId × RingEntry)} {len capacity : Nat} (nonempty : ds ≠ [])
    (fills : len ≤ ds.length * capacity) :
    FrameReported ds len capacity (ds.mapIdx (frameCompletion ds.length len capacity)) := by
  have one : 1 ≤ ds.length := List.length_pos_iff.mpr nonempty
  -- the last buffer holds what the full ones leave of the frame less its FCS
  have rest : len - crcSize - (ds.length - 1) * capacity ≤ capacity := by
    have split : ds.length * capacity = (ds.length - 1) * capacity + capacity := by
      rw [← Nat.succ_mul, Nat.succ_eq_add_one, Nat.sub_add_cancel one]
    omega
  have lengths : (ds.mapIdx (frameCompletion ds.length len capacity)).map RxCompletion.length =
      List.replicate (ds.length - 1) capacity ++ [len - crcSize - (ds.length - 1) * capacity] := by
    refine List.ext_getElem (by simp; omega) fun i h₁ h₂ => ?_
    simp only [List.getElem_map, List.getElem_mapIdx, List.getElem_append, List.length_replicate,
      List.getElem_replicate, frameCompletion]
    simp only [List.length_map, List.length_mapIdx] at h₁
    by_cases last : i + 1 = ds.length
    · simp [last, show ¬i < ds.length - 1 by omega]
    · simp [last, show i < ds.length - 1 by omega]
  refine ⟨?_, ?_, ?_, lengths, ?_, ?_⟩
  · refine List.ext_getElem (by simp) fun i h₁ h₂ => ?_
    simp only [List.getElem_map, List.getElem_mapIdx, frameCompletion]
    split <;> rfl
  · refine List.ext_getElem (by simp) fun i h₁ h₂ => ?_
    simp only [List.getElem_map, List.getElem_mapIdx, frameCompletion]
    split <;> simp_all
  · refine List.ext_getElem (by simp) fun i h₁ h₂ => ?_
    simp only [List.getElem_map, List.getElem_mapIdx, frameCompletion]
    split <;> simp_all
  · intro r member
    obtain ⟨i, h, rfl⟩ := List.getElem_of_mem member
    simp only [List.getElem_mapIdx, frameCompletion]
    split
    · exact rest
    · exact Nat.le_refl _
  · rw [lengths, List.sum_append, List.sum_replicate, smul_eq_mul, List.sum_singleton]
    omega

/-- Reading back the descriptors a frame was written into reports each in turn: every buffer
before the last whole, then what is left of the frame less its FCS, the last one alone marked
last and carrying the engine's error flag. The lengths add up to the frame less its FCS when
the last descriptor holds the whole FCS, and to the full buffers before it otherwise. -/
theorem rxPoll_reports_frame {ds : List (SlotId × RingEntry)} {len capacity : Nat}
    (written : FrameWritten c ds len capacity) :
    ∃ comps c', Returns (pollTimes ds.length) c (comps.map some) c' ∧
      FrameReported ds len capacity comps := by
  obtain ⟨c', polled⟩ := returns_pollTimes written.toArmed
  have frame := readBacks_frame written.fills.2 ds 0 c.rxFrameBytes (by simp)
    (by simpa using written.status) written.sized (fun zero => absurd zero (Nat.lt_irrefl 0))
  simp only [Nat.zero_add] at frame
  rw [frame] at polled
  exact ⟨_, c', polled, frameReported written.nonempty written.fills.2⟩

/-- The first descriptor of a frame, released with a full buffer of slot 0. -/
def headBuffer : RingEntry := { status := rdesFs, control := rdesRch ||| 1536, buffer := .slot ⟨0⟩ }

/-- The last descriptor of a frame of 1640 bytes, FCS included, with an error flagged: the
104 bytes left in slot 1. -/
def tailBuffer : RingEntry :=
  { status := rdesLs ||| rdesEs ||| ((1640 : UInt32) <<< 16), control := rdesRch ||| 1536,
    buffer := .slot ⟨1⟩ }

def twoBuffers : List (SlotId × RingEntry) := [(⟨0⟩, headBuffer), (⟨1⟩, tailBuffer)]

/-- A driver with slots 0 and 1 armed, once the engine wrote that frame into them. -/
def twoBufferDriver : Controller Bench.EmulatedBlock where
  block := { phy := { address := 1 }, rx := ⟨#[headBuffer, tailBuffer, {}, {}], rfl⟩ }
  rxSlots := ⟨#[some ⟨0⟩, some ⟨1⟩, none, none], rfl⟩
  rxFill := 2
  initialized := true

theorem two_buffer_frame_reported :
    FrameWritten twoBufferDriver twoBuffers 1640 1536 ∧
      ∃ comps c', Returns (pollTimes twoBuffers.length) twoBufferDriver (comps.map some) c' ∧
        FrameReported twoBuffers 1640 1536 comps := by
  have written : FrameWritten twoBufferDriver twoBuffers 1640 1536 :=
    ⟨⟨by decide, by decide, by decide, by decide, by decide⟩, by decide, by decide, by decide,
      by decide, by decide⟩
  exact ⟨written, rxPoll_reports_frame written⟩

/-- Set up a fresh driver, arm slots 0 and 1, let the engine leave on them the status words of
a frame of 1537 bytes, FCS included and so one byte longer than a buffer, and read two
descriptors back. -/
def straddleFcs : PoolOp Bench.EmulatedBlock (List (Option RxCompletion)) := do
  let _ ← init ⟨Vector.replicate 6 0⟩
  let _ ← besidePool (rxProvide ⟨0⟩)
  let _ ← besidePool (rxProvide ⟨1⟩)
  modify fun c => { c with block := (c.block.receiveRaw rdesFs).2 }
  modify fun c => { c with block := (c.block.receiveRaw (rdesLs ||| ((1537 : UInt32) <<< 16))).2 }
  besidePool (pollTimes 2)

/-- With three of its FCS bytes in the first buffer, that frame is reported as 1536 bytes
and not as the 1533 it holds. -/
theorem fcs_straddle_overreports :
    ∃ c p j, straddleFcs { block := { phy := { address := 1 } } } ⟨#[], [], false, 0, 0, 0, #[]⟩ #[] =
        .ok (([some ⟨⟨0⟩, 1536, false, false⟩, some ⟨⟨1⟩, 0, true, false⟩], c), p) j ∧
      1536 + 0 ≠ 1537 - crcSize :=
  ⟨_, _, _, rfl, by decide⟩

end Ethernet.Stm32.Controller
