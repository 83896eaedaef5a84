import Ethernet.Proofs.Ensures
import Ethernet.Proofs.Pool.Census

/-! The pool's books: each slot's header against the free list, the armed receive buffers and the
packet buffers held outside, with the bounds and counters. -/
namespace Ethernet

/-- The standing of a slot with header `h`, listed `listed` times on the free list and held by
`armed` receive buffers and `held` packet buffers. -/
def Standing (h : Header) (listed armed held : Nat) : Prop :=
  match h.owner with
  | .free => h.refcount = 0 ∧ listed = 1 ∧ armed = 0 ∧ held = 0
  | .hardware => h.refcount = 0 ∧ listed = 0 ∧ armed = 1 ∧ held = 0
  | .software => listed = 0 ∧ armed = 0 ∧ 0 < held ∧ h.refcount = held

namespace Pool

/-- The books of a pool against the receive buffers `armed` and the packet buffers `held` that
its users hold. -/
structure Books (p : Pool) (armed held : List SlotId) : Prop where
  standing : ∀ s : SlotId, s.index < p.capacity →
    Standing (p.header s) (p.freeList.count s.index) (armed.count s) (held.count s)
  listed_lt : ∀ i ∈ p.freeList, i < p.capacity
  armed_lt : ∀ s ∈ armed, s.index < p.capacity
  held_lt : ∀ s ∈ held, s.index < p.capacity
  capacity_le : p.capacity ≤ 65535
  /-- Reference counts fit the header's sixteen bits. -/
  refcount_le : ∀ s, (p.header s).refcount ≤ maxRefcount
  exhausted : p.exhausted = true → p.freeList = []
  /-- Allocations less releases are the slots off the free list. -/
  counters : p.allocCount + p.freeList.length = p.releases + p.capacity

variable {p p' : Pool} {armed held armed' held' : List SlotId} {s t : SlotId}

namespace Books

theorem stands (books : p.Books armed held) (inRange : s.index < p.capacity) :
    Standing (p.header s) (p.freeList.count s.index) (armed.count s) (held.count s) :=
  books.standing s inRange

theorem owner_of_mem_armed (books : p.Books armed held) (member : s ∈ armed) :
    p.owner s = .hardware := by
  have stands := books.stands (books.armed_lt s member)
  have counted : 0 < armed.count s := List.count_pos_iff.mpr member
  unfold Standing at stands
  unfold owner
  split at stands <;> first | assumption | omega

theorem owner_of_mem_held (books : p.Books armed held) (member : s ∈ held) :
    p.owner s = .software := by
  have stands := books.stands (books.held_lt s member)
  have counted : 0 < held.count s := List.count_pos_iff.mpr member
  unfold Standing at stands
  unfold owner
  split at stands <;> first | assumption | omega

theorem owner_of_listed (books : p.Books armed held) {i : Nat} (member : i ∈ p.freeList) :
    p.owner ⟨i⟩ = .free := by
  have stands := books.stands (s := ⟨i⟩) (books.listed_lt i member)
  have counted : 0 < p.freeList.count i := List.count_pos_iff.mpr member
  dsimp only at stands
  unfold Standing at stands
  unfold owner
  split at stands <;> first | assumption | omega

theorem refcount_eq (books : p.Books armed held) (member : s ∈ held) :
    (p.header s).refcount = held.count s := by
  have stands := books.stands (books.held_lt s member)
  have software := books.owner_of_mem_held member
  unfold owner at software
  simp only [Standing, software] at stands
  exact stands.2.2.2

theorem count_armed_le_one (books : p.Books armed held) (s : SlotId) : armed.count s ≤ 1 := by
  by_cases inRange : s.index < p.capacity
  · have stands := books.stands inRange
    unfold Standing at stands
    split at stands <;> omega
  · have absent : s ∉ armed := fun member => inRange (books.armed_lt s member)
    simp [List.count_eq_zero_of_not_mem absent]

theorem count_listed_le_one (books : p.Books armed held) (i : Nat) : p.freeList.count i ≤ 1 := by
  by_cases inRange : i < p.capacity
  · have stands := books.stands (s := ⟨i⟩) inRange
    dsimp only at stands
    unfold Standing at stands
    split at stands <;> omega
  · have absent : i ∉ p.freeList := fun member => inRange (books.listed_lt i member)
    simp [List.count_eq_zero_of_not_mem absent]

theorem freeList_nodup (books : p.Books armed held) : p.freeList.Nodup :=
  List.nodup_iff_count.mpr books.count_listed_le_one

theorem armed_nodup (books : p.Books armed held) : armed.Nodup :=
  List.nodup_iff_count.mpr books.count_armed_le_one

theorem perm (books : p.Books armed held) (armedPerm : armed.Perm armed')
    (heldPerm : held.Perm held') : p.Books armed' held' where
  standing s inRange := by
    rw [← armedPerm.count_eq, ← heldPerm.count_eq]
    exact books.standing s inRange
  listed_lt := books.listed_lt
  armed_lt s member := books.armed_lt s (armedPerm.mem_iff.mpr member)
  held_lt s member := books.held_lt s (heldPerm.mem_iff.mpr member)
  capacity_le := books.capacity_le
  refcount_le := books.refcount_le
  exhausted := books.exhausted
  counters := books.counters

theorem listed_iff (books : p.Books armed held) (i : Nat) :
    i ∈ p.freeList ↔ i < p.capacity ∧ p.owner ⟨i⟩ = .free := by
  constructor
  · intro member
    exact ⟨books.listed_lt i member, books.owner_of_listed member⟩
  · rintro ⟨inRange, free⟩
    have stands := books.stands (s := ⟨i⟩) inRange
    unfold owner at free
    simp only [Standing, free] at stands
    exact List.count_pos_iff.mp (by omega)

theorem armed_iff (books : p.Books armed held) (s : SlotId) :
    s ∈ armed ↔ s.index < p.capacity ∧ p.owner s = .hardware := by
  constructor
  · intro member
    exact ⟨books.armed_lt s member, books.owner_of_mem_armed member⟩
  · rintro ⟨inRange, hardware⟩
    have stands := books.stands inRange
    unfold owner at hardware
    simp only [Standing, hardware] at stands
    exact List.count_pos_iff.mp (by omega)

theorem held_iff (books : p.Books armed held) (s : SlotId) :
    s ∈ held ↔ s.index < p.capacity ∧ p.owner s = .software :=
  ⟨fun member => ⟨books.held_lt s member, books.owner_of_mem_held member⟩, fun ⟨inRange, software⟩ => by
    have stands := books.stands inRange
    unfold owner at software
    simp only [Standing, software] at stands
    exact List.count_pos_iff.mp stands.2.2.1⟩

theorem free_of_unheld (books : p.Books armed held) (inRange : s.index < p.capacity)
    (notArmed : s ∉ armed) (notHeld : s ∉ held) : p.owner s = .free ∧ s.index ∈ p.freeList := by
  have stands := books.stands inRange
  rw [List.count_eq_zero_of_not_mem notArmed, List.count_eq_zero_of_not_mem notHeld] at stands
  have free : p.owner s = .free := by
    unfold Standing at stands
    unfold owner
    split at stands <;> first | assumption | omega
  exact ⟨free, (books.listed_iff s.index).mpr ⟨inRange, free⟩⟩

theorem census_free (books : p.Books armed held) : p.census.free = p.freeList.length :=
  census_of_eq_length (o := .free) books.freeList_nodup books.listed_iff

theorem census_hardware (books : p.Books armed held) : p.census.hardware = armed.length := by
  have distinct : (armed.map SlotId.index).Nodup :=
    books.armed_nodup.map fun _ _ same => SlotId.eq_of_index_eq same
  rw [← List.length_map (f := SlotId.index)]
  refine census_of_eq_length (o := .hardware) distinct fun i => ?_
  simp only [List.mem_map]
  constructor
  · rintro ⟨s, member, rfl⟩
    exact books.armed_iff s |>.mp member
  · intro named
    exact ⟨⟨i⟩, (books.armed_iff ⟨i⟩).mpr named, rfl⟩

theorem census_software (books : p.Books armed held) : p.census.software = held.dedup.length := by
  have distinct : (held.dedup.map SlotId.index).Nodup :=
    (List.nodup_dedup held).map fun _ _ same => SlotId.eq_of_index_eq same
  rw [← List.length_map (f := SlotId.index)]
  refine census_of_eq_length (o := .software) distinct fun i => ?_
  simp only [List.mem_map, List.mem_dedup]
  constructor
  · rintro ⟨s, member, rfl⟩
    exact books.held_iff s |>.mp member
  · intro named
    exact ⟨⟨i⟩, (books.held_iff ⟨i⟩).mpr named, rfl⟩

/-- The books survive a change of one slot `s` that leaves it standing, when every other slot
keeps its header and its counts. -/
theorem of_change (books : p.Books armed held) (inRange : s.index < p.capacity)
    (capacity : p'.capacity = p.capacity)
    (header : ∀ t ≠ s, p'.header t = p.header t)
    (listed : ∀ i ∈ p'.freeList, i ∈ p.freeList ∨ i = s.index)
    (listedCount : ∀ t ≠ s, p'.freeList.count t.index = p.freeList.count t.index)
    (armedFrom : ∀ t ∈ armed', t ∈ armed ∨ t = s)
    (armedCount : ∀ t ≠ s, armed'.count t = armed.count t)
    (heldFrom : ∀ t ∈ held', t ∈ held ∨ t = s)
    (heldCount : ∀ t ≠ s, held'.count t = held.count t)
    (stands : Standing (p'.header s) (p'.freeList.count s.index) (armed'.count s) (held'.count s))
    (refcount : (p'.header s).refcount ≤ maxRefcount)
    (exhausted : p'.exhausted = true → p'.freeList = [])
    (counters : p'.allocCount + p'.freeList.length = p'.releases + p'.capacity) :
    p'.Books armed' held' where
  standing t tInRange := by
    by_cases same : t = s
    · subst t
      exact stands
    · rw [header t same, listedCount t same, armedCount t same, heldCount t same]
      exact books.standing t (capacity ▸ tInRange)
  listed_lt i member := by
    rcases listed i member with old | rfl
    · exact capacity ▸ books.listed_lt i old
    · exact capacity ▸ inRange
  armed_lt t member := by
    rcases armedFrom t member with old | rfl
    · exact capacity ▸ books.armed_lt t old
    · exact capacity ▸ inRange
  held_lt t member := by
    rcases heldFrom t member with old | rfl
    · exact capacity ▸ books.held_lt t old
    · exact capacity ▸ inRange
  capacity_le := capacity ▸ books.capacity_le
  refcount_le t := by
    by_cases same : t = s
    · subst t
      exact refcount
    · rw [header t same]
      exact books.refcount_le t
  exhausted := exhausted
  counters := counters

end Books

/-! ### A new pool -/

/-- A new pool of `n` free slots, slot 0 on top of the free list. -/
def fresh (n : Nat) : Pool :=
  { headers := Array.replicate n Header.vacant
    freeList := List.range n
    memory := Array.replicate n [] }

theorem create_eq {n : Nat} (valid : 0 < n ∧ n ≤ 65535) (j : Journal) :
    create n j = .ok (fresh n) j := by
  have accepted : ¬(n = 0 ∨ n > 65535) := by omega
  simp only [create, accepted, if_false]
  rfl

theorem create_ok {n : Nat} {p : Pool} {j j' : Journal} (created : create n j = .ok p j') :
    (0 < n ∧ n ≤ 65535) ∧ p = fresh n := by
  by_cases valid : 0 < n ∧ n ≤ 65535
  · rw [create_eq valid] at created
    cases created
    exact ⟨valid, rfl⟩
  · have refused : n = 0 ∨ n > 65535 := by omega
    simp [create, refused] at created

@[simp] theorem capacity_fresh {n : Nat} : (fresh n).capacity = n := by
  simp [fresh, Pool.capacity]

@[simp] theorem freeList_fresh {n : Nat} : (fresh n).freeList = List.range n := rfl

@[simp] theorem header_fresh {n : Nat} : (fresh n).header s = Header.vacant := by
  by_cases inRange : s.index < n <;> simp [header, fresh, inRange]

theorem books_fresh {n : Nat} (le : n ≤ 65535) : (fresh n).Books [] [] where
  standing s inRange := by
    simp only [capacity_fresh] at inRange
    simp [Standing, Header.vacant, List.count_range, inRange]
  listed_lt i member := by simpa using member
  armed_lt := by simp
  held_lt := by simp
  capacity_le := by simpa using le
  refcount_le s := by simp [Header.vacant, maxRefcount]
  exhausted := by simp [fresh]
  counters := by
    rw [capacity_fresh]
    simp [fresh]

end Pool

end Ethernet
