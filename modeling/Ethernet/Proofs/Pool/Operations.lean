import Ethernet.Proofs.Pool.Books

/-! The pool operations against the books: what each computes where its check passes, and that it
keeps the books when the caller holds the handle it acts on. -/
namespace Ethernet

/-- The header of a slot just taken back from the hardware with `len` bytes. -/
def Header.received (len : Nat) : Header :=
  { owner := .software, refcount := 1, len := min len slotSize, total := min len slotSize }

namespace Pool

variable {p : Pool} {armed held : List SlotId} {s t : SlotId} {i : Nat} {rest : List Nat}
  {halts : Fault → Prop}

/-- The pool after slot `s` went back on top of the free list. -/
def freed (p : Pool) (s : SlotId) : Pool :=
  { p.setHeader s Header.vacant with
    freeList := s.index :: p.freeList, releases := p.releases + 1, exhausted := false }

/-- The pool after its top free slot `i` went to the hardware. -/
def handedOut (p : Pool) (i : Nat) (rest : List Nat) : Pool :=
  { p.setHeader ⟨i⟩ { p.header ⟨i⟩ with owner := .hardware } with
    freeList := rest, allocCount := p.allocCount + 1 }

def exhaust (p : Pool) : Pool := { p with allocFailures := p.allocFailures + 1, exhausted := true }

@[simp] theorem capacity_freed : (p.freed s).capacity = p.capacity :=
  capacity_setHeader (s := s) (h := Header.vacant)
@[simp] theorem header_freed : (p.freed s).header t = (p.setHeader s Header.vacant).header t := rfl
@[simp] theorem freeList_freed : (p.freed s).freeList = s.index :: p.freeList := rfl
@[simp] theorem exhausted_freed : (p.freed s).exhausted = false := rfl
@[simp] theorem allocCount_freed : (p.freed s).allocCount = p.allocCount := rfl
@[simp] theorem releases_freed : (p.freed s).releases = p.releases + 1 := rfl
@[simp] theorem memory_freed : (p.freed s).memory = p.memory := rfl

@[simp] theorem capacity_handedOut : (p.handedOut i rest).capacity = p.capacity :=
  capacity_setHeader (s := ⟨i⟩) (h := { p.header ⟨i⟩ with owner := .hardware })
@[simp] theorem header_handedOut :
    (p.handedOut i rest).header t = (p.setHeader ⟨i⟩ { p.header ⟨i⟩ with owner := .hardware }).header t :=
  rfl
@[simp] theorem freeList_handedOut : (p.handedOut i rest).freeList = rest := rfl
@[simp] theorem exhausted_handedOut : (p.handedOut i rest).exhausted = p.exhausted := rfl
@[simp] theorem allocCount_handedOut : (p.handedOut i rest).allocCount = p.allocCount + 1 := rfl
@[simp] theorem releases_handedOut : (p.handedOut i rest).releases = p.releases := rfl
@[simp] theorem memory_handedOut : (p.handedOut i rest).memory = p.memory := rfl

@[simp] theorem capacity_exhaust : p.exhaust.capacity = p.capacity := rfl
@[simp] theorem header_exhaust : p.exhaust.header t = p.header t := rfl
@[simp] theorem freeList_exhaust : p.exhaust.freeList = p.freeList := rfl
@[simp] theorem exhausted_exhaust : p.exhaust.exhausted = true := rfl
@[simp] theorem allocCount_exhaust : p.exhaust.allocCount = p.allocCount := rfl
@[simp] theorem releases_exhaust : p.exhaust.releases = p.releases := rfl
@[simp] theorem memory_exhaust : p.exhaust.memory = p.memory := rfl

theorem freed_setHeader {h : Header} : (p.setHeader s h).freed s = p.freed s := by
  simp only [freed, setHeader_setHeader, freeList_setHeader, releases_setHeader]

/-- `p'` is `p` with at most the headers of the `touched` slots changed, besides the free
list and the counters: same capacity, same slot memory. -/
def SameExcept (p p' : Pool) (touched : SlotId → Prop) : Prop :=
  p'.capacity = p.capacity ∧ p'.memory = p.memory ∧ ∀ t, ¬touched t → p'.header t = p.header t

theorem SameExcept.refl : p.SameExcept p fun _ => False :=
  ⟨rfl, rfl, fun _ _ => rfl⟩

theorem SameExcept.trans {p₁ p₂ : Pool} {first second : SlotId → Prop}
    (one : p.SameExcept p₁ first) (two : p₁.SameExcept p₂ second) :
    p.SameExcept p₂ fun t => first t ∨ second t :=
  ⟨two.1.trans one.1, two.2.1.trans one.2.1, fun t untouched => by
    rw [two.2.2 t (fun h => untouched (.inr h)), one.2.2 t (fun h => untouched (.inl h))]⟩

theorem SameExcept.mono {p' : Pool} {touched more : SlotId → Prop}
    (same : p.SameExcept p' touched) (wider : ∀ t, touched t → more t) : p.SameExcept p' more :=
  ⟨same.1, same.2.1, fun t untouched => same.2.2 t (fun h => untouched (wider t h))⟩

theorem sameExcept_setHeader {h : Header} : p.SameExcept (p.setHeader s h) (· = s) :=
  ⟨capacity_setHeader, rfl, fun _ ne => header_setHeader_of_ne ne⟩

theorem sameExcept_freed : p.SameExcept (p.freed s) (· = s) :=
  ⟨capacity_freed, rfl, fun _ ne => header_setHeader_of_ne ne⟩

/-- Every slot that `kept` picks out has the same received length and running total in `p'` as in
`p`. -/
def Keeps (p p' : Pool) (kept : SlotId → Prop) : Prop :=
  ∀ t, kept t → (p'.header t).len = (p.header t).len ∧ (p'.header t).total = (p.header t).total

theorem Keeps.trans {p₁ p₂ : Pool} {kept : SlotId → Prop} (one : p.Keeps p₁ kept)
    (two : p₁.Keeps p₂ kept) : p.Keeps p₂ kept :=
  fun t picked => ⟨(two t picked).1.trans (one t picked).1, (two t picked).2.trans (one t picked).2⟩

theorem Keeps.mono {p' : Pool} {kept fewer : SlotId → Prop} (keeps : p.Keeps p' kept)
    (within : ∀ t, fewer t → kept t) : p.Keeps p' fewer :=
  fun t picked => keeps t (within t picked)

theorem SameExcept.keeps {p' : Pool} {touched : SlotId → Prop} (same : p.SameExcept p' touched) :
    p.Keeps p' fun t => ¬touched t :=
  fun t untouched => by rw [same.2.2 t untouched]; exact ⟨rfl, rfl⟩

theorem keeps_setHeader {h : Header} (inRange : s.index < p.capacity)
    (len : h.len = (p.header s).len) (total : h.total = (p.header s).total) :
    p.Keeps (p.setHeader s h) fun _ => True := by
  intro t _
  rw [header_setHeader inRange]
  split
  · subst t
    exact ⟨len, total⟩
  · exact ⟨rfl, rfl⟩

/-! ### What each operation computes -/

theorem ensures_pushFree : Ensures (pushFree s) p (fun _ p' => p' = p.freed s) halts := by
  intro j
  cases hx : p.exhausted <;> simp [pushFree, freed, hx]

theorem ensures_allocate_top (top : p.freeList = i :: rest) (free : p.owner ⟨i⟩ = .free) :
    Ensures allocate p (fun r p' => r = .ok ⟨i⟩ ∧ p' = p.handedOut i rest) halts := by
  intro j
  simp [allocate, top, free, handedOut]

theorem ensures_allocate_empty (empty : p.freeList = []) :
    Ensures allocate p (fun r p' => r = .error .poolExhausted ∧ p' = p.exhaust) halts := by
  intro j
  cases hx : p.exhausted <;> simp [allocate, empty, hx, exhaust]

theorem ensures_reclaim {len : Nat} (hardware : p.owner s = .hardware) :
    Ensures (reclaim s len) p (fun _ p' => p' = p.setHeader s (Header.received len)) halts := by
  intro j
  simp [reclaim, hardware, Header.received]

theorem ensures_abandon (hardware : p.owner s = .hardware) :
    Ensures (abandon s) p (fun _ p' => p' = p.freed s) halts := by
  intro j
  simp only [abandon, hardware, bind_apply, get_apply]
  simp only [bne_self_eq_false, Bool.false_eq_true, if_false]
  exact ensures_pushFree j

theorem ensures_retain (software : p.owner s = .software) :
    Ensures (retain s) p
      (fun _ p' => (p.header s).refcount < maxRefcount ∧
        p' = p.setHeader s { p.header s with refcount := (p.header s).refcount + 1 })
      (fun f => maxRefcount ≤ (p.header s).refcount ∧ f = .refcountOverflow s.index) := by
  intro j
  simp only [owner] at software
  by_cases room : (p.header s).refcount < maxRefcount
  · have fits : ¬maxRefcount ≤ (p.header s).refcount := by omega
    simp [retain, software, fits, room]
  · have full : maxRefcount ≤ (p.header s).refcount := by omega
    simp [retain, software, full]

theorem ensures_release (software : p.owner s = .software) (pos : 0 < (p.header s).refcount) :
    Ensures (release s) p
      (fun _ p' => p' = if (p.header s).refcount = 1 then p.freed s
        else p.setHeader s { p.header s with refcount := (p.header s).refcount - 1 }) halts := by
  intro j
  simp only [owner] at software
  by_cases one : (p.header s).refcount = 1
  · simp only [release, software, one, bind_apply, get_apply]
    simp
    exact ensures_pushFree.mono (fun _ _ done => by rw [done, freed_setHeader]) (fun _ => id) j
  · have more : (p.header s).refcount - 1 ≠ 0 := by omega
    have held : (p.header s).refcount ≠ 0 := by omega
    simp [release, software, one, more, held]

theorem ensures_addTotal {n : Nat} (software : p.owner s = .software)
    (fits : (p.header s).total + n % Nat.pow 2 32 ≤ maxTotal) :
    Ensures (addTotal s n) p
      (fun _ p' => p' = p.setHeader s { p.header s with total := (p.header s).total + n % Nat.pow 2 32 })
      halts := by
  intro j
  simp only [owner] at software
  have within : ¬(p.header s).total + n % Nat.pow 2 32 > maxTotal := by omega
  simp [addTotal, software, within]

/-! ### Each operation keeps the books -/

namespace Books

theorem handedOut (books : p.Books armed held) (top : p.freeList = i :: rest) :
    (p.handedOut i rest).Books (⟨i⟩ :: armed) held := by
  have member : i ∈ p.freeList := top ▸ List.mem_cons_self
  have inRange := books.listed_lt i member
  have stands := books.stands (s := ⟨i⟩) inRange
  have free := books.owner_of_listed member
  have fresh : i ∉ rest := (List.nodup_cons.mp (top ▸ books.freeList_nodup)).1
  unfold owner at free
  simp only [Standing, free, top, List.count_cons_self] at stands
  refine books.of_change (s := ⟨i⟩) inRange (by simp) ?_ ?_ ?_ ?_ ?_ (fun _ held => .inl held)
    (fun _ _ => rfl) ?_ ?_ ?_ ?_
  · intro t ne
    simp [header_setHeader_of_ne ne]
  · intro j listed
    exact .inl (top ▸ List.mem_cons_of_mem i listed)
  · intro t ne
    simp [top, (SlotId.index_ne ne).symm]
  · intro t member
    rcases List.mem_cons.mp member with rfl | old
    · exact .inr rfl
    · exact .inl old
  · intro t ne
    simp [Ne.symm ne]
  · simp [header_setHeader_self inRange, Standing, List.count_eq_zero_of_not_mem fresh]
    omega
  · simp [header_setHeader_self inRange, maxRefcount]
    omega
  · intro exhausted
    simp [books.exhausted exhausted] at top
  · have counted := books.counters
    simp only [top, List.length_cons] at counted
    simp
    omega

theorem exhaust (books : p.Books armed held) (empty : p.freeList = []) :
    p.exhaust.Books armed held where
  standing s inRange := by simpa using books.standing s inRange
  listed_lt := by simpa using books.listed_lt
  armed_lt := by simpa using books.armed_lt
  held_lt := by simpa using books.held_lt
  capacity_le := by simpa using books.capacity_le
  refcount_le := by simpa using books.refcount_le
  exhausted _ := by simpa using empty
  counters := by simpa using books.counters

theorem received {len : Nat} (books : p.Books armed held) (member : s ∈ armed) :
    (p.setHeader s (Header.received len)).Books (armed.erase s) (s :: held) := by
  have inRange := books.armed_lt s member
  have stands := books.stands inRange
  have hardware := books.owner_of_mem_armed member
  unfold owner at hardware
  simp only [Standing, hardware] at stands
  refine books.of_change inRange (by simp) (fun t ne => header_setHeader_of_ne ne) (fun i l => .inl l)
    (fun _ _ => rfl) (fun t l => .inl (List.mem_of_mem_erase l)) (fun t ne => List.count_erase_of_ne ne)
    ?_ ?_ ?_ ?_ ?_ ?_
  · intro t member
    rcases List.mem_cons.mp member with rfl | old
    · exact .inr rfl
    · exact .inl old
  · intro t ne
    simp [Ne.symm ne]
  · simp [header_setHeader_self inRange, Standing, Header.received, List.count_erase_self]
    omega
  · simp [header_setHeader_self inRange, Header.received, maxRefcount]
  · simpa using books.exhausted
  · simpa using books.counters

theorem freed {armed' held' : List SlotId} (books : p.Books armed held)
    (inRange : s.index < p.capacity) (unlisted : p.freeList.count s.index = 0)
    (armedFrom : ∀ t ∈ armed', t ∈ armed) (armedCount : ∀ t ≠ s, armed'.count t = armed.count t)
    (armedGone : armed'.count s = 0)
    (heldFrom : ∀ t ∈ held', t ∈ held) (heldCount : ∀ t ≠ s, held'.count t = held.count t)
    (heldGone : held'.count s = 0) :
    (p.freed s).Books armed' held' := by
  refine books.of_change inRange (by simp) (fun t ne => by simp [header_setHeader_of_ne ne]) ?_ ?_
    (fun t member => .inl (armedFrom t member)) armedCount (fun t member => .inl (heldFrom t member))
    heldCount ?_ ?_ (by simp) ?_
  · intro i member
    rcases List.mem_cons.mp member with rfl | old
    · exact .inr rfl
    · exact .inl old
  · intro t ne
    simp [SlotId.index_ne (Ne.symm ne)]
  · simp [header_setHeader_self inRange, Standing, Header.vacant, unlisted, armedGone, heldGone]
  · simp [header_setHeader_self inRange, Header.vacant, maxRefcount]
  · have counted := books.counters
    simp
    omega

theorem freed_of_armed (books : p.Books armed held) (member : s ∈ armed) :
    (p.freed s).Books (armed.erase s) held := by
  have inRange := books.armed_lt s member
  have stands := books.stands inRange
  have hardware := books.owner_of_mem_armed member
  unfold owner at hardware
  simp only [Standing, hardware] at stands
  refine books.freed inRange stands.2.1 (fun t l => List.mem_of_mem_erase l)
    (fun t ne => List.count_erase_of_ne ne) ?_ (fun t l => l) (fun _ _ => rfl) stands.2.2.2
  simp [List.count_erase_self, stands.2.2.1]

theorem retained (books : p.Books armed held) (member : s ∈ held)
    (room : (p.header s).refcount < maxRefcount) :
    (p.setHeader s { p.header s with refcount := (p.header s).refcount + 1 }).Books armed
      (s :: held) := by
  have inRange := books.held_lt s member
  have stands := books.stands inRange
  have software := books.owner_of_mem_held member
  unfold owner at software
  simp only [Standing, software] at stands
  refine books.of_change inRange (by simp) (fun t ne => header_setHeader_of_ne ne) (fun i l => .inl l)
    (fun _ _ => rfl) (fun t l => .inl l) (fun _ _ => rfl) ?_ ?_ ?_ ?_ ?_ ?_
  · intro t member
    rcases List.mem_cons.mp member with rfl | old
    · exact .inr rfl
    · exact .inl old
  · intro t ne
    simp [Ne.symm ne]
  · simp [header_setHeader_self inRange, Standing, software]
    omega
  · simp [header_setHeader_self inRange]
    omega
  · simpa using books.exhausted
  · simpa using books.counters

theorem released (books : p.Books armed held) (member : s ∈ held) :
    (if (p.header s).refcount = 1 then p.freed s
      else p.setHeader s { p.header s with refcount := (p.header s).refcount - 1 }).Books armed
      (held.erase s) := by
  have inRange := books.held_lt s member
  have stands := books.stands inRange
  have software := books.owner_of_mem_held member
  unfold owner at software
  simp only [Standing, software] at stands
  split
  · refine books.freed inRange stands.1 (fun t l => l) (fun _ _ => rfl) stands.2.1
      (fun t l => List.mem_of_mem_erase l) (fun t ne => List.count_erase_of_ne ne) ?_
    simp [List.count_erase_self]
    omega
  · refine books.of_change inRange (by simp) (fun t ne => header_setHeader_of_ne ne)
      (fun i l => .inl l) (fun _ _ => rfl) (fun t l => .inl l) (fun _ _ => rfl)
      (fun t l => .inl (List.mem_of_mem_erase l)) (fun t ne => List.count_erase_of_ne ne) ?_ ?_ ?_ ?_
    · simp [header_setHeader_self inRange, Standing, software, List.count_erase_self]
      omega
    · have bound := books.refcount_le s
      simp [header_setHeader_self inRange]
      omega
    · simpa using books.exhausted
    · simpa using books.counters

theorem kept {h : Header} (books : p.Books armed held) (inRange : s.index < p.capacity)
    (owner : h.owner = (p.header s).owner) (refcount : h.refcount = (p.header s).refcount) :
    (p.setHeader s h).Books armed held := by
  have stands := books.stands inRange
  refine books.of_change inRange (by simp) (fun t ne => header_setHeader_of_ne ne) (fun i l => .inl l)
    (fun _ _ => rfl) (fun t l => .inl l) (fun _ _ => rfl) (fun t l => .inl l) (fun _ _ => rfl)
    ?_ ?_ ?_ ?_
  · simp only [header_setHeader_self inRange, freeList_setHeader]
    unfold Standing at stands ⊢
    rw [owner, refcount]
    exact stands
  · rw [header_setHeader_self inRange, refcount]
    exact books.refcount_le s
  · simpa using books.exhausted
  · simpa using books.counters

/-! ### Operations on handles the caller holds -/

theorem ensures_allocate (books : p.Books armed held) :
    Ensures allocate p (fun r p' => match r with
      | .ok s => p.SameExcept p' (· = s) ∧ p'.Books (s :: armed) held
      | .error _ => p.SameExcept p' (fun _ => False) ∧ p'.Books armed held) (fun _ => False) := by
  cases top : p.freeList with
  | nil =>
    exact (ensures_allocate_empty top).mono (fun _ _ ⟨result, pool⟩ => by
      subst result pool
      exact ⟨⟨capacity_exhaust, memory_exhaust, fun _ _ => header_exhaust⟩, books.exhaust top⟩)
      (fun _ => id)
  | cons i rest =>
    have free := books.owner_of_listed (top ▸ List.mem_cons_self : i ∈ p.freeList)
    exact (ensures_allocate_top top free).mono (fun _ _ ⟨result, pool⟩ => by
      subst result pool
      exact ⟨⟨capacity_handedOut, memory_handedOut, fun _ ne => header_setHeader_of_ne ne⟩,
        books.handedOut top⟩) (fun _ => id)

theorem ensures_reclaim {len : Nat} (books : p.Books armed held) (member : s ∈ armed) :
    Ensures (reclaim s len) p
      (fun _ p' => p.SameExcept p' (· = s) ∧ p'.Books (armed.erase s) (s :: held) ∧
        p'.header s = Header.received len) (fun _ => False) :=
  (Pool.ensures_reclaim (books.owner_of_mem_armed member)).mono
    (fun _ _ pool => pool ▸ ⟨sameExcept_setHeader, books.received member,
      header_setHeader_self (books.armed_lt s member)⟩) (fun _ => id)

theorem ensures_abandon (books : p.Books armed held) (member : s ∈ armed) :
    Ensures (abandon s) p
      (fun _ p' => p.SameExcept p' (· = s) ∧ p'.Books (armed.erase s) held) (fun _ => False) :=
  (Pool.ensures_abandon (books.owner_of_mem_armed member)).mono
    (fun _ _ pool => pool ▸ ⟨sameExcept_freed, books.freed_of_armed member⟩) (fun _ => id)

/-- Cloning a packet buffer halts only at a slot that already has the most handles a
reference count holds. -/
theorem ensures_retain (books : p.Books armed held) (member : s ∈ held) :
    Ensures (retain s) p (fun _ p' => p.SameExcept p' (· = s) ∧ p'.Books armed (s :: held) ∧
      p.Keeps p' fun _ => True)
      (fun f => held.count s = maxRefcount ∧ f = .refcountOverflow s.index) :=
  (Pool.ensures_retain (books.owner_of_mem_held member)).mono
    (fun _ _ ⟨room, pool⟩ => pool ▸ ⟨sameExcept_setHeader, books.retained member room,
      keeps_setHeader (books.held_lt s member) rfl rfl⟩)
    (fun _ ⟨full, fault⟩ => ⟨by
      have bound := books.refcount_le s
      rw [← books.refcount_eq member]
      omega, fault⟩)

/-- Dropping a packet buffer gives its reference back; every slot still held afterwards keeps
its length and total, since a slot is freed only with its last handle. -/
theorem ensures_release (books : p.Books armed held) (member : s ∈ held) :
    Ensures (release s) p
      (fun _ p' => p.SameExcept p' (· = s) ∧ p'.Books armed (held.erase s) ∧
        p.Keeps p' (· ∈ held.erase s)) (fun _ => False) := by
  have positive : 0 < (p.header s).refcount := by
    rw [books.refcount_eq member]
    exact List.count_pos_iff.mpr member
  refine (Pool.ensures_release (books.owner_of_mem_held member) positive).mono
    (fun _ _ pool => pool ▸ ⟨?_, books.released member, ?_⟩) (fun _ => id)
  · split
    · exact sameExcept_freed
    · exact sameExcept_setHeader
  · split
    · rename_i last
      rw [books.refcount_eq member] at last
      -- the last handle goes, so no other handle names the slot
      refine sameExcept_freed.keeps.mono fun t stays same => ?_
      subst same
      rw [← List.count_pos_iff, List.count_erase_self] at stays
      omega
    · refine Keeps.mono ?_ fun _ _ => trivial
      exact keeps_setHeader (books.held_lt s member) rfl rfl

end Books

end Pool

end Ethernet
