import Ethernet.Proofs.Pool.Operations

/-! Ownership of pool slots over any use of the pool: every state a client reaches from a new pool
by its handles keeps the books. -/
namespace Ethernet.Pool

/-- What a client of the pool does with one of its handles. -/
inductive Use where
  | allocate
  | reclaim (slot : SlotId) (len : Nat)
  | abandon (slot : SlotId)
  | clone (slot : SlotId)
  | drop (slot : SlotId)
  deriving DecidableEq, Repr

/-- The handles a client holds: receive buffers armed for the hardware, and packet buffers,
one entry per handle. -/
structure Client where
  armed : List SlotId := []
  held : List SlotId := []
  deriving DecidableEq, Repr

namespace Client

/-- Makes one use of a handle the client holds; a use of a handle it does not hold is not
made. -/
def perform (c : Client) : Use → PoolRun Client
  | .allocate => do
    match ← allocate with
    | .ok s => return { c with armed := s :: c.armed }
    | .error _ => return c
  | .reclaim s len =>
    if s ∈ c.armed then do
      reclaim s len
      return { armed := c.armed.erase s, held := s :: c.held }
    else pure c
  | .abandon s =>
    if s ∈ c.armed then do
      abandon s
      return { c with armed := c.armed.erase s }
    else pure c
  | .clone s =>
    if s ∈ c.held then do
      retain s
      return { c with held := s :: c.held }
    else pure c
  | .drop s =>
    if s ∈ c.held then do
      release s
      return { c with held := c.held.erase s }
    else pure c

variable {c : Client} {p : Pool}

/-- One use keeps the books and the capacity, and halts only when it clones a buffer whose
slot already has the most handles a reference count holds. -/
theorem ensures_perform (books : p.Books c.armed c.held) (use : Use) :
    Ensures (c.perform use) p (fun c' p' => p'.capacity = p.capacity ∧ p'.Books c'.armed c'.held)
      (fun f => ∃ s, use = .clone s ∧ c.held.count s = maxRefcount ∧ f = .refcountOverflow s.index) := by
  cases use with
  | allocate =>
    apply ensures_bind
    refine (books.ensures_allocate).mono ?_ (fun _ => False.elim)
    intro r p' kept
    cases r with
    | ok s => exact ensures_pure ⟨kept.1.1, kept.2⟩
    | error e => exact ensures_pure ⟨kept.1.1, kept.2⟩
  | reclaim s len =>
    apply ensures_ite
    · intro member
      exact ensures_seq ((books.ensures_reclaim member).mono
        (fun _ _ kept => ensures_pure ⟨kept.1.1, kept.2.1⟩)
        (fun _ => False.elim))
    · exact fun _ => ensures_pure ⟨rfl, books⟩
  | abandon s =>
    apply ensures_ite
    · intro member
      exact ensures_seq ((books.ensures_abandon member).mono
        (fun _ _ kept => ensures_pure ⟨kept.1.1, kept.2⟩)
        (fun _ => False.elim))
    · exact fun _ => ensures_pure ⟨rfl, books⟩
  | clone s =>
    apply ensures_ite
    · intro member
      exact ensures_seq ((books.ensures_retain member).mono
        (fun _ _ kept => ensures_pure ⟨kept.1.1, kept.2.1⟩)
        (fun f ⟨full, fault⟩ => ⟨s, rfl, full, fault⟩))
    · exact fun _ => ensures_pure ⟨rfl, books⟩
  | drop s =>
    apply ensures_ite
    · intro member
      exact ensures_seq ((books.ensures_release member).mono
        (fun _ _ kept => ensures_pure ⟨kept.1.1, kept.2.1⟩)
        (fun _ => False.elim))
    · exact fun _ => ensures_pure ⟨rfl, books⟩

end Client

/-- The client and pool states reachable from a new pool of `capacity` slots. -/
inductive Reachable (capacity : Nat) : Client → Pool → Prop where
  | create {p : Pool} {j j' : Journal} : Pool.create capacity j = .ok p j' → Reachable capacity {} p
  | perform {c c' : Client} {p p' : Pool} {use : Use} {j j' : Journal} :
      Reachable capacity c p → c.perform use p j = .ok (c', p') j' → Reachable capacity c' p'

variable {capacity : Nat} {c : Client} {p : Pool}

theorem books_of_reachable (reached : Reachable capacity c p) :
    p.Books c.armed c.held ∧ p.capacity = capacity := by
  induction reached with
  | create created =>
    obtain ⟨valid, rfl⟩ := create_ok created
    exact ⟨books_fresh valid.2, capacity_fresh⟩
  | perform _ ran ih =>
    have kept := (Client.ensures_perform ih.1 _).of_ok ran
    exact ⟨kept.2, kept.1.trans ih.2⟩

/-- Every state reachable from a new pool keeps the books: each slot is free (listed once, no
handle on it), with the hardware (one receive buffer) or with software (as many packet buffers
as its reference count says, at least one); the census adds up to the capacity and its free
count is the free list's length; allocations less releases are the busy slots; the exhaustion
flag is up only while the free list is empty, so the first slot returned clears it; the free
list names no slot twice; and the next use of any handle fails no check of the pool, halting
only to clone a buffer whose slot already has the most handles a reference count holds. -/
theorem ownership_of_reachable (reached : Reachable capacity c p) :
    p.capacity = capacity ∧
    (∀ s : SlotId, s.index < capacity →
      Standing (p.header s) (p.freeList.count s.index) (c.armed.count s) (c.held.count s)) ∧
    p.census.free + p.census.hardware + p.census.software = capacity ∧
    p.freeList.length = p.census.free ∧
    p.allocCount = p.releases + p.census.hardware + p.census.software ∧
    (p.exhausted = true → p.freeList = []) ∧
    p.freeList.Nodup ∧
    ∀ use, Ensures (c.perform use) p (fun c' p' => p'.Books c'.armed c'.held)
      (fun f => ∃ s, use = .clone s ∧ c.held.count s = maxRefcount ∧ f = .refcountOverflow s.index) := by
  obtain ⟨books, size⟩ := books_of_reachable reached
  have total := census_total p
  have free := books.census_free
  have counters := books.counters
  subst size
  refine ⟨rfl, books.standing, total, free.symm, by omega, books.exhausted, books.freeList_nodup, ?_⟩
  intro use
  exact (Client.ensures_perform books use).mono (fun _ _ kept => kept.2) (fun _ => id)

/-- The client and pool a list of uses leaves from `s`, each use run from an empty journal,
unless one halts. -/
def runUses : List Use → Client × Pool → Option (Client × Pool)
  | [], s => some s
  | u :: us, (c, p) =>
    match c.perform u p #[] with
    | .ok s' _ => runUses us s'
    | .error _ _ => none

theorem Reachable.runUses_eq :
    ∀ {us : List Use} {c c' : Client} {p p' : Pool}, Reachable capacity c p →
      runUses us (c, p) = some (c', p') → Reachable capacity c' p'
  | [], _, _, _, _, reached, ran => by
    cases ran
    exact reached
  | u :: us, c, _, p, _, reached, ran => by
    unfold runUses at ran
    split at ran
    · next s' _ performed => exact Reachable.runUses_eq (.perform reached performed) ran
    · cases ran

theorem Reachable.runUses (reached : Reachable capacity c p) {us : List Use}
    (runs : (runUses us (c, p)).isSome = true) :
    Reachable capacity ((runUses us (c, p)).getD (c, p)).1 ((runUses us (c, p)).getD (c, p)).2 := by
  obtain ⟨⟨c', p'⟩, ran⟩ := Option.isSome_iff_exists.1 runs
  rw [ran, Option.getD_some]
  exact reached.runUses_eq ran

/-- A new pool of three slots after the client allocated all three, received into slot 0, cloned
and dropped a buffer on it, and abandoned slot 1: slot 0 is software's, slot 1 free again and
slot 2 the hardware's. -/
def used : Client × Pool :=
  (runUses [.allocate, .allocate, .allocate, .reclaim ⟨0⟩ 40, .clone ⟨0⟩, .drop ⟨0⟩, .abandon ⟨1⟩]
    ({}, fresh 3)).getD ({}, fresh 3)

theorem reachable_used : Reachable 3 used.1 used.2 :=
  Reachable.runUses (.create (create_eq (by decide) #[])) (by decide +kernel)

theorem ownership_after_uses :
    Reachable 3 used.1 used.2 ∧ used.1 = { armed := [⟨2⟩], held := [⟨0⟩] } ∧
    used.2.capacity = 3 ∧
    (∀ s : SlotId, s.index < 3 →
      Standing (used.2.header s) (used.2.freeList.count s.index) (used.1.armed.count s)
        (used.1.held.count s)) ∧
    used.2.census.free + used.2.census.hardware + used.2.census.software = 3 ∧
    used.2.freeList.length = used.2.census.free ∧
    used.2.allocCount = used.2.releases + used.2.census.hardware + used.2.census.software ∧
    (used.2.exhausted = true → used.2.freeList = []) ∧
    used.2.freeList.Nodup ∧
    ∀ use, Ensures (used.1.perform use) used.2 (fun c' p' => p'.Books c'.armed c'.held)
      (fun f => ∃ s, use = .clone s ∧ used.1.held.count s = maxRefcount ∧
        f = .refcountOverflow s.index) :=
  ⟨reachable_used, by decide +kernel, ownership_of_reachable reachable_used⟩

end Ethernet.Pool
