import Ethernet.Proofs.Stm32.Session
import Ethernet.Bench.EmulatedBlock

/-! The receive ring is a FIFO queue of armed slots as long as no slot is provided during a drain. -/
namespace Ethernet.Stm32.Controller

variable {ω : Type}

/-- The slots armed on the receive ring, read from the next descriptor to read back. -/
def rxQueue (c : Controller ω) : List SlotId :=
  (List.range ringSize).filterMap fun k => c.rxSlots.get (Controller.at (c.rxNext + k))

/-- A drain by `rxRevoke` is under way: the next descriptor to read back has lost its slot
while other slots are still armed. -/
def Draining (c : Controller ω) : Prop :=
  c.rxSlots.get (Controller.at c.rxNext) = none ∧ c.rxQueue ≠ []

instance (c : Controller ω) : Decidable c.Draining := inferInstanceAs (Decidable (_ ∧ _))

/-- From the next descriptor to read back on, the ring holds `h` descriptors a drain has
emptied and then the slots `q`, oldest first; the next descriptor to arm follows them. -/
structure RxLayout (c : Controller ω) (h : Nat) (q : List SlotId) : Prop where
  next_lt : c.rxNext < ringSize
  fill_lt : c.rxFill < ringSize
  fits : h + q.length ≤ ringSize
  fill_eq : c.rxFill = (c.rxNext + h + q.length) % ringSize
  table : ∀ k < ringSize,
    c.rxSlots.get (Controller.at (c.rxNext + k)) = if h ≤ k then q[k - h]? else none

/-- The layout, with no emptied descriptors left once the ring is empty. -/
structure RxBooks (c : Controller ω) (h : Nat) (q : List SlotId) : Prop extends RxLayout c h q where
  settled : q = [] → h = 0

variable {c c' : Controller ω} {h : Nat} {q : List SlotId}

theorem RxLayout.of_rxLedger (layout : RxLayout c h q) (same : c'.rxLedger = c.rxLedger) :
    RxLayout c' h q := by
  simp only [rxLedger, Prod.mk.injEq] at same
  obtain ⟨slots, fill, next, -⟩ := same
  exact { next_lt := next ▸ layout.next_lt
          fill_lt := fill ▸ layout.fill_lt
          fits := layout.fits
          fill_eq := by rw [fill, next]; exact layout.fill_eq
          table := by rw [slots, next]; exact layout.table }

theorem RxBooks.of_rxLedger (books : RxBooks c h q) (same : c'.rxLedger = c.rxLedger) :
    RxBooks c' h q :=
  { books.toRxLayout.of_rxLedger same with settled := books.settled }

theorem rxBooks_cleared (empty : c.rxSlots.toList.all Option.isNone = true) (fill : c.rxFill = 0)
    (next : c.rxNext = 0) : RxBooks c 0 [] := by
  have none := (all_isNone_iff c.rxSlots c.rxNext).mp empty
  exact { next_lt := by simp [next, ringSize_eq]
          fill_lt := by simp [fill, ringSize_eq]
          fits := by simp [ringSize_eq]
          fill_eq := by simp [fill, next]
          table := fun k below => by rw [none k (by simpa [ringSize_eq] using below)]; simp
          settled := fun _ => rfl }

theorem rxBooks_empty (fresh : c.rxLedger = freshLedgers.1) : RxBooks c 0 [] := by
  simp only [rxLedger, freshLedgers, Prod.mk.injEq] at fresh
  obtain ⟨slots, fill, next, -⟩ := fresh
  exact rxBooks_cleared (by rw [slots]; decide) fill next

theorem RxLayout.rxQueue_eq (layout : RxLayout c h q) : c.rxQueue = q := by
  -- the first `n` descriptors hold the first `n - h` slots
  have read : ∀ n ≤ ringSize,
      (List.range n).filterMap (fun k => c.rxSlots.get (Controller.at (c.rxNext + k))) =
        q.take (n - h) := by
    intro n
    induction n with
    | zero => simp
    | succ n ih =>
      intro fits
      rw [List.range_succ, List.filterMap_append, ih (by omega)]
      simp only [List.filterMap_cons, List.filterMap_nil, layout.table n (by omega)]
      by_cases emptied : h ≤ n
      · rw [if_pos emptied, show n + 1 - h = n - h + 1 by omega, List.take_add_one]
        cases q[n - h]? <;> rfl
      · rw [if_neg emptied, show n + 1 - h = n - h by omega]
        exact List.append_nil _
  have fits := layout.fits
  rw [rxQueue, read ringSize le_rfl, List.take_of_length_le (by omega)]

theorem RxBooks.draining_iff (books : RxBooks c h q) : c.Draining ↔ 0 < h := by
  have next := books.table 0 (by simp [ringSize_eq])
  simp only [Nat.add_zero, Nat.zero_sub] at next
  rw [Draining, books.rxQueue_eq, next]
  constructor
  · rintro ⟨empty, armed⟩
    by_contra none
    have : h = 0 := by omega
    subst this
    cases q with
    | nil => exact armed rfl
    | cons s rest => simp at empty
  · intro emptied
    refine ⟨by simp [show ¬h ≤ 0 by omega], fun empty => ?_⟩
    have := books.settled empty
    omega

/-- The driver wants a buffer exactly when it is set up and has fewer slots armed than
descriptors. -/
theorem RxLayout.wantsBuffer_eq (layout : RxLayout c h q) :
    c.wantsBuffer = (c.initialized && decide (q.length < ringSize)) := by
  have fits := layout.fits
  rw [ringSize_eq] at fits
  have atFill : Controller.at c.rxFill = Controller.at (c.rxNext + (h + q.length) % 4) := by
    apply at_congr
    rw [layout.fill_eq, ringSize_eq]
    omega
  simp only [wantsBuffer, atFill]
  by_cases wrapped : h + q.length = 4
  · rw [wrapped, Nat.mod_self, layout.table 0 (by simp [ringSize_eq])]
    by_cases emptied : h = 0
    · subst emptied
      have : 0 < q.length := by omega
      simp [List.getElem?_eq_getElem this, ringSize_eq, show ¬q.length < 4 by omega]
    · simp [show ¬h ≤ 0 by omega, ringSize_eq, show q.length < 4 by omega]
  · rw [Nat.mod_eq_of_lt (by omega), layout.table _ (by rw [ringSize_eq]; omega)]
    simp [ringSize_eq, show q.length < 4 by omega]

/-! ### What each receive operation does to the queue -/

theorem RxBooks.provide (books : RxBooks c 0 q) (short : q.length < ringSize) (s : SlotId) :
    RxBooks { c with
        rxSlots := put c.rxSlots c.rxFill (some s)
        rxFill := (c.rxFill + 1) % ringSize } 0 (q ++ [s]) := by
  have fill := books.fill_eq
  have next := books.next_lt
  rw [ringSize_eq] at short fill next
  refine { next_lt := books.next_lt
           fill_lt := Nat.mod_lt _ (by simp [ringSize_eq])
           fits := by simp only [List.length_append, List.length_singleton, ringSize_eq]; omega
           fill_eq := ?_
           table := fun k below => ?_
           settled := by simp }
  · dsimp only
    simp only [List.length_append, List.length_singleton, ringSize_eq]
    omega
  · dsimp only
    rw [get_put, books.table k below]
    rw [ringSize_eq] at below
    simp only [Nat.zero_le, if_true, Nat.sub_zero]
    by_cases here : k = q.length
    · subst here
      rw [if_pos (by omega), List.getElem?_concat_length]
    · rw [if_neg (by omega)]
      by_cases inside : k < q.length
      · rw [List.getElem?_append_left inside]
      · rw [List.getElem?_eq_none (by omega), List.getElem?_eq_none (by simp; omega)]

theorem RxBooks.poll {s : SlotId} {rest : List SlotId} (books : RxBooks c 0 (s :: rest)) (bytes : Nat) :
    RxBooks { c with
        rxSlots := put c.rxSlots c.rxNext none
        rxNext := (c.rxNext + 1) % ringSize
        rxFrameBytes := bytes } 0 rest := by
  have fill := books.fill_eq
  have fits := books.fits
  simp only [List.length_cons, ringSize_eq] at fill fits
  refine { next_lt := Nat.mod_lt _ (by simp [ringSize_eq])
           fill_lt := books.fill_lt
           fits := by simp only [ringSize_eq]; omega
           fill_eq := by dsimp only; simp only [ringSize_eq]; omega
           table := fun k below => ?_
           settled := fun _ => rfl }
  dsimp only
  rw [get_put]
  rw [ringSize_eq] at below
  by_cases wrapped : k = 3
  · subst wrapped
    rw [if_pos (by simp only [ringSize_eq]; omega)]
    simp [List.getElem?_eq_none (show rest.length ≤ 3 by omega)]
  · rw [if_neg (by simp only [ringSize_eq]; omega),
      at_congr (b := c.rxNext + (k + 1)) (by simp only [ringSize_eq]; omega),
      books.table (k + 1) (by rw [ringSize_eq]; omega)]
    simp

theorem RxLayout.find_revoke {s : SlotId} {rest : List SlotId} (layout : RxLayout c h (s :: rest)) :
    c.revokeOrder.find? (fun i => (c.rxSlots.get (Controller.at i)).isSome) =
      some ((c.rxNext + h) % ringSize) := by
  have fits := layout.fits
  simp only [List.length_cons] at fits
  have armed : ∀ k < ringSize, (c.rxSlots.get (Controller.at ((c.rxNext + k) % ringSize))).isSome =
      decide (h ≤ k ∧ k < h + rest.length + 1) := by
    intro k below
    rw [at_congr (b := c.rxNext + k) (by simp [ringSize_eq]), layout.table k below]
    by_cases emptied : h ≤ k
    · rw [if_pos emptied]
      by_cases inside : k - h < rest.length + 1
      · simp [List.getElem?_eq_getElem (show k - h < (s :: rest).length by simpa using inside),
          emptied]
        omega
      · simp [List.getElem?_eq_none (show (s :: rest).length ≤ k - h by simp; omega)]
        omega
    · simp [emptied]
  rw [revokeOrder, List.find?_map]
  have first : (List.range ringSize).find?
      ((fun i => (c.rxSlots.get (Controller.at i)).isSome) ∘ fun k => (c.rxNext + k) % ringSize) =
        some h := by
    rw [List.find?_range_eq_some]
    refine ⟨?_, List.mem_range.mpr (by omega), fun j below => ?_⟩
    · simp only [Function.comp_apply]
      rw [armed h (by omega)]
      simp
    · simp only [Function.comp_apply]
      rw [armed j (by omega)]
      simp
      omega
  rw [first]
  rfl

theorem RxLayout.oldest {s : SlotId} {rest : List SlotId} (layout : RxLayout c h (s :: rest)) :
    c.rxSlots.get (Controller.at ((c.rxNext + h) % ringSize)) = some s := by
  have fits := layout.fits
  simp only [List.length_cons] at fits
  rw [at_congr (b := c.rxNext + h) (by simp [ringSize_eq]), layout.table h (by omega)]
  simp

theorem RxLayout.revoke {s : SlotId} {rest : List SlotId} (layout : RxLayout c h (s :: rest)) :
    RxLayout { c with rxSlots := put c.rxSlots ((c.rxNext + h) % ringSize) none } (h + 1) rest := by
  have fits := layout.fits
  have fill := layout.fill_eq
  simp only [List.length_cons] at fits fill
  refine { next_lt := layout.next_lt
           fill_lt := layout.fill_lt
           fits := by omega
           fill_eq := by dsimp only; rw [fill]; congr 1; omega
           table := fun k below => ?_ }
  dsimp only
  rw [get_put, layout.table k below]
  rw [ringSize_eq] at below fits
  by_cases here : k = h
  · subst here
    rw [if_pos (by simp only [ringSize_eq]; omega)]
    simp
  · rw [if_neg (by simp only [ringSize_eq]; omega)]
    by_cases emptied : h + 1 ≤ k
    · rw [if_pos (by omega), if_pos emptied, show k - h = k - (h + 1) + 1 by omega]
      rfl
    · rw [if_neg (by omega), if_neg emptied]

theorem RxLayout.all_isNone_iff (layout : RxLayout c h q) :
    c.rxSlots.toList.all Option.isNone = true ↔ q = [] := by
  rw [Controller.all_isNone_iff c.rxSlots c.rxNext]
  have fits := layout.fits
  rw [ringSize_eq] at fits
  constructor
  · intro empty
    cases q with
    | nil => rfl
    | cons s rest =>
      have slot := layout.table h (by rw [ringSize_eq]; simp at fits; omega)
      rw [empty h (by simp at fits; omega)] at slot
      simp at slot
  · rintro rfl k below
    rw [layout.table k (by rw [ringSize_eq]; omega)]
    simp

theorem RxBooks.find_revoke_none (books : RxBooks c h []) :
    c.revokeOrder.find? (fun i => (c.rxSlots.get (Controller.at i)).isSome) = none := by
  have none := (all_isNone_iff c.rxSlots c.rxNext).mp (books.all_isNone_iff.mpr rfl)
  rw [List.find?_eq_none]
  intro i mem
  obtain ⟨k, below, rfl⟩ := List.mem_map.mp mem
  rw [at_congr (b := c.rxNext + k) (by simp [ringSize_eq]),
    none k (by simpa [ringSize_eq] using List.mem_range.mp below)]
  simp

/-! ### The receive operations, step by step -/

/-- The slot at the next descriptor to read back, if any, is the oldest, and no drain is under
way. -/
theorem RxBooks.armed_next {s' : SlotId} (books : RxBooks c h q)
    (armed : c.rxSlots.get (Controller.at c.rxNext) = some s') : h = 0 ∧ q = s' :: q.tail := by
  have next := books.table 0 (by simp [ringSize_eq])
  simp only [Nat.add_zero, armed] at next
  by_cases emptied : h = 0
  · subst emptied
    cases q with
    | nil => simp at next
    | cons s rest => simpa using next.symm
  · simp [show ¬h ≤ 0 by omega] at next

/-- The slots an `rxProvide` of `s` accepted, read from its result. -/
def acceptedSlots (s : SlotId) : Except SlotId Unit → List SlotId
  | .ok _ => [s]
  | .error _ => []

@[simp] theorem acceptedSlots_ok (s : SlotId) : acceptedSlots s (.ok ()) = [s] := rfl

@[simp] theorem acceptedSlots_error (s : SlotId) : acceptedSlots s (.error s) = [] := rfl

section Operations

variable [EthernetBlock ω] {s : SlotId} {rest : List SlotId}

theorem RxBooks.ensures_rxProvide (books : RxBooks c 0 q) (wants : c.wantsBuffer = true) :
    Ensures (rxProvide s) c (fun r c' => r = .ok () ∧ RxBooks c' 0 (q ++ [s])) (fun _ => False) := by
  have short : q.length < ringSize := by
    rw [books.wantsBuffer_eq] at wants
    simp only [Bool.and_eq_true, decide_eq_true_eq] at wants
    exact wants.2
  refine (Controller.ensures_rxProvide wants).mono (fun r c' ⟨ok, accepted⟩ => ⟨ok, ?_⟩) (fun _ => id)
  exact (books.provide short s).of_rxLedger (by rw [accepted]; rfl)

/-- Outside a drain, a released descriptor gives back the oldest slot, which leaves the
queue. -/
theorem RxBooks.ensures_rxPoll (books : RxBooks c 0 (s :: rest))
    (done : (EthernetBlock.entry .rx c.rxNext c.block).isDmaOwned = false) :
    Ensures rxPoll c (fun r c' => ∃ comp, r = some comp ∧ comp.slot = s ∧ RxBooks c' 0 rest)
      (fun _ => False) := by
  have armed : c.rxSlots.get (Controller.at c.rxNext) = some s := by
    simpa using books.table 0 (by simp [ringSize_eq])
  refine (ensures_rxPoll_done armed done).mono
    (fun r c' ⟨comp, given, slot, polled⟩ => ⟨comp, given, slot, ?_⟩) (fun _ => id)
  exact (books.poll c'.rxFrameBytes).of_rxLedger (by rw [polled])

/-- While the engine is stopped, `rxRevoke` gives back the oldest slot, which leaves the
queue. -/
theorem RxBooks.ensures_rxRevoke (books : RxBooks c h (s :: rest)) (stopped : c.running = false) :
    Ensures rxRevoke c (fun r c' => r = some s ∧ ∃ h', RxBooks c' h' rest) (fun _ => False) := by
  have layout := books.toRxLayout.revoke
  refine (Controller.ensures_rxRevoke stopped books.find_revoke).mono
    (fun r c' ⟨given, revoked⟩ => ⟨given.trans books.oldest, ?_⟩) (fun _ => id)
  split at revoked
  · -- the ring emptied and the cursors start over
    rename_i empty
    obtain rfl := layout.all_isNone_iff.mp empty
    rw [revoked]
    exact ⟨0, rxBooks_cleared empty rfl rfl⟩
  · rename_i armed
    have moved : RxLayout c' (h + 1) rest := layout.of_rxLedger (by rw [revoked]; rfl)
    exact ⟨h + 1, { moved with settled := fun gone => absurd (layout.all_isNone_iff.mpr gone) armed }⟩

/-- Setting the driver up while no slot is armed leaves the receive ring empty: a first `init`
clears the ledger, and a repeated one changes nothing. -/
theorem RxBooks.init_step {p p' : Pool} {r : Except NetError Unit} {j j' : Journal} {mac : MacAddress}
    (books : RxBooks c h []) (ran : init mac c p j = .ok ((r, c'), p') j') : RxBooks c' 0 [] := by
  obtain rfl := books.settled rfl
  cases set : c.initialized
  · rcases (poolEnsures_init set).of_ok ran with same | ⟨-, fresh, -⟩
    · simp only [books_eq_iff, ledgers, Prod.mk.injEq] at same
      exact books.of_rxLedger same.1.1
    · simp only [ledgers, freshLedgers, Prod.mk.injEq] at fresh
      exact rxBooks_empty (by rw [fresh.1]; rfl)
  · obtain ⟨-, rfl, -⟩ := (poolEnsures_init_again set).of_ok ran
    exact books

theorem RxBooks.rxProvide_step {r : Except SlotId Unit} {j j' : Journal} (books : RxBooks c h q)
    (settled : ¬c.Draining) (ran : rxProvide s c j = .ok (r, c') j') :
    ∃ h', RxBooks c' h' (q ++ acceptedSlots s r) := by
  cases wants : c.wantsBuffer
  · obtain ⟨rfl, rfl⟩ := (returns_rxProvide_refused wants).of_ok ran
    exact ⟨h, by simpa using books⟩
  · obtain rfl : h = 0 := by
      have := mt books.draining_iff.mpr settled
      omega
    obtain ⟨rfl, accepted⟩ := (books.ensures_rxProvide wants).of_ok ran
    exact ⟨0, accepted⟩

theorem RxBooks.rxPoll_step {r : Option RxCompletion} {j j' : Journal} (books : RxBooks c h q)
    (ran : rxPoll c j = .ok (r, c') j') :
    ∃ h' q', RxBooks c' h' q' ∧ q = (r.map RxCompletion.slot).toList ++ q' := by
  cases armed : c.rxSlots.get (Controller.at c.rxNext) with
  | none =>
    obtain ⟨rfl, rfl⟩ := (returns_rxPoll_empty armed).of_ok ran
    exact ⟨h, q, books, rfl⟩
  | some s' =>
    obtain ⟨rfl, oldest⟩ := books.armed_next armed
    cases owned : (EthernetBlock.entry .rx c.rxNext c.block).isDmaOwned
    · rw [oldest] at books
      obtain ⟨comp, rfl, slot, polled⟩ := (books.ensures_rxPoll owned).of_ok ran
      exact ⟨0, q.tail, polled, by rw [oldest]; simp [slot]⟩
    · obtain ⟨rfl, rfl⟩ := (returns_rxPoll_owned armed owned).of_ok ran
      exact ⟨0, q, books, rfl⟩

theorem RxBooks.rxRevoke_step {r : Option SlotId} {j j' : Journal} (books : RxBooks c h q)
    (ran : rxRevoke c j = .ok (r, c') j') : ∃ h' q', RxBooks c' h' q' ∧ q = r.toList ++ q' := by
  cases running : c.running
  · cases q with
    | nil =>
      obtain ⟨rfl, rfl⟩ := (returns_rxRevoke_none running books.find_revoke_none).of_ok ran
      exact ⟨h, [], books, rfl⟩
    | cons s rest =>
      obtain ⟨rfl, h', revoked⟩ := (books.ensures_rxRevoke running).of_ok ran
      exact ⟨h', rest, revoked, rfl⟩
  · obtain ⟨rfl, rfl⟩ := (returns_rxRevoke_running running).of_ok ran
    exact ⟨h, q, books, rfl⟩

end Operations

/-! ### What the receive side guarantees -/

section Guarantees

variable [EthernetBlock ω]

/-- What providing the slot `s` does: accepted exactly when the driver is set up with fewer
slots armed than descriptors, and then, outside a drain, appended to the queue; otherwise
handed back with nothing changed. -/
def ProvideSpec (c : Controller ω) (s : SlotId) : Prop :=
  if c.initialized && decide (c.rxQueue.length < ringSize) then
    Ensures (rxProvide s) c (fun r c' => r = .ok () ∧
      (¬c.Draining → c'.rxQueue = c.rxQueue ++ [s])) (fun _ => False)
  else Returns (rxProvide s) c (.error s) c

/-- What reading back does: nothing, or a completion of the oldest slot, which leaves the
queue; outside a drain, that completion as soon as the engine has released the oldest slot's
descriptor. -/
def PollSpec (c : Controller ω) : Prop :=
  match c.rxQueue with
  | [] => Returns rxPoll c none c
  | s :: rest =>
    if c.Draining ∨ (EthernetBlock.entry .rx c.rxNext c.block).isDmaOwned = true then
      Returns rxPoll c none c
    else Ensures rxPoll c (fun r c' => ∃ comp, r = some comp ∧ comp.slot = s ∧ c'.rxQueue = rest)
      (fun _ => False)

/-- What taking a slot back does: nothing while the engine runs or no slot is armed;
otherwise the oldest slot comes back and leaves the queue. -/
def RevokeSpec (c : Controller ω) : Prop :=
  if c.running then Returns rxRevoke c none c
  else match c.rxQueue with
    | [] => Returns rxRevoke c none c
    | s :: rest => Ensures rxRevoke c (fun r c' => r = some s ∧ c'.rxQueue = rest) (fun _ => False)

/-- The receive side of a driver, as every session that provides no slot during a drain
leaves it. -/
structure RxAgrees (c : Controller ω) : Prop where
  /-- At most one slot per descriptor is armed. -/
  length_le : c.rxQueue.length ≤ ringSize
  /-- The driver wants a buffer exactly when it is set up and a descriptor is free. -/
  wants : c.wantsBuffer = (c.initialized && decide (c.rxQueue.length < ringSize))
  provide : ∀ s, ProvideSpec c s
  poll : PollSpec c
  revoke : RevokeSpec c

theorem RxBooks.provideSpec (books : RxBooks c h q) (s : SlotId) : ProvideSpec c s := by
  unfold ProvideSpec
  rw [books.rxQueue_eq, ← books.wantsBuffer_eq]
  split
  · rename_i wants
    refine (Controller.ensures_rxProvide wants).mono
      (fun r c' ⟨ok, accepted⟩ => ⟨ok, fun settled => ?_⟩) (fun _ => id)
    obtain rfl : h = 0 := by
      have := mt books.draining_iff.mpr settled
      omega
    have short : q.length < ringSize := by
      rw [books.wantsBuffer_eq] at wants
      simp only [Bool.and_eq_true, decide_eq_true_eq] at wants
      exact wants.2
    exact ((books.provide short s).of_rxLedger (by rw [accepted]; rfl)).rxQueue_eq
  · rename_i refused
    exact returns_rxProvide_refused (by simpa using refused)

theorem RxBooks.pollSpec (books : RxBooks c h q) : PollSpec c := by
  unfold PollSpec
  rw [books.rxQueue_eq]
  cases armed : c.rxSlots.get (Controller.at c.rxNext) with
  | none =>
    -- the next descriptor to read back holds no slot: nothing comes back
    have nothing := returns_rxPoll_empty armed
    cases q with
    | nil => exact nothing
    | cons s rest =>
      simp only
      rw [if_pos (.inl ⟨armed, by rw [books.rxQueue_eq]; simp⟩)]
      exact nothing
  | some s' =>
    obtain ⟨rfl, oldest⟩ := books.armed_next armed
    rw [oldest] at books ⊢
    have settled : ¬c.Draining := fun draining => by simp [draining.1] at armed
    simp only [settled, false_or]
    split
    · rename_i owned
      exact returns_rxPoll_owned armed owned
    · rename_i done
      exact (books.ensures_rxPoll (by simpa using done)).mono
        (fun r c' ⟨comp, given, slot, polled⟩ => ⟨comp, given, slot, polled.rxQueue_eq⟩) (fun _ => id)

theorem RxBooks.revokeSpec (books : RxBooks c h q) : RevokeSpec c := by
  unfold RevokeSpec
  rw [books.rxQueue_eq]
  split
  · rename_i running
    exact returns_rxRevoke_running running
  · rename_i stopped
    have stopped : c.running = false := by simpa using stopped
    cases q with
    | nil => exact returns_rxRevoke_none stopped books.find_revoke_none
    | cons s rest =>
      exact (books.ensures_rxRevoke stopped).mono
        (fun r c' ⟨given, h', revoked⟩ => ⟨given, revoked.rxQueue_eq⟩) (fun _ => id)

theorem RxBooks.agrees (books : RxBooks c h q) : RxAgrees c where
  length_le := by rw [books.rxQueue_eq]; have := books.fits; omega
  wants := by rw [books.rxQueue_eq]; exact books.wantsBuffer_eq
  provide := books.provideSpec
  poll := books.pollSpec
  revoke := books.revokeSpec

/-- The calls that leave the receive ledger alone. -/
inductive Housekeeping : Op ω (Except NetError Unit) → Prop
  | deinit : Housekeeping deinit
  | start : Housekeeping start
  | stop : Housekeeping stop
  | setLinkParams (p : LinkParams) : Housekeeping (setLinkParams p)

/-- Sessions on the receive side, with the slots the driver accepted and those it handed
back, in order; the engine rewrites the register block as it likes between calls. `init`
runs only while no slot is armed, and no slot is provided during a drain. -/
inductive RxSession : Controller ω → List SlotId → List SlotId → Prop
  | created (b : ω) : RxSession { block := b } [] []
  | init {c c' : Controller ω} {p p' : Pool} {j j' : Journal} {r : Except NetError Unit}
      {taken given : List SlotId} (mac : MacAddress) :
      RxSession c taken given → c.rxQueue = [] → init mac c p j = .ok ((r, c'), p') j' →
      RxSession c' taken given
  | housekeeping {act : Op ω (Except NetError Unit)} {c c' : Controller ω}
      {r : Except NetError Unit} {j j' : Journal} {taken given : List SlotId} :
      Housekeeping act → RxSession c taken given → act c j = .ok (r, c') j' →
      RxSession c' taken given
  | provide {c c' : Controller ω} {s : SlotId} {r : Except SlotId Unit} {j j' : Journal}
      {taken given : List SlotId} :
      RxSession c taken given → ¬c.Draining → rxProvide s c j = .ok (r, c') j' →
      RxSession c' (taken ++ acceptedSlots s r) given
  | poll {c c' : Controller ω} {r : Option RxCompletion} {j j' : Journal}
      {taken given : List SlotId} :
      RxSession c taken given → rxPoll c j = .ok (r, c') j' →
      RxSession c' taken (given ++ (r.map RxCompletion.slot).toList)
  | revoke {c c' : Controller ω} {r : Option SlotId} {j j' : Journal} {taken given : List SlotId} :
      RxSession c taken given → rxRevoke c j = .ok (r, c') j' → RxSession c' taken (given ++ r.toList)
  | engine {c : Controller ω} {taken given : List SlotId} (b : ω) :
      RxSession c taken given → RxSession { c with block := b } taken given

theorem Housekeeping.keeps {act : Op ω (Except NetError Unit)} (housekeeping : Housekeeping act) :
    Keeps rxLedger act := by
  have blind : ∀ (c : Controller ω) (b : ω), rxLedger { c with block := b } = rxLedger c :=
    fun _ _ => rfl
  have flags : ∀ (c : Controller ω) (i r : Bool),
      rxLedger { c with initialized := i, running := r } = rxLedger c := fun _ _ _ => rfl
  cases housekeeping with
  | deinit => exact keeps_deinit blind flags
  | start => exact keeps_start blind flags
  | stop => exact keeps_stop blind flags
  | setLinkParams p => exact keeps_setLinkParams blind p

theorem RxSession.books {taken given : List SlotId} (session : RxSession c taken given) :
    ∃ h q, RxBooks c h q ∧ taken = given ++ q := by
  induction session with
  | created b => exact ⟨0, [], rxBooks_empty rfl, rfl⟩
  | init mac _ idle ran ih =>
    obtain ⟨h, q, books, balance⟩ := ih
    obtain rfl : q = [] := by rw [← books.rxQueue_eq]; exact idle
    exact ⟨0, [], books.init_step ran, balance⟩
  | housekeeping housekeeping _ ran ih =>
    obtain ⟨h, q, books, balance⟩ := ih
    exact ⟨h, q, books.of_rxLedger ((housekeeping.keeps _).of_ok ran), balance⟩
  | provide _ settled ran ih =>
    obtain ⟨h, q, books, rfl⟩ := ih
    obtain ⟨h', provided⟩ := books.rxProvide_step settled ran
    exact ⟨h', _, provided, by simp⟩
  | poll _ ran ih =>
    obtain ⟨h, q, books, rfl⟩ := ih
    obtain ⟨h', q', polled, rfl⟩ := books.rxPoll_step ran
    exact ⟨h', q', polled, by simp⟩
  | revoke _ ran ih =>
    obtain ⟨h, q, books, rfl⟩ := ih
    obtain ⟨h', q', revoked, rfl⟩ := books.rxRevoke_step ran
    exact ⟨h', q', revoked, by simp⟩
  | engine b _ ih =>
    obtain ⟨h, q, books, balance⟩ := ih
    exact ⟨h, q, books.of_rxLedger rfl, balance⟩

/-- The receive ring refines a FIFO queue of at most four armed slots, in every session
that provides no slot during a drain: the slots accepted are exactly those handed back by
`rxPoll` and `rxRevoke`, in the order accepted, followed by those still armed; the driver
wants a buffer exactly when it is set up with a descriptor free; `rxPoll` only ever returns
the oldest slot, and outside a drain returns it once its descriptor is released; and
`rxRevoke` returns nothing while the engine runs, and the oldest slot otherwise. -/
theorem receive_ring_is_fifo_between_drains {taken given : List SlotId}
    (session : RxSession c taken given) : taken = given ++ c.rxQueue ∧ RxAgrees c := by
  obtain ⟨h, q, books, balance⟩ := session.books
  exact ⟨books.rxQueue_eq ▸ balance, books.agrees⟩

end Guarantees

theorem RxSession.receiveRaw {c : Controller Bench.EmulatedBlock} {taken given : List SlotId}
    (session : RxSession c taken given) (status : UInt32) :
    RxSession { c with block := (c.block.receiveRaw status).2 } taken given :=
  .engine _ session

/-- A driver set up on the emulated block arms slots 0, 1 and 2, the engine completes slot 0 with a
whole frame, and the driver reads it back and then takes slot 1 back by a revoke. -/
theorem driver_session_receive_fifo :
    ∃ c : Controller Bench.EmulatedBlock, RxSession c [⟨0⟩, ⟨1⟩, ⟨2⟩] [⟨0⟩, ⟨1⟩] ∧
      c.rxQueue = [⟨2⟩] ∧ [⟨0⟩, ⟨1⟩, ⟨2⟩] = [⟨0⟩, ⟨1⟩] ++ c.rxQueue ∧ RxAgrees c := by
  have started := RxSession.init ⟨Vector.replicate 6 0⟩
    (RxSession.created ({ phy := { address := 1 } } : Bench.EmulatedBlock))
    rfl (rfl : init _ _ ⟨#[], [], false, 0, 0, 0, #[]⟩ #[] = _)
  have armed := RxSession.provide (RxSession.provide (RxSession.provide started (by decide)
    (rfl : rxProvide ⟨0⟩ _ #[] = _)) (by decide) (rfl : rxProvide ⟨1⟩ _ #[] = _)) (by decide)
    (rfl : rxProvide ⟨2⟩ _ #[] = _)
  have session := RxSession.revoke (RxSession.poll
    (armed.receiveRaw (rdesFs ||| rdesLs ||| ((60 : UInt32) <<< 16))) (rfl : rxPoll _ #[] = _))
    (rfl : rxRevoke _ #[] = _)
  exact ⟨_, session, rfl, receive_ring_is_fifo_between_drains session⟩

/-- Set up a fresh driver, arm slots 0 and 1, take one back, then arm slots 0, 2 and 3, the
last one during the drain, and take one back again. -/
def refillDuringDrain : PoolOp Bench.EmulatedBlock (Option SlotId) := do
  let _ ← init ⟨Vector.replicate 6 0⟩
  let _ ← besidePool (rxProvide ⟨0⟩)
  let _ ← besidePool (rxProvide ⟨1⟩)
  let _ ← besidePool rxRevoke
  let _ ← besidePool (rxProvide ⟨0⟩)
  let _ ← besidePool (rxProvide ⟨2⟩)
  let _ ← besidePool (rxProvide ⟨3⟩)
  besidePool rxRevoke

/-- Provided during a drain, slot 3 lands in the emptied descriptor ahead of slots 1, 0 and 2,
armed before it, and the next `rxRevoke` hands it back first while they stay armed. -/
theorem refill_during_drain_returns_newest :
    ∃ c p j, refillDuringDrain { block := { phy := { address := 1 } } }
        ⟨#[], [], false, 0, 0, 0, #[]⟩ #[] = .ok ((some ⟨3⟩, c), p) j ∧
      c.rxQueue = [⟨1⟩, ⟨0⟩, ⟨2⟩] :=
  ⟨_, _, _, rfl, rfl⟩

end Ethernet.Stm32.Controller
