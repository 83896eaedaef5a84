import Ethernet.Proofs.Interface.Termination
import Ethernet.Proofs.Stm32.Completions
import Ethernet.Proofs.Stm32.Emulated
import Ethernet.Stm32.Board
import Ethernet.Bench.Boards

/-! The receive backlog of the STM32 controller: while the ring is quiet (`QuietRx`) arming completes
nothing and reading back takes a completion off, so receiving ends on both engines. -/
namespace Ethernet

/-- Filtering with a predicate that fails at one member `x` of a list without repeats, and
agrees with another predicate elsewhere, counts `x` fewer where the other holds at `x`. -/
theorem length_filter_clear {l : List Nat} {p q : Nat → Bool} {x : Nat} (nodup : l.Nodup)
    (mem : x ∈ l) (cleared : q x = false) (others : ∀ k ∈ l, k ≠ x → q k = p k) :
    (l.filter p).length = (l.filter q).length + (p x).toNat := by
  induction l with
  | nil => cases mem
  | cons y l ih =>
    obtain ⟨fresh, nodup⟩ := List.nodup_cons.mp nodup
    by_cases here : y = x
    · subst here
      have same : l.filter q = l.filter p := List.filter_congr fun k member =>
        others k (.tail _ member) fun h => fresh (h ▸ member)
      cases hp : p y <;> simp [cleared, hp, same]
    · have inside : x ∈ l := (List.mem_cons.mp mem).resolve_left (Ne.symm here)
      have step := ih nodup inside fun k member apart => others k (.tail _ member) apart
      have agree := others y (.head _) here
      cases hp : p y <;> simp [agree, hp] <;> omega

namespace Stm32

variable {ω : Type} [EthernetBlock ω]

/-- The receive ring is plain memory that only the driver writes while it runs: positions are
taken modulo the ring size, register stores leave the ring alone, and writing a descriptor
changes that descriptor only. -/
structure QuietRx (ω : Type) [EthernetBlock ω] : Prop where
  modulo : ∀ (k : Nat) (b : ω), EthernetBlock.entry .rx (k % ringSize) b = EthernetBlock.entry .rx k b
  store : ∀ (r : Reg) (v : UInt32) (k : Nat) (b : ω),
    EthernetBlock.entry .rx k (EthernetBlock.store r v b) = EthernetBlock.entry .rx k b
  setEntry : ∀ (i : Nat) (e : RingEntry) (k : Nat) (b : ω),
    EthernetBlock.entry .rx k (EthernetBlock.setEntry .rx i e b) =
      if i % ringSize = k % ringSize then e else EthernetBlock.entry .rx k b

namespace Controller

/-- The receive descriptor at position `k`, if it has completed: it holds a slot and the engine
has released it. -/
def completed (c : Controller ω) (k : Nat) : Option RingEntry :=
  if (c.rxSlots.get (Controller.at k)).isSome && !(EthernetBlock.entry .rx k c.block).isDmaOwned
  then some (EthernetBlock.entry .rx k c.block) else none

/-- The completed receive descriptors that end a frame. -/
def lastDone (c : Controller ω) : Nat :=
  ((List.range ringSize).filter fun k => (c.completed k).any fun d => d.status &&& rdesLs != 0).length

theorem pending_eq_completed (c : Controller ω) :
    c.pending = ((List.range ringSize).filter fun k => (c.completed k).isSome).length := by
  unfold pending
  congr 1
  refine List.filter_congr fun k _ => ?_
  unfold completed
  split <;> simp_all

theorem completed_congr {c c' : Controller ω} {k : Nat}
    (slot : c'.rxSlots.get (Controller.at k) = c.rxSlots.get (Controller.at k))
    (entry : EthernetBlock.entry .rx k c'.block = EthernetBlock.entry .rx k c.block) :
    c'.completed k = c.completed k := by
  unfold completed
  rw [slot, entry]

theorem counts_of_completed {c c' : Controller ω} (same : ∀ k < ringSize, c'.completed k = c.completed k) :
    c'.pending = c.pending ∧ c'.lastDone = c.lastDone := by
  rw [pending_eq_completed, pending_eq_completed]
  unfold lastDone
  constructor <;> congr 1 <;> refine List.filter_congr fun k member => ?_ <;>
    rw [same k (List.mem_range.mp member)]

/-- Counting the completed descriptors that pass a test no empty position passes: taking the
completed descriptor `d` off at `x` counts one fewer when `d` passes it. -/
theorem count_of_taken (test : Option RingEntry → Bool) (blank : test none = false)
    {c c' : Controller ω} {x : Nat} {d : RingEntry} (below : x < ringSize)
    (was : c.completed x = some d) (gone : c'.completed x = none)
    (others : ∀ k < ringSize, k ≠ x → c'.completed k = c.completed k) :
    ((List.range ringSize).filter fun k => test (c.completed k)).length =
      ((List.range ringSize).filter fun k => test (c'.completed k)).length + (test (some d)).toNat := by
  rw [← was]
  exact length_filter_clear List.nodup_range (List.mem_range.mpr below) (by rw [gone, blank])
    fun k inside apart => by rw [others k (List.mem_range.mp inside) apart]

/-- Taking one completed descriptor `d` off takes one off the backlog, and one off those that
end a frame when `d` ends one. -/
theorem counts_of_taken {c c' : Controller ω} {x : Nat} {d : RingEntry} (below : x < ringSize)
    (was : c.completed x = some d) (gone : c'.completed x = none)
    (others : ∀ k < ringSize, k ≠ x → c'.completed k = c.completed k) :
    c'.pending + 1 = c.pending ∧ c'.lastDone + (d.status &&& rdesLs != 0).toNat = c.lastDone := by
  constructor
  · have counted := count_of_taken Option.isSome rfl below was gone others
    rw [pending_eq_completed, pending_eq_completed]
    simpa using counted.symm
  · have counted := count_of_taken (·.any fun d => d.status &&& rdesLs != 0) rfl below was gone others
    unfold lastDone
    simpa using counted.symm

variable {c : Controller ω} {s : SlotId}

/-- Arming a descriptor hands it to the engine: the descriptor at the fill position is owned by
the engine afterwards, and every other receive descriptor is as it was. -/
theorem ensures_rxProvide_hands_over (quiet : QuietRx ω) (wants : c.wantsBuffer = true) :
    Ensures (rxProvide s) c (fun _ c' => ∀ k, if c.rxFill % ringSize = k % ringSize
      then (EthernetBlock.entry .rx k c'.block).isDmaOwned = true
      else EthernetBlock.entry .rx k c'.block = EthernetBlock.entry .rx k c.block) (fun _ => False) := by
  have owned : dmaOwned rdesOwn = true := by decide
  unfold rxProvide
  refine ensures_bind (ensures_get ?_)
  simp only [wants, Bool.not_true, Bool.false_eq_true, if_false]
  refine ensures_seq (ensures_modify (ensures_seq (ensures_modify ?_)))
  split
  · refine ensures_bind (ensures_load ?_)
    split
    · refine ensures_seq (ensures_modify (ensures_seq (ensures_modify (ensures_pure fun k => ?_))))
      split <;> simp_all [quiet.store, quiet.setEntry, RingEntry.isDmaOwned]
    · refine ensures_seq (ensures_modify (ensures_pure fun k => ?_))
      split <;> simp_all [quiet.store, quiet.setEntry, RingEntry.isDmaOwned]
  · refine ensures_pure fun k => ?_
    split <;> simp_all [quiet.setEntry, RingEntry.isDmaOwned]

theorem drains (quiet : QuietRx ω) : Drains (Controller ω) lastDone where
  provide s c := by
    cases wants : c.wantsBuffer
    · exact (returns_rxProvide_refused wants).ensures ⟨rfl, rfl⟩
    refine ((ensures_rxProvide wants).and (ensures_rxProvide_hands_over quiet wants)).mono
      (fun _ c' ⟨⟨_, shape⟩, ring⟩ => counts_of_completed fun k below => ?_) (fun _ _ => trivial)
    have slots : c'.rxSlots = put c.rxSlots c.rxFill (some s) := by rw [shape]
    have ring := ring k
    have below' : k % ringSize = k := Nat.mod_eq_of_lt below
    split at ring
    · -- the armed descriptor: it held no slot before, and the engine owns it now
      rename_i same
      have empty : c.rxSlots.get (Controller.at k) = none := by
        simp only [wantsBuffer, Bool.and_eq_true, Option.isNone_iff_eq_none] at wants
        rw [← at_congr same]
        exact wants.2
      simp [completed, ring, empty]
    · rename_i apart
      refine completed_congr ?_ ring
      rw [slots, get_put, if_neg (by simpa [ringSize_eq] using apart)]
  poll c := by
    cases armed : c.rxSlots.get (Controller.at c.rxNext) with
    | none => exact (returns_rxPoll_empty armed).ensures ⟨le_rfl, le_rfl⟩
    | some slot =>
      cases owned : (EthernetBlock.entry .rx c.rxNext c.block).isDmaOwned
      case true => exact (returns_rxPoll_owned armed owned).ensures ⟨le_rfl, le_rfl⟩
      refine (returns_rxPoll armed owned).ensures ?_
      -- the descriptor read back is the completed one at the read cursor, now without its slot
      have slot_here : c.rxSlots.get (Controller.at (c.rxNext % ringSize)) = some slot := by
        rw [at_congr (by simp [ringSize_eq] : c.rxNext % ringSize % 4 = c.rxNext % 4)]
        exact armed
      refine counts_of_taken (Nat.mod_lt c.rxNext (by decide)) ?_ ?_ fun k below apart => ?_
      · simp [completed, slot_here, quiet.modulo, owned]
      · simp [completed, get_put, ringSize_eq]
      · refine completed_congr ?_ rfl
        rw [get_put, if_neg (by rw [ringSize_eq] at below apart; omega)]

end Controller

theorem Board.drains (quiet : QuietRx ω) : Drains (Board ω) (fun b => b.eth.lastDone) :=
  (Controller.drains quiet).lift Board.eth (fun e b => { b with eth := e }) (fun _ => rfl) rfl
    (fun _ => rfl) (fun _ _ => rfl)

end Stm32

theorem Bench.EmulatedBlock.quietRx : Stm32.QuietRx Bench.EmulatedBlock where
  modulo k b := by simp [Bench.EmulatedBlock.entry, Stm32.Controller.at, Stm32.Controller.ringSize_eq]
  store r v k b := Bench.EmulatedBlock.entry_store r v
  setEntry i e k b := by
    change (b.setEntry .rx i e).entry .rx k = _
    by_cases same : i % 4 = k % 4 <;>
      simp [Bench.EmulatedBlock.entry_setEntry, Stm32.Controller.ringSize_eq, same]

namespace Interface

/-- `receive` and `pollInput` end from every state, on the scripted engine and on the STM32
controller while its receive ring is quiet: refilling arms only descriptors that have not
completed, each round of the receive loop ends it or consumes one completed descriptor, no loop
runs out of its bound, and `pollInput` delivers at most as many frames as completed descriptors
that end one were pending when it was called. -/
theorem receive_loops_end :
    (∀ {α : Type} (i : Interface Bench.ScriptedBoard α), i.Ends fun b => b.mac.lastDone) ∧
    (∀ {ω α : Type} [Stm32.EthernetBlock ω], Stm32.QuietRx ω →
      ∀ i : Interface (Stm32.Board ω) α, i.Ends fun b => b.eth.lastDone) :=
  ⟨fun i => Bench.ScriptedMac.drains.board.ends i, fun quiet i => (Stm32.Board.drains quiet).ends i⟩

/-- An interface, not yet started, on the emulated STM32 board. -/
def emulatedIdle : Interface (Stm32.Board Bench.EmulatedBlock) Unit where
  settings := {}
  board := ⟨{ block := { phy := { address := 1 } } }, { bus := .div42, address := 1 }⟩
  proto := ()
  pool := { headers := #[], freeList := [], memory := #[] }
  acquisition := .create 0 Ipv4Config.fallback

theorem emulated_receive_loops_end :
    Stm32.QuietRx Bench.EmulatedBlock ∧ emulatedIdle.Ends fun b => b.eth.lastDone :=
  ⟨Bench.EmulatedBlock.quietRx, receive_loops_end.2 Bench.EmulatedBlock.quietRx emulatedIdle⟩

end Interface

end Ethernet
