import Ethernet.Proofs.Stm32.Handover
import Ethernet.Bench.EmulatedBlock

/-! The descriptor laws of the emulated block: register stores never touch a descriptor, a write
lands at its position modulo four, and the answer to a transmit poll demand at most takes OWN
back from transmit descriptors. -/
namespace Ethernet.Bench.EmulatedBlock

open Stm32 Stm32.Controller

variable {b : EmulatedBlock} {k : Ring} {i : Nat}

/-! The block seen through the interface the driver programs against. -/

@[simp] theorem block_entry : (EthernetBlock.entry k i b : RingEntry) = b.entry k i := rfl

@[simp] theorem block_store (r : Reg) (v : UInt32) : (EthernetBlock.store r v b : EmulatedBlock) = store r v b :=
  rfl

@[simp] theorem block_pollTransmit (p : Pool) :
    (EthernetBlock.pollTransmit p b : EmulatedBlock) = pollTransmit p b := rfl

@[simp] theorem entry_setReg (r : Reg) (v : UInt32) : (b.setReg r v).entry k i = b.entry k i := rfl

@[simp] theorem entry_raise (bits : UInt32) : (b.raise bits).entry k i = b.entry k i := rfl

@[simp] theorem entry_transfer (cmd : UInt32) : (b.transfer cmd).entry k i = b.entry k i := by
  unfold transfer
  split <;> rfl

@[simp] theorem entry_store (r : Reg) (v : UInt32) : (store r v b).entry k i = b.entry k i := by
  cases r <;> simp only [store] <;> (try split) <;> first | rfl | (rw [entry_transfer]; rfl)

theorem entry_setEntry (r : Ring) (j : Nat) (e : RingEntry) :
    (b.setEntry r j e).entry k i = if r = k ∧ j % 4 = i % 4 then e else b.entry k i := by
  cases r <;> cases k <;> simp [setEntry, entry, ring, get_put]

theorem entry_setEntry_self (r : Ring) (j : Nat) (e : RingEntry) : (b.setEntry r j e).entry r j = e := by
  simp [entry_setEntry]

theorem entry_setEntry_of_ne {r : Ring} {j : Nat} (e : RingEntry) (apart : j % 4 ≠ i % 4) :
    (b.setEntry r j e).entry k i = b.entry k i := by
  simp [entry_setEntry, apart]

/-! ### The engine only takes OWN back -/

theorem released_send (cur : Nat) (last : Bool) :
    Released b (b.setEntry .tx cur { b.entry .tx cur with
      status := (b.entry .tx cur).status &&& ~~~tdesOwn ||| (if last && false then tdesEs else 0) }) := by
  intro i
  by_cases here : cur % 4 = i % 4
  · have same : b.entry .tx cur = b.entry .tx i := by simp [entry, Controller.at, here]
    refine .inr ?_
    simp [entry_setEntry, here, RingEntry.released, same, UInt32.or_zero]
  · exact .inl (entry_setEntry_of_ne _ here)

theorem released_gather (p : Pool) (fuel cur : Nat) (acc : List UInt8) :
    Released b (gather p false fuel cur acc b).2.2 := by
  induction fuel generalizing cur acc b with
  | zero => exact Released.refl b
  | succ fuel ih =>
    simp only [gather]
    split
    · exact released_of_entries fun _ => entry_raise _
    · split
      · exact released_send cur _
      · exact (released_send cur _).trans (ih _ _)

theorem released_transmit (p : Pool) : Released b (transmit p false b).2 := by
  unfold transmit
  split
  · exact Released.refl b
  · split
    · exact released_of_entries fun _ => entry_raise _
    · exact (released_gather p _ _ _).trans (released_of_entries fun _ => rfl)

theorem released_transmitAll (p : Pool) (fuel : Nat) : Released b (transmitAll p fuel b) := by
  induction fuel generalizing b with
  | zero => exact Released.refl b
  | succ fuel ih =>
    simp only [transmitAll]
    have sent := released_transmit (b := b) p
    revert sent
    cases transmit p false b with
    | mk out b' =>
      cases out with
      | some bytes => exact fun sent => sent.trans ih
      | none => exact id

theorem released_pollTransmit (p : Pool) : Released b (pollTransmit p b) := by
  unfold pollTransmit
  split
  · exact released_transmitAll p _
  · exact Released.refl b

theorem quietTx : QuietTx EmulatedBlock where
  setEntry j e k b := by
    by_cases same : j % 4 = k % 4 <;> simp [EthernetBlock.setEntry, entry_setEntry, ringSize_eq, same]
  store r v b := released_of_entries fun _ => entry_store r v
  pollTransmit p b := released_pollTransmit p

end Ethernet.Bench.EmulatedBlock
