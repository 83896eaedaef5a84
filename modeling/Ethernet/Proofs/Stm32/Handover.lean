import Ethernet.Proofs.Stm32.Driver

/-! The transmit descriptors a submission hands over, on any register block whose transmit ring
is memory that only the driver writes and from which the engine at most takes OWN back. -/
namespace Ethernet.Stm32

open Controller

variable {ω : Type} [EthernetBlock ω] {b : ω} {i : Nat}

@[simp] theorem RingEntry.released_released (d : RingEntry) : d.released.released = d.released := by
  simp [RingEntry.released, UInt32.and_assoc, UInt32.and_self]

/-- Each transmit descriptor of `b'` is that of `b`, or that of `b` with OWN taken back. -/
def Released (b b' : ω) : Prop :=
  ∀ i, EthernetBlock.entry .tx i b' = EthernetBlock.entry .tx i b ∨
    EthernetBlock.entry .tx i b' = (EthernetBlock.entry .tx i b).released

theorem Released.refl (b : ω) : Released b b := fun _ => .inl rfl

theorem Released.trans {b₁ b₂ : ω} (first : Released b b₁) (second : Released b₁ b₂) :
    Released b b₂ := by
  intro i
  rcases first i with same | taken <;> rcases second i with same' | taken'
  · exact .inl (same'.trans same)
  · exact .inr (by rw [taken', same])
  · exact .inr (same'.trans taken)
  · exact .inr (by rw [taken', taken, RingEntry.released_released])

theorem writeTx_cons (first count : Nat) (x : Fragment × Nat) (xs : List (Fragment × Nat)) :
    writeTx first count (x :: xs) b =
      writeTx first count xs (EthernetBlock.setEntry .tx (first + x.2) (txDescriptor count x.1 x.2) b) :=
  rfl

theorem handTx_cons (first j : Nat) (is : List Nat) :
    handTx first (j :: is) b = handTx first is (handEntry (first + j) b) := rfl

theorem released_of_entries {b' : ω} (same : ∀ i, EthernetBlock.entry .tx i b' = EthernetBlock.entry .tx i b) :
    Released b b' := fun i => .inl (same i)

/-- The transmit ring is plain memory that only the driver writes, where a write lands at its
position modulo the ring size; register stores and the answer to a poll demand at most take
OWN back from descriptors. -/
structure QuietTx (ω : Type) [EthernetBlock ω] : Prop where
  setEntry : ∀ (j : Nat) (e : RingEntry) (k : Nat) (b : ω),
    EthernetBlock.entry .tx k (EthernetBlock.setEntry .tx j e b) =
      if j % ringSize = k % ringSize then e else EthernetBlock.entry .tx k b
  store : ∀ (r : Reg) (v : UInt32) (b : ω), Released b (EthernetBlock.store r v b)
  pollTransmit : ∀ (p : Pool) (b : ω), Released b (EthernetBlock.pollTransmit p b)

namespace QuietTx

variable (quiet : QuietTx ω)
include quiet

theorem entry_setEntry_self (j : Nat) (e : RingEntry) :
    EthernetBlock.entry .tx j (EthernetBlock.setEntry .tx j e b) = e := by
  simp [quiet.setEntry]

theorem entry_setEntry_of_ne {j : Nat} (e : RingEntry) (apart : j % 4 ≠ i % 4) :
    EthernetBlock.entry .tx i (EthernetBlock.setEntry .tx j e b) = EthernetBlock.entry .tx i b := by
  simp [quiet.setEntry, ringSize_eq, apart]

theorem entry_writeTx_of_ne (first count : Nat) (xs : List (Fragment × Nat))
    (apart : ∀ x ∈ xs, (first + x.2) % 4 ≠ i % 4) :
    EthernetBlock.entry .tx i (writeTx first count xs b) = EthernetBlock.entry .tx i b := by
  induction xs generalizing b with
  | nil => rfl
  | cons x rest ih =>
    rw [writeTx_cons, ih (fun y mem => apart y (List.mem_cons_of_mem _ mem))]
    exact quiet.entry_setEntry_of_ne _ (apart x List.mem_cons_self)

theorem entry_writeTx (first count s : Nat) (fs : List Fragment) (fits : fs.length ≤ 4)
    (j : Nat) (inside : j < fs.length) :
    EthernetBlock.entry .tx (first + s + j) (writeTx first count (fs.zipIdx s) b) =
      txDescriptor count fs[j] (s + j) := by
  induction fs generalizing s j b with
  | nil => simp at inside
  | cons f rest ih =>
    rw [List.zipIdx_cons, writeTx_cons]
    cases j with
    | zero =>
      rw [quiet.entry_writeTx_of_ne first count _ ?_]
      · simp [quiet.setEntry]
      · intro x mem
        obtain ⟨above, below, -⟩ := List.mem_zipIdx mem
        simp at fits
        omega
    | succ j =>
      have later := ih (b := EthernetBlock.setEntry .tx (first + s) (txDescriptor count f s) b) (s + 1)
        (by simp at fits; omega) j (by simpa using inside)
      simp only [List.getElem_cons_succ]
      rw [show first + s + (j + 1) = first + (s + 1) + j by omega, later]
      congr 1
      omega

theorem entry_handTx_of_ne (first : Nat) (is : List Nat) (apart : ∀ j ∈ is, (first + j) % 4 ≠ i % 4) :
    EthernetBlock.entry .tx i (handTx first is b) = EthernetBlock.entry .tx i b := by
  induction is generalizing b with
  | nil => rfl
  | cons j rest ih =>
    rw [handTx_cons, ih (fun x mem => apart x (List.mem_cons_of_mem _ mem))]
    exact quiet.entry_setEntry_of_ne _ (apart j List.mem_cons_self)

theorem entry_handTx (first : Nat) (is : List Nat) (distinct : is.Nodup) (small : ∀ j ∈ is, j < 4)
    (j : Nat) (mem : j ∈ is) :
    EthernetBlock.entry .tx (first + j) (handTx first is b) =
      (EthernetBlock.entry .tx (first + j) b).owned := by
  induction is generalizing b with
  | nil => simp at mem
  | cons x rest ih =>
    rw [handTx_cons]
    obtain ⟨fresh, distinct⟩ := List.nodup_cons.mp distinct
    by_cases here : j = x
    · subst here
      rw [quiet.entry_handTx_of_ne first rest ?_]
      · exact quiet.entry_setEntry_self _ _
      · intro y mem'
        have := small y (List.mem_cons_of_mem _ mem')
        have := small j List.mem_cons_self
        have : y ≠ j := fun same => fresh (same ▸ mem')
        omega
    · have mem' : j ∈ rest := (List.mem_cons.mp mem).resolve_left here
      rw [ih distinct (fun y m => small y (List.mem_cons_of_mem _ m)) mem']
      have := small j mem
      have := small x List.mem_cons_self
      unfold handEntry
      rw [quiet.entry_setEntry_of_ne _ (by omega)]

/-- After `handOver`, the `j`-th descriptor of the span carries the `j`-th fragment and
belongs to the engine. -/
theorem entry_handOver (first : Nat) (l : FragmentList) (walked : l.walk = l.entries)
    (fits : l.len ≤ 4) (j : Nat) (inside : j < l.len) :
    EthernetBlock.entry .tx (first + j) (handOver first l b) =
      (txDescriptor l.len (l.entries.get ⟨j, inside⟩) j).owned := by
  unfold handOver
  rw [quiet.entry_handTx first _ (List.nodup_reverse.mpr List.nodup_range)
    (fun x mem => by simp at mem; omega) j (by simpa using inside)]
  have written := quiet.entry_writeTx (b := b) first l.len 0 l.entries fits j inside
  simp only [Nat.add_zero, Nat.zero_add] at written
  rw [walked, written]
  rfl

end QuietTx

end Ethernet.Stm32
