import Mathlib
import Ethernet.Buffer.Pool

/-! Slot headers and the census: its three counts add up to the capacity. -/
namespace Ethernet

theorem SlotId.eq_of_index_eq {s t : SlotId} (same : s.index = t.index) : s = t := by
  cases s
  cases t
  simp_all

theorem SlotId.index_ne {s t : SlotId} (ne : t ≠ s) : t.index ≠ s.index :=
  fun same => ne (SlotId.eq_of_index_eq same)

def Census.of (c : Census) : Owner → Nat
  | .free => c.free
  | .hardware => c.hardware
  | .software => c.software

namespace Pool

variable {p : Pool} {s t : SlotId} {h h' : Header}

@[simp] theorem capacity_setHeader : (p.setHeader s h).capacity = p.capacity := by
  simp [capacity, setHeader]

@[simp] theorem freeList_setHeader : (p.setHeader s h).freeList = p.freeList := rfl
@[simp] theorem exhausted_setHeader : (p.setHeader s h).exhausted = p.exhausted := rfl
@[simp] theorem allocCount_setHeader : (p.setHeader s h).allocCount = p.allocCount := rfl
@[simp] theorem releases_setHeader : (p.setHeader s h).releases = p.releases := rfl
@[simp] theorem memory_setHeader : (p.setHeader s h).memory = p.memory := rfl

theorem header_setHeader_self (inRange : s.index < p.capacity) : (p.setHeader s h).header s = h := by
  simp only [capacity] at inRange
  simp [header, setHeader, inRange, Array.getElem_modify]

theorem header_setHeader_of_ne (ne : t ≠ s) : (p.setHeader s h).header t = p.header t := by
  simp [header, setHeader, Array.getElem?_modify, SlotId.index_ne ne.symm]

theorem header_setHeader (inRange : s.index < p.capacity) :
    (p.setHeader s h).header t = if t = s then h else p.header t := by
  split
  · subst t; exact header_setHeader_self inRange
  · exact header_setHeader_of_ne ‹_›

theorem setHeader_setHeader : (p.setHeader s h).setHeader s h' = p.setHeader s h' := by
  have headers : (p.headers.modify s.index fun _ => h).modify s.index (fun _ => h') =
      p.headers.modify s.index fun _ => h' := by
    apply Array.ext_getElem?
    intro i
    simp only [Array.getElem?_modify]
    split <;> simp [Function.comp_def]
  simp only [setHeader, headers]

theorem header_of_capacity_le (beyond : p.capacity ≤ s.index) : p.header s = Header.vacant := by
  simp only [capacity] at beyond
  simp [header, beyond]

def tally (c : Census) (h : Header) : Census :=
  match h.owner with
  | .free => { c with free := c.free + 1 }
  | .hardware => { c with hardware := c.hardware + 1 }
  | .software => { c with software := c.software + 1 }

theorem census_eq_foldl (p : Pool) : p.census = p.headers.toList.foldl tally ⟨0, 0, 0⟩ := by
  rw [Array.foldl_toList]
  rfl

theorem foldl_tally (l : List Header) (c : Census) (o : Owner) :
    (l.foldl tally c).of o = c.of o + l.countP (·.owner == o) := by
  induction l generalizing c with
  | nil => rfl
  | cons h l ih =>
    rw [List.foldl_cons, ih, List.countP_cons]
    cases hh : h.owner <;> cases o <;> simp [tally, Census.of, hh] <;> omega

theorem countP_eq_countP_range {α : Type} (l : List α) (d : α) (q : α → Bool) :
    l.countP q = (List.range l.length).countP (fun i => q (l[i]?.getD d)) := by
  induction l with
  | nil => rfl
  | cons a t ih =>
    rw [List.length_cons, List.range_succ_eq_map, List.countP_cons, List.countP_cons,
      List.countP_map, ih]
    simp [Function.comp_def]

theorem census_of (p : Pool) (o : Owner) :
    p.census.of o = (List.range p.capacity).countP (fun i => p.owner ⟨i⟩ == o) := by
  rw [census_eq_foldl, foldl_tally, countP_eq_countP_range _ Header.vacant]
  simp [Census.of, capacity, owner, header]
  cases o <;> rfl

theorem census_total (p : Pool) :
    p.census.free + p.census.hardware + p.census.software = p.capacity := by
  have counts : ∀ l : List Header, l.countP (·.owner == .free) + l.countP (·.owner == .hardware)
      + l.countP (·.owner == .software) = l.length := by
    intro l
    induction l with
    | nil => rfl
    | cons h l ih =>
      simp only [List.countP_cons, List.length_cons]
      cases h.owner <;> simp <;> omega
  have free := foldl_tally p.headers.toList ⟨0, 0, 0⟩ .free
  have hardware := foldl_tally p.headers.toList ⟨0, 0, 0⟩ .hardware
  have software := foldl_tally p.headers.toList ⟨0, 0, 0⟩ .software
  simp only [Census.of, ← census_eq_foldl] at free hardware software
  rw [free, hardware, software, capacity, ← Array.length_toList]
  simpa using counts p.headers.toList

/-- A duplicate-free list that names exactly the slots of one owner is as long as that
owner's count. -/
theorem census_of_eq_length {o : Owner} {l : List Nat} (distinct : l.Nodup)
    (names : ∀ i, i ∈ l ↔ i < p.capacity ∧ p.owner ⟨i⟩ = o) : p.census.of o = l.length := by
  rw [census_of, List.countP_eq_length_filter]
  apply List.Perm.length_eq
  apply (List.perm_ext_iff_of_nodup (List.nodup_range.filter _) distinct).mpr
  intro i
  simp [names i]

end Pool

end Ethernet
