import Ethernet.Frame.Fragments

/-! Fragment lists as `build` makes them: following the links from the first entry visits every
entry once, in order. -/
namespace Ethernet.FragmentList

variable {k : Nat} {pieces : List (Segment × List UInt8)}

@[simp] theorem length_link : (link k pieces).length = pieces.length := by
  induction pieces generalizing k with
  | nil => rfl
  | cons x rest ih =>
    cases rest with
    | nil => rfl
    | cons y rest => simp [link, ih]

/-- Each entry of `link k` points at the one after it, counted from `k`; the last points
nowhere. -/
theorem next_link (i : Nat) (h : i < (link k pieces).length) :
    ((link k pieces)[i]).next = if i + 1 < pieces.length then some (k + i + 1) else none := by
  induction pieces generalizing k i with
  | nil => simp at h
  | cons x rest ih =>
    cases rest with
    | nil =>
      obtain rfl : i = 0 := by simpa using h
      rfl
    | cons y rest =>
      cases i with
      | zero => simp [link]
      | succ i =>
        have tail := ih (k := k + 1) i (by simpa [link] using h)
        simp only [link, List.getElem_cons_succ, List.length_cons] at tail ⊢
        rw [tail]
        split <;> split <;> first | rfl | (simp only [Option.some.injEq]; omega) | omega

@[simp] theorem walkFrom_none (l : FragmentList) (fuel : Nat) : l.walkFrom fuel none = [] := by
  cases fuel <;> rfl

theorem walkFrom_of_linked (l : FragmentList)
    (linked : ∀ i (h : i < l.entries.length),
      (l.entries[i]).next = if i + 1 < l.entries.length then some (i + 1) else none)
    (fuel i : Nat) (enough : l.entries.length ≤ i + fuel) (inside : i < l.entries.length) :
    l.walkFrom fuel (some i) = l.entries.drop i := by
  induction fuel generalizing i with
  | zero => omega
  | succ fuel ih =>
    have entry : l.get? i = some l.entries[i] := by simp [get?]
    rw [walkFrom, entry]
    simp only
    rw [linked i inside]
    split
    · rw [ih (i + 1) (by omega) (by assumption), List.drop_eq_getElem_cons inside]
    · rw [walkFrom_none, List.drop_eq_getElem_cons inside, List.drop_eq_nil_of_le (by omega)]

variable {p : Pool} {c : Chain} {depth : Nat} {l : FragmentList}

theorem build_ok (built : build p c depth = .ok l) :
    c.total ≠ 0 ∧ l = ⟨link 0 ((c.segments.map fun s => (s, s.bytes p)).filter
      fun x => !x.2.isEmpty), c.total⟩ ∧
    ((c.segments.map fun s => (s, s.bytes p)).filter fun x => !x.2.isEmpty).length ≤
      min depth txRingSize := by
  unfold build at built
  simp only [Chain.isEmpty, beq_iff_eq] at built
  by_cases empty : c.total = 0
  · rw [if_pos empty] at built
    cases built
  by_cases large : c.total > maxFrameSize
  · rw [if_neg empty, if_pos large] at built
    cases built
  rw [if_neg empty, if_neg large] at built
  split at built
  · cases built
  · exact ⟨empty, (Except.ok.inj built).symm, by omega⟩

theorem walk_build (built : build p c depth = .ok l) : l.walk = l.entries := by
  obtain ⟨-, rfl, -⟩ := build_ok built
  unfold walk
  split
  · rename_i empty
    simp only [isEmpty, List.isEmpty_iff] at empty
    simp [empty]
  · rename_i nonempty
    simp only [isEmpty, List.isEmpty_iff] at nonempty
    have inside : 0 < (link 0 _).length := List.length_pos_iff.mpr nonempty
    rw [walkFrom_of_linked _ (fun i h => by simpa using next_link i h) _ 0 (by simp [len]) inside]
    rfl

theorem len_build_le (built : build p c depth = .ok l) : l.len ≤ min depth txRingSize := by
  obtain ⟨-, rfl, fits⟩ := build_ok built
  simpa [len] using fits

theorem one_le_len_build (built : build p c depth = .ok l)
    (whole : c.total = (c.toBytes p).length) : 1 ≤ l.len := by
  obtain ⟨nonempty, rfl, -⟩ := build_ok built
  rw [whole] at nonempty
  have bytes : c.toBytes p ≠ [] := List.ne_nil_of_length_pos (by omega)
  simp only [Chain.toBytes, ne_eq, List.flatMap_eq_nil_iff, Classical.not_forall] at bytes
  obtain ⟨s, mem, bytes⟩ := bytes
  have piece : (s, s.bytes p) ∈ (c.segments.map fun s => (s, s.bytes p)).filter
      fun x => !x.2.isEmpty :=
    List.mem_filter.mpr ⟨List.mem_map.mpr ⟨s, mem, rfl⟩, by simpa using bytes⟩
  show 1 ≤ (link 0 _).length
  rw [length_link]
  exact List.length_pos_of_mem piece

end Ethernet.FragmentList

/-! ### Which frames `build` takes, and what it makes of them -/

namespace Ethernet

/-- A segment holds as many bytes as its length says: a slot's payload is read up to the
length its header gives. -/
@[simp] theorem Segment.length_bytes (p : Pool) (s : Segment) : (s.bytes p).length = s.len p := by
  cases s with
  | pooled s =>
    simp only [Segment.bytes, Segment.len, Pool.payload, Pool.read, List.length_take,
      List.length_append, List.length_replicate]
    omega
  | shared d => rfl

/-- The segments of a frame that hold bytes, in order: each goes into a descriptor of its own. -/
def Chain.nonEmpty (p : Pool) (c : Chain) : List Segment := c.segments.filter fun s => s.len p != 0

theorem Chain.toBytes_eq_nonEmpty (p : Pool) (c : Chain) :
    c.toBytes p = ((c.nonEmpty p).map (Segment.bytes p)).flatten := by
  unfold toBytes nonEmpty
  induction c.segments with
  | nil => rfl
  | cons s rest ih =>
    by_cases empty : s.len p = 0
    · have none : s.bytes p = [] := List.eq_nil_of_length_eq_zero (by simp [empty])
      simp [empty, none, ih]
    · simp [empty, ih]

namespace FragmentList

variable {p : Pool} {c : Chain} {depth : Nat} {l : FragmentList}

theorem pieces_eq (p : Pool) (c : Chain) :
    (c.segments.map fun s => (s, s.bytes p)).filter (fun x => !x.2.isEmpty) =
      (c.nonEmpty p).map fun s => (s, s.bytes p) := by
  rw [List.filter_map, Chain.nonEmpty]
  congr 2
  funext s
  rw [Function.comp_apply, ← Segment.length_bytes]
  cases s.bytes p <;> simp

/-- `build` refuses an empty frame first, then one longer than a frame, then one with more
segments holding bytes than the ring takes (at most four); it links the others' pieces. -/
theorem build_eq (p : Pool) (c : Chain) (depth : Nat) :
    build p c depth =
      if c.total = 0 then .error .emptyFrame
      else if maxFrameSize < c.total then .error .frameTooLarge
      else if min depth txRingSize < (c.nonEmpty p).length then
        .error (.tooManyFragments (c.nonEmpty p).length (min depth txRingSize))
      else .ok ⟨link 0 ((c.nonEmpty p).map fun s => (s, s.bytes p)), c.total⟩ := by
  simp only [build, Chain.isEmpty, beq_iff_eq, pieces_eq, List.length_map, gt_iff_lt]

@[simp] theorem map_link (pieces : List (Segment × List UInt8)) (k : Nat) :
    (link k pieces).map (fun f => (f.source, f.data)) = pieces := by
  induction pieces generalizing k with
  | nil => rfl
  | cons x rest ih =>
    cases rest with
    | nil => rfl
    | cons y rest => simp only [link, List.map_cons, ih]

/-- `l` lays out the frame `c`: one entry per segment that holds bytes, in chain order, with
the segment and its bytes; each entry links to the next one and the last to none. -/
structure LaysOut (p : Pool) (c : Chain) (l : FragmentList) : Prop where
  pieces : l.entries.map (fun f => (f.source, f.data)) = (c.nonEmpty p).map fun s => (s, s.bytes p)
  linked : ∀ i (h : i < l.entries.length),
    (l.entries[i]).next = if i + 1 < l.entries.length then some (i + 1) else none
  total : l.total = c.total

theorem laysOut_link (p : Pool) (c : Chain) :
    LaysOut p c ⟨link 0 ((c.nonEmpty p).map fun s => (s, s.bytes p)), c.total⟩ where
  pieces := map_link _ 0
  linked i h := by simpa using next_link i h
  total := rfl

theorem isSome_get?_iff (l : FragmentList) (i : Nat) : (l.get? i).isSome ↔ i < l.len := by
  simp [get?, len]

namespace LaysOut

variable (laid : l.LaysOut p c)
include laid

theorem len_eq : l.len = (c.nonEmpty p).length := by
  simpa [len] using congrArg List.length laid.pieces

theorem data_eq : l.entries.map Fragment.data = (c.nonEmpty p).map (Segment.bytes p) := by
  simpa [Function.comp_def] using congrArg (List.map Prod.snd) laid.pieces

/-- Following the links from the first entry reads every entry and then stops, however many
more steps it is allowed. -/
theorem walkFrom_eq (fuel : Nat) (enough : l.len ≤ fuel) (nonempty : 0 < l.len) :
    l.walkFrom fuel (some 0) = l.entries :=
  walkFrom_of_linked l laid.linked fuel 0 (by simpa [len] using enough) nonempty

theorem walk_eq : l.walk = l.entries := by
  unfold walk
  by_cases empty : l.len = 0
  · have none : l.entries = [] := List.eq_nil_of_length_eq_zero empty
    simp [isEmpty, none]
  · rw [if_neg (by simpa [isEmpty, len, List.isEmpty_iff_length_eq_zero] using empty)]
    exact laid.walkFrom_eq _ (Nat.le_refl _) (by omega)

theorem bytes_eq : (l.entries.map Fragment.data).flatten = c.toBytes p := by
  rw [laid.data_eq, Chain.toBytes_eq_nonEmpty]

theorem walk_bytes : l.walk.flatMap Fragment.data = c.toBytes p := by
  rw [laid.walk_eq, List.flatMap_def, laid.bytes_eq]

theorem one_le_len (whole : c.total = (c.toBytes p).length) (nonempty : c.total ≠ 0) :
    1 ≤ l.len := by
  have bytes : (l.entries.map Fragment.data).flatten ≠ [] := by
    rw [laid.bytes_eq]
    exact List.ne_nil_of_length_pos (by omega)
  have entries : l.entries ≠ [] := by
    rintro none
    simp [none] at bytes
  exact List.length_pos_iff.mpr entries

end LaysOut

theorem laysOut_of_build (built : build p c depth = .ok l) : l.LaysOut p c := by
  rw [build_eq] at built
  split at built
  · cases built
  split at built
  · cases built
  split at built
  · cases built
  obtain rfl := (Except.ok.inj built).symm
  exact laysOut_link p c

theorem build_congr {p' : Pool} (same : ∀ s ∈ c.segments, s.bytes p' = s.bytes p) :
    build p' c depth = build p c depth := by
  unfold build
  rw [List.map_congr_left fun s member => by rw [same s member]]

/-- What building the fragment list of the frame `c` for a ring of `depth` descriptors does. -/
structure Builds (p : Pool) (c : Chain) (depth : Nat) : Prop where
  /-- It succeeds exactly for a frame with bytes, no longer than a frame, whose segments with
  bytes fit the ring. -/
  accepts : (∃ l, build p c depth = .ok l) ↔
    0 < c.total ∧ c.total ≤ maxFrameSize ∧ (c.nonEmpty p).length ≤ min depth txRingSize
  empty : c.total = 0 → build p c depth = .error .emptyFrame
  tooLarge : 0 < c.total → maxFrameSize < c.total → build p c depth = .error .frameTooLarge
  tooMany : 0 < c.total → c.total ≤ maxFrameSize → min depth txRingSize < (c.nonEmpty p).length →
    build p c depth = .error (.tooManyFragments (c.nonEmpty p).length (min depth txRingSize))
  /-- A list it builds lays the frame out, has at least one entry and one per segment with
  bytes; its entries are the ones it has a place for; following the links reads them all and
  stops on its own; and their bytes make up the frame. -/
  laid : ∀ l, build p c depth = .ok l →
    l.LaysOut p c ∧ l.len = (c.nonEmpty p).length ∧ 1 ≤ l.len ∧
    (∀ i, (l.get? i).isSome ↔ i < l.len) ∧ l.walk = l.entries ∧
    l.walk.map Fragment.data = (c.nonEmpty p).map (Segment.bytes p) ∧
    (∀ fuel, l.len ≤ fuel → l.walkFrom fuel (some 0) = l.entries) ∧
    (l.entries.map Fragment.data).flatten = c.toBytes p

/-- Building a fragment list refuses a frame for the first reason that applies, and otherwise
lays the frame out over one descriptor for each segment with bytes. -/
theorem build_lays_out_frame (p : Pool) (c : Chain) (depth : Nat)
    (whole : c.total = (c.toBytes p).length) : Builds p c depth where
  accepts := by
    rw [build_eq]
    constructor
    · rintro ⟨l, built⟩
      split at built
      · cases built
      split at built
      · cases built
      split at built
      · cases built
      exact ⟨by omega, by omega, by omega⟩
    · rintro ⟨nonempty, fits, few⟩
      rw [if_neg (by omega), if_neg (by omega), if_neg (by omega)]
      exact ⟨_, rfl⟩
  empty empty := by rw [build_eq, if_pos empty]
  tooLarge nonempty large := by rw [build_eq, if_neg (by omega), if_pos large]
  tooMany nonempty fits many := by rw [build_eq, if_neg (by omega), if_neg (by omega), if_pos many]
  laid l built := by
    rw [build_eq] at built
    split at built
    · cases built
    split at built
    · cases built
    split at built
    · cases built
    obtain rfl := (Except.ok.inj built).symm
    have laid := laysOut_link p c
    refine ⟨laid, laid.len_eq, laid.one_le_len whole (by assumption), isSome_get?_iff _,
      laid.walk_eq, by rw [laid.walk_eq, laid.data_eq], fun fuel enough => ?_, laid.bytes_eq⟩
    exact laid.walkFrom_eq fuel enough (laid.one_le_len whole (by assumption))

/-- A frame of two shared segments around an empty one: two entries for a ring of two. -/
theorem build_lays_out_padded_frame :
    (⟨[.shared ⟨0, [1, 2]⟩, .shared ⟨1, []⟩, .shared ⟨2, [3]⟩], 3⟩ : Chain).total =
      ((⟨[.shared ⟨0, [1, 2]⟩, .shared ⟨1, []⟩, .shared ⟨2, [3]⟩], 3⟩ : Chain).toBytes
        ⟨#[], [], false, 0, 0, 0, #[]⟩).length ∧
    Builds ⟨#[], [], false, 0, 0, 0, #[]⟩ ⟨[.shared ⟨0, [1, 2]⟩, .shared ⟨1, []⟩, .shared ⟨2, [3]⟩], 3⟩ 2 :=
  ⟨rfl, build_lays_out_frame _ _ 2 rfl⟩

end FragmentList

end Ethernet
