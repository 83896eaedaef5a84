import Ethernet.Proofs.Frame.Splitter
import Ethernet.Mac.Engine

/-! The history of the receive path (starts and completed descriptors) and the frames it delivers.
`Aligned` ties the splitter's frame in progress to the history's. -/
namespace Ethernet

/-- What the receive path has been given: a start of the interface, or a descriptor completed
with the bytes in its slot and its end-of-frame and error flags. -/
inductive Mark where
  | start
  | arrival (bytes : List UInt8) (last error : Bool)
  deriving DecidableEq, Repr

namespace Mark

/-- One mark against the arrivals of the frame in progress (the bytes of each, and whether it
had an error): the frame it ends, if any, and the arrivals of the frame in progress after it. -/
def step (part : List (List UInt8 × Bool)) :
    Mark → Option (List (List UInt8 × Bool)) × List (List UInt8 × Bool)
  | .start => (none, [])
  | .arrival bytes last error =>
    if last then (some (part ++ [(bytes, error)]), []) else (none, part ++ [(bytes, error)])

/-- The bytes of a finished frame, when none of its arrivals had an error. -/
def clean (frame : List (List UInt8 × Bool)) : Option (List UInt8) :=
  if frame.all (fun x => !x.2) then some (frame.flatMap Prod.fst) else none

/-- The frames a history delivers, from the frame in progress `part`. -/
def frames (part : List (List UInt8 × Bool)) : List Mark → List (List UInt8)
  | [] => []
  | m :: rest => ((step part m).1.bind clean).toList ++ frames (step part m).2 rest

/-- The arrivals of the frame in progress after a history. -/
def unfinished (part : List (List UInt8 × Bool)) : List Mark → List (List UInt8 × Bool)
  | [] => part
  | m :: rest => unfinished (step part m).2 rest

variable {part : List (List UInt8 × Bool)} {L M : List Mark}

theorem frames_append : frames part (L ++ M) = frames part L ++ frames (unfinished part L) M := by
  induction L generalizing part with
  | nil => rfl
  | cons m rest ih => simp [frames, unfinished, ih]

theorem unfinished_append : unfinished part (L ++ M) = unfinished (unfinished part L) M := by
  induction L generalizing part with
  | nil => rfl
  | cons m rest ih => simp [unfinished, ih]

theorem frames_prefix : frames part L <+: frames part (L ++ M) := by
  rw [frames_append]
  exact List.prefix_append _ _

theorem frames_snoc (m : Mark) :
    frames part (L ++ [m]) = frames part L ++ ((step (unfinished part L) m).1.bind clean).toList := by
  simp [frames_append, frames]

theorem unfinished_snoc (m : Mark) : unfinished part (L ++ [m]) = (step (unfinished part L) m).2 := by
  simp [unfinished_append, unfinished]

@[simp] theorem unfinished_start : unfinished part (L ++ [.start]) = [] := by
  simp [unfinished_snoc, step]

end Mark

/-- The bytes of a frame's pieces in slot memory. -/
def Pool.bytesOf (p : Pool) (ps : List (SlotId × Nat)) : List UInt8 :=
  ps.flatMap fun x => p.read x.1 x.2

/-- The event a completion makes on the receive path: a push, or a reject when it had an
error. -/
def RxCompletion.event (c : RxCompletion) : RxEvent :=
  if c.error then .reject c.slot c.length c.last else .push c.slot c.length c.last

/-- The mark of a completion, its bytes read from the pool `p`. -/
def Pool.arrivalOf (p : Pool) (c : RxCompletion) : Mark :=
  .arrival (p.read c.slot c.length) c.last c.error

namespace RxCompletion

variable (c : RxCompletion)

@[simp] theorem ends_event : c.event.ends = c.last := by
  unfold event
  split <;> rfl

@[simp] theorem isPush_event : c.event.isPush = !c.error := by
  unfold event
  split <;> simp_all [RxEvent.isPush]

theorem event_ne_discard : c.event ≠ .discard := by
  unfold event
  split <;> simp

@[simp] theorem slot_event : c.event.slot? = some c.slot := by
  unfold event
  split <;> rfl

theorem deliverable_event (frame : List RxEvent) :
    Splitter.deliverable (frame ++ [c.event]) = (Splitter.deliverable frame && !c.error) := by
  simp [Splitter.deliverable]

theorem pieces_event (frame : List RxEvent) (ok : c.error = false) :
    Splitter.pieces (frame ++ [c.event]) = Splitter.pieces frame ++ [(c.slot, min c.length slotSize)] := by
  simp [event, ok]

end RxCompletion

theorem Pool.read_congr {p p' : Pool} (memory : p'.memory = p.memory) (s : SlotId) (n : Nat) :
    p'.read s n = p.read s n := by
  simp only [read, memory]

/-- The splitter's frame in progress `frame` stands for the arrivals `part` of the history's
frame in progress: a push for each arrival without an error and a reject for each with one, and,
while the frame can still be delivered, the arrivals' bytes in the slots of its pieces. -/
structure Aligned (p : Pool) (frame : List RxEvent) (part : List (List UInt8 × Bool)) : Prop where
  kinds : (frame.filter (· != .discard)).map RxEvent.isPush = part.map fun x => !x.2
  bytes : Splitter.deliverable frame = true →
    (Splitter.pieces frame).map (fun x => p.read x.1 x.2) = part.map Prod.fst

namespace Aligned

variable {p p' : Pool} {frame : List RxEvent} {part : List (List UInt8 × Bool)} {c : RxCompletion}

theorem nil : Aligned p [] [] := ⟨rfl, fun _ => rfl⟩

theorem congr (aligned : Aligned p frame part)
    (same : ∀ x ∈ Splitter.kept frame, p'.read x.1 x.2 = p.read x.1 x.2) : Aligned p' frame part := by
  refine ⟨aligned.kinds, fun ok => ?_⟩
  have kept : Splitter.kept frame = Splitter.pieces frame := by simp [Splitter.kept_eq, ok]
  rw [← aligned.bytes ok]
  exact List.map_congr_left fun x member => same x (kept ▸ member)

theorem of_memory (aligned : Aligned p frame part) (memory : p'.memory = p.memory) :
    Aligned p' frame part :=
  aligned.congr fun x _ => Pool.read_congr memory x.1 x.2

theorem clean_of_deliverable (aligned : Aligned p frame part) (ok : Splitter.deliverable frame = true) :
    part.all (fun x => !x.2) = true := by
  have pushes : ∀ e ∈ frame, e.isPush = true := by simpa [Splitter.deliverable] using ok
  have kept : frame.filter (· != .discard) = frame :=
    List.filter_eq_self.mpr fun e member => by
      have push := pushes e member
      cases e <;> simp_all [RxEvent.isPush]
  have kinds := aligned.kinds
  rw [kept] at kinds
  rw [List.all_eq_true]
  intro x member
  have image : (!x.2) ∈ frame.map RxEvent.isPush := kinds ▸ List.mem_map_of_mem member
  obtain ⟨e, eMember, same⟩ := List.mem_map.mp image
  rw [← same]
  exact pushes e eMember

theorem discard (aligned : Aligned p frame part) : Aligned p (Splitter.step frame .discard).2 part := by
  rw [Splitter.step_discard]
  by_cases begun : frame = []
  · subst begun
    simpa using aligned
  · rw [if_neg begun]
    refine ⟨?_, fun ok => by simp at ok⟩
    simpa [List.filter_append] using aligned.kinds

/-- Taking a completion whose bytes fit a slot keeps the frame aligned with the history that
records it. -/
theorem take (aligned : Aligned p frame part) (short : c.length ≤ slotSize) :
    Aligned p (Splitter.step frame c.event).2 (Mark.step part (p.arrivalOf c)).2 := by
  cases last : c.last
  · have grows : Splitter.step frame c.event = (none, frame ++ [c.event]) := by
      simp [Splitter.step, last, c.event_ne_discard]
    have recorded : Mark.step part (p.arrivalOf c) = (none, part ++ [(p.read c.slot c.length, c.error)]) := by
      simp [Mark.step, Pool.arrivalOf, last]
    rw [grows, recorded]
    refine ⟨by simp [List.filter_append, c.event_ne_discard, aligned.kinds], fun ok => ?_⟩
    rw [RxCompletion.deliverable_event, Bool.and_eq_true, Bool.not_eq_true'] at ok
    rw [c.pieces_event frame ok.2, Nat.min_eq_left short]
    simp [aligned.bytes ok.1]
  · have ends : (Splitter.step frame c.event).2 = [] := by simp [Splitter.step, last]
    have recorded : (Mark.step part (p.arrivalOf c)).2 = [] := by simp [Mark.step, Pool.arrivalOf, last]
    rw [ends, recorded]
    exact nil

/-- When the splitter delivers a frame at a completion, the history delivers the bytes of its
pieces. -/
theorem delivers (aligned : Aligned p frame part) (short : c.length ≤ slotSize)
    {ps : List (SlotId × Nat)} (delivered : (Splitter.step frame c.event).1 = some ps) :
    (Mark.step part (p.arrivalOf c)).1.bind Mark.clean = some (p.bytesOf ps) := by
  have last : c.last = true := by
    by_contra notLast
    simp [Splitter.step, notLast, c.event_ne_discard] at delivered
  simp only [Splitter.step, c.ends_event, last, if_true, Splitter.deliver] at delivered
  split at delivered
  · rename_i ok
    cases delivered
    rw [RxCompletion.deliverable_event, Bool.and_eq_true, Bool.not_eq_true'] at ok
    have clean := aligned.clean_of_deliverable ok.1
    have bytes := aligned.bytes ok.1
    rw [c.pieces_event frame ok.2, Nat.min_eq_left short]
    simp only [Mark.step, Pool.arrivalOf, last, if_true, ok.2, Option.bind_some, Mark.clean,
      List.all_append, clean, List.all_cons, List.all_nil, Bool.not_false, Bool.and_self, if_true,
      Pool.bytesOf, List.flatMap_append, List.flatMap_cons, List.flatMap_nil, List.append_nil]
    rw [List.flatMap_def, List.flatMap_def, bytes]
  · cases delivered

end Aligned

end Ethernet
