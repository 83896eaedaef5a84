import Ethernet.Proofs.Frame.Handles

/-! A reference for frame assembly: the events of the receive path cut into frames at the `last`
flag, each delivered exactly when all its events are pushes. -/
namespace Ethernet

/-- One thing the receive path does with the assembler. -/
inductive RxEvent where
  /-- A slot completed with `len` bytes is taken back and pushed onto its frame. -/
  | push (slot : SlotId) (len : Nat) (last : Bool)
  /-- A slot completed with a receive error is taken back and rejected with its frame. -/
  | reject (slot : SlotId) (len : Nat) (last : Bool)
  /-- The frame in progress is given up. -/
  | discard
  deriving DecidableEq, Repr

namespace RxEvent

/-- The slot an event takes back from the hardware. -/
def slot? : RxEvent → Option SlotId
  | .push s _ _ | .reject s _ _ => some s
  | .discard => none

/-- The piece a push adds to its frame: the slot, and the bytes that landed in it. -/
def piece? : RxEvent → Option (SlotId × Nat)
  | .push s len _ => some (s, min len slotSize)
  | _ => none

def isPush : RxEvent → Bool
  | .push .. => true
  | _ => false

/-- Whether the event carries its frame's last descriptor. -/
def ends : RxEvent → Bool
  | .push _ _ last | .reject _ _ last => last
  | .discard => false

end RxEvent

/-- The slots taken back from the hardware over a run of events, in order. -/
def RxEvent.slots (events : List RxEvent) : List SlotId := events.filterMap RxEvent.slot?

def pieceSlots (ps : List (SlotId × Nat)) : List SlotId := ps.map Prod.fst

/-- The chain of a frame's pieces, in order, with their lengths summed. -/
def chainOf (ps : List (SlotId × Nat)) : Chain :=
  { segments := ps.map fun x => .pooled x.1, total := (ps.map Prod.snd).sum }

namespace Splitter

/-- A frame can still be delivered while all its events are pushes. -/
def deliverable (frame : List RxEvent) : Bool := frame.all RxEvent.isPush

def pieces (frame : List RxEvent) : List (SlotId × Nat) := frame.filterMap RxEvent.piece?

/-- What a finished frame gives: its pieces, when every event of it was a push. -/
def deliver (frame : List RxEvent) : Option (List (SlotId × Nat)) :=
  if deliverable frame then some (pieces frame) else none

/-- What is held of an unfinished frame: its pieces once it has begun and while it can still be
delivered. -/
def pending (frame : List RxEvent) : Option (List (SlotId × Nat)) :=
  if frame = [] then none else deliver frame

/-- The pieces held of an unfinished frame, none when nothing is. -/
def kept (frame : List RxEvent) : List (SlotId × Nat) := (pending frame).getD []

/-- One event against the frame in progress: what comes out, and the frame after it. -/
def step (frame : List RxEvent) (e : RxEvent) : Option (List (SlotId × Nat)) × List RxEvent :=
  if e.ends then (deliver (frame ++ [e]), [])
  else if frame = [] ∧ e = .discard then (none, [])
  else (none, frame ++ [e])

/-- What comes out at each event of a run, from the frame `frame` in progress. -/
def outputs (frame : List RxEvent) : List RxEvent → List (Option (List (SlotId × Nat)))
  | [] => []
  | e :: rest => (step frame e).1 :: outputs (step frame e).2 rest

def after (frame : List RxEvent) : List RxEvent → List RxEvent
  | [] => frame
  | e :: rest => after (step frame e).2 rest

def handedOut (outs : List (Option (List (SlotId × Nat)))) : List SlotId :=
  (outs.filterMap id).flatMap pieceSlots

end Splitter

/-! ### Laws of the reference -/

@[simp] theorem RxEvent.slots_nil : RxEvent.slots [] = [] := rfl

theorem RxEvent.slots_cons (e : RxEvent) (rest : List RxEvent) :
    RxEvent.slots (e :: rest) = e.slot?.toList ++ RxEvent.slots rest := by
  cases e <;> rfl

@[simp] theorem pieceSlots_nil : pieceSlots [] = [] := rfl

@[simp] theorem pieceSlots_append (ps qs : List (SlotId × Nat)) :
    pieceSlots (ps ++ qs) = pieceSlots ps ++ pieceSlots qs :=
  List.map_append

@[simp] theorem pieceSlots_singleton (s : SlotId) (n : Nat) : pieceSlots [(s, n)] = [s] := rfl

@[simp] theorem chainOf_nil : chainOf [] = {} := rfl

@[simp] theorem slots_chainOf (ps : List (SlotId × Nat)) : (chainOf ps).slots = pieceSlots ps := by
  induction ps with
  | nil => rfl
  | cons x rest ih =>
    simp only [chainOf, Chain.slots, List.map_cons, List.filterMap_cons] at ih ⊢
    rw [ih]
    rfl

namespace Splitter

variable {frame : List RxEvent} {s : SlotId} {len : Nat} {last : Bool}

@[simp] theorem deliverable_nil : deliverable [] = true := rfl

@[simp] theorem deliverable_push :
    deliverable (frame ++ [.push s len last]) = deliverable frame := by
  simp [deliverable, RxEvent.isPush]

@[simp] theorem deliverable_reject : deliverable (frame ++ [.reject s len last]) = false := by
  simp [deliverable, RxEvent.isPush]

@[simp] theorem deliverable_discard : deliverable (frame ++ [.discard]) = false := by
  simp [deliverable, RxEvent.isPush]

@[simp] theorem pieces_push :
    pieces (frame ++ [.push s len last]) = pieces frame ++ [(s, min len slotSize)] := by
  simp [pieces, RxEvent.piece?]

@[simp] theorem kept_nil : kept [] = [] := rfl

theorem kept_eq (frame : List RxEvent) :
    kept frame = if deliverable frame then pieces frame else [] := by
  unfold kept pending deliver
  by_cases empty : frame = []
  · subst empty
    rfl
  · simp only [empty, if_false]
    split <;> rfl

theorem pending_map_getD (frame : List RxEvent) :
    ((pending frame).map chainOf).getD {} = chainOf (kept frame) := by
  unfold kept
  cases pending frame <;> rfl

@[simp] theorem pending_nil : pending [] = none := rfl

theorem pending_of_not_deliverable (ok : deliverable frame = false) : pending frame = none := by
  unfold pending deliver
  split <;> simp [ok]

theorem kept_of_not_deliverable (ok : deliverable frame = false) : kept frame = [] := by
  simp [kept_eq, ok]

theorem pending_of_deliverable (begun : frame ≠ []) (ok : deliverable frame = true) :
    pending frame = some (pieces frame) := by
  simp [pending, deliver, begun, ok]

/-! How each kind of event moves the splitter. -/

theorem step_push_of_deliverable (ok : deliverable frame = true) :
    step frame (.push s len last) =
      if last then (some (pieces frame ++ [(s, min len slotSize)]), [])
      else (none, frame ++ [.push s len last]) := by
  cases last <;> simp [step, RxEvent.ends, deliver, ok]

theorem step_push_of_not_deliverable (ok : deliverable frame = false) :
    step frame (.push s len last) = (none, if last then [] else frame ++ [.push s len last]) := by
  cases last <;> simp [step, RxEvent.ends, deliver, ok]

theorem step_reject :
    step frame (.reject s len last) = (none, if last then [] else frame ++ [.reject s len last]) := by
  cases last <;> simp [step, RxEvent.ends, deliver]

theorem step_discard : step frame .discard = (none, if frame = [] then [] else frame ++ [.discard]) := by
  by_cases begun : frame = [] <;> simp [step, RxEvent.ends, begun]

@[simp] theorem outputs_cons (e : RxEvent) (rest : List RxEvent) :
    outputs frame (e :: rest) = (step frame e).1 :: outputs (step frame e).2 rest := rfl

@[simp] theorem after_cons (e : RxEvent) (rest : List RxEvent) :
    after frame (e :: rest) = after (step frame e).2 rest := rfl

theorem step_delivers {e : RxEvent} {ps : List (SlotId × Nat)} (delivered : (step frame e).1 = some ps) :
    (step frame e).2 = [] := by
  unfold step at delivered ⊢
  split at delivered
  · simp [*]
  · split at delivered <;> simp at delivered

theorem ne_nil_of_step {e : RxEvent} {ps : List (SlotId × Nat)} (delivered : (step frame e).1 = some ps) :
    ps ≠ [] := by
  unfold step at delivered
  split at delivered
  · unfold deliver at delivered
    split at delivered
    · rename_i ok
      cases delivered
      cases e with
      | push s len last => simp [pieces, RxEvent.piece?]
      | reject => simp [deliverable, RxEvent.isPush] at ok
      | discard => simp [deliverable, RxEvent.isPush] at ok
    · cases delivered
  · split at delivered <;> cases delivered

theorem handedOut_cons (out : Option (List (SlotId × Nat))) (outs : List (Option (List (SlotId × Nat)))) :
    handedOut (out :: outs) = pieceSlots (out.getD []) ++ handedOut outs := by
  cases out <;> simp [handedOut]

theorem le_slotSize_of_mem_pieces {x : SlotId × Nat} (member : x ∈ pieces frame) :
    x.2 ≤ slotSize := by
  obtain ⟨e, -, piece⟩ := List.mem_filterMap.mp member
  cases e with
  | push s len last =>
    cases piece
    exact Nat.min_le_right len slotSize
  | reject => cases piece
  | discard => cases piece

theorem le_slotSize_of_mem_kept {x : SlotId × Nat} (member : x ∈ kept frame) :
    x.2 ≤ slotSize := by
  rw [kept_eq] at member
  split at member
  · exact le_slotSize_of_mem_pieces member
  · cases member

theorem kept_step_subset (frame : List RxEvent) (e : RxEvent) :
    pieceSlots (kept (step frame e).2) ⊆ pieceSlots (kept frame) ++ e.slot?.toList := by
  intro t member
  unfold step at member
  split at member
  · simp at member
  · split at member
    · simp at member
    · rw [kept_eq] at member ⊢
      cases e with
      | push s len last =>
        by_cases ok : deliverable frame
        · simp only [deliverable_push, ok, if_true, pieces_push, pieceSlots_append] at member ⊢
          simpa [RxEvent.slot?] using member
        · simp [ok] at member
      | reject => simp at member
      | discard => simp at member

end Splitter

end Ethernet
