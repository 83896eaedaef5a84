import Ethernet.Proofs.Stm32.Session
import Ethernet.Proofs.Stm32.Emulated

/-! The transmit ring is a bounded FIFO of frames: `TxBooks` ties the table of frames, read from its
tail, to the descriptors in use, and every call keeps it. -/
namespace Ethernet.Stm32

/-- The descriptors the frame `f` occupies. -/
def InFlight.span (f : InFlight) : List Nat := (List.range f.count).map fun i => (f.first + i) % ringSize

namespace Controller

variable {ω : Type}

/-- The frames on the transmit ring, oldest first: the table read from its tail. -/
def txQueue (c : Controller ω) : List InFlight :=
  (List.range ringSize).filterMap fun k => c.txFrames.get (Controller.at (c.txFrameTail + k))

/-- The descriptors the frames `q` occupy together. -/
def spanTotal (q : List InFlight) : Nat := (q.map InFlight.count).sum

@[simp] theorem spanTotal_nil : spanTotal [] = 0 := rfl

@[simp] theorem spanTotal_cons (f : InFlight) (q : List InFlight) :
    spanTotal (f :: q) = f.count + spanTotal q := by
  simp [spanTotal]

@[simp] theorem spanTotal_append (q q' : List InFlight) :
    spanTotal (q ++ q') = spanTotal q + spanTotal q' := by
  simp [spanTotal]

theorem length_le_spanTotal {q : List InFlight} (pos : ∀ f ∈ q, 1 ≤ f.count) :
    q.length ≤ spanTotal q := by
  induction q with
  | nil => simp
  | cons f rest ih =>
    have := pos f List.mem_cons_self
    have := ih fun g mem => pos g (List.mem_cons_of_mem _ mem)
    simp only [List.length_cons, spanTotal_cons]
    omega

/-! ### Spans that follow one another -/

/-- The span of each frame is followed by the spans of the frames after it, the last one
ending at `head`. -/
def EndsAt (head : Nat) : List InFlight → Prop
  | [] => True
  | f :: rest => (f.first + f.count + spanTotal rest) % ringSize = head ∧ EndsAt head rest

section EndsAt

variable {head : Nat} {q : List InFlight}

theorem EndsAt.append (ends : EndsAt head q) (f : InFlight) (starts : f.first = head) :
    EndsAt ((head + f.count) % ringSize) (q ++ [f]) := by
  induction q with
  | nil => simp [EndsAt, starts]
  | cons g rest ih =>
    obtain ⟨behind, ends⟩ := ends
    refine ⟨?_, ih ends⟩
    simp only [ringSize_eq, List.append_eq, spanTotal_append, spanTotal_cons, spanTotal_nil] at behind ⊢
    omega

/-- Each descriptor of a span that ends `t` descriptors before `head` lies between `t` and
`t + f.count` descriptors before it. -/
theorem behind_of_mem_span {f : InFlight} {t x : Nat} (ends : (f.first + f.count + t) % ringSize = head)
    (mem : x ∈ f.span) : ∃ b, t < b ∧ b ≤ t + f.count ∧ (x + b) % ringSize = head := by
  obtain ⟨i, below, rfl⟩ := List.mem_map.mp mem
  have below := List.mem_range.mp below
  refine ⟨f.count - i + t, by omega, by omega, ?_⟩
  rw [ringSize_eq] at ends ⊢
  omega

theorem EndsAt.behind (ends : EndsAt head q) {f : InFlight} (member : f ∈ q) {x : Nat}
    (mem : x ∈ f.span) : ∃ b, 0 < b ∧ b ≤ spanTotal q ∧ (x + b) % ringSize = head := by
  induction q with
  | nil => simp at member
  | cons g rest ih =>
    obtain ⟨last, ends⟩ := ends
    rcases List.mem_cons.mp member with rfl | later
    · obtain ⟨b, above, below, back⟩ := behind_of_mem_span last mem
      exact ⟨b, by omega, by simp only [spanTotal_cons]; omega, back⟩
    · obtain ⟨b, above, below, back⟩ := ih ends later
      exact ⟨b, above, by simp only [spanTotal_cons]; omega, back⟩

theorem EndsAt.pairwise_disjoint (ends : EndsAt head q) (fits : spanTotal q ≤ ringSize) :
    q.Pairwise fun f g => f.span.Disjoint g.span := by
  induction q with
  | nil => exact .nil
  | cons f rest ih =>
    obtain ⟨last, ends⟩ := ends
    simp only [spanTotal_cons] at fits
    refine List.pairwise_cons.mpr ⟨fun g member x inF inG => ?_, ih ends (by omega)⟩
    -- `x` would lie at two different distances, both under the ring size, before `head`
    obtain ⟨b, above, below, back⟩ := behind_of_mem_span last inF
    obtain ⟨b', above', below', back'⟩ := ends.behind member inG
    rw [ringSize_eq] at back back' fits
    omega

theorem EndsAt.isChain (ends : EndsAt head q) (firsts : ∀ f ∈ q, f.first < ringSize) :
    q.IsChain fun f g => (f.first + f.count) % ringSize = g.first := by
  induction q with
  | nil => exact .nil
  | cons f rest ih =>
    obtain ⟨last, ends⟩ := ends
    have rest_chain := ih ends fun g mem => firsts g (List.mem_cons_of_mem _ mem)
    cases rest with
    | nil => exact .singleton f
    | cons g rest' =>
      obtain ⟨last', -⟩ := ends
      have := firsts g (by simp)
      simp only [spanTotal_cons, ringSize_eq] at last last' this ⊢
      exact .cons_cons (by omega) rest_chain

theorem EndsAt.getLast (ends : EndsAt head q) :
    ∀ f ∈ q.getLast?, (f.first + f.count) % ringSize = head := by
  induction q with
  | nil => simp
  | cons f rest ih =>
    obtain ⟨last, ends⟩ := ends
    cases rest with
    | nil =>
      intro g mem
      simp only [List.getLast?_singleton, Option.mem_def, Option.some.injEq] at mem
      subst mem
      simpa using last
    | cons g rest' =>
      intro h mem
      exact ih ends h (by simpa [List.getLast?_cons_cons] using mem)

end EndsAt

/-! ### The books of the transmit side -/

/-- The table holds the frames `q` from its tail on, and their spans account for the
descriptors in use. -/
structure TxBooks (c : Controller ω) (q : List InFlight) : Prop where
  tail_lt : c.txFrameTail < ringSize
  head_eq : c.txFrameHead = (c.txFrameTail + q.length) % ringSize
  table : ∀ k < ringSize, c.txFrames.get (Controller.at (c.txFrameTail + k)) = q[k]?
  inUse_eq : c.txInUse = spanTotal q
  inUse_le : spanTotal q ≤ ringSize
  count_pos : ∀ f ∈ q, 1 ≤ f.count
  first_lt : ∀ f ∈ q, f.first < ringSize
  txHead_lt : c.txHead < ringSize
  ends : EndsAt c.txHead q

variable {c c' : Controller ω} {q : List InFlight}

theorem TxBooks.of_txLedger (books : TxBooks c q) (same : c'.txLedger = c.txLedger) :
    TxBooks c' q := by
  simp only [txLedger, Prod.mk.injEq] at same
  obtain ⟨frames, head, tail, txHead, inUse⟩ := same
  exact { tail_lt := tail ▸ books.tail_lt
          head_eq := by rw [head, tail]; exact books.head_eq
          table := by rw [frames, tail]; exact books.table
          inUse_eq := inUse ▸ books.inUse_eq
          inUse_le := books.inUse_le
          count_pos := books.count_pos
          first_lt := books.first_lt
          txHead_lt := txHead ▸ books.txHead_lt
          ends := txHead ▸ books.ends }

theorem txBooks_empty (fresh : c.txLedger = freshLedgers.2) : TxBooks c [] := by
  simp only [txLedger, freshLedgers, Prod.mk.injEq] at fresh
  obtain ⟨frames, head, tail, txHead, inUse⟩ := fresh
  exact { tail_lt := by simp [tail, ringSize_eq]
          head_eq := by simp [head, tail]
          table := fun k _ => by simp [frames, Vector.get]
          inUse_eq := inUse
          inUse_le := by simp
          count_pos := by simp
          first_lt := by simp
          txHead_lt := by simp [txHead, ringSize_eq]
          ends := trivial }

theorem TxBooks.length_le (books : TxBooks c q) : q.length ≤ ringSize :=
  (length_le_spanTotal books.count_pos).trans books.inUse_le

theorem TxBooks.txQueue_eq (books : TxBooks c q) : c.txQueue = q := by
  -- the first `n` entries from the tail are the first `n` frames
  have read : ∀ n ≤ ringSize,
      (List.range n).filterMap (fun k => c.txFrames.get (Controller.at (c.txFrameTail + k))) =
        q.take n := by
    intro n
    induction n with
    | zero => simp
    | succ n ih =>
      intro fits
      rw [List.range_succ, List.filterMap_append, ih (by omega), List.take_add_one]
      simp only [List.filterMap_cons, List.filterMap_nil, books.table n (by omega)]
      cases q[n]? <;> rfl
  rw [txQueue, read ringSize le_rfl, List.take_of_length_le books.length_le]

theorem TxBooks.count_le (books : TxBooks c q) : ∀ f ∈ q, f.count ≤ c.txInUse := by
  intro f mem
  rw [books.inUse_eq, spanTotal]
  exact List.le_sum_of_mem (List.mem_map_of_mem mem)

theorem TxBooks.oldest (books : TxBooks c q) :
    c.txFrames.get (Controller.at c.txFrameTail) = q.head? := by
  rw [List.head?_eq_getElem?]
  simpa using books.table 0 (by simp [ringSize_eq])

theorem TxBooks.head_isSome (books : TxBooks c q) :
    (c.txFrames.get (Controller.at c.txFrameHead)).isSome = decide (q.length = ringSize) := by
  have atHead : Controller.at c.txFrameHead = Controller.at (c.txFrameTail + q.length % ringSize) := by
    apply at_congr
    rw [books.head_eq, ringSize_eq]
    omega
  have fits := books.length_le
  by_cases full : q.length = ringSize
  · rw [atHead, full, Nat.mod_self, books.table 0 (by simp [ringSize_eq])]
    have : 0 < q.length := by rw [full, ringSize_eq]; omega
    simp [List.getElem?_eq_getElem this]
  · rw [atHead, Nat.mod_eq_of_lt (by omega), books.table _ (by omega)]
    simp [full]

/-- A submission that fits is refused for want of room exactly when the descriptors run short:
the table can only be full when every descriptor is taken. -/
theorem TxBooks.busy_iff (books : TxBooks c q) {n : Nat} (one : 1 ≤ n) :
    (ringSize - c.txInUse < n ∨ (c.txFrames.get (Controller.at c.txFrameHead)).isSome) ↔
      ringSize - c.txInUse < n := by
  rw [books.head_isSome]
  have := length_le_spanTotal books.count_pos
  have := books.inUse_eq
  constructor
  · rintro (short | full)
    · exact short
    · simp only [decide_eq_true_eq] at full
      omega
  · exact .inl

theorem TxBooks.submit (books : TxBooks c q) {n : Nat} (one : 1 ≤ n) (room : n ≤ ringSize - c.txInUse)
    (frame : Chain) : TxBooks { c with
        txFrames := put c.txFrames c.txFrameHead (some ⟨frame, c.txHead, n⟩)
        txFrameHead := (c.txFrameHead + 1) % ringSize
        txHead := (c.txHead + n) % ringSize
        txInUse := c.txInUse + n } (q ++ [⟨frame, c.txHead, n⟩]) := by
  have fits := books.inUse_le
  have used := books.inUse_eq
  have short := length_le_spanTotal books.count_pos
  have head := books.head_eq
  have tail := books.tail_lt
  rw [ringSize_eq] at fits room tail head
  refine { tail_lt := books.tail_lt
           head_eq := ?_
           table := fun k below => ?_
           inUse_eq := by simp [used]
           inUse_le := by simp only [spanTotal_append, spanTotal_cons, spanTotal_nil, ringSize_eq]; omega
           count_pos := ?_
           first_lt := ?_
           txHead_lt := Nat.mod_lt _ (by simp [ringSize_eq])
           ends := books.ends.append ⟨frame, c.txHead, n⟩ rfl }
  · simp only [List.length_append, List.length_singleton, ringSize_eq]
    omega
  · dsimp only
    rw [get_put]
    rw [ringSize_eq] at below
    by_cases here : k = q.length
    · subst here
      rw [if_pos (by omega), List.getElem?_concat_length]
    · rw [if_neg (by omega), books.table k (by rw [ringSize_eq]; omega)]
      by_cases inside : k < q.length
      · rw [List.getElem?_append_left inside]
      · rw [List.getElem?_eq_none (by omega), List.getElem?_eq_none (by simp; omega)]
  · intro f mem
    rcases List.mem_append.mp mem with old | new
    · exact books.count_pos f old
    · simp only [List.mem_singleton] at new
      simpa [new] using one
  · intro f mem
    rcases List.mem_append.mp mem with old | new
    · exact books.first_lt f old
    · simp only [List.mem_singleton] at new
      simpa [new] using books.txHead_lt

theorem TxBooks.reclaim {f : InFlight} (books : TxBooks c (f :: q)) : TxBooks { c with
        txFrames := put c.txFrames c.txFrameTail none
        txFrameTail := (c.txFrameTail + 1) % ringSize
        txInUse := c.txInUse - f.count } q := by
  have fits := books.length_le
  have head := books.head_eq
  have used := books.inUse_eq
  simp only [List.length_cons, spanTotal_cons, ringSize_eq] at fits head used
  refine { tail_lt := Nat.mod_lt _ (by simp [ringSize_eq])
           head_eq := by dsimp only; simp only [ringSize_eq]; omega
           table := fun k below => ?_
           inUse_eq := by dsimp only; omega
           inUse_le := by have := books.inUse_le; simp only [spanTotal_cons] at this; omega
           count_pos := fun g mem => books.count_pos g (List.mem_cons_of_mem _ mem)
           first_lt := fun g mem => books.first_lt g (List.mem_cons_of_mem _ mem)
           txHead_lt := books.txHead_lt
           ends := books.ends.2 }
  dsimp only
  rw [get_put]
  rw [ringSize_eq] at below
  by_cases wrapped : k = 3
  · subst wrapped
    rw [if_pos (by simp only [ringSize_eq]; omega), List.getElem?_eq_none (by omega)]
  · rw [if_neg (by simp only [ringSize_eq]; omega),
      at_congr (b := c.txFrameTail + (k + 1)) (by simp only [ringSize_eq]; omega),
      books.table (k + 1) (by rw [ringSize_eq]; omega)]
    rfl

/-! ### What the calls do to the queue -/

section Calls

variable [EthernetBlock ω] {α : Type} {j j' : Journal}

/-- The descriptor `e` carries `d` handed to the engine, which may have taken OWN back since. -/
def Carries (d e : RingEntry) : Prop := e = d.owned ∨ e = d.owned.released

/-- What submitting the fragments `l` of `frame` does. It is refused, the frame handed back
and nothing changed, while the driver is not set up, not running, or short of free
descriptors, in that order; otherwise the frame joins the queue behind the others with its
span from the next free descriptor on, and each descriptor of the span carries its fragment. -/
def SubmitSpec (c : Controller ω) (memory : Pool) (l : FragmentList) (frame : Chain) : Prop :=
  if c.initialized = false then
    Returns (txSubmit memory l frame) c (.error (.notInitialized, frame)) c
  else if c.running = false then
    Returns (txSubmit memory l frame) c (.error (.notRunning, frame)) c
  else if ringSize - c.txInUse < l.len then
    Returns (txSubmit memory l frame) c (.error (.txBusy, frame)) c
  else
    Ensures (txSubmit memory l frame) c (fun r c' => r = .ok () ∧
      c'.txQueue = c.txQueue ++ [⟨frame, c.txHead, l.len⟩] ∧
      c'.txHead = (c.txHead + l.len) % ringSize ∧
      ∀ k (inside : k < l.len), Carries (txDescriptor l.len (l.entries.get ⟨k, inside⟩) k)
        (EthernetBlock.entry .tx (c.txHead + k) c'.block)) (fun _ => False)

/-- What reclaiming does. Nothing while the ring is empty, or while the engine, still running,
owns a descriptor of the oldest frame; otherwise the oldest frame comes back, sent unless the
engine never released it or reported an error, and leaves the queue. -/
def ReclaimSpec (c : Controller ω) : Prop :=
  match c.txQueue with
  | [] => Returns txReclaim c none c
  | f :: rest =>
    if spanBusy f c.block && c.running then Returns txReclaim c none c
    else Ensures txReclaim c (fun r c' =>
      r = some { frame := f.frame, sent := !spanBusy f c.block && !spanFailed f c.block } ∧
      c'.txQueue = rest ∧ c'.txInUse = c.txInUse - f.count) (fun _ => False)

omit [EthernetBlock ω] in
theorem TxBooks.keeps {act : Op ω α} {a : α} (books : TxBooks c q) (keeps : Keeps txLedger act)
    (ran : act c j = .ok (a, c') j') : TxBooks c' q :=
  books.of_txLedger ((keeps c).of_ok ran)

theorem TxBooks.txSubmit {memory : Pool} {l : FragmentList} {frame : Chain}
    {r : Except (NetError × Chain) Unit} (books : TxBooks c q) (one : 1 ≤ l.len)
    (ran : txSubmit memory l frame c j = .ok (r, c') j') : ∃ q', TxBooks c' q' := by
  cases init : c.initialized
  · obtain ⟨-, rfl⟩ := (returns_txSubmit_uninitialized init).of_ok ran
    exact ⟨q, books⟩
  cases running : c.running
  · obtain ⟨-, rfl⟩ := (returns_txSubmit_stopped init running).of_ok ran
    exact ⟨q, books⟩
  by_cases short : ringSize - c.txInUse < l.len
  · obtain ⟨-, rfl⟩ := (returns_txSubmit_busy init running (.inl short)).of_ok ran
    exact ⟨q, books⟩
  · have room : l.len ≤ ringSize - c.txInUse := by omega
    obtain ⟨-, free⟩ : l.len ≤ ringSize - c.txInUse ∧
        c.txFrames.get (Controller.at c.txFrameHead) = none := by
      simpa using mt (books.busy_iff one).mp short
    obtain ⟨-, accepted, -⟩ := (ensures_txSubmit init running room free).of_ok ran
    exact ⟨_, (books.submit one room frame).of_txLedger (by rw [accepted]; rfl)⟩

theorem TxBooks.txReclaim {r : Option TxCompletion} (books : TxBooks c q)
    (ran : txReclaim c j = .ok (r, c') j') : ∃ q', TxBooks c' q' := by
  cases q with
  | nil =>
    obtain ⟨-, rfl⟩ := (returns_txReclaim_empty books.oldest).of_ok ran
    exact ⟨[], books⟩
  | cons f rest =>
    by_cases held : spanBusy f c.block = true ∧ c.running = true
    · obtain ⟨-, rfl⟩ := (returns_txReclaim_busy books.oldest held.1 held.2).of_ok ran
      exact ⟨_, books⟩
    · have released : spanBusy f c.block = false ∨ c.running = false := by
        cases busy : spanBusy f c.block
        · exact .inl rfl
        · exact .inr (by simpa [busy] using held)
      obtain ⟨-, popped⟩ := (ensures_txReclaim books.oldest released).of_ok ran
      exact ⟨rest, books.reclaim.of_txLedger (by rw [popped]; rfl)⟩

theorem TxBooks.call {act : Op ω α} {a : α} (admitted : Admitted act) (books : TxBooks c q)
    (ran : act c j = .ok (a, c') j') : ∃ q', TxBooks c' q' := by
  have blind : ∀ (c : Controller ω) (b : ω), txLedger { c with block := b } = txLedger c :=
    fun _ _ => rfl
  have flags : ∀ (c : Controller ω) (i r : Bool),
      txLedger { c with initialized := i, running := r } = txLedger c := fun _ _ _ => rfl
  cases admitted with
  | deinit => exact ⟨q, books.keeps (keeps_deinit blind flags) ran⟩
  | start => exact ⟨q, books.keeps (keeps_start blind flags) ran⟩
  | stop => exact ⟨q, books.keeps (keeps_stop blind flags) ran⟩
  | setLinkParams p => exact ⟨q, books.keeps (keeps_setLinkParams blind p) ran⟩
  | rxProvide s => exact ⟨q, books.of_txLedger (txLedger_rxProvide ran)⟩
  | rxPoll => exact ⟨q, books.of_txLedger (txLedger_rxPoll ran)⟩
  | rxRevoke => exact ⟨q, books.of_txLedger (txLedger_rxRevoke ran)⟩
  | txSubmit built whole => exact books.txSubmit (FragmentList.one_le_len_build built whole) ran
  | txReclaim => exact books.txReclaim ran

theorem TxBooks.init {mac : MacAddress} {p p' : Pool} {r : Except NetError Unit}
    (books : TxBooks c q) (ran : init mac c p j = .ok ((r, c'), p') j') : ∃ q', TxBooks c' q' := by
  cases set : c.initialized
  · rcases (poolEnsures_init set).of_ok ran with same | ⟨-, fresh, -⟩
    · simp only [books_eq_iff, ledgers, Prod.mk.injEq] at same
      exact ⟨q, books.of_txLedger same.1.2⟩
    · simp only [ledgers, freshLedgers, Prod.mk.injEq] at fresh
      exact ⟨[], txBooks_empty (by rw [fresh.2]; rfl)⟩
  · obtain ⟨-, rfl, -⟩ := (poolEnsures_init_again set).of_ok ran
    exact ⟨q, books⟩

theorem Reached.txBooks (reached : Reached c) : ∃ q, TxBooks c q := by
  induction reached with
  | created b => exact ⟨[], txBooks_empty rfl⟩
  | init mac _ ran ih =>
    obtain ⟨q, books⟩ := ih
    exact books.init ran
  | call admitted _ ran ih =>
    obtain ⟨q, books⟩ := ih
    exact books.call admitted ran
  | engine b _ ih =>
    obtain ⟨q, books⟩ := ih
    exact ⟨q, books.of_txLedger rfl⟩

theorem TxBooks.reclaimSpec (books : TxBooks c q) : ReclaimSpec c := by
  unfold ReclaimSpec
  rw [books.txQueue_eq]
  cases q with
  | nil => exact returns_txReclaim_empty books.oldest
  | cons f rest =>
    simp only
    split
    · rename_i held
      simp only [Bool.and_eq_true] at held
      exact returns_txReclaim_busy books.oldest held.1 held.2
    · rename_i free
      have released : spanBusy f c.block = false ∨ c.running = false := by
        cases busy : spanBusy f c.block
        · exact .inl rfl
        · exact .inr (by simpa [busy] using free)
      refine (ensures_txReclaim books.oldest released).mono
        (fun r c' ⟨given, popped⟩ => ⟨given, ?_, by rw [popped]⟩) (fun _ => id)
      exact (books.reclaim.of_txLedger (by rw [popped]; rfl)).txQueue_eq

end Calls

/-! ### Submitting on a block that keeps the transmit descriptor laws -/

section Quiet

variable [EthernetBlock ω] {q : List InFlight}

theorem TxBooks.submitSpec (quiet : QuietTx ω) (books : TxBooks c q) {p : Pool} {depth : Nat} {memory : Pool}
    {l : FragmentList} {frame : Chain} (built : FragmentList.build p frame depth = .ok l)
    (whole : frame.total = (frame.toBytes p).length) : SubmitSpec c memory l frame := by
  have one := FragmentList.one_le_len_build built whole
  have fits : l.len ≤ 4 := (FragmentList.len_build_le built).trans (Nat.min_le_right _ _)
  unfold SubmitSpec
  split
  · rename_i uninit
    exact returns_txSubmit_uninitialized uninit
  split
  · rename_i init stopped
    exact returns_txSubmit_stopped (by simpa using init) stopped
  split
  · rename_i init running short
    exact returns_txSubmit_busy (by simpa using init) (by simpa using running) (.inl short)
  rename_i init running short
  have room : l.len ≤ ringSize - c.txInUse := by omega
  obtain ⟨-, free⟩ : l.len ≤ ringSize - c.txInUse ∧
      c.txFrames.get (Controller.at c.txFrameHead) = none := by
    simpa using mt (books.busy_iff one).mp short
  refine (ensures_txSubmit (by simpa using init) (by simpa using running) room free).mono
    (fun r c' ⟨ok, accepted, b, via, block⟩ => ⟨ok, ?_, by rw [accepted], fun k inside => ?_⟩)
    (fun _ => id)
  · rw [books.txQueue_eq]
    exact (books.submit one room frame |>.of_txLedger (by rw [accepted]; rfl)).txQueue_eq
  · -- the engine has at most taken OWN back from the descriptors handed over
    have stored : Released (handOver c.txHead l c.block) b := by
      rcases via with rfl | rfl
      · exact Released.refl _
      · exact quiet.store _ _ _
    have released : Released (handOver c.txHead l c.block) c'.block := by
      rw [block]
      exact (stored.trans (quiet.store _ _ _)).trans (quiet.pollTransmit memory _)
    have handed := quiet.entry_handOver (b := c.block) c.txHead l
      (FragmentList.walk_build built) fits k inside
    rcases released (c.txHead + k) with same | taken
    · exact .inl (same.trans handed)
    · exact .inr (taken.trans (by rw [handed]))

end Quiet

/-- The transmit side of a driver, as every session leaves it. -/
structure TxAgrees (c : Controller ω) [EthernetBlock ω] : Prop where
  /-- The table holds the queue from its tail to its head. -/
  head : c.txFrameHead = (c.txFrameTail + c.txQueue.length) % ringSize
  /-- The descriptors in use are those of the queued frames, never more than the ring. -/
  inUse : c.txInUse = spanTotal c.txQueue
  inUse_le : c.txInUse ≤ ringSize
  /-- Reclaiming a queued frame frees no more descriptors than are in use. -/
  count_le : ∀ f ∈ c.txQueue, f.count ≤ c.txInUse
  /-- No two queued frames share a descriptor. -/
  disjoint : c.txQueue.Pairwise fun f g => f.span.Disjoint g.span
  /-- Each queued frame's span starts where the one before it ends, the last ending at the
  next free descriptor. -/
  follows : c.txQueue.IsChain fun f g => (f.first + f.count) % ringSize = g.first
  endsAtHead : ∀ f ∈ c.txQueue.getLast?, (f.first + f.count) % ringSize = c.txHead
  submit : ∀ (p : Pool) (depth : Nat) (memory : Pool) (l : FragmentList) (frame : Chain),
    FragmentList.build p frame depth = .ok l → frame.total = (frame.toBytes p).length →
    SubmitSpec c memory l frame
  reclaim : ReclaimSpec c

/-- On every register block that keeps the transmit descriptor laws, the transmit ring of every
driver a session reaches is a bounded FIFO of frames: the queued frames account for the
descriptors in use, their spans follow one another in submission order up to the next free
descriptor without overlapping, a submission is refused exactly when the driver is not set up,
not running or short of descriptors, and otherwise queues the frame behind the others with its
fragments in its descriptors, and a reclaim hands back the oldest frame. -/
theorem transmit_ring_is_bounded_fifo [EthernetBlock ω] (quiet : QuietTx ω) {c : Controller ω} (reached : Reached c) :
    TxAgrees c := by
  obtain ⟨q, books⟩ := reached.txBooks
  have queue := books.txQueue_eq
  exact { head := queue ▸ books.head_eq
          inUse := queue ▸ books.inUse_eq
          inUse_le := books.inUse_eq ▸ books.inUse_le
          count_le := queue ▸ books.count_le
          disjoint := queue ▸ books.ends.pairwise_disjoint books.inUse_le
          follows := queue ▸ books.ends.isChain books.first_lt
          endsAtHead := queue ▸ books.ends.getLast
          submit := fun _ _ _ _ _ built whole => books.submitSpec quiet built whole
          reclaim := books.reclaimSpec }

/-- A frame of sixty bytes held outside the pool. -/
def sixtyBytes : Chain := Chain.ofShared ⟨0, List.replicate 60 1⟩

/-- A driver set up and started on the emulated block, with automatic transmission on, queues two
frames, which the engine sends at once, and reclaims the first. -/
theorem driver_session_transmit_fifo :
    QuietTx Bench.EmulatedBlock ∧ ∃ c : Controller Bench.EmulatedBlock, Reached c ∧
      c.txQueue.map (·.count) = [1] ∧ c.txInUse = 1 ∧ TxAgrees c := by
  have built : FragmentList.build ⟨#[], [], false, 0, 0, 0, #[]⟩ sixtyBytes 4 = .ok _ := rfl
  have whole : sixtyBytes.total = (sixtyBytes.toBytes ⟨#[], [], false, 0, 0, 0, #[]⟩).length := rfl
  have started := Reached.call .start (Reached.init ⟨Vector.replicate 6 0⟩
    (Reached.created ({ phy := { address := 1 }, switches := { txAuto := true } } : Bench.EmulatedBlock))
    (rfl : init _ _ ⟨#[], [], false, 0, 0, 0, #[]⟩ #[] = _)) (rfl : start _ #[] = _)
  have sent := Reached.call (.txSubmit built whole) (Reached.call (.txSubmit built whole) started
    (rfl : txSubmit ⟨#[], [], false, 0, 0, 0, #[]⟩ _ sixtyBytes _ #[] = _))
    (rfl : txSubmit ⟨#[], [], false, 0, 0, 0, #[]⟩ _ sixtyBytes _ #[] = _)
  have reclaimed := Reached.call .txReclaim sent (rfl : txReclaim _ #[] = _)
  exact ⟨Bench.EmulatedBlock.quietTx, _, reclaimed, rfl, rfl,
    transmit_ring_is_bounded_fifo Bench.EmulatedBlock.quietTx reclaimed⟩

end Controller

end Ethernet.Stm32
