import Ethernet.Proofs.Ensures
import Ethernet.Stm32.Controller

/-! The STM32 driver's operations, taken apart against its receive and transmit ledgers.
`Keeps view act` says `act` never halts and leaves `view` of the driver as it was. -/
namespace Ethernet.Stm32

/-- `d` handed to the engine. -/
def RingEntry.owned (d : RingEntry) : RingEntry := { d with status := d.status ||| tdesOwn }

/-- `d` with OWN taken back by the engine. -/
def RingEntry.released (d : RingEntry) : RingEntry := { d with status := d.status &&& ~~~tdesOwn }

namespace Controller

variable {ω : Type} {β γ κ : Type}

theorem ringSize_eq : ringSize = 4 := rfl

theorem get_put {α : Type} (v : Vector α 4) (i k : Nat) (x : α) :
    (put v i x).get (Controller.at k) = if i % 4 = k % 4 then x else v.get (Controller.at k) := by
  simp only [put, Controller.at, Vector.get, Vector.toArray_set, Array.getElem_set]
  rfl

theorem at_congr {a b : Nat} (same : a % 4 = b % 4) : Controller.at a = Controller.at b := by
  simp [Controller.at, same]

theorem all_isNone_iff {α : Type} (v : Vector (Option α) 4) (n : Nat) :
    v.toList.all Option.isNone = true ↔ ∀ k < 4, v.get (Controller.at (n + k)) = none := by
  rw [List.all_eq_true]
  constructor
  · intro all k _
    have mem : v.get (Controller.at (n + k)) ∈ v.toList := by
      simp [Vector.get, Controller.at]
    simpa using all _ mem
  · intro empty x mem
    obtain ⟨i, inside, rfl⟩ := List.mem_iff_getElem.mp mem
    have read := empty ((i + 4 - n % 4) % 4) (Nat.mod_lt _ (by decide))
    simp only [Vector.length_toList] at inside
    have same : Controller.at (n + (i + 4 - n % 4) % 4) = ⟨i, inside⟩ := by
      simp only [Controller.at, Fin.mk.injEq]
      omega
    rw [same] at read
    simpa [Vector.get] using read

def rxLedger (c : Controller ω) : Vector (Option SlotId) 4 × Nat × Nat × Nat :=
  (c.rxSlots, c.rxFill, c.rxNext, c.rxFrameBytes)

def txLedger (c : Controller ω) : Vector (Option InFlight) 4 × Nat × Nat × Nat × Nat :=
  (c.txFrames, c.txFrameHead, c.txFrameTail, c.txHead, c.txInUse)

def ledgers (c : Controller ω) := (c.rxLedger, c.txLedger)

/-- Everything the driver keeps but the register block. -/
def books (c : Controller ω) := (c.ledgers, c.initialized, c.running)

theorem eq_of_books {c c' : Controller ω} (same : c'.books = c.books) :
    c' = { c with block := c'.block } := by
  cases c
  cases c'
  simp only [books, ledgers, rxLedger, txLedger, Prod.mk.injEq] at same
  obtain ⟨⟨⟨rfl, rfl, rfl, rfl⟩, rfl, rfl, rfl, rfl, rfl⟩, rfl, rfl⟩ := same
  rfl

theorem books_eq_iff {c c' : Controller ω} : c'.books = c.books ↔
    c'.ledgers = c.ledgers ∧ c'.initialized = c.initialized ∧ c'.running = c.running := by
  simp [books]

/-! ### Operations that keep a view of the driver -/

section Keeps

variable {view : Controller ω → κ}

/-- `act` never halts and leaves `view` of the driver as it was. -/
def Keeps (view : Controller ω → κ) (act : Op ω β) : Prop :=
  ∀ c, Ensures act c (fun _ c' => view c' = view c) (fun _ => False)

theorem keeps_pure (a : β) : Keeps view (pure a : Op ω β) := fun _ => ensures_pure rfl

theorem Keeps.bind {x : Op ω β} {f : β → Op ω γ} (first : Keeps view x)
    (rest : ∀ a, Keeps view (f a)) : Keeps view (x >>= f) := fun c =>
  ensures_bind ((first c).mono (fun a c₁ same => (rest a c₁).mono
    (fun _ _ same' => same'.trans same) (fun _ => id)) (fun _ => id))

theorem keeps_get : Keeps view (get : Op ω (Controller ω)) := fun _ => ensures_get rfl

theorem keeps_modify {f : Controller ω → Controller ω} (same : ∀ c, view (f c) = view c) :
    Keeps view (modify f : Op ω PUnit) := fun c => ensures_modify (same c)

theorem keeps_emit {level : Level} {text : String} :
    Keeps view (liftM (emit level text) : Op ω PUnit) := fun _ => ensures_emit rfl

theorem keeps_read {f : Controller ω → β} : Keeps view (do return f (← get) : Op ω β) :=
  keeps_get.bind fun _ => keeps_pure _

theorem keeps_forIn {xs : List γ} {body : γ → PUnit → Op ω (ForInStep PUnit)}
    (each : ∀ x u, Keeps view (body x u)) : Keeps view (forIn xs PUnit.unit body) := by
  induction xs with
  | nil => exact keeps_pure _
  | cons x rest ih =>
    rw [List.forIn_cons]
    refine (each x _).bind fun step => ?_
    cases step with
    | done u => exact keeps_pure _
    | yield u => exact ih

end Keeps

theorem returns_forIn {body : γ → PUnit → Op ω (ForInStep PUnit)}
    (step : γ → Controller ω → Controller ω) (each : ∀ x c, Returns (body x ⟨⟩) c (.yield ⟨⟩) (step x c))
    (xs : List γ) (c : Controller ω) :
    Returns (forIn xs PUnit.unit body) c ⟨⟩ (xs.foldl (fun c x => step x c) c) := by
  induction xs generalizing c with
  | nil => exact fun j => ⟨j, rfl⟩
  | cons x rest ih =>
    rw [List.forIn_cons]
    exact (each x c).andThen (ih (step x c))

theorem foldl_block (g : γ → ω → ω) (xs : List γ) (c : Controller ω) :
    xs.foldl (fun c x => { c with block := g x c.block }) c =
      { c with block := xs.foldl (fun b x => g x b) c.block } := by
  induction xs generalizing c with
  | nil => rfl
  | cons x rest ih => exact ih _

theorem keeps_requireInit {view : Controller ω → κ} :
    Keeps view (requireInit : Op ω (Except NetError Unit)) := keeps_read

/-! ### Operations that may also change the pool -/

section Beside

/-- What a driver operation that may also change the pool ensures, run from `c` on `p`. -/
def PoolEnsures (act : PoolOp ω β) (c : Controller ω) (p : Pool)
    (post : β → Controller ω → Pool → Prop) (halts : Fault → Prop) : Prop :=
  Ensures (act c) p (fun r p' => post r.1 r.2 p') halts

variable {c : Controller ω} {p : Pool} {post : β → Controller ω → Pool → Prop}
  {halts : Fault → Prop}

theorem PoolEnsures.mono {act : PoolOp ω β} {post' : β → Controller ω → Pool → Prop}
    {halts' : Fault → Prop} (h : PoolEnsures act c p post halts)
    (weaker : ∀ a c' p', post a c' p' → post' a c' p') (more : ∀ f, halts f → halts' f) :
    PoolEnsures act c p post' halts' :=
  Ensures.mono h (fun r p' => weaker r.1 r.2 p') more

theorem poolEnsures_pure {a : β} (h : post a c p) : PoolEnsures (pure a) c p post halts :=
  fun _ => h

theorem poolEnsures_bind {x : PoolOp ω γ} {f : γ → PoolOp ω β}
    (first : PoolEnsures x c p (fun a c' p' => PoolEnsures (f a) c' p' post halts) halts) :
    PoolEnsures (x >>= f) c p post halts :=
  ensures_bind (x := x c) (f := fun r => f r.1 r.2) first

theorem poolEnsures_get {post : Controller ω → Controller ω → Pool → Prop} (h : post c c p) :
    PoolEnsures (get : PoolOp ω (Controller ω)) c p post halts := fun _ => h

theorem poolEnsures_modify {post : PUnit → Controller ω → Pool → Prop}
    {f : Controller ω → Controller ω} (h : post ⟨⟩ (f c) p) :
    PoolEnsures (modify f : PoolOp ω PUnit) c p post halts := fun _ => h

theorem poolEnsures_emit {post : PUnit → Controller ω → Pool → Prop} {level : Level}
    {text : String} (h : post ⟨⟩ c p) :
    PoolEnsures (liftM (emit level text) : PoolOp ω PUnit) c p post halts := fun _ => h

theorem poolEnsures_besidePool {act : Op ω β}
    (h : Ensures act c (fun a c' => post a c' p) halts) : PoolEnsures (besidePool act) c p post halts := by
  unfold PoolEnsures besidePool
  refine ensures_lift fun j => ?_
  have hj := h j
  revert hj
  cases act c j with
  | ok r _ => exact id
  | error f _ => exact id

theorem poolEnsures_lift {act : PoolRun β} (h : Ensures act p (fun a p' => post a c p') halts) :
    PoolEnsures (liftM act : PoolOp ω β) c p post halts :=
  ensures_bind (x := act) (f := fun a => pure (a, c)) (h.mono (fun _ _ h _ => h) (fun _ => id))

theorem poolEnsures_lift_any {act : PoolRun β} (h : ∀ a p', post a c p') :
    PoolEnsures (liftM act : PoolOp ω β) c p post (fun _ => True) :=
  poolEnsures_lift fun j => by
    cases act p j with
    | ok r _ => exact h r.1 r.2
    | error f _ => trivial

theorem poolEnsures_forIn {xs : List γ} {body : γ → PUnit → PoolOp ω (ForInStep PUnit)}
    (each : ∀ x u c p, PoolEnsures (body x u) c p (fun _ c' _ => c' = c) (fun _ => True)) :
    PoolEnsures (forIn xs PUnit.unit body) c p (fun _ c' _ => c' = c) (fun _ => True) := by
  induction xs generalizing c p with
  | nil => exact poolEnsures_pure rfl
  | cons x rest ih =>
    rw [List.forIn_cons]
    refine poolEnsures_bind ((each x _ c p).mono (fun step c' p' same => ?_) (fun _ => id))
    subst same
    cases step with
    | done u => exact poolEnsures_pure rfl
    | yield u => exact ih

end Beside

theorem Keeps.ensures {act : Op ω β} (keeps : Keeps books act) (c : Controller ω) :
    Ensures act c (fun _ c' => c' = { c with block := c'.block }) (fun _ => False) :=
  (keeps c).mono (fun _ _ same => eq_of_books same) (fun _ => id)

variable [EthernetBlock ω]

theorem keeps_load (r : Reg) : Keeps view (load r : Op ω UInt32) := keeps_read

theorem keeps_cleared (r : Reg) (mask : UInt32) : Keeps view (cleared r mask : Op ω Bool) := keeps_read

theorem keeps_entry (r : Ring) (i : Nat) : Keeps view (entry r i : Op ω RingEntry) := keeps_read

section

variable {c : Controller ω} {halts : Fault → Prop}

theorem ensures_load {r : Reg} {post : UInt32 → Controller ω → Prop}
    (h : post (EthernetBlock.load r c.block) c) : Ensures (load r) c post halts := fun _ => h

theorem ensures_entry {r : Ring} {i : Nat} {post : RingEntry → Controller ω → Prop}
    (h : post (EthernetBlock.entry r i c.block) c) : Ensures (entry r i) c post halts := fun _ => h

end

section Blind

variable {view : Controller ω → κ}
  (blind : ∀ (c : Controller ω) (b : ω), view { c with block := b } = view c)
include blind

theorem keeps_store (r : Reg) (v : UInt32) : Keeps view (store r v : Op ω Unit) :=
  keeps_modify fun c => blind c _

theorem keeps_setEntry (r : Ring) (i : Nat) (e : RingEntry) :
    Keeps view (setEntry r i e : Op ω Unit) :=
  keeps_modify fun c => blind c _

theorem keeps_update (r : Reg) (clear set : UInt32) : Keeps view (update r clear set : Op ω Unit) :=
  (keeps_load r).bind fun _ => keeps_store blind r _

end Blind

section Housekeeping

variable {view : Controller ω → κ}
  (blind : ∀ (c : Controller ω) (b : ω), view { c with block := b } = view c)
  (flags : ∀ (c : Controller ω) (i r : Bool), view { c with initialized := i, running := r } = view c)
include blind flags

theorem keeps_stop : Keeps view (stop : Op ω (Except NetError Unit)) := by
  unfold stop
  refine keeps_requireInit.bind fun r => ?_
  cases r with
  | error e => exact keeps_pure _
  | ok u =>
    refine (keeps_update blind _ _ _).bind fun _ => (keeps_update blind _ _ _).bind fun _ => ?_
    refine (keeps_update blind _ _ _).bind fun _ => (keeps_update blind _ _ _).bind fun _ => ?_
    refine (keeps_update blind _ _ _).bind fun _ => ?_
    exact (keeps_modify fun c => flags c c.initialized false).bind fun _ => keeps_pure _

theorem keeps_start : Keeps view (start : Op ω (Except NetError Unit)) := by
  unfold start
  refine keeps_requireInit.bind fun r => ?_
  cases r with
  | error e => exact keeps_pure _
  | ok u =>
    refine (keeps_update blind _ _ _).bind fun _ => (keeps_update blind _ _ _).bind fun _ => ?_
    refine (keeps_cleared _ _).bind fun flushed => ?_
    have rest : Keeps view (do
        update .dmaomr 0 (dmaomrSt ||| dmaomrSr)
        store .dmarpdr 0
        modify fun c => { c with running := true }
        return (.ok () : Except NetError Unit) : Op ω _) :=
      (keeps_update blind _ _ _).bind fun _ => (keeps_store blind _ _).bind fun _ =>
        (keeps_modify fun c => flags c c.initialized true).bind fun _ => keeps_pure _
    split
    · exact keeps_emit.bind fun _ => rest
    · exact rest

theorem keeps_deinit : Keeps view (deinit : Op ω (Except NetError Unit)) := by
  unfold deinit
  refine keeps_requireInit.bind fun r => ?_
  cases r with
  | error e => exact keeps_pure _
  | ok u =>
    refine (keeps_stop blind flags).bind fun r => ?_
    cases r with
    | error e => exact keeps_pure _
    | ok u =>
      exact (keeps_store blind _ _).bind fun _ =>
        (keeps_modify fun c => flags c false c.running).bind fun _ => keeps_pure _

omit flags in
theorem keeps_setLinkParams (p : LinkParams) :
    Keeps view (setLinkParams p : Op ω (Except NetError Unit)) := by
  unfold setLinkParams
  refine keeps_requireInit.bind fun r => ?_
  cases r with
  | error e => exact keeps_pure _
  | ok u =>
    exact (keeps_update blind _ _ _).bind fun _ => (keeps_load _).bind fun _ =>
      keeps_emit.bind fun _ => keeps_pure _

end Housekeeping

/-! ### Setting the driver up -/

section Init

variable {c : Controller ω} {p : Pool} {mac : MacAddress}

/-- The ledgers of a driver that has just been set up: nothing armed, nothing in flight. -/
def freshLedgers : (Vector (Option SlotId) 4 × Nat × Nat × Nat) ×
    (Vector (Option InFlight) 4 × Nat × Nat × Nat × Nat) :=
  ((Vector.replicate 4 none, 0, 0, 0), (Vector.replicate 4 none, 0, 0, 0, 0))

theorem poolEnsures_initRings :
    PoolEnsures initRings c p (fun _ c' _ => c'.ledgers = freshLedgers ∧
      c'.initialized = c.initialized ∧ c'.running = c.running) (fun _ => True) := by
  unfold initRings
  refine poolEnsures_bind (poolEnsures_get ?_)
  have blind : ∀ (c : Controller ω) (b : ω), books { c with block := b } = books c := fun _ _ => rfl
  have lay : ∀ (r : Ring) (e : RingEntry), Keeps books (forIn (List.range ringSize) PUnit.unit
      fun i (_ : PUnit) => do setEntry r i e; pure (ForInStep.yield PUnit.unit) : Op ω PUnit) :=
    fun r e => keeps_forIn fun _ _ => (keeps_setEntry blind _ _ _).bind fun _ => keeps_pure _
  refine poolEnsures_bind (poolEnsures_besidePool ?_)
  refine ensures_bind ((lay .tx _ c).mono (fun _ c₁ same₁ => ?_) (fun _ => False.elim))
  refine ensures_bind ((lay .rx _ c₁).mono (fun _ c₂ same₂ => ?_) (fun _ => False.elim))
  refine ensures_modify (poolEnsures_bind ((poolEnsures_forIn fun f _ c p =>
    poolEnsures_bind (poolEnsures_lift_any fun _ _ => poolEnsures_pure rfl)).mono
      (fun _ c₃ _ same₃ => ?_) (fun _ => id)))
  subst same₃
  refine poolEnsures_besidePool (((keeps_store blind _ _).bind fun _ => keeps_store blind _ _) _ |>.mono (fun _ c₄ same₄ => ?_) (fun _ => False.elim))
  obtain ⟨ledgers, initialized, running⟩ := books_eq_iff.mp same₄
  obtain ⟨-, initialized₂, running₂⟩ := books_eq_iff.mp (same₂.trans same₁)
  exact ⟨ledgers, initialized.trans initialized₂, running.trans running₂⟩

theorem poolEnsures_init_again (again : c.initialized = true) :
    PoolEnsures (init mac) c p (fun r c' p' => r = .error .alreadyInitialized ∧ c' = c ∧ p' = p)
      (fun _ => False) := by
  unfold init
  refine poolEnsures_bind (poolEnsures_get ?_)
  simp only [again, if_true]
  exact poolEnsures_pure ⟨rfl, rfl, rfl⟩

/-- Programming the block and laying out the rings empties the ledgers and marks the driver
set up. -/
theorem poolEnsures_configure :
    PoolEnsures (configure mac) c p (fun _ c' _ => c'.ledgers = freshLedgers ∧
      c'.initialized = true ∧ c'.running = c.running) (fun _ => True) := by
  have blind : ∀ (c : Controller ω) (b : ω), books { c with block := b } = books c := fun _ _ => rfl
  unfold configure
  refine poolEnsures_bind (poolEnsures_besidePool ((((keeps_store blind _ _).bind fun _ =>
    (keeps_store blind _ _).bind fun _ => (keeps_store blind _ _).bind fun _ =>
    (keeps_store blind _ _).bind fun _ => (keeps_store blind _ _).bind fun _ =>
    (keeps_store blind _ _).bind fun _ => keeps_store blind _ _) c).mono
      (fun _ c₁ same₁ => ?_) (fun _ => False.elim)))
  refine poolEnsures_bind (poolEnsures_initRings.mono (fun _ c₂ _ set => ?_) (fun _ => id))
  obtain ⟨ledgers, -, running⟩ := set
  exact poolEnsures_modify ⟨ledgers, rfl, running.trans (books_eq_iff.mp same₁).2.2⟩

/-- Setting up a driver either fails and keeps its books, or empties both ledgers and marks
the driver set up. -/
theorem poolEnsures_init (fresh : c.initialized = false) :
    PoolEnsures (init mac) c p (fun r c' _ => c'.books = c.books ∨
      r = .ok () ∧ c'.ledgers = freshLedgers ∧ c'.initialized = true ∧ c'.running = c.running)
      (fun _ => True) := by
  have blind : ∀ (c : Controller ω) (b : ω), books { c with block := b } = books c := fun _ _ => rfl
  unfold init
  refine poolEnsures_bind (poolEnsures_get ?_)
  simp only [fresh, Bool.false_eq_true, if_false]
  refine poolEnsures_bind (poolEnsures_besidePool ((((keeps_update blind _ _ _).bind fun _ =>
    keeps_cleared _ _) c).mono (fun reset c₁ same₁ => ?_) (fun _ => False.elim)))
  split
  · exact poolEnsures_bind (poolEnsures_emit (poolEnsures_pure (.inl same₁)))
  · refine poolEnsures_bind (poolEnsures_configure.mono (fun _ c₂ _ set => ?_) (fun _ => id))
    obtain ⟨ledgers, initialized, running⟩ := set
    exact poolEnsures_bind (poolEnsures_emit (poolEnsures_pure
      (.inr ⟨rfl, ledgers, initialized, running.trans (books_eq_iff.mp same₁).2.2⟩)))

end Init

/-! ### The receive operations -/

section Receive

variable {c : Controller ω} {s : SlotId}

theorem returns_rxProvide_refused (refused : c.wantsBuffer = false) :
    Returns (rxProvide s) c (.error s) c :=
  fun j => ⟨j, by simp [rxProvide, refused]⟩

theorem ensures_rxProvide (wants : c.wantsBuffer = true) :
    Ensures (rxProvide s) c (fun r c' => r = .ok () ∧ c' = { c with
        block := c'.block
        rxSlots := put c.rxSlots c.rxFill (some s)
        rxFill := (c.rxFill + 1) % ringSize }) (fun _ => False) := by
  unfold rxProvide
  refine ensures_bind (ensures_get ?_)
  simp only [wants, Bool.not_true, Bool.false_eq_true, if_false]
  refine ensures_seq (ensures_modify (ensures_seq (ensures_modify ?_)))
  split
  · refine ensures_bind (ensures_load ?_)
    split
    · exact ensures_seq (ensures_modify (ensures_seq (ensures_modify (ensures_pure ⟨rfl, rfl⟩))))
    · exact ensures_seq (ensures_modify (ensures_pure ⟨rfl, rfl⟩))
  · exact ensures_pure ⟨rfl, rfl⟩

theorem returns_rxPoll_empty (empty : c.rxSlots.get (Controller.at c.rxNext) = none) : Returns rxPoll c none c :=
  fun j => ⟨j, by simp [rxPoll, empty]⟩

theorem returns_rxPoll_owned (armed : c.rxSlots.get (Controller.at c.rxNext) = some s)
    (owned : (EthernetBlock.entry .rx c.rxNext c.block).isDmaOwned = true) : Returns rxPoll c none c :=
  fun j => ⟨j, by simp [rxPoll, armed, entry, owned]⟩

theorem ensures_rxPoll_done (armed : c.rxSlots.get (Controller.at c.rxNext) = some s)
    (done : (EthernetBlock.entry .rx c.rxNext c.block).isDmaOwned = false) :
    Ensures rxPoll c (fun r c' => ∃ comp, r = some comp ∧ comp.slot = s ∧ c' = { c with
        rxSlots := put c.rxSlots c.rxNext none
        rxNext := (c.rxNext + 1) % ringSize
        rxFrameBytes := c'.rxFrameBytes }) (fun _ => False) := by
  intro j
  simp [rxPoll, armed, entry, done]

/-- The descriptors `rxRevoke` searches, from the next one to read back on. -/
def revokeOrder (c : Controller ω) : List Nat :=
  (List.range ringSize).map fun k => (c.rxNext + k) % ringSize

theorem returns_rxRevoke_running (running : c.running = true) : Returns rxRevoke c none c :=
  fun j => ⟨j, by simp [rxRevoke, running]⟩

theorem returns_rxRevoke_none (stopped : c.running = false)
    (absent : c.revokeOrder.find? (fun i => (c.rxSlots.get (Controller.at i)).isSome) = none) :
    Returns rxRevoke c none c := by
  intro j
  simp only [revokeOrder] at absent
  exact ⟨j, by simp [rxRevoke, stopped, absent, -List.find?_map]⟩

theorem ensures_rxRevoke (stopped : c.running = false) {i : Nat}
    (found : c.revokeOrder.find? (fun i => (c.rxSlots.get (Controller.at i)).isSome) = some i) :
    Ensures rxRevoke c (fun r c' => r = c.rxSlots.get (Controller.at i) ∧
      if (put c.rxSlots i none).toList.all Option.isNone then
        c' = { c with
          block := c'.block
          rxSlots := put c.rxSlots i none
          rxFill := 0
          rxNext := 0
          rxFrameBytes := 0 }
      else c' = { c with block := c'.block, rxSlots := put c.rxSlots i none }) (fun _ => False) := by
  unfold rxRevoke
  refine ensures_bind (ensures_get ?_)
  simp only [revokeOrder] at found
  rw [if_neg (by simp [stopped])]
  simp only [found]
  refine ensures_bind (ensures_entry ?_)
  refine ensures_seq (ensures_modify (ensures_seq (ensures_modify ?_)))
  by_cases emptied : (put c.rxSlots i none).toList.all Option.isNone = true
  · simp only [emptied, if_true]
    exact ensures_bind (ensures_modify (ensures_pure ⟨rfl, rfl⟩))
  · simp only [emptied]
    exact ensures_pure ⟨rfl, rfl⟩

end Receive

/-! ### The transmit operations -/

section Transmit

variable {c : Controller ω} {memory : Pool} {l : FragmentList} {frame : Chain}

theorem returns_txSubmit_uninitialized (uninit : c.initialized = false) :
    Returns (txSubmit memory l frame) c (.error (.notInitialized, frame)) c :=
  fun j => ⟨j, by simp [txSubmit, uninit]⟩

theorem returns_txSubmit_stopped (init : c.initialized = true) (stopped : c.running = false) :
    Returns (txSubmit memory l frame) c (.error (.notRunning, frame)) c :=
  fun j => ⟨j, by simp [txSubmit, init, stopped]⟩

theorem returns_txSubmit_busy (init : c.initialized = true) (running : c.running = true)
    (busy : ringSize - c.txInUse < l.len ∨ (c.txFrames.get (Controller.at c.txFrameHead)).isSome) :
    Returns (txSubmit memory l frame) c (.error (.txBusy, frame)) c :=
  fun j => ⟨j, by simp [txSubmit, init, running, busy]⟩

/-- The descriptor the driver writes for the fragment `f`, the `i`-th of `count`. -/
def txDescriptor (count : Nat) (f : Fragment) (i : Nat) : RingEntry where
  status := txStatus i count
  control := f.len.toUInt32 &&& tdesBufferMask
  buffer := match f.source with
    | .pooled s => .slot s
    | .shared _ => .bytes f.data

/-- Writes the descriptors of the numbered fragments `fs` of a frame of `count`, from the
descriptor `first` on. -/
def writeTx (first count : Nat) (fs : List (Fragment × Nat)) (b : ω) : ω :=
  fs.foldl (fun b x => EthernetBlock.setEntry .tx (first + x.2) (txDescriptor count x.1 x.2) b) b

/-- Hands the transmit descriptor `i` to the engine. -/
def handEntry (i : Nat) (b : ω) : ω :=
  EthernetBlock.setEntry .tx i (EthernetBlock.entry .tx i b).owned b

/-- Hands the descriptors `first + i`, for `i` in `is` in that order, to the engine. -/
def handTx (first : Nat) (is : List Nat) (b : ω) : ω :=
  is.foldl (fun b i => handEntry (first + i) b) b

/-- The register block once the fragments of `l` are written from `first` on and handed to
the engine, last to first. -/
def handOver (first : Nat) (l : FragmentList) (b : ω) : ω :=
  handTx first (List.range l.len).reverse (writeTx first l.len l.walk.zipIdx b)

/-- An accepted frame takes the next free entry of the table and the next `l.len`
descriptors, which end up handed to the engine ahead of a transmit poll demand. -/
theorem ensures_txSubmit (init : c.initialized = true) (running : c.running = true)
    (room : l.len ≤ ringSize - c.txInUse) (free : c.txFrames.get (Controller.at c.txFrameHead) = none) :
    Ensures (txSubmit memory l frame) c (fun r c' => r = .ok () ∧ c' = { c with
        block := c'.block
        txFrames := put c.txFrames c.txFrameHead (some ⟨frame, c.txHead, l.len⟩)
        txFrameHead := (c.txFrameHead + 1) % ringSize
        txHead := (c.txHead + l.len) % ringSize
        txInUse := c.txInUse + l.len } ∧
      ∃ b, (b = handOver c.txHead l c.block ∨
          b = EthernetBlock.store .dmasr dmasrTbus (handOver c.txHead l c.block)) ∧
        c'.block = EthernetBlock.pollTransmit memory (EthernetBlock.store .dmatpdr 0 b))
      (fun _ => False) := by
  unfold txSubmit
  refine ensures_bind (ensures_get ?_)
  rw [if_neg (by simp [init]), if_neg (by simp [running]), if_neg (by simp [free]; omega)]
  refine (returns_forIn (fun x c' => { c' with
      block := EthernetBlock.setEntry .tx (c.txHead + x.2) (txDescriptor l.len x.1 x.2) c'.block })
    ?write l.walk.zipIdx c).bind ?_
  case write => exact fun _ _ j => ⟨j, rfl⟩
  rw [foldl_block]
  refine (returns_forIn (fun i c' => { c' with block := handEntry (c.txHead + i) c'.block })
    ?hand (List.range l.len).reverse _).bind ?_
  case hand => exact fun _ _ j => ⟨j, rfl⟩
  rw [foldl_block]
  refine ensures_seq (ensures_modify (ensures_bind (ensures_load ?_)))
  split
  · exact ensures_seq (ensures_modify (ensures_seq (ensures_modify (ensures_seq (ensures_modify
      (ensures_pure ⟨rfl, rfl, _, .inr rfl, rfl⟩))))))
  · exact ensures_seq (ensures_modify (ensures_seq (ensures_modify
      (ensures_pure ⟨rfl, rfl, _, .inl rfl, rfl⟩))))

/-- The descriptors of the frame `f` as the block `b` has them. -/
def spanEntries (f : InFlight) (b : ω) : List RingEntry :=
  (List.range f.count).map fun i => EthernetBlock.entry .tx (f.first + i) b

/-- The engine still owns a descriptor of the frame `f`. -/
def spanBusy (f : InFlight) (b : ω) : Bool := (spanEntries f b).any RingEntry.isDmaOwned

/-- The engine reported an error on a descriptor of the frame `f`. -/
def spanFailed (f : InFlight) (b : ω) : Bool := (spanEntries f b).any fun d => d.status &&& tdesEs != 0

theorem returns_txReclaim_empty (empty : c.txFrames.get (Controller.at c.txFrameTail) = none) :
    Returns txReclaim c none c :=
  fun j => ⟨j, by simp [txReclaim, empty]⟩

theorem returns_txReclaim_busy {f : InFlight}
    (oldest : c.txFrames.get (Controller.at c.txFrameTail) = some f)
    (busy : spanBusy f c.block = true) (running : c.running = true) : Returns txReclaim c none c :=
  fun j => ⟨j, by simp_all [txReclaim, spanBusy, spanEntries]⟩

/-- The oldest frame is handed back once the engine has released it, or at once while the
engine is stopped, and its descriptors are freed. -/
theorem ensures_txReclaim {f : InFlight}
    (oldest : c.txFrames.get (Controller.at c.txFrameTail) = some f)
    (released : spanBusy f c.block = false ∨ c.running = false) :
    Ensures txReclaim c (fun r c' =>
      r = some { frame := f.frame, sent := !spanBusy f c.block && !spanFailed f c.block } ∧
      c' = { c with
        block := c'.block
        txFrames := put c.txFrames c.txFrameTail none
        txFrameTail := (c.txFrameTail + 1) % ringSize
        txInUse := c.txInUse - f.count }) (fun _ => False) := by
  have blind : ∀ (c : Controller ω) (b : ω), books { c with block := b } = books c := fun _ _ => rfl
  unfold txReclaim
  refine ensures_bind (ensures_get ?_)
  simp only [oldest]
  rw [if_neg (by simp only [spanBusy, spanEntries] at released; cases released <;> simp [*])]
  refine ensures_bind (((keeps_forIn fun _ _ => (keeps_entry _ _).bind fun _ =>
    (keeps_setEntry blind _ _ _).bind fun _ => keeps_pure _) c).mono
      (fun _ c₁ same₁ => ?_) (fun _ => id))
  rw [eq_of_books same₁]
  split
  · exact ensures_seq (ensures_emit (ensures_seq (ensures_modify (ensures_pure ⟨rfl, rfl⟩))))
  · split
    · exact ensures_seq (ensures_emit (ensures_seq (ensures_modify (ensures_pure ⟨rfl, rfl⟩))))
    · exact ensures_seq (ensures_modify (ensures_pure ⟨rfl, rfl⟩))

end Transmit

end Controller

end Ethernet.Stm32
