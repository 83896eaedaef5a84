import Ethernet.Phy.Lan8720.Driver
import Ethernet.Bench.RegisterFile
import Ethernet.Proofs.Ensures

/-! The LAN8720's field accessors are independent read-modify-writes: over the emulated register
file each setter changes only its field's bits, and the getter reads back the value set. -/
namespace Ethernet

/-! ### Words with a field changed -/

namespace Lan8720

theorem setBits_outside (v mask : UInt16) (on : Bool) :
    (if on then v ||| mask else v &&& ~~~mask) &&& ~~~mask = v &&& ~~~mask := by
  apply UInt16.toBitVec_inj.mp
  ext i hi
  cases on
  · simp
  · simp
    grind

/-- A field written into a word: the field's bits cleared, the value's low bits shifted in. -/
def insertField (v x mask shift : UInt16) : UInt16 := (v &&& ~~~(mask <<< shift)) ||| ((x &&& mask) <<< shift)

theorem insertField_outside (v x mask shift : UInt16) :
    insertField v x mask shift &&& ~~~(mask <<< shift) = v &&& ~~~(mask <<< shift) := by
  apply UInt16.toBitVec_inj.mp
  ext i hi
  simp [insertField, BitVec.getElem_shiftLeft]
  grind

theorem BitVec.insert_reads_back (v x mask : BitVec 16) (shift : Nat)
    (fits : ∀ i, i < 16 → 16 ≤ i + shift → mask.getLsbD i = false) :
    (((v &&& ~~~(mask <<< shift)) ||| ((x &&& mask) <<< shift)) >>> shift) &&& mask = x &&& mask := by
  ext i hi
  by_cases inside : shift + i < 16
  · -- the bit read is the value's bit `i`, moved up by the shift and back down
    have above : ¬ shift + i < shift := by omega
    simp [inside, above]
    cases x[i] <;> cases mask[i] <;> simp
  · -- past the top of the word: the mask has no bit there
    have outside := fits i hi (by omega)
    rw [BitVec.getLsbD_eq_getElem hi] at outside
    simp [outside]

theorem insertField_reads_back (v x mask shift : UInt16) (narrow : shift.toNat < 16)
    (fits : ∀ i, i < 16 → 16 ≤ i + shift.toNat → mask.toBitVec.getLsbD i = false) :
    (insertField v x mask shift >>> shift) &&& mask = x &&& mask := by
  apply UInt16.toBitVec_inj.mp
  have shifted : shift.toBitVec % 16 = shift.toBitVec :=
    BitVec.umod_eq_of_lt (by simpa [BitVec.lt_def] using narrow)
  simp only [insertField, UInt16.toBitVec_and, UInt16.toBitVec_or, UInt16.toBitVec_not,
    UInt16.toBitVec_shiftLeft, UInt16.toBitVec_shiftRight, shifted, BitVec.shiftLeft_eq',
    BitVec.ushiftRight_eq']
  exact BitVec.insert_reads_back _ _ _ _ fits

theorem selfClear_outside (v mask : UInt16) :
    (v &&& ~~~softReset) &&& ~~~(mask ||| softReset) = v &&& ~~~(mask ||| softReset) := by
  apply UInt16.toBitVec_inj.mp
  ext i hi
  simp
  grind

theorem and_not_or (v w mask other : UInt16) (outside : w &&& ~~~mask = v &&& ~~~mask) :
    w &&& ~~~(mask ||| other) = v &&& ~~~(mask ||| other) := by
  have split : ∀ u : UInt16, u &&& ~~~(mask ||| other) = (u &&& ~~~mask) &&& ~~~other := by
    intro u
    apply UInt16.toBitVec_inj.mp
    ext i hi
    simp
    grind
  rw [split, split v, outside]

end Lan8720

/-! ### How the driver's operations run -/

namespace Lan8720

variable {β α γ : Type}

/-- The operation, run on the driver `d`, answers `r` and leaves `d'`, writing nothing to the
journal. -/
def Yields (act : Op β α) (d : Lan8720 β) (r : Except PhyError α) (d' : Lan8720 β) : Prop :=
  ∀ j, act.run d j = .ok (r, d') j

section

variable {d d' d'' : Lan8720 β}

theorem Yields.bind {x : Op β α} {f : α → Op β γ} {a : α} {r : Except PhyError γ}
    (first : Yields x d (.ok a) d') (rest : Yields (f a) d' r d'') : Yields (x >>= f) d r d'' := by
  intro j
  rw [ExceptT.run_bind, bind_apply, first j]
  exact rest j

theorem Yields.bind_error {x : Op β α} {f : α → Op β γ} {e : PhyError}
    (first : Yields x d (.error e) d') : Yields (x >>= f) d (.error e) d' := by
  intro j
  rw [ExceptT.run_bind, bind_apply, first j]
  rfl

theorem Yields.map {x : Op β α} {f : α → γ} {a : α} (first : Yields x d (.ok a) d') :
    Yields (f <$> x) d (.ok (f a)) d' := by
  intro j
  rw [ExceptT.run_map, map_apply, first j]
  rfl

theorem Yields.map_error {x : Op β α} {f : α → γ} {e : PhyError} (first : Yields x d (.error e) d') :
    Yields (f <$> x) d (.error e) d' := by
  intro j
  rw [ExceptT.run_map, map_apply, first j]
  rfl

theorem yields_pure (a : α) : Yields (pure a) d (.ok a) d := fun _ => rfl

theorem yields_get : Yields get d (.ok d) d := fun _ => rfl

theorem yields_set : Yields (set d') d (.ok ()) d' := fun _ => rfl

theorem yields_orFail (r : Except PhyError α) : Yields (orFail r) d r d := by
  cases r <;> exact fun _ => rfl

theorem yields_throw (e : PhyError) : Yields (throw e : Op β α) d (.error e) d := fun _ => rfl

theorem yields_ensureInitialized (running : d.initialized = true) :
    Yields ensureInitialized d (.ok ()) d := by
  obtain ⟨bus, address, initialized, levels, waited⟩ := d
  subst running
  intro j
  rfl

theorem yields_ensureInitialized_stopped (stopped : d.initialized = false) :
    Yields ensureInitialized d (.error .notInitialized) d := by
  obtain ⟨bus, address, initialized, levels, waited⟩ := d
  subst stopped
  intro j
  rfl

end

end Lan8720

namespace Bench.RegisterFile

/-- The register file after a write that reached it: the value stored, less the soft-reset bit
of register 0 while that bit clears itself, and the write logged. -/
def written (f : RegisterFile) (reg : Nat) (value : UInt16) : RegisterFile :=
  { f.poke reg (if reg == 0 && f.resetSelfClears then value &&& ~~~Lan8720.softReset else value) with
    writes := f.writes ++ [(reg, value)] }

theorem peek_poke (f : RegisterFile) (reg r : Nat) (value : UInt16) :
    (f.poke reg value).peek r = if index r = index reg then value else f.peek r := by
  change (f.regs.set (index reg) value (index reg).isLt)[(index r).val] =
    if index r = index reg then value else f.regs[(index r).val]
  rw [Vector.getElem_set]
  by_cases same : index r = index reg
  · simp [same]
  · have apart : (index reg).val ≠ (index r).val := fun h => same (Fin.ext h).symm
    simp [same, apart]

theorem peek_written (f : RegisterFile) (reg r : Nat) (value : UInt16) :
    (f.written reg value).peek r = if index r = index reg then
      (if reg == 0 && f.resetSelfClears then value &&& ~~~Lan8720.softReset else value)
    else f.peek r :=
  peek_poke f reg r _

end Bench.RegisterFile

namespace Lan8720

open Bench

variable {d : Lan8720 RegisterFile}

/-- The register file answers the driver: it sits at the driver's address and its transfers
succeed. -/
structure Answered (d : Lan8720 RegisterFile) : Prop where
  address : d.bus.address = d.address
  working : d.bus.fail = false

theorem yields_read (answered : Answered d) (reg : Nat) :
    Yields (read reg) d (.ok (d.bus.peek reg)) d := by
  have answer : ManagementBus.read d.address reg d.bus = (.ok (d.bus.peek reg), d.bus) := by
    simp [ManagementBus.read, answered.working, answered.address]
  unfold Lan8720.read
  refine yields_get.bind ?_
  simp only [answer]
  exact yields_set.bind (yields_orFail _)

theorem yields_read_failing (failing : d.bus.fail = true) (reg : Nat) :
    Yields (read reg) d (.error .bus) d := by
  have answer : ManagementBus.read d.address reg d.bus = (.error .bus, d.bus) := by
    simp [ManagementBus.read, failing]
  unfold Lan8720.read
  refine yields_get.bind ?_
  simp only [answer]
  exact yields_set.bind (yields_orFail _)

theorem yields_write (answered : Answered d) (reg : Nat) (value : UInt16) :
    Yields (write reg value) d (.ok ()) { d with bus := d.bus.written reg value } := by
  have answer : ManagementBus.write d.address reg value d.bus = (.ok (), d.bus.written reg value) := by
    have reset : softReset = 0x8000 := rfl
    simp [ManagementBus.write, answered.working, answered.address, RegisterFile.written, reset]
  unfold Lan8720.write
  refine yields_get.bind ?_
  simp only [answer]
  exact yields_set.bind (yields_orFail _)

/-- A read-modify-write of the started driver over a register file that answers writes the
register once with the changed value. -/
theorem yields_update (running : d.initialized = true) (answered : Answered d) (reg : Nat)
    (change : UInt16 → UInt16) :
    Yields (update reg change) d (.ok ())
      { d with bus := d.bus.written reg (change (d.bus.peek reg)) } :=
  (yields_ensureInitialized running).bind ((yields_read answered reg).bind
    (yields_write answered reg _))

theorem yields_update_failing (running : d.initialized = true) (failing : d.bus.fail = true)
    (reg : Nat) (change : UInt16 → UInt16) : Yields (update reg change) d (.error .bus) d :=
  (yields_ensureInitialized running).bind (yields_read_failing failing reg).bind_error

theorem Answered.written (answered : Answered d) (reg : Nat) (value : UInt16) :
    Answered { d with bus := d.bus.written reg value } :=
  ⟨answered.address, answered.working⟩

/-! ### What a setter may change -/

/-- The bit of a register that clears itself on a write: the soft-reset bit of the basic
control register. -/
def selfClearing (reg : Nat) : UInt16 := if reg = basicControl then softReset else 0

/-- The register file `f'` differs from `f` at most in the bits `mask` of register `reg` and in
the bit of that register that clears itself. -/
structure Confined (f f' : RegisterFile) (reg : Nat) (mask : UInt16) : Prop where
  others : ∀ r, RegisterFile.index r ≠ RegisterFile.index reg → f'.peek r = f.peek r
  rest : f'.peek reg &&& ~~~(mask ||| selfClearing reg) = f.peek reg &&& ~~~(mask ||| selfClearing reg)

/-- A write of a value that differs from the register's only in the bits `mask` is confined to
those bits. -/
theorem confined_written (f : RegisterFile) (reg : Nat) (mask : UInt16) {value : UInt16}
    (outside : value &&& ~~~mask = f.peek reg &&& ~~~mask) :
    Confined f (f.written reg value) reg mask := by
  refine ⟨fun r apart => by simp [RegisterFile.peek_written, apart], ?_⟩
  rw [RegisterFile.peek_written, if_pos rfl]
  by_cases clears : (reg == 0 && f.resetSelfClears) = true
  · -- register 0: the stored value also lost its soft-reset bit
    have basic : reg = basicControl := by
      simp only [Bool.and_eq_true, beq_iff_eq] at clears
      exact clears.1
    rw [if_pos clears, selfClearing, if_pos basic, selfClear_outside]
    exact and_not_or _ _ mask softReset outside
  · rw [if_neg clears]
    exact and_not_or _ _ mask _ outside

/-- `set` changes only the bits `mask` of register `reg`, and `get` then reads `v`: on the
started driver over a register file at its address, `set` writes the register, confines its
change to those bits and leaves `get` answering `v` without changing anything; while the bus
fails, `set` fails with a bus error and changes nothing. -/
def Sets (set : Op RegisterFile Unit) (get : Op RegisterFile α) (v : α) (reg : Nat) (mask : UInt16) :
    Prop :=
  ∀ d : Lan8720 RegisterFile, d.initialized = true → d.bus.address = d.address →
    (d.bus.fail = false → ∃ bus, Yields set d (.ok ()) { d with bus } ∧ Confined d.bus bus reg mask ∧
      Yields get { d with bus } (.ok v) { d with bus }) ∧
    (d.bus.fail = true → Yields set d (.error .bus) d)

/-- A read-modify-write that changes only the bits `mask` sets them, for a getter that reads
the register and decodes `v` from whatever the write left there. -/
theorem sets_update {get : Op RegisterFile α} {v : α} {reg : Nat} {mask : UInt16}
    {change : UInt16 → UInt16} (decode : UInt16 → α)
    (outside : ∀ w, change w &&& ~~~mask = w &&& ~~~mask)
    (reads : ∀ d : Lan8720 RegisterFile, d.initialized = true → Answered d →
      Yields get d (.ok (decode (d.bus.peek reg))) d)
    (decodes : ∀ w clears, decode (if (reg == 0 && clears) then change w &&& ~~~softReset else change w) = v) :
    Sets (update reg change) get v reg mask := by
  intro d running address
  refine ⟨fun working => ?_, fun failing => yields_update_failing running failing reg change⟩
  have answered : Answered d := ⟨address, working⟩
  refine ⟨_, yields_update running answered reg change, confined_written _ _ _ (outside _), ?_⟩
  have after := reads { d with bus := d.bus.written reg (change (d.bus.peek reg)) } running
    (answered.written _ _)
  rwa [RegisterFile.peek_written, if_pos rfl, decodes] at after

theorem Sets.map {set : Op RegisterFile Unit} {get : Op RegisterFile α} {v : α} {reg : Nat}
    {mask : UInt16} (sets : Sets set get v reg mask) (f : α → γ) :
    Sets set (f <$> get) (f v) reg mask := by
  intro d running address
  refine ⟨fun working => ?_, (sets d running address).2⟩
  obtain ⟨bus, wrote, confined, reads⟩ := (sets d running address).1 working
  exact ⟨bus, wrote, confined, reads.map⟩

theorem Sets.bind_pure {set : Op RegisterFile Unit} {get : Op RegisterFile α} {v : α} {reg : Nat}
    {mask : UInt16} (sets : Sets set get v reg mask) (f : α → γ) :
    Sets set (get >>= fun a => pure (f a)) (f v) reg mask := by
  intro d running address
  refine ⟨fun working => ?_, (sets d running address).2⟩
  obtain ⟨bus, wrote, confined, reads⟩ := (sets d running address).1 working
  exact ⟨bus, wrote, confined, reads.bind (yields_pure _)⟩

/-! ### One-bit settings -/

theorem Flag.apart_from_reset (f : Flag) :
    f.location.1 ≠ 0 ∨ f.location.2 &&& ~~~softReset = f.location.2 := by
  cases f with
  | interruptPending i => cases i <;> decide
  | interruptEnabled i => cases i <;> decide
  | _ => decide

theorem Flag.mask_ne_zero (f : Flag) : f.location.2 ≠ 0 := by
  cases f with
  | interruptPending i => cases i <;> decide
  | interruptEnabled i => cases i <;> decide
  | _ => decide

theorem yields_flag (f : Flag) (running : d.initialized = true) (answered : Answered d) :
    Yields (flag f) d (.ok ((d.bus.peek f.location.1 &&& f.location.2 != 0) != f.inverted)) d :=
  (yields_ensureInitialized running).bind ((yields_read answered _).bind (yields_pure _))

/-- A word with the bits `mask` set or cleared shows them so, also after a self-clearing
soft-reset bit apart from them was cleared. -/
theorem setBits_test (v mask : UInt16) (on : Bool) (nonzero : mask ≠ 0) (clear : Bool)
    (apart : clear = true → mask &&& ~~~softReset = mask) :
    ((if clear then (if on then v ||| mask else v &&& ~~~mask) &&& ~~~softReset
      else if on then v ||| mask else v &&& ~~~mask) &&& mask != 0) = on := by
  have set : (v ||| mask) &&& mask = mask := by
    apply UInt16.toBitVec_inj.mp
    ext i hi
    simp
    grind
  have cleared : (v &&& ~~~mask) &&& mask = 0 := by
    apply UInt16.toBitVec_inj.mp
    ext i hi
    simp
  cases clear with
  | false => cases on <;> simp [set, cleared, nonzero]
  | true =>
    -- the reset bit is not one of the mask's, so clearing it shows the same bits
    have shown : ∀ w : UInt16, (w &&& ~~~softReset) &&& mask = w &&& mask := by
      intro w
      conv => rhs; rw [← apart rfl]
      apply UInt16.toBitVec_inj.mp
      ext i hi
      simp
      grind
    cases on <;> simp [shown, set, cleared, nonzero]

theorem sets_setFlag (f : Flag) (on : Bool) :
    Sets (setFlag f on) (flag f) on f.location.1 f.location.2 := by
  refine sets_update (fun b => (b &&& f.location.2 != 0) != f.inverted) (fun w => setBits_outside w _ _)
    (fun _ => yields_flag f) fun w clears => ?_
  have apart : (f.location.1 == 0 && clears) = true → f.location.2 &&& ~~~softReset = f.location.2 := by
    intro basic
    simp only [Bool.and_eq_true, beq_iff_eq] at basic
    exact f.apart_from_reset.resolve_left (not_not_intro basic.1)
  rw [setBits_test _ _ _ f.mask_ne_zero _ apart]
  cases on <;> cases f.inverted <;> rfl

/-! ### Multi-bit settings -/

section

variable {β : Type} [ManagementBus β]

theorem setField_eq (g : Field) (x : UInt16) :
    (setField g x : Op β Unit) =
      update g.location.1 fun v => insertField v x g.location.2.2 g.location.2.1.toUInt16 := by
  cases g <;> rfl

theorem field_eq (g : Field) : (field g : Op β UInt16) = do
    ensureInitialized
    return ((← read g.location.1) >>> g.location.2.1.toUInt16) &&& g.location.2.2 := by
  cases g <;> rfl

theorem setSelector_eq {s : Nat} (small : s ≤ 0x1F) :
    (setSelector s : Op β Unit) = setField .selector s.toUInt16 := by
  simp [setSelector, Nat.not_lt.mpr small]

theorem setAddress_eq {a : Nat} (small : a ≤ maxPhyAddress) :
    (setAddress a : Op β Unit) = setField .address a.toUInt16 := by
  simp [setAddress, Nat.not_lt.mpr small]

end

theorem Field.fits (g : Field) : g.location.1 ≠ 0 ∧ g.location.2.1.toUInt16.toNat < 16 ∧
    ∀ i, i < 16 → 16 ≤ i + g.location.2.1.toUInt16.toNat → g.location.2.2.toBitVec.getLsbD i = false := by
  cases g <;> decide

theorem yields_field (g : Field) (running : d.initialized = true) (answered : Answered d) :
    Yields (field g) d (.ok ((d.bus.peek g.location.1 >>> g.location.2.1.toUInt16) &&& g.location.2.2)) d := by
  rw [field_eq]
  exact (yields_ensureInitialized running).bind ((yields_read answered _).bind (yields_pure _))

theorem sets_setField (g : Field) (x : UInt16) :
    Sets (setField g x) (field g) (x &&& g.location.2.2) g.location.1
      (g.location.2.2 <<< g.location.2.1.toUInt16) := by
  obtain ⟨notBasic, narrow, fits⟩ := g.fits
  rw [setField_eq]
  refine sets_update (fun b => (b >>> g.location.2.1.toUInt16) &&& g.location.2.2)
    (fun w => insertField_outside _ _ _ _) (fun _ => yields_field g) fun w clears => ?_
  -- no field sits in the register whose reset bit clears itself
  have kept : (g.location.1 == 0 && clears) = false := by simp [notBasic]
  rw [kept, if_neg Bool.false_ne_true]
  exact insertField_reads_back _ _ _ _ narrow fits

theorem toUInt16_and_low_five {n : Nat} (small : n ≤ 0x1F) : n.toUInt16 &&& 0x1F = n.toUInt16 := by
  apply UInt16.toNat_inj.mp
  have narrow : n % 65536 = n := Nat.mod_eq_of_lt (by omega)
  have low : n &&& 2 ^ 5 - 1 = n := (Nat.and_two_pow_sub_one_eq_mod n 5).trans (Nat.mod_eq_of_lt (by omega))
  simpa [UInt16.toNat_and, narrow] using low

/-! ### The typed accessors -/

theorem sets_setPause (p : Pause) : Sets (setPause p) pause p advertisement ((0x3 : UInt16) <<< 10) := by
  have decoded : Pause.ofBits (p.bits &&& 0x3) = p := by cases p <;> rfl
  have sets := (sets_setField .pause p.bits).map Pause.ofBits
  simp only [Field.location] at sets
  rw [decoded] at sets
  exact sets

theorem sets_setMode (m : Mode) : Sets (setMode m) mode m specialModes ((0x7 : UInt16) <<< 5) := by
  have decoded : Mode.ofBits (m.bits &&& 0x7) = m := by cases m <;> rfl
  have sets := (sets_setField .mode m.bits).map Mode.ofBits
  simp only [Field.location] at sets
  rw [decoded] at sets
  exact sets

theorem sets_setChannel (c : Channel) : Sets (setChannel c) channel c controlIndications (bit 13) := by
  have decoded : (if (c == .mdix) then Channel.mdix else .mdi) = c := by cases c <;> rfl
  have sets := (sets_setFlag .crossedPairs (c == .mdix)).bind_pure fun b => if b then Channel.mdix else .mdi
  simp only [Flag.location] at sets
  rw [decoded] at sets
  exact sets

theorem sets_setSelector {s : Nat} (small : s ≤ 0x1F) :
    Sets (setSelector s) (field .selector) s.toUInt16 advertisement 0x1F := by
  have sets := sets_setField .selector s.toUInt16
  simp only [Field.location] at sets
  rw [toUInt16_and_low_five small] at sets
  rw [setSelector_eq small]
  exact sets

theorem sets_setAddress {a : Nat} (small : a ≤ maxPhyAddress) :
    Sets (setAddress a) (field .address) a.toUInt16 specialModes 0x1F := by
  have sets := sets_setField .address a.toUInt16
  simp only [Field.location] at sets
  rw [toUInt16_and_low_five small] at sets
  rw [setAddress_eq small]
  exact sets

section

variable {β : Type} [ManagementBus β]

theorem yields_setSelector_wide {s : Nat} (wide : 0x1F < s) (d : Lan8720 β) :
    Yields (setSelector s) d (.error .invalidValue) d := by
  unfold setSelector
  rw [if_pos wide]
  exact (yields_throw _).bind_error

theorem yields_setAddress_wide {a : Nat} (wide : maxPhyAddress < a) (d : Lan8720 β) :
    Yields (setAddress a) d (.error .invalidAddress) d := by
  unfold setAddress
  rw [if_pos wide]
  exact (yields_throw _).bind_error

/-- Every field accessor of a driver refuses as not initialized, before the bus is touched. -/
structure Refuses (d : Lan8720 β) : Prop where
  flagRead : ∀ f, Yields (flag f) d (.error .notInitialized) d
  flagSet : ∀ f on, Yields (setFlag f on) d (.error .notInitialized) d
  fieldRead : ∀ g, Yields (field g) d (.error .notInitialized) d
  fieldSet : ∀ g x, Yields (setField g x) d (.error .notInitialized) d
  pauseRead : Yields pause d (.error .notInitialized) d
  pauseSet : ∀ p, Yields (setPause p) d (.error .notInitialized) d
  modeRead : Yields mode d (.error .notInitialized) d
  modeSet : ∀ m, Yields (setMode m) d (.error .notInitialized) d
  channelRead : Yields channel d (.error .notInitialized) d
  channelSet : ∀ c, Yields (setChannel c) d (.error .notInitialized) d
  selectorSet : ∀ s, s ≤ 0x1F → Yields (setSelector s) d (.error .notInitialized) d
  addressSet : ∀ a, a ≤ maxPhyAddress → Yields (setAddress a) d (.error .notInitialized) d

theorem refuses_of_stopped {d : Lan8720 β} (stopped : d.initialized = false) : Refuses d := by
  have refused := yields_ensureInitialized_stopped stopped
  have fieldRead : ∀ g, Yields (field g) d (.error .notInitialized) d := fun g => by
    rw [field_eq]
    exact refused.bind_error
  have fieldSet : ∀ g x, Yields (setField g x) d (.error .notInitialized) d := fun g x => by
    rw [setField_eq]
    exact refused.bind_error
  exact {
    flagRead := fun _ => refused.bind_error
    flagSet := fun _ _ => refused.bind_error
    fieldRead, fieldSet
    pauseRead := (fieldRead _).map_error
    pauseSet := fun _ => fieldSet _ _
    modeRead := (fieldRead _).map_error
    modeSet := fun _ => fieldSet _ _
    channelRead := refused.bind_error.bind_error
    channelSet := fun _ => refused.bind_error
    selectorSet := fun _ small => by rw [setSelector_eq small]; exact fieldSet _ _
    addressSet := fun _ small => by rw [setAddress_eq small]; exact fieldSet _ _ }

end

/-! ### Every accessor -/

/-- The LAN8720's field accessors are independent read-modify-writes. On a started driver over
a register file at its address, each setter changes only its own field's bits in its own
register (and the self-clearing soft-reset bit), the matching getter then reads the value set,
and a failing bus makes the setter fail with nothing changed; a selector or PHY address wider
than five bits is refused before the bus is touched; and a driver that has not been started
refuses every accessor as not initialized, before the bus is touched. -/
theorem accessors_change_only_their_field :
    (∀ (f : Flag) (on : Bool), Sets (setFlag f on) (flag f) on f.location.1 f.location.2) ∧
    (∀ p : Pause, Sets (setPause p) pause p advertisement ((0x3 : UInt16) <<< 10)) ∧
    (∀ s, s ≤ 0x1F → Sets (setSelector s) (field .selector) s.toUInt16 advertisement 0x1F) ∧
    (∀ m : Mode, Sets (setMode m) mode m specialModes ((0x7 : UInt16) <<< 5)) ∧
    (∀ a, a ≤ maxPhyAddress → Sets (setAddress a) (field .address) a.toUInt16 specialModes 0x1F) ∧
    (∀ c : Channel, Sets (setChannel c) channel c controlIndications (bit 13)) ∧
    (∀ (d : Lan8720 RegisterFile) (s : Nat), 0x1F < s →
      Yields (setSelector s) d (.error .invalidValue) d) ∧
    (∀ (d : Lan8720 RegisterFile) (a : Nat), maxPhyAddress < a →
      Yields (setAddress a) d (.error .invalidAddress) d) ∧
    (∀ d : Lan8720 RegisterFile, d.initialized = false → Refuses d) :=
  ⟨sets_setFlag, sets_setPause, fun _ => sets_setSelector, sets_setMode, fun _ => sets_setAddress,
    sets_setChannel, fun d _ wide => yields_setSelector_wide wide d,
    fun d _ wide => yields_setAddress_wide wide d, fun _ => refuses_of_stopped⟩

/-- A started driver at address 1 over a register file whose advertisement register holds
`0xFFFF`. -/
def advertising : Lan8720 RegisterFile where
  bus := (({ address := 1 } : RegisterFile).poke advertisement 0xFFFF)
  address := 1
  initialized := true

/-- Advertising no pause on a register with every bit set clears bits 10 and 11 only, and the
pause then reads back as none. -/
theorem advertising_no_pause : advertising.initialized = true ∧
    advertising.bus.address = advertising.address ∧ advertising.bus.fail = false ∧
    ∃ bus, Yields (setPause .none) advertising (.ok ()) { advertising with bus } ∧
      Confined advertising.bus bus advertisement ((0x3 : UInt16) <<< 10) ∧
      Yields pause { advertising with bus } (.ok .none) { advertising with bus } :=
  ⟨rfl, rfl, rfl, (accessors_change_only_their_field.2.1 .none advertising rfl rfl).1 rfl⟩

end Lan8720

end Ethernet
