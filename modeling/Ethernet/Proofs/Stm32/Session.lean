import Ethernet.Proofs.Stm32.Driver
import Ethernet.Proofs.Frame.Fragments

/-! Sessions of the STM32 driver: any sequence of its calls, with the engine rewriting the register
block between them. -/
namespace Ethernet.Stm32.Controller

variable {ω : Type} [EthernetBlock ω]

/-- The driver's calls, a frame to send being laid out by `build`. -/
inductive Admitted : {α : Type} → Op ω α → Prop
  | deinit : Admitted deinit
  | start : Admitted start
  | stop : Admitted stop
  | setLinkParams (p : LinkParams) : Admitted (setLinkParams p)
  | rxProvide (s : SlotId) : Admitted (rxProvide s)
  | rxPoll : Admitted rxPoll
  | rxRevoke : Admitted rxRevoke
  | txSubmit {p : Pool} {depth : Nat} {memory : Pool} {l : FragmentList} {frame : Chain}
      (built : FragmentList.build p frame depth = .ok l)
      (whole : frame.total = (frame.toBytes p).length) : Admitted (txSubmit memory l frame)
  | txReclaim : Admitted txReclaim

/-- The drivers a session reaches from a fresh one. -/
inductive Reached : Controller ω → Prop
  | created (b : ω) : Reached { block := b }
  | init {c c' : Controller ω} {p p' : Pool} {j j' : Journal} {r : Except NetError Unit}
      (mac : MacAddress) : Reached c → init mac c p j = .ok ((r, c'), p') j' → Reached c'
  | call {α : Type} {act : Op ω α} {c c' : Controller ω} {a : α} {j j' : Journal} :
      Admitted act → Reached c → act c j = .ok (a, c') j' → Reached c'
  | engine {c : Controller ω} (b : ω) : Reached c → Reached { c with block := b }

variable {c c' : Controller ω} {j j' : Journal}

/-! ### The receive calls keep the transmit ledger -/

section Receive

theorem txLedger_rxProvide {s : SlotId} {r : Except SlotId Unit}
    (ran : rxProvide s c j = .ok (r, c') j') : c'.txLedger = c.txLedger := by
  cases wants : c.wantsBuffer
  · obtain ⟨-, rfl⟩ := (returns_rxProvide_refused wants).of_ok ran
    rfl
  · obtain ⟨-, accepted⟩ := (ensures_rxProvide wants).of_ok ran
    rw [accepted]
    rfl

theorem txLedger_rxPoll {r : Option RxCompletion} (ran : rxPoll c j = .ok (r, c') j') :
    c'.txLedger = c.txLedger := by
  cases armed : c.rxSlots.get (Controller.at c.rxNext) with
  | none =>
    obtain ⟨-, rfl⟩ := (returns_rxPoll_empty armed).of_ok ran
    rfl
  | some s =>
    cases owned : (EthernetBlock.entry .rx c.rxNext c.block).isDmaOwned
    · obtain ⟨-, -, -, done⟩ := (ensures_rxPoll_done armed owned).of_ok ran
      rw [done]
      rfl
    · obtain ⟨-, rfl⟩ := (returns_rxPoll_owned armed owned).of_ok ran
      rfl

theorem txLedger_rxRevoke {r : Option SlotId} (ran : rxRevoke c j = .ok (r, c') j') :
    c'.txLedger = c.txLedger := by
  cases running : c.running
  · cases found : c.revokeOrder.find? (fun i => (c.rxSlots.get (Controller.at i)).isSome) with
    | none =>
      obtain ⟨-, rfl⟩ := (returns_rxRevoke_none running found).of_ok ran
      rfl
    | some i =>
      obtain ⟨-, revoked⟩ := (ensures_rxRevoke running found).of_ok ran
      split at revoked <;> (rw [revoked]; rfl)
  · obtain ⟨-, rfl⟩ := (returns_rxRevoke_running running).of_ok ran
    rfl

end Receive

end Ethernet.Stm32.Controller
