import Ethernet.Proofs.Station.Engine
import Ethernet.Proofs.Address.Coherence

/-! Polling the link on the scripted board: `Polled` says once what one poll can do, and later
statements cite `polled_of_poll` instead of unfolding the poll. -/
namespace Ethernet

namespace Bench

/-- What a read of the scripted PHY answers: the value, or a bus error while reads fail. -/
def ScriptedPhy.reading {β : Type} (p : ScriptedPhy) (v : β) : Except NetError β :=
  if p.fail then .error (.phy .bus) else .ok v

/-- The engine once the link monitor has programmed it with `p` and started it. -/
def ScriptedMac.raised (m : ScriptedMac) (p : LinkParams) : ScriptedMac :=
  { ({ m.record (.setLinkParams p) with linkParams := some p }.record .start) with started := true }

variable {b : ScriptedBoard} {j : Journal}

/-! How the link monitor's calls run on the scripted board. -/

@[simp] theorem phyRead_negotiationDone :
    LinkMonitor.phyRead (PhyControl.negotiationDone : StateT ScriptedBoard Run _) b j =
      .ok (b.phy.reading b.phy.negotiationDone, b) j := by
  cases fails : b.phy.fail <;>
    simp [LinkMonitor.phyRead, PhyControl.negotiationDone, ScriptedPhy.answer, ScriptedPhy.reading,
      fails, Except.mapError]

@[simp] theorem phyRead_linkStatus :
    LinkMonitor.phyRead (PhyControl.linkStatus : StateT ScriptedBoard Run _) b j =
      .ok (b.phy.reading b.phy.link, b) j := by
  cases fails : b.phy.fail <;>
    simp [LinkMonitor.phyRead, PhyControl.linkStatus, ScriptedPhy.answer, ScriptedPhy.reading, fails,
      Except.mapError]

@[simp] theorem phyRead_speedIndication :
    LinkMonitor.phyRead (PhyControl.speedIndication : StateT ScriptedBoard Run _) b j =
      .ok (b.phy.reading b.phy.indication, b) j := by
  cases fails : b.phy.fail <;>
    simp [LinkMonitor.phyRead, PhyControl.speedIndication, ScriptedPhy.answer, ScriptedPhy.reading,
      fails, Except.mapError]

@[simp] theorem reading_of_works {β : Type} {p : ScriptedPhy} (works : p.fail = false) (v : β) :
    p.reading v = .ok v := by
  simp [ScriptedPhy.reading, works]

@[simp] theorem reading_of_fails {β : Type} {p : ScriptedPhy} (fails : p.fail = true) (v : β) :
    p.reading v = .error (.phy .bus) := by
  simp [ScriptedPhy.reading, fails]

@[simp] theorem setLinkParams_apply (p : LinkParams) :
    (MacEngine.setLinkParams p : StateT ScriptedBoard Run _) b j =
      if b.mac.failSetLink then .ok (.error .hardwareError, b) j
      else .ok (.ok (), { b with mac := { b.mac.record (.setLinkParams p) with linkParams := some p } }) j := by
  cases refused : b.mac.failSetLink <;>
    simp [MacEngine.setLinkParams, Board.onMac, refused, ScriptedMac.ok]

@[simp] theorem start_apply :
    (MacEngine.start : StateT ScriptedBoard Run _) b j =
      .ok (.ok (), { b with mac := { b.mac.record .start with started := true } }) j := by
  simp [MacEngine.start, Board.onMac, ScriptedMac.ok]

@[simp] theorem stop_apply :
    (MacEngine.stop : StateT ScriptedBoard Run _) b j =
      .ok (.ok (), { b with mac := (b.mac.record .stop).abortTx }) j := by
  simp [MacEngine.stop, Board.onMac, ScriptedMac.ok]

end Bench

open Bench

namespace LinkMonitor

/-- What one poll of the link can do on the scripted board. -/
inductive Polled (m : LinkMonitor) (b : ScriptedBoard) :
    Except NetError (Option LinkEvent) → LinkMonitor → ScriptedBoard → Prop
  /-- A PHY read or the engine's programming failed: nothing changed. -/
  | failed (e : NetError) : Polled m b (.error e) m b
  /-- Nothing new: no link yet, or still the link there was. -/
  | quiet : Polled m b (.ok none) m b
  | up {p : LinkParams} (down : m.state = .down) (works : b.phy.fail = false)
      (negotiated : b.phy.negotiationDone = true) (linked : b.phy.link = .up)
      (indicated : b.phy.indication.params? = some p) (programmable : b.mac.failSetLink = false) :
      Polled m b (.ok (some (.up p))) { state := .up p } { b with mac := b.mac.raised p }
  | down {q : LinkParams} (up : m.state = .up q) (works : b.phy.fail = false) (lost : b.phy.link = .down) :
      Polled m b (.ok (some .down)) { state := .down } { b with mac := (b.mac.record .stop).abortTx }

variable {m m' : LinkMonitor} {b b' : ScriptedBoard} {r : Except NetError (Option LinkEvent)}
  {j j' : Journal}

/-- Every poll of the link on the scripted board is one of the cases of `Polled`; the proof
follows the poll's branches, one PHY read or engine call at a time. -/
theorem polled_of_poll (ran : m.poll b j = .ok ((r, m'), b') j') : Polled m b r m' b' := by
  cases works : b.phy.fail
  case true =>
    cases state : m.state <;> simp [poll, state, works] at ran <;>
      obtain ⟨⟨⟨rfl, rfl⟩, rfl⟩, -⟩ := ran <;> exact .failed _
  cases state : m.state with
  | down =>
    cases negotiated : b.phy.negotiationDone
    case false =>
      simp [poll, state, works, negotiated] at ran
      obtain ⟨⟨⟨rfl, rfl⟩, rfl⟩, -⟩ := ran
      exact .quiet
    cases linked : b.phy.link
    case down =>
      simp [poll, state, works, negotiated, linked] at ran
      obtain ⟨⟨⟨rfl, rfl⟩, rfl⟩, -⟩ := ran
      exact .quiet
    cases indicated : b.phy.indication.params? with
    | none =>
      simp [poll, state, works, negotiated, linked, indicated] at ran
      obtain ⟨⟨⟨rfl, rfl⟩, rfl⟩, -⟩ := ran
      exact .quiet
    | some p =>
      cases programmable : b.mac.failSetLink
      · simp [poll, state, works, negotiated, linked, indicated, programmable] at ran
        obtain ⟨⟨⟨rfl, rfl⟩, rfl⟩, -⟩ := ran
        exact .up state works negotiated linked indicated programmable
      · simp [poll, state, works, negotiated, linked, indicated, programmable] at ran
        obtain ⟨⟨⟨rfl, rfl⟩, rfl⟩, -⟩ := ran
        exact .failed _
  | up q =>
    cases linked : b.phy.link
    · simp [poll, state, works, linked] at ran
      obtain ⟨⟨⟨rfl, rfl⟩, rfl⟩, -⟩ := ran
      exact .down state works linked
    · simp [poll, state, works, linked] at ran
      obtain ⟨⟨⟨rfl, rfl⟩, rfl⟩, -⟩ := ran
      exact .quiet

theorem Polled.unchanged_of_error {e : NetError} (polled : Polled m b (.error e) m' b') :
    m' = m ∧ b' = b := by
  cases polled
  exact ⟨rfl, rfl⟩

end LinkMonitor

namespace Interface

variable {α : Type} [AddressProtocol α] {i i' : Interface ScriptedBoard α} {j j' : Journal}
  {ev : Option LinkEvent}

/-- A link poll that fails, on a PHY read or on programming the engine, leaves the whole
interface as it was: the link, address acquisition and the board. -/
theorem pollLink_of_failed {e : NetError} {m : LinkMonitor} {b : ScriptedBoard} {j₁ : Journal}
    (failed : i.link.poll i.board j = .ok ((.error e, m), b) j₁) :
    ∃ j', i.pollLink j = .ok (none, i) j' := by
  obtain ⟨rfl, rfl⟩ := (LinkMonitor.polled_of_poll failed).unchanged_of_error
  exact ⟨j₁.push ⟨.warn, "[netif] link poll failed: " ++ e.message⟩,
    by simp [pollLink, onBoard, failed]⟩

/-- Once the monitor publishes a change of the link, address acquisition (when on) reacts to it,
and the interface takes the monitor and board the poll left behind. -/
theorem pollLink_of_published {e : LinkEvent} {m : LinkMonitor} {b : ScriptedBoard} {j₁ : Journal}
    (dhcp : i.settings.dhcpEnabled = true) (polled : i.link.poll i.board j = .ok ((.ok (some e), m), b) j₁)
    (ran : i.pollLink j = .ok (ev, i') j') :
    ∃ a p, i.acquisition.Reacted i.proto e a p ∧
      i' = { i with board := b, link := m, acquisition := a, proto := p } := by
  simp only [pollLink, onBoard, polled, bind_apply, get_apply, focus_apply, modify_apply, dhcp,
    if_true] at ran
  cases reacted : i.acquisition.onLinkEvent i.proto e j₁ with
  | error f j₂ => simp [reacted] at ran
  | ok y j₂ =>
    simp [reacted] at ran
    obtain ⟨⟨-, rfl⟩, -⟩ := ran
    exact ⟨_, _, Acquisition.reacted_of_onLinkEvent reacted, rfl⟩

/-- A link poll with address acquisition on either changes nothing, or publishes a change of the
link, which the board and the monitor show and address acquisition has reacted to. -/
theorem pollLink_cases (dhcp : i.settings.dhcpEnabled = true) (ran : i.pollLink j = .ok (ev, i') j') :
    i' = i ∨ ∃ e m b a p, i.link.Polled i.board (.ok (some e)) m b ∧
      i.acquisition.Reacted i.proto e a p ∧
      i' = { i with board := b, link := m, acquisition := a, proto := p } := by
  cases polled : i.link.poll i.board j with
  | error f j₁ => simp [pollLink, onBoard, polled] at ran
  | ok x j₁ =>
    obtain ⟨⟨r, m⟩, b⟩ := x
    have step := LinkMonitor.polled_of_poll polled
    cases step with
    | failed e =>
      simp [pollLink, onBoard, polled] at ran
      exact .inl ran.1.2.symm
    | quiet =>
      simp [pollLink, onBoard, polled] at ran
      exact .inl ran.1.2.symm
    | @up p down works negotiated linked indicated programmable =>
      obtain ⟨a, q, reacted, rfl⟩ := pollLink_of_published dhcp polled ran
      exact .inr ⟨_, _, _, _, _, .up down works negotiated linked indicated programmable, reacted, rfl⟩
    | @down q up works lost =>
      obtain ⟨a, p, reacted, rfl⟩ := pollLink_of_published dhcp polled ran
      exact .inr ⟨_, _, _, _, _, .down up works lost, reacted, rfl⟩

end Interface

end Ethernet
