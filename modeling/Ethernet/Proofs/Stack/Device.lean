import Ethernet.Proofs.Address.Follows
import Ethernet.Bench.ScriptedIp

/-! The interface as an IP layer's device. Device calls leave the address record alone, and the
scripted IP layer is confined: its exchange moves the interface only by device calls and keeps
the DHCP socket. -/
namespace Ethernet

namespace Interface

section Handled

variable {η α : Type} [MacEngine η] {i i₁ i₂ : Interface η α}

theorem Handled.trans (first : Handled i i₁) (second : Handled i₁ i₂) : Handled i i₂ := by
  induction second with
  | refl => exact first
  | tail _ call ih => exact ih.tail call

theorem Handled.single (call : DeviceCall i i₁) : Handled i i₁ := Handled.refl.tail call

end Handled

variable {α : Type} {i i' : Interface Bench.ScriptedBoard α}

theorem DeviceCall.addressRecord (call : DeviceCall i i') : i'.addressRecord = i.addressRecord := by
  cases call with
  | receive ran => exact (addressSteps.receive i).of_ok ran
  | release c ran => exact (addressSteps.onPool _ i).of_ok ran
  | transmit d ran => exact (addressSteps.transmitShared d i).of_ok ran

theorem Handled.addressRecord (handled : Handled i i') : i'.addressRecord = i.addressRecord := by
  induction handled with
  | refl => rfl
  | tail _ call ih => exact call.addressRecord.trans ih

end Interface

namespace Bench.ScriptedIp

open Interface

variable {η α β γ : Type} [MacEngine η]

/-- An exchange step that moves the device only by device calls and keeps the DHCP socket,
whenever it ends. -/
def Confines (act : Exchange η α β) : Prop :=
  ∀ st, Ensures act st (fun _ st' => Handled st.1 st'.1 ∧ st'.2.2.isSome = st.2.2.isSome)
    (fun _ => True)

theorem confines_pure (a : β) : Confines (pure a : Exchange η α β) :=
  fun _ => ensures_pure ⟨.refl, rfl⟩

theorem Confines.bind {x : Exchange η α β} {f : β → Exchange η α γ} (first : Confines x)
    (rest : ∀ a, Confines (f a)) : Confines (x >>= f) := fun st =>
  ensures_bind ((first st).mono (fun a st₁ moved => (rest a st₁).mono
    (fun _ _ moved' => ⟨moved.1.trans moved'.1, moved'.2.trans moved.2⟩) (fun _ => id))
    (fun _ => id))

theorem confines_get : Confines (get : Exchange η α _) := fun _ => ensures_get ⟨.refl, rfl⟩

theorem confines_onDevice {act : IfRun η α β}
    (calls : ∀ i j a i' j', act i j = .ok (a, i') j' → DeviceCall i i') : Confines (onDevice act) := by
  intro st
  apply ensures_focus
  intro j
  split
  · rename_i ran
    exact ⟨.single (calls _ _ _ _ _ ran), rfl⟩
  · trivial

theorem confines_ingressFor : ∀ fuel, Confines (ingressFor fuel : Exchange η α Bool)
  | 0 => confines_pure _
  | fuel + 1 => by
    unfold ingressFor
    refine (confines_onDevice fun _ _ _ _ _ ran => .receive ran).bind fun received => ?_
    split
    · exact confines_pure _
    · exact (confines_onDevice fun _ _ _ _ _ ran => .release _ ran).bind fun _ =>
        (confines_ingressFor fuel).bind fun _ => confines_pure _

theorem confines_ingress : Confines (ingress : Exchange η α Bool) :=
  confines_get.bind fun _ => confines_ingressFor _

theorem confines_egress (now : Int) : Confines (egress now : Exchange η α Bool) := by
  intro st
  unfold egress
  refine ensures_bind (ensures_get ?_)
  cases socket : st.2.2 with
  | none => exact ensures_pure ⟨.refl, by rw [socket]⟩
  | some sock =>
    dsimp only
    split
    · exact ensures_pure ⟨.refl, by rw [socket]⟩
    refine ensures_seq (ensures_set (ensures_seq (((confines_onDevice fun _ _ _ _ _ ran =>
      .transmit _ ran) _).mono (fun _ st₁ moved => ensures_bind (ensures_lift_ok fun _ _ _ _ =>
        ensures_seq (ensures_modify (ensures_pure ⟨moved.1, rfl⟩)))) (fun _ => id))))

theorem confines_exchangeFor (now : Int) : ∀ fuel, Confines (exchangeFor now fuel : Exchange η α Unit)
  | 0 => confines_pure _
  | fuel + 1 => by
    unfold exchangeFor
    refine confines_ingress.bind fun received => (confines_egress now).bind fun sent => ?_
    split
    · exact confines_exchangeFor now fuel
    · exact confines_pure _

theorem confined : IpLayer.Confined ScriptedIp ScriptedDhcp :=
  ⟨fun now st _ _ _ ran => (confines_exchangeFor now 3 st).of_ok ran⟩

end Bench.ScriptedIp

end Ethernet
