import Ethernet.Interface.Datapath

/-! The IP layer a network stack runs over an interface, taken as a parameter: its sockets, its
DHCP socket and its poll, which uses the interface as its device. `Confined` names what the
stack relies on: the poll moves the interface only by device calls and keeps the DHCP socket. -/
namespace Ethernet

/-- What the DHCP socket reports: a lease (address, prefix length and router), or its loss. -/
inductive DhcpEvent where
  | configured (address : Ipv4Addr) (prefixLen : Nat) (router : Option Ipv4Addr)
  | deconfigured
  deriving DecidableEq, Repr

/-- What the IP layer's poll works on: the interface as its device, its own sockets, and the
DHCP socket while there is one. -/
abbrev ExchangeRun (η α ι δ : Type) := StateT (Interface η α × ι × Option δ) Run

/-- An IP layer with socket state `ι` and DHCP socket state `δ`. -/
class IpLayer (ι δ : Type) where
  /-- The layer with no sockets. -/
  empty : ι
  /-- A DHCP socket that has not yet run. -/
  newDhcp : δ
  /-- Polls the DHCP socket for an event. -/
  pollDhcp : δ → Option DhcpEvent × δ
  /-- Exchanges frames with the device at a time in microseconds. -/
  exchange {η α : Type} [MacEngine η] [PhyControl η] [AddressProtocol α] :
    Int → ExchangeRun η α ι δ Unit

namespace Interface

variable {η α : Type} [MacEngine η] [PhyControl η] [AddressProtocol α]

/-- One call of the IP layer on its device: take the next received frame, give a frame's
buffers back, or send a frame it filled in. -/
inductive DeviceCall (i : Interface η α) : Interface η α → Prop
  | receive {i' : Interface η α} {r : Option Chain} {j j' : Journal} :
      receive i j = .ok (r, i') j' → DeviceCall i i'
  | release {i' : Interface η α} (c : Chain) {j j' : Journal} :
      onPool c.release i j = .ok (⟨⟩, i') j' → DeviceCall i i'
  | transmit {i' : Interface η α} (d : Shared) {j j' : Journal} :
      transmitShared d i j = .ok (⟨⟩, i') j' → DeviceCall i i'

/-- The interface after any number of device calls. -/
inductive Handled (i : Interface η α) : Interface η α → Prop
  | refl : Handled i i
  | tail {i₁ i₂ : Interface η α} : Handled i i₁ → DeviceCall i₁ i₂ → Handled i i₂

end Interface

/-- The IP layer keeps to its side: its poll reaches the interface only through device calls,
and neither adds nor removes the DHCP socket. -/
structure IpLayer.Confined (ι δ : Type) [IpLayer ι δ] : Prop where
  exchange : ∀ {η α : Type} [MacEngine η] [PhyControl η] [AddressProtocol α] (now : Int)
    (st st' : Interface η α × ι × Option δ) (j j' : Journal),
    IpLayer.exchange now st j = .ok (⟨⟩, st') j' →
      Interface.Handled st.1 st'.1 ∧ st'.2.2.isSome = st.2.2.isSome

end Ethernet
