import Ethernet.Address.Acquisition

/-! The address protocol backed by the stack's DHCP socket. The machine and the stack meet in a
mailbox: a command and an address change one way, the last lease the other. -/
namespace Ethernet

/-- A command for the stack's DHCP socket. -/
inductive DhcpCommand where
  | restart
  | stop
  deriving DecidableEq, Repr

/-- The mailbox between the acquisition machine and the stack. `pending` is an address change
not yet put into force: `some none` clears the address. -/
structure DhcpClient where
  command : Option DhcpCommand := none
  lease : Option Ipv4Config := none
  pending : Option (Option Ipv4Config) := none
  deriving DecidableEq, Repr

instance : AddressProtocol DhcpClient where
  start c := (.ok (), { c with command := some .restart, lease := none })
  stop c := { c with command := some .stop, lease := none }
  supplied c := (c.lease, c)
  apply a c := { c with pending := some a }

/-- A protocol that holds the mailbox, so the stack can read and write it. -/
class DhcpMailbox (α : Type) where
  mailbox : α → DhcpClient
  withMailbox : α → DhcpClient → α

instance : DhcpMailbox DhcpClient where
  mailbox m := m
  withMailbox _ m := m

end Ethernet
