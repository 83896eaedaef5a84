/-! IPv4 addresses as 32-bit words, and interface settings: an address, a netmask and an
optional gateway, written `a.b.c.d/P via g`. -/
namespace Ethernet

/-- An IPv4 address as its 32-bit big-endian word. -/
structure Ipv4Addr where
  bits : UInt32
  deriving DecidableEq, Repr

namespace Ipv4Addr

/-- Address from four octets, most significant first. -/
def ofOctets (a b c d : Nat) : Ipv4Addr :=
  ⟨(a % 256 * Nat.pow 2 24 + b % 256 * Nat.pow 2 16 + c % 256 * Nat.pow 2 8 + d % 256).toUInt32⟩

def octets (ip : Ipv4Addr) : List Nat :=
  [24, 16, 8, 0].map fun s => ip.bits.toNat / Nat.pow 2 s % 256

/-- Whether this is the limited broadcast address, 255.255.255.255. -/
def isBroadcast (ip : Ipv4Addr) : Bool := ip.bits == 0xFFFFFFFF

/-- Whether this is a multicast address, in 224.0.0.0/4. -/
def isMulticast (ip : Ipv4Addr) : Bool := ip.bits >>> 28 == 0xE

/-- Whether this is the unspecified address, 0.0.0.0. -/
def isUnspecified (ip : Ipv4Addr) : Bool := ip.bits == 0

/-- Whether a single host may hold this address: it is neither broadcast, multicast nor
unspecified. -/
def isUnicast (ip : Ipv4Addr) : Bool := !(ip.isBroadcast || ip.isMulticast || ip.isUnspecified)

/-- Dotted decimal text: `192.168.1.10`. -/
def render (ip : Ipv4Addr) : String :=
  ".".intercalate (ip.octets.map Nat.repr)

/-- Reads one octet: one to three decimal digits, no leading zero unless the octet is `0`,
value at most 255. -/
def octet? (cs : List Char) : Option Nat :=
  if cs.isEmpty || cs.length > 3 || !cs.all Char.isDigit then none
  else if cs.length > 1 && cs.head? == some '0' then none
  else
    let n := cs.foldl (fun acc c => acc * 10 + (c.toNat - 48)) 0
    if n ≤ 255 then some n else none

def fields : List Char → List (List Char)
  | [] => [[]]
  | c :: cs =>
    if c == '.' then [] :: fields cs
    else match fields cs with
      | [] => [[c]]
      | f :: fs => (c :: f) :: fs

/-- Reads dotted decimal text with exactly four octets. -/
def parse? (s : String) : Option Ipv4Addr :=
  match fields s.toList with
  | [a, b, c, d] => do pure (ofOctets (← octet? a) (← octet? b) (← octet? c) (← octet? d))
  | _ => none

end Ipv4Addr

/-- The number of one bits at the top of a 32-bit word, before the first zero. -/
def leadingOnes (w : UInt32) : Nat :=
  ((List.range 32).reverse.takeWhile fun k => w.toNat / Nat.pow 2 k % 2 == 1).length

/-- A netmask with the `n` top bits set; every bit from `n = 32` on. -/
def maskOfPrefix (n : Nat) : UInt32 :=
  if n = 0 then 0
  else if 32 ≤ n then 0xFFFFFFFF
  else (0xFFFFFFFF : UInt32) <<< (32 - n).toUInt32

/-- Address, netmask and optional gateway of an interface. -/
structure Ipv4Config where
  address : Ipv4Addr
  netmask : Ipv4Addr
  gateway : Option Ipv4Addr
  deriving DecidableEq, Repr

namespace Ipv4Config

/-- Setting from a prefix length instead of a netmask. -/
def ofPrefix (address : Ipv4Addr) (prefixLen : Nat) (gateway : Option Ipv4Addr) : Ipv4Config :=
  ⟨address, ⟨maskOfPrefix prefixLen⟩, gateway⟩

def prefixLen (c : Ipv4Config) : Nat := leadingOnes c.netmask.bits

/-- The address used when address acquisition gives up: 192.168.1.10/24 via 192.168.1.1. -/
def fallback : Ipv4Config :=
  ⟨Ipv4Addr.ofOctets 192 168 1 10, Ipv4Addr.ofOctets 255 255 255 0,
    some (Ipv4Addr.ofOctets 192 168 1 1)⟩

/-- `a.b.c.d/P`, then ` via g` when there is a gateway. -/
def render (c : Ipv4Config) : String :=
  let base := c.address.render ++ "/" ++ c.prefixLen.repr
  match c.gateway with
  | some g => base ++ " via " ++ g.render
  | none => base

end Ipv4Config

end Ethernet
