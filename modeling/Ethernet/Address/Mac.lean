import Ethernet.Text.Hex

/-! Station (MAC) addresses: six octets, written as upper-case hex groups joined by `:`. Reading
splits at `:` or `-` and needs six groups of two digits, or of a `+` sign and one digit. -/
namespace Ethernet

/-- Forty-eight bits that name a station on the segment. -/
structure MacAddress where
  octets : Vector UInt8 6
  deriving DecidableEq, Repr

namespace MacAddress

/-- Address from its six octets, most significant first. -/
def ofOctets (a b c d e f : UInt8) : MacAddress := ⟨#v[a, b, c, d, e, f]⟩

/-- The locally administered address used when none is configured: `02:00:00:00:00:00`. -/
def localDefault : MacAddress := ofOctets 0x02 0 0 0 0 0

def zero : MacAddress := ofOctets 0 0 0 0 0 0

def broadcast : MacAddress := ofOctets 0xFF 0xFF 0xFF 0xFF 0xFF 0xFF

/-- The first octet, whose two low bits classify the address. -/
def first (m : MacAddress) : UInt8 := m.octets[0]

def isBroadcast (m : MacAddress) : Bool := m == broadcast

def isMulticast (m : MacAddress) : Bool := m.first &&& 1 != 0

def isUnicast (m : MacAddress) : Bool := !m.isMulticast

def isLocal (m : MacAddress) : Bool := m.first &&& 2 != 0

def toList (m : MacAddress) : List UInt8 := m.octets.toList

/-- Upper-case colon-separated text: `02:80:E1:00:00:0A`. -/
def render (m : MacAddress) : String :=
  ":".intercalate (m.toList.map Hex.byteUpper)

def isSeparator (c : Char) : Bool := c == ':' || c == '-'

/-- The groups between separators, empty ones included; no separator gives one group. -/
def groups : List Char → List (List Char)
  | [] => [[]]
  | c :: cs =>
    if isSeparator c then [] :: groups cs
    else match groups cs with
      | [] => [[c]]
      | g :: gs => (c :: g) :: gs

/-- The octet a group denotes: two digits, or a plus sign and one digit. A group must be two
bytes of text, so a single two-byte character is refused as well. -/
def octet? : List Char → Option UInt8
  | ['+', d] => (Hex.value? d).map Nat.toUInt8
  | [h, l] => do
    let a ← Hex.value? h
    let b ← Hex.value? l
    pure (a * 16 + b).toUInt8
  | _ => none

/-- Reads an address from its text; `none` is the parse failure. -/
def parse? (s : String) : Option MacAddress :=
  match groups s.toList with
  | [a, b, c, d, e, f] => do
    pure (ofOctets (← octet? a) (← octet? b) (← octet? c) (← octet? d) (← octet? e) (← octet? f))
  | _ => none

end MacAddress

end Ethernet
