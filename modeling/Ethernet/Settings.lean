import Ethernet.Address.Mac
import Ethernet.Address.Ipv4
import Ethernet.Error

/-! Sizes of the datapath, and the settings an interface is built from with the checks that refuse
them. -/
namespace Ethernet

def slotSize : Nat := 1536

def rxRingSize : Nat := 4

def txRingSize : Nat := 4

def mtu : Nat := 1500

def headerSize : Nat := 14

/-- The largest frame without its check sequence: 1514 bytes. -/
def maxFrameSize : Nat := mtu + headerSize

def crcSize : Nat := 4

def maxPhyAddress : Nat := 31

/-- How an interface is set up. -/
structure Settings where
  mac : MacAddress := MacAddress.localDefault
  phyAddress : Nat := 1
  rxBufferCount : Nat := 10
  /-- Run address acquisition; when off the static address is applied at start-up. -/
  dhcpEnabled : Bool := true
  maxDhcpTries : Nat := 4
  staticAddress : Ipv4Config := Ipv4Config.fallback
  linkPollIntervalMs : Nat := 100
  dhcpPollIntervalMs : Nat := 500
  txAcceptAttempts : Nat := 1000
  deriving DecidableEq, Repr

namespace Settings

def valid (s : Settings) : Bool :=
  !(s.rxBufferCount == 0 || s.rxBufferCount > 65535 || s.maxDhcpTries == 0
    || s.linkPollIntervalMs == 0 || s.dhcpPollIntervalMs == 0 || s.txAcceptAttempts == 0
    || s.phyAddress > maxPhyAddress || s.mac.isMulticast)

def validate (s : Settings) : Except NetError Unit :=
  if s.valid then .ok () else .error .invalidConfiguration

end Settings

end Ethernet
