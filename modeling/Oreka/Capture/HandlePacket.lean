import Mathlib.Algebra.Ring.Nat
import Oreka.Net.IpFragmentation

/-!
# Captured packets

`HandlePacket` of `VoIp.cpp`, up to the routines that look into the transport layer: where the IP
header of a captured frame is, the checks that drop it, the address filter of the configuration, and
the reassembly. Memory is a list of bytes from a pointer on.
-/

namespace Oreka.Capture

open Oreka.Net IpHeader

/-! ## The address filter -/

/-- An entry of the lists of prefixes and of bit widths. -/
structure IpRange where
  bitWidth : Nat
  rangePrefix : Nat
  deriving DecidableEq, Repr

/-- What `HandlePacket` reads of `VoIpConfig`. -/
structure CaptureConfig where
  pcapTest : Bool := false
  ipFragmentsReassemble : Bool := false
  allowedIpRanges : List IpRange := []
  blockedIpRanges : List IpRange := []
  deriving DecidableEq, Repr

/-- `ntohl` of the four bytes at an offset. -/
def ntohl (b : List UInt8) (i : Nat) : Nat := ntohs b i * 65536 + ntohs b (i + 2)

/-- `ntohl(addr) >> bitWidth == prefix`, the address at `i`. -/
def IpRange.covers (r : IpRange) (ipHeader : List UInt8) (i : Nat) : Bool :=
  ntohl ipHeader i / 2 ^ r.bitWidth == r.rangePrefix

/-- `VoIpConfig::IsPacketWanted`. -/
def CaptureConfig.isPacketWanted (cfg : CaptureConfig) (ipHeader : List UInt8) : Bool :=
  let wanted := cfg.allowedIpRanges.isEmpty ||
    (cfg.allowedIpRanges.any (·.covers ipHeader 12) &&
      cfg.allowedIpRanges.any (·.covers ipHeader 16))
  wanted && !cfg.blockedIpRanges.any fun r => r.covers ipHeader 12 || r.covers ipHeader 16

/-! ## The transport layer -/

/-- What `ProcessTransportLayer` calls. -/
inductive Routine
  | stripTzspEncapsulation
  | detectUsefulUdpPacket
  | detectUsefulTcpPacket
  /-- It looks for a packet inside a GRE tunnel. -/
  | gre
  | ignored
  deriving DecidableEq, Repr

structure Transport where
  routine : Routine
  ethernetHeader : List UInt8
  ipHeader : List UInt8
  ipHeaderLength : Nat
  ipPacketEnd : Nat
  deriving DecidableEq, Repr

/-- The transport payload that the routine gets. -/
def Transport.payload (t : Transport) : List UInt8 :=
  copy t.ipHeader t.ipHeaderLength (t.ipPacketEnd - t.ipHeaderLength)

abbrev TZSP_PORT : Nat := 0x9090

def processTransportLayer (ethernetHeader ipHeader : List UInt8) : Transport where
  routine :=
    if protocol ipHeader = 17 then
      if ntohs ipHeader (headerLen ipHeader + 2) = TZSP_PORT then .stripTzspEncapsulation
      else .detectUsefulUdpPacket
    else if protocol ipHeader = 6 then .detectUsefulTcpPacket
    else if protocol ipHeader = 47 then .gre
    else .ignored
  ethernetHeader := ethernetHeader
  ipHeader := ipHeader
  ipHeaderLength := headerLen ipHeader
  ipPacketEnd := packetLen ipHeader

/-! ## HandlePacket -/

abbrev ETHER_TYPE_IPV4 : Nat := 0x0800
abbrev ETHER_TYPE_ARP : Nat := 0x0806
abbrev ETHER_TYPE_IEEE8021Q : Nat := 0x8100
abbrev ETHER_TYPE_IPV6 : Nat := 0x86DD
abbrev ETHER_TYPE_VNTAG : Nat := 0x8926

/-- `sizeof(EthernetHeaderStruct)`, and the offset of its `type`. -/
abbrev ethernetHeaderSize : Nat := 14
abbrev ethernetType : Nat := 12

abbrev TCP_HEADER_LENGTH : Nat := 20

/-- Where the Ethernet header and the IP header of a frame are. -/
def locateHeaders (pktData : List UInt8) : Option (Nat × Nat) :=
  let type := ntohs pktData ethernetType
  if type = ETHER_TYPE_IEEE8021Q then some (0, ethernetHeaderSize + 4)
  else if type = ETHER_TYPE_VNTAG then some (0, ethernetHeaderSize + 10)
  else if type = ETHER_TYPE_IPV4 ∨ type = ETHER_TYPE_ARP then some (0, ethernetHeaderSize)
  else if type = ETHER_TYPE_IPV6 then none
  else
    -- maybe a Linux cooked capture, whose type field is two bytes further on
    let type := ntohs pktData (2 + ethernetType)
    if type = ETHER_TYPE_IEEE8021Q then some (2, 2 + ethernetHeaderSize + 4)
    else if type = ETHER_TYPE_IPV6 then none
    else some (2, 2 + ethernetHeaderSize)

/-- `ip_v`. -/
def ipV (b : List UInt8) : Nat := (byte b 0).toNat / 16

/-- The version may be found further on, but the caller's pointer stays where it is. -/
def tryIpPacketV4 (ipHeader : List UInt8) : Bool :=
  ipV ipHeader == 4 || ipV (ipHeader.drop 2) == 4 || ipV (ipHeader.drop 4) == 4 ||
    ipV (ipHeader.drop 6) == 4 || ipV (ipHeader.drop 18) == 4

/-- A call of `HandlePacket`, with the clock that the reassembly reads. -/
structure Captured where
  now : Int
  updated : Int
  caplen : Nat
  pktData : List UInt8

/-- `captureEnd < ipPacketEnd || ipPacketEnd <= ipHeader + ipHeaderLength + TCP_HEADER_LENGTH`, the
IP header at `ip`. -/
def snippedOrShort (p : Captured) (ip : Nat) (ipHeader : List UInt8) : Bool :=
  p.caplen < ip + packetLen ipHeader || packetLen ipHeader ≤ headerLen ipHeader + TCP_HEADER_LENGTH

/-- A fragment goes to `HandleIpFragment`, which returns packet data when the packet is complete. -/
def processFragment (s : FragmentTable) (ethernetHeader : List UInt8) (a : Arrival) :
    Except Failure (FragmentTable × Option Transport) := do
  let (s, packetData) ← s.handleIpFragment a
  match packetData with
  | none => return (s, none)
  | some packetData =>
    let ipHeader ← SizedBuffer.get packetData
    return (s, some (processTransportLayer ethernetHeader ipHeader))

/-- What is called for a captured packet, if anything. -/
def handlePacket (cfg : CaptureConfig) (s : FragmentTable) (p : Captured) :
    Except Failure (FragmentTable × Option Transport) :=
  if cfg.pcapTest then .ok (s, none)
  else
    match locateHeaders p.pktData with
    | none => .ok (s, none)
    | some (ethernet, ip) =>
      let ethernetHeader := p.pktData.drop ethernet
      let ipHeader := p.pktData.drop ip
      if !tryIpPacketV4 ipHeader then .ok (s, none)
      else if snippedOrShort p ip ipHeader then .ok (s, none)
      else if !cfg.isPacketWanted ipHeader then .ok (s, none)
      else if cfg.ipFragmentsReassemble && isFragmented ipHeader then
        processFragment s ethernetHeader ⟨p.now, p.updated, ipHeader⟩
      else .ok (s, some (processTransportLayer ethernetHeader ipHeader))

/-- One captured packet after the other. -/
def handlePackets (cfg : CaptureConfig) (s : FragmentTable) :
    List Captured → Except Failure (FragmentTable × List (Option Transport))
  | [] => .ok (s, [])
  | p :: ps => do
    let (s, t) ← handlePacket cfg s p
    let (s, ts) ← handlePackets cfg s ps
    return (s, t :: ts)

end Oreka.Capture
