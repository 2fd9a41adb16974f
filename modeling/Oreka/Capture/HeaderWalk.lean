import Oreka.Lib.Reading
import Oreka.Capture.HandlePacket

/-!
# The walk over a frame's headers

The functions of `VoIp.cpp` that decide what to do with a captured frame, with every field they read
and every payload range they pass on: `HandlePacket`, `TryIpPacketV4`, `ProcessTransportLayer` with
its tunnels, `DetectUsefulTcpPacket`. A pointer is an offset of the frame. The walk takes what its
callers of `TryIpPacketV4` go on with as an argument: their own pointer (`kept`) in the source.
-/

namespace Oreka.Capture

open Oreka.Net IpHeader

abbrev PROT_ERSPAN : Nat := 0x88be
abbrev PROT_TRP : Nat := 0x6558
abbrev TZSP_PROTOCOL_VERSION : Nat := 1
abbrev TZSP_TYPE_RECEIVED_TAG_LIST : Nat := 0
abbrev TZSP_TYPE_PACKET_FOR_TRANSMIT : Nat := 1
abbrev TZSP_ENCAP_ETHERNET : Nat := 1
abbrev TZSP_TAG_END : Nat := 1
abbrev TZSP_TAG_PADDING : Nat := 0

/-- `sizeof` of `UdpHeaderStruct`, `TzspHeaderStruct`, `TzspTagStruct`, `GreHeaderStruct` and
`ErspanHeaderStruct`. -/
abbrev udpHeaderSize : Nat := 8
abbrev tzspHeaderSize : Nat := 4
abbrev tzspTagSize : Nat := 2
abbrev greHeaderSize : Nat := 8
abbrev erspanHeaderSize : Nat := 8

/-- What the walk reads of `VoIpConfig`, with what `TrySipTcp` returns for the TCP header at an
offset. -/
structure WalkConfig extends CaptureConfig where
  skinnyTcpPort : Nat := 2000
  sipOverTcpSupport : Bool := false
  urlExtractorEnable : Bool := false
  urlExtractorPort : Nat := 0
  /-- `m_onDemandTcpMarkerKey.length() > 0`. -/
  onDemandTcpMarker : Bool := false
  trySipTcp : Nat → Bool := fun _ => false

inductive Detector
  | detectUsefulUdpPacket
  | detectUsefulTcpPacket
  deriving DecidableEq, Repr

/-- A call of a detector. -/
structure Detection where
  detector : Detector
  ethernetHeader : Nat
  ipHeader : Nat
  ipHeaderLength : Nat
  ipPacketEnd : Nat
  deriving DecidableEq, Repr

/-- The detector that is called, if one is, and the payload ranges that are passed on. -/
structure Outcome where
  detection : Option Detection := none
  passedOn : List Span := []
  deriving DecidableEq, Repr

namespace Walk

def readByte (m : List UInt8) (i : Nat) : Reading Nat := .look i 1 (byte m i).toNat

def readShort (m : List UInt8) (i : Nat) : Reading Nat := .look i 2 (ntohs m i)

@[simp] theorem within_readByte {m : List UInt8} {n i : Nat} :
    (readByte m i).Within n ↔ i + 1 ≤ n := Reading.within_look (by decide)

@[simp] theorem within_readShort {m : List UInt8} {n i : Nat} :
    (readShort m i).Within n ↔ i + 2 ≤ n := Reading.within_look (by decide)

@[simp] theorem readByte_value (m : List UInt8) (i : Nat) :
    (readByte m i).value = (byte m i).toNat := (rfl)

@[simp] theorem readShort_value (m : List UInt8) (i : Nat) :
    (readShort m i).value = ntohs m i := (rfl)

/-! ## TryIpPacketV4 -/

/-- The version is looked for further on, step by step; where it was found. -/
def findVersion (m : List UInt8) : Nat → List Nat → Reading (Option Nat)
  | ip, [] => do
    let b ← readByte m ip
    return if b / 16 = 4 then some ip else none
  | ip, step :: steps => do
    let b ← readByte m ip
    if b / 16 = 4 then return some ip else findVersion m (ip + step) steps

/-- The local `ipHeader` of `TryIpPacketV4` when it returns true. -/
def findIpPacketV4 (m : List UInt8) (ip : Nat) : Reading (Option Nat) := findVersion m ip [2, 2, 2, 12]

def tryIpPacketV4 (m : List UInt8) (ip : Nat) : Reading Bool := do
  let found ← findIpPacketV4 m ip
  return found.isSome

/-- What a caller of `TryIpPacketV4` goes on with. -/
abbrev Align := List UInt8 → Nat → Reading (Option Nat)

/-- The source's callers go on with their own pointer. -/
def kept : Align := fun m ip => do
  let ok ← tryIpPacketV4 m ip
  return if ok then some ip else none

/-- `if(TryIpPacketV4(ipHeader) != true) return;`, and what a caller does then. -/
def withIpHeader (align : Align) (m : List UInt8) (ip : Nat) (next : Nat → Reading Outcome) :
    Reading Outcome := do
  let aligned ← align m ip
  match aligned with
  | none => return {}
  | some ip => next ip

theorem findIpPacketV4_isSome (m : List UInt8) (ip : Nat) :
    (findIpPacketV4 m ip).value.isSome = Capture.tryIpPacketV4 (m.drop ip) := by
  simp only [findIpPacketV4, findVersion, Capture.tryIpPacketV4, ipV, byte_drop, Reading.bind_value,
    readByte_value, Nat.add_zero, Nat.add_assoc, Nat.reduceAdd]
  by_cases h0 : (byte m ip).toNat / 16 = 4
  · simp [h0]
  by_cases h2 : (byte m (ip + 2)).toNat / 16 = 4
  · simp [h0, h2]
  by_cases h4 : (byte m (ip + 4)).toNat / 16 = 4
  · simp [h0, h2, h4]
  by_cases h6 : (byte m (ip + 6)).toNat / 16 = 4
  · simp [h0, h2, h4, h6]
  by_cases h18 : (byte m (ip + 18)).toNat / 16 = 4
  · simp [h0, h2, h4, h6, h18]
  · simp [h0, h2, h4, h6, h18]

theorem kept_value (m : List UInt8) (ip : Nat) :
    (kept m ip).value = if Capture.tryIpPacketV4 (m.drop ip) = true then some ip else none := by
  rw [← findIpPacketV4_isSome]
  rfl

/-! ## DetectUsefulTcpPacket -/

/-- The first test: a Skinny message, or what `TrySipTcp` returns. -/
def tryTcp (cfg : WalkConfig) (m : List UInt8) (tcp : Nat) : Reading Bool := do
  let source ← readShort m tcp
  if source = cfg.skinnyTcpPort then return true
  else
    let dest ← readShort m (tcp + 2)
    return dest = cfg.skinnyTcpPort || (cfg.sipOverTcpSupport && cfg.trySipTcp tcp)

/-- The URL that is copied. -/
def extractUrl (cfg : WalkConfig) (m : List UInt8) (ip tcp : Nat) : Reading (List Span) :=
  if cfg.urlExtractorEnable then do
    let dest ← readShort m (tcp + 2)
    if dest = cfg.urlExtractorPort then
      let off ← readByte m (tcp + 12)
      let ipLen ← readShort m (ip + 2)
      let ipHl ← readByte m ip
      let start := tcp + off / 16 * 4
      return [⟨start, start + (ipLen - ipHl % 16 * 4 - TCP_HEADER_LENGTH)⟩]
    else return []
  else return []

/-- What the marker is looked for in. -/
def findMarker (cfg : WalkConfig) (m : List UInt8) (tcp ipPacketEnd : Nat) : Reading (List Span) :=
  if cfg.onDemandTcpMarker then do
    let off ← readByte m (tcp + 12)
    return [⟨tcp + off / 16 * 4, ipPacketEnd⟩]
  else return []

def detectUsefulTcpPacket (cfg : WalkConfig) (m : List UInt8) (ip ipHeaderLength ipPacketEnd : Nat) :
    Reading (List Span) := do
  let detected ← tryTcp cfg m (ip + ipHeaderLength)
  if detected then return []
  else
    let url ← extractUrl cfg m ip (ip + ipHeaderLength)
    let marker ← findMarker cfg m (ip + ipHeaderLength) ipPacketEnd
    return url ++ marker

/-- The detector of a protocol is called. -/
def detect (cfg : WalkConfig) (m : List UInt8) (protocol ethernet ip ipHeaderLength ipPacketEnd : Nat) :
    Reading Outcome :=
  if protocol = 17 then
    return {
      detection := some ⟨.detectUsefulUdpPacket, ethernet, ip, ipHeaderLength, ipPacketEnd⟩
      passedOn := [⟨ip + ipHeaderLength, ipPacketEnd⟩] }
  else if protocol = 6 then do
    let ranges ← detectUsefulTcpPacket cfg m ip ipHeaderLength ipPacketEnd
    return {
      detection := some ⟨.detectUsefulTcpPacket, ethernet, ip, ipHeaderLength, ipPacketEnd⟩
      passedOn := ⟨ip + ipHeaderLength, ipPacketEnd⟩ :: ranges }
  else return {}

/-! ## Tunnels -/

/-- Behind the END tag, if there is one. Every tag moves the pointer on, so `packetEnd - payload`
rounds are enough. -/
def skipTags (m : List UInt8) (packetEnd : Nat) : Nat → Nat → Reading (Option Nat)
  | 0, _ => return none
  | rounds + 1, payload =>
    if payload < packetEnd then do
      let type ← readByte m payload
      if type = TZSP_TAG_END then return some (payload + 1)
      else if type = TZSP_TAG_PADDING then skipTags m packetEnd rounds (payload + 1)
      else if payload + tzspTagSize > packetEnd then return none
      else
        let length ← readByte m (payload + 1)
        if payload + tzspTagSize + length > packetEnd then return none
        else skipTags m packetEnd rounds (payload + tzspTagSize + length)
    else return none

/-- The Ethernet header behind a TZSP header and its tags. -/
def tzspPayload (m : List UInt8) (udp packetEnd : Nat) : Reading (Option Nat) := do
  let len ← readShort m (udp + 4)
  if len < tzspHeaderSize then return none
  else
    let version ← readByte m (udp + udpHeaderSize)
    if version ≠ TZSP_PROTOCOL_VERSION then return none
    else
      let type ← readByte m (udp + udpHeaderSize + 1)
      if type ≠ TZSP_TYPE_RECEIVED_TAG_LIST ∧ type ≠ TZSP_TYPE_PACKET_FOR_TRANSMIT then return none
      else
        let encap ← readShort m (udp + udpHeaderSize + 2)
        if encap ≠ TZSP_ENCAP_ETHERNET then return none
        else
          let payload := udp + udpHeaderSize + tzspHeaderSize
          skipTags m packetEnd (packetEnd - payload) payload

/-- Where the IP header of a frame inside TZSP is. -/
def tzspIpHeader (type ethernet : Nat) : Option Nat :=
  if type = 0x8100 then some (ethernet + ethernetHeaderSize + 4)
  else if type = 0x8926 then some (ethernet + ethernetHeaderSize + 10)
  else if type = 0x0800 ∨ type = 0x0806 then some (ethernet + ethernetHeaderSize)
  else none

/-- An inner packet inside TZSP. -/
def detectInTzsp (align : Align) (cfg : WalkConfig) (m : List UInt8) (ethernet ip : Nat) :
    Reading Outcome :=
  withIpHeader align m ip fun ip => do
    let ipHl ← readByte m ip
    let ipLen ← readShort m (ip + 2)
    let protocol ← readByte m (ip + 9)
    detect cfg m protocol ethernet ip (ipHl % 16 * 4) (ip + ipLen)

def stripTzspEncapsulation (align : Align) (cfg : WalkConfig) (m : List UInt8) (udp packetEnd : Nat) :
    Reading Outcome := do
  let payload ← tzspPayload m udp packetEnd
  match payload with
  | none => return {}
  | some ethernet => do
    let type ← readShort m (ethernet + ethernetType)
    match tzspIpHeader type ethernet with
    | none => return {}
    | some ip => detectInTzsp align cfg m ethernet ip

/-- The Ethernet header inside a GRE tunnel that is known. -/
def grePayload (m : List UInt8) (gre : Nat) : Reading (Option Nat) := do
  let flagVersion ← readShort m gre
  let protocolType ← readShort m (gre + 2)
  return if flagVersion = 0x1000 ∧ protocolType = PROT_ERSPAN then
      some (gre + greHeaderSize + erspanHeaderSize)
    else if flagVersion = 0x2000 ∧ protocolType = PROT_TRP then some (gre + greHeaderSize)
    else none

/-- Where the IP header of a frame inside GRE is. -/
def greIpHeader (type ethernet : Nat) : Nat :=
  if type = 0x8100 then ethernet + ethernetHeaderSize + 4 else ethernet + ethernetHeaderSize

/-- An inner packet inside GRE: `encapsulatedIpHeaderLength` is `ipHeader->ip_hl*4` of the outer
header. -/
def detectInGre (align : Align) (cfg : WalkConfig) (m : List UInt8) (outer ethernet ip : Nat) :
    Reading Outcome :=
  withIpHeader align m ip fun ip => do
    let outerHl ← readByte m outer
    let ipLen ← readShort m (ip + 2)
    let protocol ← readByte m (ip + 9)
    detect cfg m protocol ethernet ip (outerHl % 16 * 4) (ip + ipLen)

def stripGre (align : Align) (cfg : WalkConfig) (m : List UInt8) (outer gre : Nat) :
    Reading Outcome := do
  let payload ← grePayload m gre
  match payload with
  | none => return {}
  | some ethernet => do
    let type ← readShort m (ethernet + ethernetType)
    detectInGre align cfg m outer ethernet (greIpHeader type ethernet)

/-! ## ProcessTransportLayer -/

/-- The branches on `ip_p`. -/
def processProtocol (align : Align) (cfg : WalkConfig) (m : List UInt8)
    (protocol ethernet ip ipHeaderLength ipPacketEnd : Nat) : Reading Outcome :=
  if protocol = 17 then do
    let dest ← readShort m (ip + ipHeaderLength + 2)
    if dest = TZSP_PORT then stripTzspEncapsulation align cfg m (ip + ipHeaderLength) ipPacketEnd
    else detect cfg m protocol ethernet ip ipHeaderLength ipPacketEnd
  else if protocol = 47 then stripGre align cfg m ip (ip + ipHeaderLength)
  else detect cfg m protocol ethernet ip ipHeaderLength ipPacketEnd

def processTransportLayer (align : Align) (cfg : WalkConfig) (m : List UInt8) (ethernet ip : Nat) :
    Reading Outcome := do
  let ipHl ← readByte m ip
  let ipLen ← readShort m (ip + 2)
  let protocol ← readByte m (ip + 9)
  processProtocol align cfg m protocol ethernet ip (ipHl % 16 * 4) (ip + ipLen)

/-! ## HandlePacket -/

/-- The type field of a Linux cooked capture. -/
def locateCooked (m : List UInt8) : Reading (Option (Nat × Nat)) := do
  let type ← readShort m (2 + ethernetType)
  return if type = ETHER_TYPE_IEEE8021Q then some (2, 2 + ethernetHeaderSize + 4)
    else if type = ETHER_TYPE_IPV6 then none
    else some (2, 2 + ethernetHeaderSize)

def locateHeaders (m : List UInt8) : Reading (Option (Nat × Nat)) := do
  let type ← readShort m ethernetType
  if type = ETHER_TYPE_IEEE8021Q then return some (0, ethernetHeaderSize + 4)
  else if type = ETHER_TYPE_VNTAG then return some (0, ethernetHeaderSize + 10)
  else if type = ETHER_TYPE_IPV4 ∨ type = ETHER_TYPE_ARP then return some (0, ethernetHeaderSize)
  else if type = ETHER_TYPE_IPV6 then return none
  else locateCooked m

theorem locateHeaders_value (m : List UInt8) :
    (locateHeaders m).value = Capture.locateHeaders m := by
  unfold locateHeaders Capture.locateHeaders
  simp only [Reading.bind_value, readShort_value]
  repeat' split
  all_goals first | rfl | simp_all [locateCooked]

/-- `IsPacketWanted` reads both addresses when there is a list. -/
def isPacketWanted (cfg : WalkConfig) (m : List UInt8) (ip : Nat) : Reading Bool :=
  if cfg.allowedIpRanges.isEmpty && cfg.blockedIpRanges.isEmpty then return true
  else .look (ip + 12) 8 (cfg.isPacketWanted (m.drop ip))

/-- The packet goes to `HandleIpFragment`. -/
def goesToReassembly (cfg : WalkConfig) (m : List UInt8) (ip : Nat) : Reading Bool :=
  if cfg.ipFragmentsReassemble then .look (ip + 6) 2 (isFragmented (m.drop ip)) else return false

/-- The packet is neither snipped, nor too short, nor unwanted, nor a fragment to reassemble. -/
def isProcessed (cfg : WalkConfig) (p : Captured) (ip : Nat) : Reading Bool := do
  let ipHl ← readByte p.pktData ip
  let ipLen ← readShort p.pktData (ip + 2)
  if p.caplen < ip + ipLen ∨ ipLen ≤ ipHl % 16 * 4 + TCP_HEADER_LENGTH then return false
  else
    let wanted ← isPacketWanted cfg p.pktData ip
    if !wanted then return false
    else
      let reassembly ← goesToReassembly cfg p.pktData ip
      return !reassembly

def processIpPacket (align : Align) (cfg : WalkConfig) (p : Captured) (ethernet ip : Nat) :
    Reading Outcome := do
  let processed ← isProcessed cfg p ip
  if processed then processTransportLayer align cfg p.pktData ethernet ip else return {}

/-- What becomes of a captured frame itself; a fragment is copied from it and reassembled elsewhere. -/
def handlePacket (align : Align) (cfg : WalkConfig) (p : Captured) : Reading Outcome :=
  if cfg.pcapTest then return {}
  else do
    let headers ← locateHeaders p.pktData
    match headers with
    | none => return {}
    | some (ethernet, ip) => withIpHeader align p.pktData ip (processIpPacket align cfg p ethernet)

end Walk

end Oreka.Capture
