import Oreka.Base.Utils
import Oreka.Capture.HeaderWalk

/-!
# RTCP

`TryRtcp` of `VoIp.cpp`: whether a UDP payload is a compound RTCP packet, and the CNAME it takes from a source
description in it, with every field that is read. A pointer is an offset from the start of the payload, of which
there are `size` bytes, `ntohs(udpHeader->len) - sizeof(UdpHeaderStruct)`. The difference of two pointers to
`RtcpCommonHeaderStruct` is in units of that, four bytes.
-/

namespace Oreka.Capture.Rtcp

open Oreka.Net Walk

abbrev RTCP_SR : Nat := 200
abbrev RTCP_RR : Nat := 201
abbrev RTCP_SDES : Nat := 202
abbrev SDES_END : Nat := 0
abbrev SDES_CNAME : Nat := 1

/-- `sizeof(RtcpCommonHeaderStruct)`. -/
abbrev rtcpCommonHeaderSize : Nat := 4

/-- What `TryRtcp` reads of `DLLCONFIG`. -/
structure RtcpConfig where
  rtcpDetect : Bool := false
  inInMode : Bool := false

/-- A UDP packet: its payload, the memory behind that, and what its headers say. -/
structure UdpPacket where
  payload : List UInt8
  payload_lt : payload.length + udpHeaderSize < 65536
  behind : List UInt8 := []
  sourceIp : InAddr := {}
  destIp : InAddr := {}
  sourcePort : UInt16 := 0
  destPort : UInt16 := 0

/-- The memory from the payload on. -/
def UdpPacket.memory (u : UdpPacket) : List UInt8 := u.payload ++ u.behind

def UdpPacket.size (u : UdpPacket) : Nat := u.payload.length

/-! ## The validity check -/

/-- Both loops go on at `r`. -/
abbrev InCompound (size r : Nat) : Prop := r < size ∧ (size - r) / rtcpCommonHeaderSize ≥ rtcpCommonHeaderSize

/-- The loop over the headers; where it ends. -/
def validateHeaders (m : List UInt8) (size r : Nat) : Reading Nat :=
  if _h : InCompound size r then do
    let vpc ← readByte m r
    if vpc / 64 ≠ 2 then return r
    else
      let length ← readShort m (r + 2)
      validateHeaders m size (r + 4 * (length + 1))
  else return r
termination_by size - r

/-- The checks of the first header, and of those that follow it. -/
def headersValid (m : List UInt8) (size : Nat) : Reading Bool :=
  if size < rtcpCommonHeaderSize then return false
  else do
    let vpc ← readByte m 0
    if vpc / 64 ≠ 2 then return false
    else
      let pt ← readByte m 1
      if pt ≠ RTCP_SR ∧ pt ≠ RTCP_RR then return false
      else if vpc / 32 % 2 ≠ 0 then return false
      else
        let length ← readShort m 2
        let r ← validateHeaders m size (4 * (length + 1))
        return r = size

/-! ## The source description -/

/-- The loop over the items of a chunk: where it ends, if it does in that many rounds. -/
def skipItems (m : List UInt8) (packetEnd : Nat) : Nat → Nat → Reading (Option Nat)
  | 0, _ => return none
  | rounds + 1, item =>
    if item < packetEnd then do
      let type ← readByte m item
      if type ≠ SDES_CNAME ∧ type ≠ SDES_END then do
        let length ← readByte m (item + 1)
        skipItems m packetEnd rounds (item + length)
      else return some item
    else return some item

/-- `csrcItem < rtcpThisPktEnd && csrcItem->type == 1`. -/
def isCname (m : List UInt8) (packetEnd item : Nat) : Reading Bool :=
  if item < packetEnd then do
    let type ← readByte m item
    return type = SDES_CNAME
  else return false

/-- The loop over the packets, each given so many rounds for its items: the CNAME item, if there is one. -/
def findCname (m : List UInt8) (size rounds r : Nat) : Reading (Option (Option Nat)) :=
  if _h : InCompound size r then do
    let vpc ← readByte m r
    let length ← readShort m (r + 2)
    let pt ← readByte m (r + 1)
    if pt = RTCP_SDES ∧ vpc % 32 ≠ 0 then do
      let item ← skipItems m (r + 4 * (length + 1)) rounds (r + 8)
      match item with
      | none => return none
      | some csrcItem => do
        let found ← isCname m (r + 4 * (length + 1)) csrcItem
        if found then return some (some csrcItem)
        else findCname m size rounds (r + 4 * (length + 1))
    else findCname m size rounds (r + 4 * (length + 1))
  else return some none
termination_by size - r

/-! ## The CNAME -/

/-- `RtcpSrcDescriptionPacketInfo`. -/
structure SrcDescription where
  sourceIp : InAddr
  destIp : InAddr
  sourcePort : UInt16
  destPort : UInt16
  cnameUsername : List UInt8 := []
  cnameDomain : List UInt8 := []
  cnamePort : List UInt8 := []
  fullCname : List UInt8
  deriving DecidableEq

/-- `GrabToken`. -/
def grabToken (s : List UInt8) : List UInt8 := s.takeWhile fun c => c ≠ 0 ∧ c ≠ 32 ∧ c ≠ 13 ∧ c ≠ 10

/-- The host and the port of "host" or "host:port". -/
def parseHost (s : List UInt8) : List UInt8 × List UInt8 :=
  if 58 ∈ s then (grabToken (s.takeWhile (· ≠ 58)), grabToken ((s.dropWhile (· ≠ 58)).drop 1))
  else (grabToken s, [])

/-- The CNAME is "user@host", "user@host:port", "host" or "host:port". -/
def parseCname (u : UdpPacket) (cname : List UInt8) : SrcDescription :=
  let user := if 64 ∈ cname then grabToken (cname.takeWhile (· ≠ 64)) else []
  let host := parseHost (if 64 ∈ cname then (cname.dropWhile (· ≠ 64)).drop 1 else cname)
  { sourceIp := u.sourceIp
    destIp := u.destIp
    sourcePort := u.sourcePort
    destPort := u.destPort
    cnameUsername := user
    cnameDomain := host.1
    cnamePort := host.2
    fullCname := cname }

def toLower (b : UInt8) : UInt8 := if 65 ≤ b ∧ b ≤ 90 then b + 32 else b

/-- `strncasecmp(cname, "ext", (3 > length) ? length : 3) == 0`. -/
def isExtension (text : List UInt8) : Bool :=
  (text.take 3).map toLower = [101, 120, 116].take (min 3 text.length)

/-- `result` is what is returned, `csrcItem` the item whose text is taken, `info` what is reported. -/
structure RtcpOutcome where
  result : Bool
  csrcItem : Option Nat := none
  info : Option SrcDescription := none
  deriving DecidableEq

/-- What is done with a CNAME. Its text is copied up to 254 bytes. -/
def reportCname (cfg : RtcpConfig) (u : UdpPacket) (csrcItem : Nat) : Reading RtcpOutcome := do
  let length ← readByte u.memory (csrcItem + 1)
  let text ← Reading.look (csrcItem + 2) (min length 254) (copy u.memory (csrcItem + 2) (min length 254))
  if length = 0 ∨ (isExtension text = false ∧ cfg.inInMode = false) then
    return { result := true, csrcItem := some csrcItem }
  else
    return {
      result := true
      csrcItem := some csrcItem
      info := some (parseCname u (text.takeWhile (· ≠ 0))) }

/-- `TryRtcp`, where its loops end. -/
def tryRtcp (cfg : RtcpConfig) (rounds : Nat) (u : UdpPacket) : Reading (Option RtcpOutcome) :=
  if cfg.rtcpDetect then do
    let valid ← headersValid u.memory u.size
    if valid then
      let length ← readShort u.memory 2
      let found ← findCname u.memory u.size rounds (4 * (length + 1))
      match found with
      | none => return none
      | some none => return some { result := true }
      | some (some csrcItem) => do
        let outcome ← reportCname cfg u csrcItem
        return some outcome
    else return some { result := false }
  else return some { result := false }

end Oreka.Capture.Rtcp
