import Oreka.VoIp.VoIpConfig

/-!
# A VoIP session

`class VoIpSession` (`voip/VoIpSession.cpp`) with its base class (`common/OrkSession.cpp`) and the
DTMF events (`common/DtmfHandling.cpp`). `VoIpCall` is what a session knows of its call: all that
the packets and messages given to it change. The members that the session tables route by are added
in `VoIpSession`, so that nothing of the first part can touch them.

What is handed to the recorder (events, audio chunks) is left out, and so are the members that only
these carry: the capture port, the local side, the entry point, the codec map.
-/

open Std

namespace Oreka.VoIp

inductive Protocol
  | rawRtp | sip | skinny | unkn
  deriving DecidableEq, Repr

structure VoIpCall where
  trackingId : String := ""
  started : Bool := false
  stopped : Bool := false
  beginDate : Int := 0
  keepRtp : Bool := true
  onDemand : Bool := false
  startWhenReceiveS2 : Bool := false
  nonLookBackSessionStarted : Bool := false
  dtmfDigitString : String := ""
  currentRtpEventTs : UInt32 := 0
  telephoneEventPayloadType : UInt16 := 0
  lastRtpPacketSide1 : Option RtpPacketInfo := none
  lastRtpPacketSide2 : Option RtpPacketInfo := none
  localIp : InAddr := {}
  mappedS1S2 : Bool := false
  invite : Option SipInvite := none
  invites : List SipInvite := []
  creationDate : Int := 0
  lastUpdated : Int := 0
  protocol : Protocol := .unkn
  localParty : String := ""
  remoteParty : String := ""
  localPartyName : String := ""
  remotePartyName : String := ""
  localPartyReported : Bool := false
  rtcpLocalParty : Bool := false
  rtcpRemoteParty : Bool := false
  direction : Direction := .dirUnkn
  numRtpPackets : Nat := 0
  numIgnoredRtpPackets : Nat := 0
  metadataProcessed : Bool := false
  highestRtpSeqNumDelta : Int := 0
  rtpNumMissingPkts : Int := 0
  rtpNumSeqGaps : Int := 0
  endPointIp : InAddr := {}
  endPointSignallingPort : UInt16 := 0
  skinnyPassThruPartyId : UInt32 := 0
  sipLastInvite : Int := 0
  skinnyLastCallInfoTime : Int := 0
  onHold : Bool := false
  lastRtpStreamStart : Int := 0
  holdDuration : Int := 0
  holdBegin : Int := 0
  sipDialedNumber : String := ""
  sipRemoteParty : String := ""
  isCallPickUp : Bool := false
  numAlienRtpPacketsS1 : Nat := 0
  numAlienRtpPacketsS2 : Nat := 0
  /-- -1 where there is none. -/
  ssrcCandidate : UInt32 := -1
  ssrcCandidateTimestamp : UInt32 := 0
  hasReceivedCallInfo : Bool := false
  lastRtpPacket : Option RtpPacketInfo := none
  remoteIp : InAddr := {}
  localMac : List UInt8 := List.replicate 6 0
  remoteMac : List UInt8 := List.replicate 6 0
  orkUid : String := ""
  rtpAddressList : List (InAddr × UInt16) := []
  tags : TreeMap String String := ∅
  lastSipInfo : Option SipInfo := none

namespace VoIpCall

/-- The constructor, for the object at `r`. -/
def new (cfg : VoIpConfig) (trackingId : String) (r : Ref) (now : Int) : VoIpCall :=
  { trackingId
    keepRtp := cfg.lookBackRecording
    telephoneEventPayloadType := cfg.rtpEventPayloadTypeDefaultValue
    creationDate := now
    lastUpdated := sec now
    sipLastInvite := now
    skinnyLastCallInfoTime := now
    endPointIp := (cfg.uninitialised r).endPointIp
    endPointSignallingPort := (cfg.uninitialised r).endPointSignallingPort
    localIp := (cfg.uninitialised r).localIp
    remoteIp := (cfg.uninitialised r).remoteIp
    holdBegin := (cfg.uninitialised r).holdBegin
    ssrcCandidateTimestamp := (cfg.uninitialised r).ssrcCandidateTimestamp }

/-! ## Matching -/

def orkUidMatches (c : VoIpCall) (oUid : String) : Bool := compareNoCase c.orkUid oUid

def partyMatches (c : VoIpCall) (party : String) : Bool :=
  party ≠ "" && (compareNoCase c.localParty party || compareNoCase c.remoteParty party)

def isMatchedLocalOrRemoteIp (c : VoIpCall) (ip : InAddr) : Bool := ip = c.localIp || ip = c.remoteIp

/-! ## Hold -/

def goOnHold (c : VoIpCall) (onHoldTime : Int) : VoIpCall :=
  if c.started then { c with onHold := true, holdBegin := onHoldTime } else c

def goOffHold (c : VoIpCall) (offHoldTime : Int) : VoIpCall :=
  { c with
    lastUpdated := offHoldTime
    onHold := false
    holdDuration := c.holdDuration + (offHoldTime - c.holdBegin) }

/-! ## Start and stop -/

/-- `SkinnyTrackConferencesTransfers`: the endpoint forgets a conference that is over. -/
def trackConferencesTransfers (c : VoIpCall) (cfg : VoIpConfig) (d : Directory) (now : Int) :
    Directory :=
  match d.getVoIpEndpointInfo cfg c.endPointIp c.endPointSignallingPort with
  | none => d
  | some ep =>
    if sec now - ep.lastConferencePressed > 3 ∧ sec now - ep.lastConnectedWithConference > 3 then
      d.updateEndpoint cfg c.endPointIp c.endPointSignallingPort { ep with origOrkUid := "" }
    else d

def start (c : VoIpCall) (cfg : VoIpConfig) (d : Directory) (now : Int) : VoIpCall × Directory :=
  let c := { c with beginDate := sec now }
  let c := if c.started then c
    else { c with orkUid := cfg.formatTime c.beginDate ++ "_" ++ c.trackingId }
  let c := { c with started := true }
  (c, if cfg.skinnyTrackConferencesTransfers then c.trackConferencesTransfers cfg d now else d)

/-- The remote party that an endpoint of the call has sent to the URL extractor. -/
def extractedRemoteParty (c : VoIpCall) (cfg : VoIpConfig) (d : Directory) : Option String := do
  let ep ← (d.getVoIpEndpointInfo cfg c.localIp 0).or (d.getVoIpEndpointInfo cfg c.remoteIp 0)
  let v ← ep.urlExtractionMap[cfg.remotePartyUseExtractedKey]?
  if v.timestamp ≥ sec c.creationDate ∧ v.timestamp ≤ c.lastUpdated then some v.value else none

def stop (c : VoIpCall) (cfg : VoIpConfig) (d : Directory) : VoIpCall :=
  if c.started ∧ ¬ c.stopped then
    let c := if cfg.urlExtractorEnable then
        { c with remoteParty := (c.extractedRemoteParty cfg d).getD c.remoteParty }
      else c
    { c with stopped := true }
  else c

/-! ## Metadata -/

def processMetadataRawRtp (c : VoIpCall) (cfg : VoIpConfig) (d : Directory) (p : RtpPacketInfo) :
    VoIpCall :=
  let sourceIsLocal :=
    if cfg.isMediaGateway p.sourceIp then
      if cfg.isMediaGateway p.destIp then false
      else if cfg.isPartOfLan p.destIp then false
      else true
    else cfg.isPartOfLan p.sourceIp
  let c := if sourceIsLocal then
      { c with
        localIp := p.sourceIp, remoteIp := p.destIp
        localMac := p.sourceMac, remoteMac := p.destMac }
    else
      { c with
        localIp := p.destIp, remoteIp := p.sourceIp
        localMac := p.destMac, remoteMac := p.sourceMac }
  { c with
    localParty :=
      if c.rtcpLocalParty then c.localParty
      else if cfg.useMacIfNoLocalParty then memMacToHumanReadable c.localMac c.localParty
      else d.getLocalPartyMap (inetNtop c.localIp)
    remoteParty :=
      if c.rtcpRemoteParty then c.remoteParty else d.getLocalPartyMap (inetNtop c.remoteIp) }

/-- The condition under which the request URI is the local party. -/
def requestUriIsLocalParty (cfg : VoIpConfig) (i : SipInvite) : Bool :=
  cfg.sipRequestUriAsLocalParty && !compareNoCase i.requestUri i.to && i.requestUri ≠ ""

def processMetadataSipIncoming (c : VoIpCall) (cfg : VoIpConfig) (d : Directory) (i : SipInvite) :
    VoIpCall :=
  let c := if requestUriIsLocalParty cfg i then
      { c with
        localParty := d.getLocalPartyMap i.requestUri
        remoteParty := d.getLocalPartyMap i.from
        direction := .dirIn }
    else
      { c with
        remoteParty := d.getLocalPartyMap i.from
        localParty := d.getLocalPartyMap i.to
        direction := .dirIn }
  { c with
    remotePartyName := if i.fromName = "" then c.remoteParty else i.fromName
    localPartyName := if i.toName = "" then c.localParty else i.toName
    localIp := i.receiverIp
    remoteIp := i.senderIp
    localMac := i.receiverMac
    remoteMac := i.senderMac }

def processMetadataSipOutgoing (c : VoIpCall) (cfg : VoIpConfig) (d : Directory) (i : SipInvite) :
    VoIpCall :=
  let c := if requestUriIsLocalParty cfg i then
      { c with
        localParty := d.getLocalPartyMap i.requestUri
        remoteParty := d.getLocalPartyMap i.from
        direction := .dirIn }
    else
      { c with
        remoteParty := d.getLocalPartyMap i.to
        localParty := d.getLocalPartyMap i.from
        direction := .dirOut }
  { c with
    remotePartyName := if i.toName = "" then c.remoteParty else i.toName
    localPartyName := if i.fromName = "" then c.localParty else i.fromName
    localIp := i.senderIp
    remoteIp := i.receiverIp
    localMac := i.senderMac
    remoteMac := i.receiverMac }

def matchesSipDomain (cfg : VoIpConfig) (domain : String) : Bool :=
  cfg.sipDomains.any fun e => compareNoCase e domain

/-- Whether the INVITE came in, by the addresses, domains or user agents configured. -/
def sipIncoming (cfg : VoIpConfig) (i : SipInvite) : Bool :=
  if !cfg.sipDirectionReferenceIpAddresses.isEmpty then
    cfg.sipDirectionReferenceIpAddresses.contains i.senderIp
  else if matchesSipDomain cfg i.fromDomain then false
  else if matchesSipDomain cfg i.toDomain then true
  else matchesStringList i.userAgent cfg.sipDirectionReferenceUserAgents

def processMetadataSip (c : VoIpCall) (cfg : VoIpConfig) (d : Directory) : VoIpCall :=
  -- a SIP session has its INVITE from its creation on
  match c.invite with
  | none => c
  | some i =>
    if c.sipDialedNumber ≠ "" then
      { c.processMetadataSipOutgoing cfg d i with
        remoteParty := i.sipDialedNumber, localParty := i.to, direction := .dirOut }
    else
      let c := if sipIncoming cfg i then c.processMetadataSipIncoming cfg d i
        else c.processMetadataSipOutgoing cfg d i
      let c := if i.sipGroupPickUpPatternDetected then { c with direction := .dirIn } else c
      if c.sipRemoteParty ≠ "" then { c with remoteParty := c.sipRemoteParty } else c

def processMetadataSkinny (c : VoIpCall) (p : RtpPacketInfo) : VoIpCall :=
  if c.endPointIp = p.destIp then
    { c with
      localIp := p.destIp, remoteIp := p.sourceIp, localMac := p.destMac, remoteMac := p.sourceMac }
  else
    { c with
      localIp := p.sourceIp, remoteIp := p.destIp, localMac := p.sourceMac, remoteMac := p.destMac }

/-- `LocalPartyAddLocalIp`, on the name or on the party, whichever is reported. -/
def addLocalIp (c : VoIpCall) (cfg : VoIpConfig) (useName : Bool) : VoIpCall :=
  if cfg.localPartyAddLocalIp then
    if useName then { c with localPartyName := c.localPartyName ++ "@" ++ inetNtop c.localIp }
    else { c with localParty := c.localParty ++ "@" ++ inetNtop c.localIp }
  else c

/-- `LocalPartyNameMapEnable`: the name of a local address is kept, or taken from what was kept. -/
def applyLocalPartyNameMap (c : VoIpCall) (cfg : VoIpConfig) (d : Directory) :
    VoIpCall × Directory :=
  let localIp := inetNtop c.localIp
  let temp := d.localPartyNameMap[localIp]?.getD ""
  if ¬ cfg.localPartyNameMapEnable then (c, d)
  else if c.localPartyName ≠ c.localParty ∧ c.localPartyName ≠ "" ∧ c.localPartyName ≠ temp then
    (c, { d with localPartyNameMap := d.localPartyNameMap.insert localIp c.localPartyName })
  else if temp ≠ "" ∧ c.localPartyName ≠ temp then ({ c with localPartyName := temp }, d)
  else (c, d)

/-- The local party that `ReportMetadata` makes sure of. -/
def ensureLocalParty (c : VoIpCall) (cfg : VoIpConfig) (d : Directory) : VoIpCall :=
  let localIp := inetNtop c.localIp
  let c := if cfg.localPartyForceLocalIp then { c with localParty := d.getLocalPartyMap localIp }
    else if c.localParty = "" ∧ c.protocol = .skinny then
      match d.getVoIpEndpointInfo cfg c.endPointIp c.endPointSignallingPort with
      | some ep => { c with localParty := d.getLocalPartyMap ep.extension }
      | none => c
    else c
  let c := if c.localParty = "" then
      { c with
        localParty := if cfg.useMacIfNoLocalParty then memMacToHumanReadable c.localMac ""
          else d.getLocalPartyMap localIp }
    else c
  if cfg.localPartyForceLocalMac then
    { c with localParty := d.getLocalPartyMap (memMacToHumanReadable c.localMac "") }
  else c

def reportMetadata (c : VoIpCall) (cfg : VoIpConfig) (d : Directory) : VoIpCall × Directory :=
  let c := c.ensureLocalParty cfg d
  let c := if c.isCallPickUp then
      { c with direction := if c.direction = .dirIn then .dirOut else .dirIn }
    else c
  let (c, d) := c.applyLocalPartyNameMap cfg d
  let useName := c.localPartyName ≠ "" &&
    ((c.protocol = .skinny && cfg.skinnyNameAsLocalParty) ||
      (cfg.partiesUseName || cfg.localPartyUseName))
  ({ c.addLocalIp cfg useName with localPartyReported := true }, d)

/-- `Start` and `ReportMetadata`. -/
def startAndReport (c : VoIpCall) (cfg : VoIpConfig) (d : Directory) (now : Int) :
    VoIpCall × Directory :=
  let (c, d) := c.start cfg d now
  c.reportMetadata cfg d

def updateMetadataSkinny (c : VoIpCall) (cfg : VoIpConfig) : VoIpCall :=
  c.addLocalIp cfg (cfg.skinnyNameAsLocalParty && c.localPartyName ≠ "")

/-- The INVITE that a new stream validates: the last that it matches among those before the first
one validated already; with it, the list in which it is validated. -/
def validateInvite (hit : SipInvite → Bool) :
    List SipInvite → Option (SipInvite × List SipInvite)
  | [] => none
  | i :: is =>
    if i.validated then none
    else
      match validateInvite hit is with
      | some (j, is') => some (j, i :: is')
      | none => if hit i then some (i, { i with validated := true } :: is) else none

def updateMetadataSipOnRtpChange (c : VoIpCall) (cfg : VoIpConfig) (d : Directory)
    (p : RtpPacketInfo) (sourceRtpAddressIsNew : Bool) : VoIpCall :=
  let hit (i : SipInvite) : Bool :=
    if sourceRtpAddressIsNew then p.sourceIp = i.receiverIp else p.destIp = i.receiverIp
  match validateInvite hit c.invites, c.invite with
  | some (i, invites), some m =>
    let c := { c with invites }
    let c := if cfg.sipRequestUriAsLocalParty ∧ ¬ compareNoCase m.requestUri m.to then
        { c with
          localParty := d.getLocalPartyMap m.requestUri
          remoteParty := d.getLocalPartyMap m.from
          direction := .dirIn }
      else
        { c with
          remoteParty := d.getLocalPartyMap i.from, localParty := d.getLocalPartyMap i.to }
    let c := { c with
      remotePartyName := if m.fromName = "" then c.remoteParty else m.fromName
      localPartyName := if m.toName = "" then c.localParty else m.toName
      localIp := i.receiverIp
      localMac := i.receiverMac }
    c.addLocalIp cfg false
  | _, _ => c

/-! ## RTCP -/

/-- The party in a source description. -/
def rtcpParty (cfg : VoIpConfig) (info : RtcpSrcDescriptionPacketInfo) : String :=
  if cfg.inInMode then
    info.cnameUsername ++ "@" ++
      String.ofList ((info.cnameDomain.toList.take 255).takeWhile (· ≠ '.'))
  else info.cnameUsername

def reportRtcpSrcDescription (c : VoIpCall) (cfg : VoIpConfig) (d : Directory)
    (info : RtcpSrcDescriptionPacketInfo) : VoIpCall :=
  if ¬ c.rtcpLocalParty then
    let c := { c with
      rtcpLocalParty := true, localParty := d.getLocalPartyMap (rtcpParty cfg info) }
    if c.localPartyReported then c.addLocalIp cfg false else c
  else if ¬ c.rtcpRemoteParty ∧ ¬ compareNoCase (rtcpParty cfg info) c.localParty then
    { c with rtcpRemoteParty := true, remoteParty := d.getLocalPartyMap (rtcpParty cfg info) }
  else c

/-! ## DTMF -/

/-- `MarkAsOnDemand`, less its events. -/
def markAsOnDemand (c : VoIpCall) : VoIpCall := { c with onDemand := true }

def markAsOnDemandOff (c : VoIpCall) : VoIpCall := { c with onDemand := false }

def dtmfDigitToString (event : UInt8) : String :=
  ["0", "1", "2", "3", "4", "5", "6", "7", "8", "9", "*", "#"].getD event.toNat "unknown"

/-- `ReportDtmfDigit`: the digits so far may ask to record on demand, or to pause. -/
def reportDtmfDigit (c : VoIpCall) (cfg : VoIpConfig) (digitValue : String) : VoIpCall :=
  let c := if c.dtmfDigitString.length > 100 then { c with dtmfDigitString := "" } else c
  let c := { c with dtmfDigitString := c.dtmfDigitString ++ digitValue }
  if cfg.onDemandViaDtmfDigitsString = "" then c
  else
    let onDemandCommand := hasSubstring c.dtmfDigitString cfg.onDemandViaDtmfDigitsString
    let pauseCommand := cfg.onDemandPauseViaDtmfDigitsString ≠ "" &&
      hasSubstring c.dtmfDigitString cfg.onDemandPauseViaDtmfDigitsString
    let c := if onDemandCommand || pauseCommand then { c with dtmfDigitString := "" } else c
    let identical := cfg.onDemandPauseViaDtmfDigitsString = cfg.onDemandViaDtmfDigitsString
    let pauseCommand := if identical ∧ onDemandCommand ∧ ¬ c.keepRtp then false else pauseCommand
    let onDemandCommand := if identical ∧ onDemandCommand ∧ c.keepRtp then false
      else onDemandCommand
    match c.onDemand, c.keepRtp with
    | false, false => if onDemandCommand then { c with onDemand := true, keepRtp := true } else c
    | false, true =>
      if onDemandCommand then { c with onDemand := true, keepRtp := true }
      else if pauseCommand then { c with onDemand := false, keepRtp := false }
      else c
    | true, false => if onDemandCommand then { c with onDemand := true, keepRtp := true } else c
    | true, true => if pauseCommand then { c with onDemand := true, keepRtp := false } else c

def handleRtpEvent (c : VoIpCall) (cfg : VoIpConfig) (p : RtpPacketInfo) : VoIpCall :=
  match p.payload with
  | event :: erVolume :: _ :: _ :: _ =>
    if c.currentRtpEventTs ≠ p.timestamp ∧ erVolume &&& 0x80 ≠ 0 then
      { c with currentRtpEventTs := p.timestamp }.reportDtmfDigit cfg (dtmfDigitToString event)
    else c
  | _ => c

/-! ## RTP -/

/-- The start of a session that waited for side 2. -/
def startOnS2 (c : VoIpCall) (cfg : VoIpConfig) (d : Directory) (now : Int) :
    VoIpCall × Directory :=
  let (c, d) := c.startAndReport cfg d now
  (if cfg.lookBackRecording then c else { c with nonLookBackSessionStarted := true }, d)

/-- `OrkSession::DetectChannel`: the channel, and whether the packet is its first one. -/
def detectChannel (c : VoIpCall) (cfg : VoIpConfig) (d : Directory) (p : RtpPacketInfo) (now : Int) :
    VoIpCall × Directory × Nat × Bool :=
  match c.lastRtpPacketSide1 with
  | none => ({ c with lastRtpPacketSide1 := some p }, d, 1, true)
  | some s1 =>
    if p.ssrc = s1.ssrc ∧ s1.destIp = p.destIp then (c, d, 1, false)
    else
      match c.lastRtpPacketSide2 with
      | none =>
        let c := { c with lastRtpPacketSide2 := some p }
        if cfg.sessionStartsOnS2ActivityDb.isNone ∧ cfg.discardUnidirectionalCalls ∧
            c.startWhenReceiveS2 then
          let (c, d) := c.startOnS2 cfg d now
          (c, d, 2, true)
        else (c, d, 2, true)
      | some s2 =>
        if p.ssrc = s2.ssrc ∧ s2.destIp = p.destIp then
          match cfg.sessionStartsOnS2ActivityDb with
          | some louder =>
            if ¬ c.started ∧ louder p then
              let (c, d) := c.startOnS2 cfg d now
              (c, d, 2, false)
            else (c, d, 2, false)
          | none => (c, d, 2, false)
        else (c, d, 0, false)

/-- `ShouldSwapChannels`, for the last packets of both sides. -/
def shouldSwapChannels (c : VoIpCall) (cfg : VoIpConfig) (s1 s2 : RtpPacketInfo) : Bool :=
  let s1ShouldBeLocal := cfg.rtpS1S2MappingDeterministicS1IsLocal
  let s2ShouldBeLocal := !s1ShouldBeLocal
  if !cfg.mediaGateways.isEmpty then
    (cfg.isMediaGateway s1.sourceIp && s1ShouldBeLocal) ||
      (cfg.isMediaGateway s2.sourceIp && s2ShouldBeLocal)
  else
    (s2.sourceIp = c.localIp && s1ShouldBeLocal) || (s1.sourceIp = c.localIp && s2ShouldBeLocal)

/-- What becomes of a packet once its channel is known: dismissed, found discontinuous, or kept on a
channel. -/
inductive Verdict
  | dismissed (c : VoIpCall)
  | rejected (c : VoIpCall)
  | kept (c : VoIpCall) (channel : Nat)

/-- The test of `RtpDiscontinuityDetect`. -/
def isDiscontinuous (cfg : VoIpConfig) (p last : RtpPacketInfo) : Bool :=
  let seqNumDelta : Int := p.seqNum.toNat - last.seqNum.toNat
  let timestampDelta : Int := p.timestamp.toNat - last.timestamp.toNat
  cfg.rtpDiscontinuityDetect && decide (seqNumDelta.natAbs > cfg.rtpDiscontinuityMinSeqDelta) &&
    decide (timestampDelta.natAbs > cfg.rtpDiscontinuityMinSeqDelta * 160)

/-- The sequence number delta over a reset of the sequence numbers. -/
def resetSeqNumDelta (p last : RtpPacketInfo) : Int :=
  if p.seqNum < last.seqNum then 65536 - (last.seqNum.toNat : Int) + p.seqNum.toNat
  else p.seqNum.toNat - last.seqNum.toNat

/-- The `int` difference of the timestamps. -/
def timestampStep (p last : RtpPacketInfo) : Int := (p.timestamp - last.timestamp).toBitVec.toInt

/-- A further packet of side 1. -/
def continueSide1 (c : VoIpCall) (cfg : VoIpConfig) (p last : RtpPacketInfo) : Verdict :=
  let seqNumDelta : Int := p.seqNum.toNat - last.seqNum.toNat
  if p.timestamp = last.timestamp then .dismissed c
  else if isDiscontinuous cfg p last then .rejected c
  else
    let mayPause := cfg.rtpBreakupOnStreamPause &&
      decide ((seqNumDelta.natAbs : Int) * 160 < timestampStep p last)
    if mayPause ∧ resetSeqNumDelta p last * 160 < timestampStep p last then .rejected c
    else
      let delta := if mayPause then resetSeqNumDelta p last else seqNumDelta
      let c := { c with highestRtpSeqNumDelta := max c.highestRtpSeqNumDelta delta }
      let c := if 1 < delta ∧ delta ≤ cfg.rtpSeqGapThreshold then
          { c with
            rtpNumSeqGaps := c.rtpNumSeqGaps + 1
            rtpNumMissingPkts := c.rtpNumMissingPkts + (delta - 1) }
        else c
      .kept { c with lastRtpPacketSide1 := some p, numAlienRtpPacketsS1 := 0 } 1

/-- A further packet of side 2: unlike on side 1, a pause is looked for whatever the sequence numbers
say, and gaps are not counted. -/
def continueSide2 (c : VoIpCall) (cfg : VoIpConfig) (p last : RtpPacketInfo) : Verdict :=
  let seqNumDelta : Int := p.seqNum.toNat - last.seqNum.toNat
  if p.timestamp = last.timestamp then .dismissed c
  else if isDiscontinuous cfg p last then .rejected c
  else if cfg.rtpBreakupOnStreamPause ∧ resetSeqNumDelta p last * 160 < timestampStep p last then
    .rejected c
  else
    let delta := if cfg.rtpBreakupOnStreamPause then resetSeqNumDelta p last else seqNumDelta
    let c := { c with highestRtpSeqNumDelta := max c.highestRtpSeqNumDelta delta }
    .kept { c with lastRtpPacketSide2 := some p, numAlienRtpPacketsS2 := 0 } 2

/-- The counters of packets that match neither side, after another one. -/
def countAlien (c : VoIpCall) (p : RtpPacketInfo) (now : Int) : VoIpCall :=
  let arrival := UInt32.ofInt p.arrivalTimestamp
  if c.ssrcCandidate = -1 then { c with ssrcCandidate := p.ssrc, ssrcCandidateTimestamp := arrival }
  else if p.ssrc = c.ssrcCandidate then
    { c with
      ssrcCandidateTimestamp := arrival
      numAlienRtpPacketsS1 := c.numAlienRtpPacketsS1 + 1
      numAlienRtpPacketsS2 := c.numAlienRtpPacketsS2 + 1 }
  else if sec now - c.ssrcCandidateTimestamp.toNat > 2 then
    { c with ssrcCandidate := -1, numAlienRtpPacketsS1 := 0, numAlienRtpPacketsS2 := 0 }
  else c

/-- A packet of neither side: after more than 10 of them, a side is remapped. -/
def remapSide (c : VoIpCall) (p : RtpPacketInfo) (now : Int) : Verdict :=
  let c := c.countAlien p now
  if c.numAlienRtpPacketsS1 > 10 then
    .kept { c with
      numAlienRtpPacketsS1 := 0, ssrcCandidate := -1, lastRtpPacketSide1 := some p
      mappedS1S2 := false, lastRtpStreamStart := sec now } 1
  else if c.numAlienRtpPacketsS2 > 10 then
    .kept { c with
      numAlienRtpPacketsS2 := 0, ssrcCandidate := -1, lastRtpPacketSide2 := some p
      mappedS1S2 := false, lastRtpStreamStart := sec now } 2
  else .dismissed c

/-- The verdict on a packet of a channel. The first packet of a side is kept as it is. -/
def verdict (c : VoIpCall) (cfg : VoIpConfig) (p : RtpPacketInfo) (channel : Nat) (first : Bool)
    (now : Int) : Verdict :=
  match channel, first, c.lastRtpPacketSide1, c.lastRtpPacketSide2 with
  | 1, false, some last, _ => c.continueSide1 cfg p last
  | 2, false, _, some last => c.continueSide2 cfg p last
  | 0, _, _, _ => c.remapSide p now
  | _, _, _, _ => .kept c channel

/-- `RtpS1S2MappingDeterministic`: the sides are swapped once, if need be. -/
def mapDeterministic (c : VoIpCall) (cfg : VoIpConfig) : VoIpCall :=
  match c.lastRtpPacketSide1, c.lastRtpPacketSide2 with
  | some s1, some s2 =>
    if cfg.rtpS1S2MappingDeterministic ∧ ¬ c.mappedS1S2 then
      let c := { c with mappedS1S2 := true }
      if (c.protocol = .sip ∨ c.protocol = .skinny) ∧ c.shouldSwapChannels cfg s1 s2 then
        { c with lastRtpPacketSide1 := some s2, lastRtpPacketSide2 := some s1 }
      else c
    else c
  | _, _ => c

/-- `HasAddressOrAdd`. -/
def hasAddressOrAdd (c : VoIpCall) (ip : InAddr) (port : UInt16) : VoIpCall × Bool :=
  if (ip, port) ∈ c.rtpAddressList then (c, true)
  else ({ c with rtpAddressList := c.rtpAddressList ++ [(ip, port)] }, false)

/-- A new stream of a started SIP session may bring new parties. -/
def noteStream (c : VoIpCall) (cfg : VoIpConfig) (d : Directory) (p : RtpPacketInfo) : VoIpCall :=
  let (c, hasSourceAddress) := c.hasAddressOrAdd p.sourceIp p.sourcePort
  let (c, hasDestAddress) := c.hasAddressOrAdd p.destIp p.destPort
  if (¬ hasSourceAddress ∨ ¬ hasDestAddress) ∧ c.protocol = .sip ∧ c.started ∧
      cfg.sipAllowMetadataUpdateOnRtpChange then
    c.updateMetadataSipOnRtpChange cfg d p hasDestAddress
  else c

/-- Whether there are now enough packets to start the session. -/
def enoughPackets (c : VoIpCall) (cfg : VoIpConfig) : Bool :=
  match c.protocol with
  | .rawRtp => (c.numRtpPackets : Int) = cfg.rtpMinAmountOfPacketsBeforeStart
  | .skinny => c.numRtpPackets = 2
  | .sip => c.numRtpPackets = if cfg.discardUnidirectionalCalls then 1 else 2
  | .unkn => false

/-- The start of a session, or where unidirectional calls are discarded, the wait for side 2. -/
def startOrWait (c : VoIpCall) (cfg : VoIpConfig) (d : Directory) (now : Int) :
    VoIpCall × Directory :=
  if cfg.discardUnidirectionalCalls then ({ c with startWhenReceiveS2 := true }, d)
  else c.startAndReport cfg d now

/-- A packet that is kept. -/
def keepPacket (c : VoIpCall) (cfg : VoIpConfig) (d : Directory) (p : RtpPacketInfo) (now : Int) :
    VoIpCall × Directory :=
  let c := c.mapDeterministic cfg
  let c := { c with numRtpPackets := c.numRtpPackets + 1, lastUpdated := p.arrivalTimestamp }
  let c := c.noteStream cfg d p
  if c.enoughPackets cfg ∧ cfg.lookBackRecording then c.startOrWait cfg d now else (c, d)

/-- The metadata of the first packet. -/
def processMetadata (c : VoIpCall) (cfg : VoIpConfig) (d : Directory) (p : RtpPacketInfo) :
    VoIpCall :=
  if c.metadataProcessed then c
  else
    let c := { c with metadataProcessed := true }
    match c.protocol with
    | .rawRtp => c.processMetadataRawRtp cfg d p
    | .sip => c.processMetadataSip cfg d
    | .skinny => c.processMetadataSkinny p
    | .unkn => c

/-- The start of a session that does not look back, at any packet. -/
def startNonLookBack (c : VoIpCall) (cfg : VoIpConfig) (d : Directory) (now : Int) :
    VoIpCall × Directory :=
  if ¬ cfg.lookBackRecording ∧ ¬ c.nonLookBackSessionStarted ∧
      (c.protocol ≠ .rawRtp ∨ (cfg.trackRawRtpSessionInNonLookBackMode ∧
        (c.numIgnoredRtpPackets : Int) = cfg.rtpMinAmountOfPacketsBeforeStart)) then
    if cfg.discardUnidirectionalCalls then ({ c with startWhenReceiveS2 := true }, d)
    else
      let (c, d) := c.startAndReport cfg d now
      ({ c with nonLookBackSessionStarted := true }, d)
  else (c, d)

/-- The RTP that goes on while a session is on hold: a keepalive, which is dismissed, or after a break
the end of the hold. -/
def resumeOnRtp (c : VoIpCall) (p : RtpPacketInfo) : Option VoIpCall :=
  match c.onHold, c.lastRtpPacket with
  | true, some last =>
    if p.payloadType > 18 then none
    else if p.arrivalTimestamp - last.arrivalTimestamp > 1 then
      some (c.goOffHold p.arrivalTimestamp)
    else some c
  | _, _ => some c

/-- What `AddRtpPacket` leaves, the packet included, and what it returns: false for a packet that does
not belong to the session. -/
structure Added where
  call : VoIpCall
  directory : Directory
  packet : RtpPacketInfo
  ok : Bool

/-- The payload type is replaced by that of Speex (66) in a packet that goes to the recorder. -/
def markSpeex (c : VoIpCall) (cfg : VoIpConfig) (p : RtpPacketInfo) : RtpPacketInfo :=
  if c.started ∧ intToString p.payloadType.toNat ∈ cfg.speexPayloadTypes then
    { p with payloadType := 66 }
  else p

/-- `AddRtpPacket` from the choice of the channel on. -/
def placePacket (c : VoIpCall) (cfg : VoIpConfig) (d : Directory) (p : RtpPacketInfo) (now : Int) :
    Added :=
  let c := { c with lastRtpPacket := some p }
  let (c, d, channel, first) := c.detectChannel cfg d p now
  match c.verdict cfg p channel first now with
  | .dismissed c => ⟨c, d, p, true⟩
  | .rejected c => ⟨c, d, p, false⟩
  | .kept c _ =>
    let (c, d) := c.keepPacket cfg d p now
    ⟨c, d, c.markSpeex cfg p, true⟩

/-- A packet that is not recorded. -/
def ignorePacket (c : VoIpCall) (cfg : VoIpConfig) (d : Directory) (p : RtpPacketInfo) (now : Int) :
    VoIpCall × Directory :=
  let (c, d) := if c.nonLookBackSessionStarted then (c, d)
    else
      let r := c.detectChannel cfg d p now
      (r.1, r.2.1)
  ({ c with
    lastUpdated := p.arrivalTimestamp, numIgnoredRtpPackets := c.numIgnoredRtpPackets + 1 }, d)

def addRtpPacket (c : VoIpCall) (cfg : VoIpConfig) (d : Directory) (p : RtpPacketInfo) (now : Int) :
    Added :=
  let c := c.processMetadata cfg d p
  let (c, d) := c.startNonLookBack cfg d now
  if c.protocol = .sip ∧ cfg.rtpReportDtmf ∧ c.telephoneEventPayloadType ≠ 0 ∧
      p.payloadType = c.telephoneEventPayloadType then
    if cfg.rtpDtmfOnlyLocal ∧ p.sourceIp ≠ c.localIp then ⟨c, d, p, true⟩
    else ⟨c.handleRtpEvent cfg p, d, p, true⟩
  else if ¬ c.keepRtp then
    let (c, d) := c.ignorePacket cfg d p now
    ⟨c, d, p, true⟩
  else
    let (c, d) :=
      if ¬ cfg.lookBackRecording ∧ c.numRtpPackets = 0 ∧ ¬ c.nonLookBackSessionStarted then
        c.startOrWait cfg d now
      else (c, d)
    if c.protocol = .skinny ∧ p.sourceIp ≠ c.endPointIp ∧ p.destIp ≠ c.endPointIp then
      ⟨c, d, p, true⟩
    else
      match c.resumeOnRtp p with
      | none => ⟨c, d, p, true⟩
      | some c => c.placePacket cfg d p now

/-! ## SIP -/

/-- `IsNecExternal`. -/
def isNecExternal (cfg : VoIpConfig) (i : SipInvite) : Bool :=
  matchesStringList
    (if cfg.sipDirectionReferenceIpAddresses.contains i.senderIp then i.from else i.to)
    cfg.necVoipGatewayNames

def reportSipInvite (c : VoIpCall) (cfg : VoIpConfig) (d : Directory) (i : SipInvite) : VoIpCall :=
  let c := if cfg.sipMetadataUseLastInvite ∨ c.invite.isNone then { c with invite := some i } else c
  let c := if compareNoCase i.from i.to ∧ i.contact ≠ "" then
      { c with remoteParty := d.getLocalPartyMap i.contact, direction := .dirOut }
    else c
  let c := { c with invites := i :: c.invites }
  let c := if i.telephoneEventPayloadType ≠ 0 then
      { c with telephoneEventPayloadType := i.telephoneEventPayloadType }
    else c
  let c := if i.sipRemoteParty ≠ "" ∧ (i.isInvite ∨ cfg.sipRemotePartyFrom200OKEnable) ∧
        (c.sipRemoteParty = "" ∨ ¬ compareNoCase c.sipRemoteParty i.sipRemoteParty) then
      { c with sipRemoteParty := i.sipRemoteParty }
    else c
  let c := if c.started then c
    else { c with tags := i.extractedFields.foldl (fun t f => t.insertIfNew f.1 f.2) c.tags }
  match c.tags[cfg.sipOnDemandFieldName]? with
  | some value =>
    if cfg.sipOnDemandFieldName ≠ "" ∧ hasSubstring value cfg.sipOnDemandFieldValue then
      { c with keepRtp := true, onDemand := true }
    else c
  | none => c

/-- `ReportSipBye`: with `dahdiIntercept`, a party that is still "s" is taken from the BYE. -/
def reportSipBye (c : VoIpCall) (cfg : VoIpConfig) (d : Directory) (bye : SipByeInfo) : VoIpCall :=
  if ¬ cfg.dahdiIntercept then c
  else if compareNoCase c.localParty "s" then
    { c with
      localParty := d.getLocalPartyMap
        (if compareNoCase c.remoteParty bye.to then bye.from else bye.to) }
  else if compareNoCase c.remoteParty "s" then
    { c with
      remoteParty := d.getLocalPartyMap
        (if compareNoCase c.localParty (d.getLocalPartyMap bye.to) then bye.from else bye.to) }
  else c

def reportSipNotify (c : VoIpCall) (cfg : VoIpConfig) (notify : SipNotifyInfo) : VoIpCall :=
  match c.invite with
  | some i =>
    if isNecExternal cfg i then
      let c := if c.started then c
        else { c with invite := some { i with sipRemoteParty := notify.dsp } }
      { c with sipRemoteParty := notify.dsp }
    else c
  | none => c

def reportSipInfo (c : VoIpCall) (cfg : VoIpConfig) (info : SipInfo) : VoIpCall :=
  if c.lastSipInfo.any fun last => compareNoCase last.cSeq info.cSeq then c
  else
    let c := { c with lastSipInfo := some info }
    let c := if info.dtmfDigit ≠ "" ∧ cfg.sipInfoDtmfRfc2976Detect then
        c.reportDtmfDigit cfg info.dtmfDigit
      else c
    let c := if cfg.sipOnDemandFieldValue ≠ "" ∧ info.onDemand then c.markAsOnDemand else c
    if cfg.sipOnDemandFieldValueOff ≠ "" ∧ info.onDemandOff then c.markAsOnDemandOff else c

/-! ## Skinny -/

/-- `ReportSkinnyCallInfo`. -/
def reportSkinnyCallInfo (c : VoIpCall) (cfg : VoIpConfig) (callInfo : SkCallInfo)
    (h : SkinnyHeaders) : VoIpCall :=
  let listed (item : String) : Bool := cfg.skinnyReportTags.any fun e => compareNoCase e item
  let c := if listed "localpartyname" then
      { c with tags := c.tags.insertIfNew "localpartyname" callInfo.callingPartyName }
    else c
  if listed "callmanager" then
    { c with tags := c.tags.insertIfNew "callmanager" (inetNtop h.ipSrc) }
  else c

def reportSkinnyCallStateMessage (c : VoIpCall) (cfg : VoIpConfig) (m : SkCallStateMessage)
    (now : Int) : VoIpCall :=
  if m.callState = 8 ∧ ¬ cfg.skinnyIgnoreHold then c.goOnHold (sec now) else c

/-- A party, unless it is one of the global numbers. -/
def localPartyOr (d : Directory) (lp party old : String) : String :=
  if lp ∈ d.skinnyGlobalNumbersList then old else d.getLocalPartyMap party

/-- `VoIpSessions::UpdateSessionWithCallInfo`. -/
def updateWithCallInfo (c : VoIpCall) (cfg : VoIpConfig) (d : Directory) (m : SkCallInfo) :
    VoIpCall :=
  if c.hasReceivedCallInfo ∧ m.calledParty = m.callingParty then c
  else
    let c := { c with hasReceivedCallInfo := true }
    let setRemote (c : VoIpCall) (rp : String) : VoIpCall :=
      if rp = "" then c else { c with remoteParty := d.getLocalPartyMap rp }
    -- inbound, outbound, forwarded
    if m.callType = 1 then
      let c := { c with
        localParty := localPartyOr d m.calledParty m.calledParty c.localParty
        localPartyName := d.getLocalPartyMap m.calledPartyName }
      { setRemote c m.callingParty with direction := .dirIn }
    else if m.callType = 2 then
      let c := { c with
        localParty := localPartyOr d m.callingParty m.callingParty c.localParty
        localPartyName := d.getLocalPartyMap m.callingPartyName }
      { setRemote c m.calledParty with direction := .dirOut }
    else if m.callType = 3 then
      let c := match d.getVoIpEndpointInfo cfg c.endPointIp c.endPointSignallingPort with
        | some ep =>
          if ep.extension = "" then c
          else { c with localParty := localPartyOr d m.calledParty ep.extension c.localParty }
        | none => c
      let c := { c with localPartyName := d.getLocalPartyMap m.calledPartyName }
      { setRemote c m.callingParty with direction := .dirIn }
    else
      let c := { c with
        localParty := localPartyOr d m.calledParty m.calledParty c.localParty
        localPartyName := d.getLocalPartyMap m.calledPartyName }
      setRemote c m.callingParty

end VoIpCall

/-! ## The session object -/

structure VoIpSession extends VoIpCall where
  /-- The key of the media address that was mapped last. -/
  ipAndPort : UInt64 := 0
  rtpIp : InAddr := {}
  callId : String := ""
  /-- The keys of the media addresses mapped. -/
  mediaAddresses : List UInt64 := []

namespace VoIpSession

/-- The constructor, for the object at `r`. -/
def new (cfg : VoIpConfig) (trackingId : String) (r : Ref) (now : Int) : VoIpSession :=
  { VoIpCall.new cfg trackingId r now with }

/-- `CopyMetadataToNewSession`. -/
def copyMetadata (old new : VoIpSession) : VoIpSession :=
  { new with
    ipAndPort := old.ipAndPort
    rtpIp := old.rtpIp
    callId := old.callId
    invite := old.invite
    protocol := old.protocol
    localParty := old.localParty
    remoteParty := old.remoteParty
    localPartyName := old.localPartyName
    remotePartyName := old.remotePartyName
    localPartyReported := old.localPartyReported
    rtcpLocalParty := old.rtcpLocalParty
    rtcpRemoteParty := old.rtcpRemoteParty
    direction := old.direction
    endPointIp := old.endPointIp
    endPointSignallingPort := old.endPointSignallingPort
    skinnyPassThruPartyId := old.skinnyPassThruPartyId
    sipLastInvite := old.sipLastInvite
    skinnyLastCallInfoTime := old.skinnyLastCallInfoTime
    mediaAddresses := old.mediaAddresses
    sipDialedNumber := old.sipDialedNumber
    sipRemoteParty := old.sipRemoteParty
    isCallPickUp := old.isCallPickUp
    ssrcCandidate := old.ssrcCandidate
    metadataProcessed := true }

def nativeCallIdMatches (s : VoIpSession) (callid : String) : Bool :=
  callid ≠ "" && compareNoCase s.callId callid

end VoIpSession

end Oreka.VoIp
