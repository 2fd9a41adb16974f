import Oreka.VoIp.Signalling

/-!
# RTP, captures and expiry

The other operations of `VoIpSessions`: RTP and RTCP packets, the capture commands, and `Hoover`.
`Op` is a call of one of the operations, `step` what it does at a time.
-/

open Std

namespace Oreka.VoIp

namespace VoIpSessions

/-! ## RTP -/

/-- `SangomaEnable`: packets between equal ports are made to look bidirectional. -/
def sangoma (cfg : VoIpConfig) (p : RtpPacketInfo) : RtpPacketInfo :=
  if cfg.sangomaEnable ∧ p.sourcePort = p.destPort then
    let p := if p.sourceIp = p.destIp then
        { p with destIp := { p.destIp with b0 := p.destIp.b0 ^^^ 1 } }
      else p
    if (p.sourcePort.toNat : Int) > cfg.sangomaTxTcpPortStart then
      { p with
        sourcePort := .ofInt (p.sourcePort.toNat - cfg.sangomaTcpPortDelta)
        sourceIp := p.destIp
        destIp := p.sourceIp }
    else { p with sourcePort := .ofInt (p.sourcePort.toNat + cfg.sangomaTcpPortDelta) }
  else p

/-- A packet given to the session found at one of its addresses: the state, the packet, and how many
sessions took it. A session that does not take it is stopped. -/
def giveRtpPacket (σ : VoIpSessions) (cfg : VoIpConfig) (found : Option Ref) (p : RtpPacketInfo)
    (now : Int) : VoIpSessions × RtpPacketInfo × Nat :=
  match found with
  | none => (σ, p, 0)
  | some r =>
    let a := (σ.sessions r).addRtpPacket cfg σ.directory p now
    let σ := { σ.updateCall r (fun _ => a.call) with directory := a.directory }
    if a.ok then (σ, a.packet, 1) else (σ.stop cfg r now, a.packet, 0)

def eraseMediaAddress (σ : VoIpSessions) (mediaAddress : UInt64) : VoIpSessions :=
  { σ with byIpAndPort := σ.byIpAndPort.erase mediaAddress }

/-- Of two SIP sessions with multiple mappings, the one with the newer INVITE takes over the other's
address, unless this is the other's first packet. -/
def takeOver (σ : VoIpSessions) (cfg : VoIpConfig) (r1 r2 : Ref) (p : RtpPacketInfo) :
    VoIpSessions :=
  if (σ.sessions r1).sipLastInvite > (σ.sessions r2).sipLastInvite then
    if (σ.sessions r2).numRtpPackets ≠ 1 then
      σ.eraseMediaAddress (cfg.craft64bitMediaAddress p.destIp p.destPort)
    else σ
  else if (σ.sessions r1).numRtpPackets ≠ 1 then
    σ.eraseMediaAddress (cfg.craft64bitMediaAddress p.sourceIp p.sourcePort)
  else σ

/-- The session that is merged into the other. -/
def mergee (σ : VoIpSessions) (cfg : VoIpConfig) (r1 r2 : Ref) (p : RtpPacketInfo) : Ref :=
  let s1 := σ.sessions r1
  let s2 := σ.sessions r2
  if cfg.isRtpTrackingIpAddress p.sourceIp then r2
  else if cfg.isRtpTrackingIpAddress p.destIp then r1
  else if s1.protocol = .rawRtp then r1
  else if s2.protocol = .rawRtp then r2
  else if s1.numRtpPackets < s2.numRtpPackets ∧ s1.numRtpPackets < 5 then r1
  else if s2.numRtpPackets < s1.numRtpPackets ∧ s2.numRtpPackets < 5 then r2
  else if s1.direction = .dirOut then r2
  else r1

/-- Two sessions took the packet, `r1` at its source and `r2` at its destination. -/
def merge (σ : VoIpSessions) (cfg : VoIpConfig) (r1 r2 : Ref) (p : RtpPacketInfo) (now : Int) :
    VoIpSessions :=
  if cfg.rtpAllowMultipleMappings ∧ (σ.sessions r1).protocol = .sip ∧
      (σ.sessions r2).protocol = .sip then
    σ.takeOver cfg r1 r2 p
  else σ.stop cfg (σ.mergee cfg r1 r2 p) now

/-- The address by which a SIP session with its first packet is tracked, if one is configured. -/
def trackingAddress (cfg : VoIpConfig) (p : RtpPacketInfo) : Option (InAddr × UInt16) :=
  if cfg.isRtpTrackingIpAddress p.destIp then some (p.destIp, p.destPort)
  else if cfg.isRtpTrackingIpAddress p.sourceIp then some (p.sourceIp, p.sourcePort)
  else none

/-- `MediaAddressUseSecondRtpAddress`: the other address of the packet becomes the session's too. -/
def trackSecond (σ : VoIpSessions) (cfg : VoIpConfig) (r : Ref) (sourceAddressIsTracked : Bool)
    (p : RtpPacketInfo) (now : Int) : VoIpSessions :=
  if cfg.mediaAddressUseSecondRtpAddress then
    if sourceAddressIsTracked then σ.setMediaAddress cfg r p.destIp p.destPort now
    else σ.setMediaAddress cfg r p.sourceIp p.sourcePort now
  else σ

/-- The session may be tracked by the wrong address, if this is its first packet. -/
def trackFirst (σ : VoIpSessions) (cfg : VoIpConfig) (r : Ref) (p : RtpPacketInfo) (now : Int) :
    VoIpSessions :=
  if (σ.sessions r).numRtpPackets = 1 ∧ (σ.sessions r).protocol = .sip then
    match trackingAddress cfg p with
    | some (ip, port) => σ.setMediaAddress cfg r ip port now
    | none => σ
  else σ

/-- One session took the packet. -/
def track (σ : VoIpSessions) (cfg : VoIpConfig) (r : Ref) (sourceAddressIsTracked : Bool)
    (p : RtpPacketInfo) (now : Int) : VoIpSessions :=
  (σ.trackSecond cfg r sourceAddressIsTracked p now).trackFirst cfg r p now

/-- The Skinny endpoint that sends or receives the packet, and whether it sends it. -/
def rtpEndpoint (σ : VoIpSessions) (p : RtpPacketInfo) : Option (VoIpEndpointInfo × Bool) :=
  match σ.directory.getVoIpEndpointInfoByIp p.sourceIp with
  | some ep => some (ep, true)
  | none => (σ.directory.getVoIpEndpointInfoByIp p.destIp).map (·, false)

/-- `SkinnyFindMostLikelySessionForRtp`: none where it returns false. -/
def skinnyFindMostLikelySessionForRtp (σ : VoIpSessions) (cfg : VoIpConfig) (p : RtpPacketInfo)
    (now : Int) : Option VoIpSessions := do
  let (ep, srcmatch) ← σ.rtpEndpoint p
  if ep.latestCallId = "" then none
  else
    let r ← σ.byCallId[ep.latestCallId]?
    if (σ.sessions r).stopped then none
    else
      let σ := σ.updateCall r fun c => { c with endPointSignallingPort := ep.skinnyPort }
      some (if srcmatch then σ.setMediaAddress cfg r p.sourceIp p.sourcePort now
        else σ.setMediaAddress cfg r p.destIp p.destPort now)

/-- The search of `SkinnyFindMostLikelySessionForRtpBehindNat`, with the time found so far, which is
the present one at first. -/
def mostRecentBehindNat (σ : VoIpSessions) (p : RtpPacketInfo) (now : Int) : Option Ref × Int :=
  σ.onCallIds.foldl (fun found r =>
    let s := σ.sessions r
    if (s.endPointIp = p.sourceIp ∨ s.endPointIp = p.destIp) ∧
        s.skinnyLastCallInfoTime ≥ found.2 ∧ s.ipAndPort = 0 then
      (some r, s.skinnyLastCallInfoTime)
    else found) (none, now)

/-- `SkinnyFindMostLikelySessionForRtpBehindNat`: none where it returns false. -/
def skinnyFindMostLikelySessionForRtpBehindNat (σ : VoIpSessions) (cfg : VoIpConfig)
    (p : RtpPacketInfo) (now : Int) : Option VoIpSessions :=
  match σ.mostRecentBehindNat p now with
  | (some r, latest) =>
    -- the difference is cast to an `int`
    if (sec now - sec latest).bmod (2 ^ 32) > 30 ∨ (σ.sessions r).stopped then none
    else if (σ.sessions r).endPointIp = p.sourceIp then
      some (σ.setMediaAddress cfg r p.destIp p.destPort now)
    else some (σ.setMediaAddress cfg r p.sourceIp p.sourcePort now)
  | (none, _) => none

/-- The search for a Skinny session for a packet of no session. -/
def skinnyFind (σ : VoIpSessions) (cfg : VoIpConfig) (p : RtpPacketInfo) (now : Int) :
    Option VoIpSessions :=
  if ¬ cfg.skinnyRtpSearchesForCallInfo then none
  else if ¬ cfg.skinnyBehindNat then σ.skinnyFindMostLikelySessionForRtp cfg p now
  else σ.skinnyFindMostLikelySessionForRtpBehindNat cfg p now

/-- The parties of a raw RTP session at an endpoint known to Skinny. -/
def endpointParties (σ : VoIpSessions) (cfg : VoIpConfig) (p : RtpPacketInfo) (c : VoIpCall) :
    VoIpCall :=
  if cfg.skinnyRtpSearchesForCallInfo ∧ ¬ cfg.skinnyBehindNat then
    match σ.rtpEndpoint p with
    | some (ep, _) =>
      { c with
        localParty := ep.extension
        remoteParty := inetNtop (if ep.ip = p.sourceIp then p.destIp else p.sourceIp) }
    | none => c
  else c

/-- The raw RTP session that a packet creates. -/
def createByRtp (σ : VoIpSessions) (cfg : VoIpConfig) (p : RtpPacketInfo) (now : Int) :
    VoIpSessions :=
  let r := σ.created
  let (rtpIp, rtpPort) := if cfg.isRtpTrackingIpAddress p.sourceIp ∨ cfg.sangomaEnable then
      (p.sourceIp, p.sourcePort)
    else (p.destIp, p.destPort)
  let τ := (σ.create cfg now).updateCall r fun c =>
    { c with protocol := .rawRtp, endPointIp := rtpIp }
  let τ := τ.setMediaAddress cfg r rtpIp rtpPort now
  let a := (τ.sessions r).addRtpPacket cfg τ.directory p now
  { τ.updateCall r (fun _ => σ.endpointParties cfg p a.call) with directory := a.directory }

/-- `ReportRtpPacket` from the lookup of the packet's destination on. `n1` sessions took the packet at
its source, where `session1` was found. -/
def giveAtDestination (σ : VoIpSessions) (cfg : VoIpConfig) (session1 : Option Ref) (n1 : Nat)
    (p : RtpPacketInfo) (now : Int) : VoIpSessions :=
  let session2 := σ.findByMediaAddress cfg p.destIp p.destPort
  let (σ, p, n2) := σ.giveRtpPacket cfg session2 p now
  if n1 + n2 = 2 then
    match session1, session2 with
    | some r1, some r2 => if r1 ≠ r2 then σ.merge cfg r1 r2 p now else σ
    | _, _ => σ
  else if n1 + n2 = 1 then
    -- the session found last, even if it is the other that took the packet
    match session2.or session1 with
    | some r => σ.track cfg r session1.isSome p now
    | none => σ
  else if cfg.lookBackRecording ∨ cfg.trackRawRtpSessionInNonLookBackMode then
    (σ.skinnyFind cfg p now).getD (σ.createByRtp cfg p now)
  else σ

/-- `ReportRtpPacket`. -/
def reportRtpPacket (σ : VoIpSessions) (cfg : VoIpConfig) (rtpPacket : RtpPacketInfo) (now : Int) :
    VoIpSessions :=
  let p := sangoma cfg rtpPacket
  let session1 := σ.findByMediaAddress cfg p.sourceIp p.sourcePort
  let (σ, p, n1) := σ.giveRtpPacket cfg session1 p now
  σ.giveAtDestination cfg session1 n1 p now

/-- `ReportRtcpSrcDescription`. -/
def reportRtcpSrcDescription (σ : VoIpSessions) (cfg : VoIpConfig)
    (info : RtcpSrcDescriptionPacketInfo) : VoIpSessions :=
  match (σ.findByMediaAddress cfg info.sourceIp (info.sourcePort - 1)).or
      (σ.findByMediaAddress cfg info.destIp (info.destPort - 1)) with
  | some r => σ.updateCall r (·.reportRtcpSrcDescription cfg σ.directory info)
  | none => σ

/-! ## Expiry -/

/-- The timeout of a session with signalling. -/
def signalledTimeout (cfg : VoIpConfig) (c : VoIpCall) : Int :=
  if c.onHold then cfg.rtpSessionOnHoldTimeOutSec
  else if c.numRtpPackets ≠ 0 ∨ c.numIgnoredRtpPackets ≠ 0 then
    cfg.rtpSessionWithSignallingTimeoutSec
  else cfg.rtpSessionWithSignallingInitialTimeoutSec

/-- The timeout of a session in the map of media addresses. -/
def timeout (cfg : VoIpConfig) (c : VoIpCall) : Int :=
  if c.protocol = .rawRtp then cfg.rtpSessionTimeoutSec else signalledTimeout cfg c

def stopEach (σ : VoIpSessions) (cfg : VoIpConfig) (rs : List Ref) (now : Int) : VoIpSessions :=
  rs.foldl (fun σ r => σ.stop cfg r now) σ

/-- The sessions of the map of media addresses that have expired at `t`, in seconds. -/
def expiredOnMedia (σ : VoIpSessions) (cfg : VoIpConfig) (t : Int) : List Ref :=
  σ.onMedia.filter fun r =>
    t - (σ.sessions r).lastUpdated > timeout cfg (σ.sessions r).toVoIpCall

/-- Those of the map of call ids, where raw RTP has no timeout of its own. -/
def expiredOnCallIds (σ : VoIpSessions) (cfg : VoIpConfig) (t : Int) : List Ref :=
  σ.onCallIds.filter fun r =>
    t - (σ.sessions r).lastUpdated > signalledTimeout cfg (σ.sessions r).toVoIpCall

/-- `Hoover(t)`. -/
def hoover (σ : VoIpSessions) (cfg : VoIpConfig) (t now : Int) : VoIpSessions :=
  let σ := σ.stopEach cfg (σ.expiredOnMedia cfg t) now
  σ.stopEach cfg (σ.expiredOnCallIds cfg t) now

def stopAll (σ : VoIpSessions) (cfg : VoIpConfig) (now : Int) : VoIpSessions :=
  σ.hoover cfg (sec now + 2 * cfg.rtpSessionOnHoldTimeOutSec) now

/-! ## Captures -/

/-- The first session of the map of media addresses that a capture command is about. -/
def findCapture (σ : VoIpSessions) (which : VoIpSession → Bool) : Option Ref :=
  σ.onMedia.find? fun r => which (σ.sessions r)

/-- What the `StartCapture` commands do, and the orkuid they find. -/
def startCaptureOf (σ : VoIpSessions) (which : VoIpSession → Bool) : VoIpSessions × String :=
  match σ.findCapture which with
  | some r => (σ.updateCall r fun c => { c with keepRtp := true }.markAsOnDemand,
      (σ.sessions r).orkUid)
  | none => (σ, "")

def startCapture (σ : VoIpSessions) (party : String) : VoIpSessions × String :=
  σ.startCaptureOf (·.partyMatches party)

def startCaptureOrkuid (σ : VoIpSessions) (orkuid : String) : VoIpSessions :=
  (σ.startCaptureOf (·.orkUidMatches orkuid)).1

def startCaptureNativeCallId (σ : VoIpSessions) (nativecallid : String) : VoIpSessions × String :=
  σ.startCaptureOf (·.nativeCallIdMatches nativecallid)

/-- What the `PauseCapture` commands do, and the orkuid they find. -/
def pauseCaptureOf (σ : VoIpSessions) (which : VoIpSession → Bool) : VoIpSessions × String :=
  match σ.findCapture which with
  | some r => (σ.updateCall r fun c => { c with keepRtp := false }, (σ.sessions r).orkUid)
  | none => (σ, "")

def pauseCapture (σ : VoIpSessions) (party : String) : VoIpSessions × String :=
  σ.pauseCaptureOf (·.partyMatches party)

def pauseCaptureOrkuid (σ : VoIpSessions) (orkuid : String) : VoIpSessions :=
  (σ.pauseCaptureOf (·.orkUidMatches orkuid)).1

def pauseCaptureNativeCallId (σ : VoIpSessions) (nativecallid : String) : VoIpSessions × String :=
  σ.pauseCaptureOf (·.nativeCallIdMatches nativecallid)

/-- The new session that is to gather the RTP of a session whose capture is stopped. -/
def createSuccessor (σ : VoIpSessions) (cfg : VoIpConfig) (r : Ref) (now : Int) : VoIpSessions :=
  let old := σ.sessions r
  let new := σ.created
  let σ := σ.create cfg now
  σ.setSession new (old.copyMetadata (σ.sessions new))

/-- The stop of the capture of `r`: its successor takes its media address and its call id. -/
def handOver (σ : VoIpSessions) (cfg : VoIpConfig) (r : Ref) (now : Int) : VoIpSessions :=
  let new := σ.created
  let σ := (σ.createSuccessor cfg r now).stop cfg r now
  let σ := { σ with byIpAndPort := σ.byIpAndPort.insertIfNew (σ.sessions new).ipAndPort new }
  σ.insertCallId new

/-- `qos`, the RTP statistics in text. -/
def qosText (c : VoIpCall) : String :=
  "RtpNumPkts:" ++ toString c.numRtpPackets ++ " RtpNumMissingPkts:" ++
    toString c.rtpNumMissingPkts ++ " RtpNumSeqGaps:" ++ toString c.rtpNumSeqGaps ++
    " RtpMaxSeqGap:" ++ toString c.highestRtpSeqNumDelta

/-- What the `StopCapture` commands leave, the orkuid they find, and `qos`. -/
structure Captured where
  sessions : VoIpSessions
  orkUid : String := ""
  qos : Option String := none

def stopCaptureOf (σ : VoIpSessions) (cfg : VoIpConfig) (which : VoIpSession → Bool) (now : Int) :
    Captured :=
  match σ.findCapture which with
  | some r =>
    { sessions := σ.handOver cfg r now
      orkUid := (σ.sessions r).orkUid
      qos := some (qosText (σ.sessions r).toVoIpCall) }
  | none => { sessions := σ }

def stopCapture (σ : VoIpSessions) (cfg : VoIpConfig) (party : String) (now : Int) : Captured :=
  σ.stopCaptureOf cfg (·.partyMatches party) now

/-- `StopCaptureOrkuid`, which returns no orkuid. -/
def stopCaptureOrkuid (σ : VoIpSessions) (cfg : VoIpConfig) (orkuid : String) (now : Int) :
    Captured :=
  { σ.stopCaptureOf cfg (·.orkUidMatches orkuid) now with orkUid := "" }

def stopCaptureNativeCallId (σ : VoIpSessions) (cfg : VoIpConfig) (nativecallid : String)
    (now : Int) : Captured :=
  σ.stopCaptureOf cfg (·.nativeCallIdMatches nativecallid) now

/-- `ReportOnDemandMarkerByIp`: of the sessions with RTP at the address, the one updated last is
captured. -/
def reportOnDemandMarkerByIp (σ : VoIpSessions) (endpointIp : InAddr) : VoIpSessions :=
  let sessionsOnIp := σ.onMedia.filter fun r =>
    (σ.sessions r).isMatchedLocalOrRemoteIp endpointIp ∧ (σ.sessions r).numRtpPackets > 0
  let chosen := sessionsOnIp.foldl (fun (found : Option Ref × Int) r =>
    if (σ.sessions r).lastUpdated > found.2 then (some r, (σ.sessions r).lastUpdated) else found)
    (none, 0)
  match chosen.1 with
  | some r => σ.updateCall r fun c => { c with keepRtp := true }.markAsOnDemand
  | none => σ

/-! ## URL extraction -/

/-- The values that `UrlExtraction` has parsed from an endpoint's input, put into its map. -/
def storeExtracted (σ : VoIpSessions) (cfg : VoIpConfig) (pairs : List (String × String))
    (endpointIp : InAddr) (now : Int) : VoIpSessions :=
  pairs.foldl (fun σ pair =>
    let key := cfg.craft64bitMediaAddress endpointIp 0
    let ep := (σ.directory.endpoints[key]?).getD
      { ip := endpointIp, skinnyPort := (cfg.uninitialisedEndpoint key).2 }
    let value : UrlExtractionValue := { value := pair.2, timestamp := sec now }
    { σ with
      directory := σ.directory.updateEndpoint cfg endpointIp 0
        { ep with urlExtractionMap := ep.urlExtractionMap.insert pair.1 value } }) σ

/-! ## Runs -/

/-- A call of one of the operations. -/
inductive Op
  | sipInvite (invite : SipInviteInfo)
  | sipSubscribe (callId : String)
  | sipErrorPacket (info : SipFailureMessageInfo)
  | sipSessionProgress (info : SipSessionProgressInfo)
  | sip302MovedTemporarily (info : Sip302MovedTemporarilyInfo)
  | sip200Ok (info : Sip200OkInfo)
  | sipBye (bye : SipByeInfo)
  | sipNotify (notify : SipNotifyInfo)
  | sipInfo (info : SipInfo)
  | sipRefer (info : SipRefer)
  | skinnyCallInfo (callInfo : SkCallInfo) (h : SkinnyHeaders)
  | skinnyCallStateMessage (m : SkCallStateMessage) (h : SkinnyHeaders)
  | skinnyOpenReceiveChannelAck (m : SkOpenReceiveChannelAck) (h : SkinnyHeaders)
  | skinnyStartMediaTransmission (m : SkStartMediaTransmission) (h : SkinnyHeaders)
  | skinnyStopMediaTransmission (m : SkStopMediaTransmission) (h : SkinnyHeaders)
  | skinnyLineStat (lineDirNumber : String) (h : SkinnyHeaders)
  | skinnySoftKeyHold (callIdentifier : UInt32) (h : SkinnyHeaders)
  | skinnySoftKeyResume (callIdentifier : UInt32) (h : SkinnyHeaders)
  | skinnySoftKeyConfPressed (endpointIp : InAddr) (h : SkinnyHeaders)
  | skinnySoftKeySetConfConnected (endpointIp : InAddr) (h : SkinnyHeaders)
  | skinnySoftKeySetTransfConnected (callIdentifier : UInt32) (h : SkinnyHeaders)
  | rtpPacket (p : RtpPacketInfo)
  | rtcpSrcDescription (info : RtcpSrcDescriptionPacketInfo)
  | hoover (t : Int)
  | stopAll
  | startCapture (party : String)
  | startCaptureOrkuid (orkuid : String)
  | startCaptureNativeCallId (nativecallid : String)
  | pauseCapture (party : String)
  | pauseCaptureOrkuid (orkuid : String)
  | pauseCaptureNativeCallId (nativecallid : String)
  | stopCapture (party : String)
  | stopCaptureOrkuid (orkuid : String)
  | stopCaptureNativeCallId (nativecallid : String)
  | onDemandMarkerByIp (endpointIp : InAddr)
  | urlExtraction (pairs : List (String × String)) (endpointIp : InAddr)
  | saveLocalPartyMap (oldparty newparty : String)
  | clearLocalPartyMap
  | saveSkinnyGlobalNumbersList (number : String)

/-- An operation at a time, in microseconds. -/
def step (cfg : VoIpConfig) (σ : VoIpSessions) : Int × Op → VoIpSessions
  | (now, .sipInvite invite) => σ.reportSipInvite cfg invite.toSipInvite now
  | (_, .sipSubscribe callId) => σ.reportSipSubscribe callId
  | (now, .sipErrorPacket info) => σ.reportSipErrorPacket cfg info now
  | (now, .sipSessionProgress info) => σ.reportSipSessionProgress cfg info now
  | (_, .sip302MovedTemporarily info) => σ.reportSip302MovedTemporarily info
  | (now, .sip200Ok info) => σ.reportSip200Ok cfg info now
  | (now, .sipBye bye) => σ.reportSipBye cfg bye now
  | (_, .sipNotify notify) => σ.reportSipNotify cfg notify
  | (_, .sipInfo info) => σ.reportSipInfo cfg info
  | (_, .sipRefer info) => σ.reportSipRefer info
  | (now, .skinnyCallInfo callInfo h) => σ.reportSkinnyCallInfo cfg callInfo h now
  | (now, .skinnyCallStateMessage m h) => σ.reportSkinnyCallStateMessage cfg m h now
  | (now, .skinnyOpenReceiveChannelAck m h) => σ.reportSkinnyOpenReceiveChannelAck cfg m h now
  | (now, .skinnyStartMediaTransmission m h) => σ.reportSkinnyStartMediaTransmission cfg m h now
  | (now, .skinnyStopMediaTransmission m h) => σ.reportSkinnyStopMediaTransmission cfg m h now
  | (_, .skinnyLineStat lineDirNumber h) => σ.reportSkinnyLineStat cfg lineDirNumber h
  | (now, .skinnySoftKeyHold id h) => σ.reportSkinnySoftKeyHold cfg id h now
  | (now, .skinnySoftKeyResume id h) => σ.reportSkinnySoftKeyResume cfg id h now
  | (now, .skinnySoftKeyConfPressed ip h) => σ.reportSkinnySoftKeyConfPressed cfg ip h now
  | (now, .skinnySoftKeySetConfConnected ip h) => σ.reportSkinnySoftKeySetConfConnected cfg ip h now
  | (now, .skinnySoftKeySetTransfConnected id h) =>
    σ.reportSkinnySoftKeySetTransfConnected cfg id h now
  | (now, .rtpPacket p) => σ.reportRtpPacket cfg p now
  | (_, .rtcpSrcDescription info) => σ.reportRtcpSrcDescription cfg info
  | (now, .hoover t) => σ.hoover cfg t now
  | (now, .stopAll) => σ.stopAll cfg now
  | (_, .startCapture party) => (σ.startCapture party).1
  | (_, .startCaptureOrkuid orkuid) => σ.startCaptureOrkuid orkuid
  | (_, .startCaptureNativeCallId callid) => (σ.startCaptureNativeCallId callid).1
  | (_, .pauseCapture party) => (σ.pauseCapture party).1
  | (_, .pauseCaptureOrkuid orkuid) => σ.pauseCaptureOrkuid orkuid
  | (_, .pauseCaptureNativeCallId callid) => (σ.pauseCaptureNativeCallId callid).1
  | (now, .stopCapture party) => (σ.stopCapture cfg party now).sessions
  | (now, .stopCaptureOrkuid orkuid) => (σ.stopCaptureOrkuid cfg orkuid now).sessions
  | (now, .stopCaptureNativeCallId callid) => (σ.stopCaptureNativeCallId cfg callid now).sessions
  | (_, .onDemandMarkerByIp ip) => σ.reportOnDemandMarkerByIp ip
  | (now, .urlExtraction pairs ip) => σ.storeExtracted cfg pairs ip now
  | (_, .saveLocalPartyMap oldparty newparty) =>
    { σ with directory := σ.directory.saveLocalPartyMap oldparty newparty }
  | (_, .clearLocalPartyMap) => { σ with directory := { σ.directory with localPartyMap := ∅ } }
  | (_, .saveSkinnyGlobalNumbersList number) =>
    { σ with
      directory := { σ.directory with
        skinnyGlobalNumbersList := number :: σ.directory.skinnyGlobalNumbersList } }

end VoIpSessions

end Oreka.VoIp
