import Oreka.VoIp.VoIpSessions

/-!
# Signalling

The operations of `VoIpSessions` on SIP and Skinny messages. `now` is the time of the call, in
microseconds.
-/

open Std

namespace Oreka.VoIp

namespace VoIpSessions

/-! ## SIP -/

/-- `TrySessionCallPickUp`, for the session created by or found for an INVITE. -/
def trySessionCallPickUp (σ : VoIpSessions) (cfg : VoIpConfig) (r : Ref) (replacesCallId : String) :
    VoIpSessions :=
  if cfg.sipCallPickUpSupport ∧ replacesCallId ∈ σ.sipSubscribeMap then
    { σ.updateCall r (fun c => { c with isCallPickUp := true }) with
      sipSubscribeMap := σ.sipSubscribeMap.erase replacesCallId }
  else σ

/-- The part of an INVITE that concerns hold, for the session it was found to be about: none if the
INVITE is about something else. -/
def holdByInvite (σ : VoIpSessions) (cfg : VoIpConfig) (r : Ref) (i : SipInvite) (rtpPort : UInt16)
    (now : Int) : Option VoIpSessions :=
  if i.attrSendonly then some (σ.updateCall r (·.goOnHold i.recvTime))
  else if (σ.sessions r).onHold ∧ cfg.sipInviteCanPutOffHold then
    let σ := σ.updateCall r fun c => { c.goOffHold i.recvTime with lastUpdated := sec now }
    some (σ.setMediaAddress cfg r i.fromRtpIp rtpPort now)
  else none

/-- The media address of an INVITE, and with `SipTrackMediaAddressOnSender` its sender's too. -/
def setInviteMediaAddress (σ : VoIpSessions) (cfg : VoIpConfig) (r : Ref) (i : SipInvite)
    (rtpPort : UInt16) (now : Int) : VoIpSessions :=
  let σ := σ.setMediaAddress cfg r i.fromRtpIp rtpPort now
  if cfg.sipTrackMediaAddressOnSender then σ.setMediaAddress cfg r i.originalSenderIp rtpPort now
  else σ

/-- An INVITE given to a session that exists already. -/
def giveInvite (σ : VoIpSessions) (cfg : VoIpConfig) (r : Ref) (i : SipInvite) : VoIpSessions :=
  let σ := σ.trySessionCallPickUp cfg r i.replacesId
  σ.updateCall r (·.reportSipInvite cfg σ.directory i)

/-- The endpoint that an INVITE comes from or goes to. -/
def inviteEndpointIp (cfg : VoIpConfig) (i : SipInvite) : InAddr :=
  if cfg.sipDirectionReferenceIpAddresses.contains i.senderIp then i.receiverIp else i.senderIp

/-- The remote party that a NOTIFY announced before its INVITE, which uses it up. -/
def takePreInviteNotify (σ : VoIpSessions) (cfg : VoIpConfig) (i : SipInvite) :
    VoIpSessions × SipInvite :=
  match σ.directory.getVoIpEndpointInfo cfg (inviteEndpointIp cfg i) 0 with
  | some ep =>
    match ep.preInviteNotify with
    | some notify =>
      if cfg.sipNotifySupport ∧ VoIpCall.isNecExternal cfg i then
        ({ σ with
            directory := σ.directory.updateEndpoint cfg (inviteEndpointIp cfg i) 0
              { ep with preInviteNotify := none } },
          { i with sipRemoteParty := notify.dsp })
      else (σ, i)
    | none => (σ, i)
  | none => (σ, i)

/-- The session that an INVITE creates. -/
def createByInvite (σ : VoIpSessions) (cfg : VoIpConfig) (i : SipInvite) (rtpPort : UInt16)
    (now : Int) : VoIpSessions :=
  let r := σ.created
  let σ := (σ.create cfg now).trySessionCallPickUp cfg r i.replacesId
  let σ := σ.setSession r { σ.sessions r with
    callId := i.callId, protocol := .sip, sipDialedNumber := i.sipDialedNumber }
  let (σ, i) := σ.takePreInviteNotify cfg i
  let σ := σ.updateCall r fun c =>
    { c.reportSipInvite cfg σ.directory i with sipLastInvite := now }
  (σ.setInviteMediaAddress cfg r i rtpPort now).insertCallId r

/-- `ReportSipInvite` from the lookup by call id on. `ipAndPort` is the key that the session's is
compared with. -/
def reportSipInviteByCallId (σ : VoIpSessions) (cfg : VoIpConfig) (i : SipInvite) (rtpPort : UInt16)
    (ipAndPort : UInt64) (now : Int) : VoIpSessions :=
  match σ.byCallId[i.callId]? with
  | some r =>
    match σ.holdByInvite cfg r i rtpPort now with
    | some σ => σ
    | none =>
      let σ := if (σ.sessions r).ipAndPort ≠ ipAndPort ∧ cfg.sipDynamicMediaAddress then
          σ.setInviteMediaAddress cfg r i rtpPort now
        else σ
      σ.giveInvite cfg r i
  | none => σ.createByInvite cfg i rtpPort now

/-- `ReportSipInvite`. -/
def reportSipInvite (σ : VoIpSessions) (cfg : VoIpConfig) (i : SipInvite) (now : Int) :
    VoIpSessions :=
  if cfg.sipIgnoredMediaAddresses.contains i.fromRtpIp then σ
  else
    let rtpPortAsInt := if (strtol i.fromRtpPort).2 then (strtol i.fromRtpPort).1 else 0
    let rtpPort := if 0 < rtpPortAsInt ∧ rtpPortAsInt < 65535 then UInt16.ofInt rtpPortAsInt else 0
    let found := σ.findByMediaAddress cfg i.fromRtpIp (.ofInt rtpPortAsInt)
    -- what is found on the sender's address is not used, only the key is
    let ip := if found.isNone ∧ cfg.sipTrackMediaAddressOnSender then i.originalSenderIp
      else i.fromRtpIp
    let ipAndPort := cfg.craft64bitMediaAddress ip (.ofInt rtpPortAsInt)
    match found with
    | none => σ.reportSipInviteByCallId cfg i rtpPort ipAndPort now
    | some r =>
      let s := σ.sessions r
      if s.protocol = .rawRtp ∨ (s.protocol = .sip ∧ cfg.rtpAllowMultipleMappings) then
        σ.reportSipInviteByCallId cfg i rtpPort ipAndPort now
      else if ¬ cfg.rtpAllowMultipleMappings ∧ ¬ compareNoCase i.callId s.callId then
        -- so that the new session replaces it
        let σ := σ.updateCall r fun c => { c with protocol := .rawRtp }
        σ.reportSipInviteByCallId cfg i rtpPort ipAndPort now
      else
        match σ.holdByInvite cfg r i rtpPort now with
        | some σ => σ
        | none => σ.giveInvite cfg r i

def reportSipSubscribe (σ : VoIpSessions) (callId : String) : VoIpSessions :=
  let kept := if σ.sipSubscribeMap.length > 200 then σ.sipSubscribeMap.drop 1 else σ.sipSubscribeMap
  { σ with sipSubscribeMap := if callId ∈ kept then kept else kept ++ [callId] }

def reportSipErrorPacket (σ : VoIpSessions) (cfg : VoIpConfig) (info : SipFailureMessageInfo)
    (now : Int) : VoIpSessions :=
  match σ.byCallId[info.callId]? with
  | some r => if info.errorCode = "407" then σ else σ.stop cfg r now
  | none => σ

def reportSipSessionProgress (σ : VoIpSessions) (cfg : VoIpConfig) (info : SipSessionProgressInfo)
    (now : Int) : VoIpSessions :=
  match σ.byCallId[info.callId]? with
  | some r =>
    let mediaPort := UInt16.ofInt (atoi info.mediaPort)
    let σ := σ.setMediaAddress cfg r info.mediaIp mediaPort now
    if cfg.sipTrackMediaAddressOnSender then σ.setMediaAddress cfg r info.senderIp mediaPort now
    else σ
  | none => σ

def reportSip302MovedTemporarily (σ : VoIpSessions) (info : Sip302MovedTemporarilyInfo) :
    VoIpSessions :=
  { σ with directory := σ.directory.saveLocalPartyMap info.contact info.to }

/-- Whether a 200 OK moves the media of a session. -/
def uses200Ok (cfg : VoIpConfig) (s : VoIpSession) (info : Sip200OkInfo) : Bool :=
  info.hasSdp && cfg.sipUse200OkMediaAddress &&
    (cfg.sipDynamicMediaAddress ||
      (s.numRtpPackets = 0 &&
        (s.rtpIp = {} || cfg.rtpAllowMultipleMappings || cfg.lanIpRanges.contains s.rtpIp ||
          !cfg.lanIpRanges.contains info.mediaIp)))

def reportSip200Ok (σ : VoIpSessions) (cfg : VoIpConfig) (info : Sip200OkInfo) (now : Int) :
    VoIpSessions :=
  match σ.byCallId[info.callId]? with
  | some r =>
    if uses200Ok cfg (σ.sessions r) info then
      σ.setMediaAddress cfg r info.mediaIp (.ofInt (atoi info.mediaPort)) now
    else σ
  | none => σ

def reportSipBye (σ : VoIpSessions) (cfg : VoIpConfig) (bye : SipByeInfo) (now : Int) :
    VoIpSessions :=
  match σ.byCallId[bye.callId]? with
  | some r => (σ.updateCall r (·.reportSipBye cfg σ.directory bye)).stop cfg r now
  | none => σ

/-- The session that a NOTIFY is about: of those with an INVITE at its receiver, the newest. -/
def findByNotify (σ : VoIpSessions) (cfg : VoIpConfig) (notify : SipNotifyInfo) : Option Ref :=
  σ.newest (·.sipLastInvite) (σ.onCallIds.filter fun r =>
    (σ.sessions r).invite.any fun i => inviteEndpointIp cfg i = notify.receiverIp)

def reportSipNotify (σ : VoIpSessions) (cfg : VoIpConfig) (notify : SipNotifyInfo) : VoIpSessions :=
  let session := σ.findByNotify cfg notify
  let dsp := if notify.dsp.toList.all (·.isAlphanum) then notify.dsp else ""
  match notify.onHoldMarker, session with
  | true, some r =>
    { σ with
      lastHoldRemoteParty :=
        Function.update σ.lastHoldRemoteParty notify.pkey (σ.sessions r).sipRemoteParty }
  | _, _ =>
    let dsp := if notify.offHoldMarker ∧ dsp = "" then σ.lastHoldRemoteParty notify.pkey else dsp
    let notify := { notify with dsp := dsp }
    if dsp.utf8ByteSize < 4 then σ
    else
      match session with
      | some r => σ.updateCall r (·.reportSipNotify cfg notify)
      | none =>
        let key := cfg.craft64bitMediaAddress notify.receiverIp 0
        let ep := (σ.directory.endpoints[key]?).getD
          { ip := (cfg.uninitialisedEndpoint key).1, skinnyPort := (cfg.uninitialisedEndpoint key).2 }
        { σ with
          directory := σ.directory.updateEndpoint cfg notify.receiverIp 0
            { ep with preInviteNotify := some notify } }

def reportSipInfo (σ : VoIpSessions) (cfg : VoIpConfig) (info : SipInfo) : VoIpSessions :=
  match σ.byCallId[info.callId]? with
  | some r => σ.updateCall r (·.reportSipInfo cfg info)
  | none => σ

def reportSipRefer (σ : VoIpSessions) (info : SipRefer) : VoIpSessions :=
  match σ.byCallId[info.callId]? with
  | some _ =>
    { σ with
      sipReferList := σ.sipReferList ++
        [{ info with
          referToParty := σ.directory.getLocalPartyMap info.referToParty
          referredByParty := σ.directory.getLocalPartyMap info.referredByParty }] }
  | none => σ

/-! ## Skinny -/

/-- `GenerateSkinnyCallId`. -/
def generateSkinnyCallId (cfg : VoIpConfig) (endpointIp : InAddr) (endpointSkinnyPort : UInt16)
    (callId : UInt32) : String :=
  let id := intToString callId.toNat ++ "@" ++ inetNtop endpointIp
  if cfg.skinnyBehindNat then id ++ "," ++ intToString endpointSkinnyPort.toNat else id

theorem generateSkinnyCallId_ne (cfg : VoIpConfig) (ip : InAddr) (port : UInt16) (callId : UInt32) :
    generateSkinnyCallId cfg ip port callId ≠ "" := by
  unfold generateSkinnyCallId
  dsimp only
  split
  · intro h
    have hl := congrArg String.length h
    simp at hl
  · intro h
    have hl := congrArg String.length h
    simp at hl

/-- `SetEndpointExtension`. -/
def setEndpointExtension (d : Directory) (cfg : VoIpConfig) (extension : String)
    (endpointIp : InAddr) (callId : String) (skinnyPort : UInt16) : Directory :=
  let ep := (d.getVoIpEndpointInfo cfg endpointIp skinnyPort).getD { ip := endpointIp, skinnyPort }
  let ep := { ep with extension := extension }
  d.updateEndpoint cfg endpointIp skinnyPort
    (if callId ≠ "" then { ep with latestCallId := callId } else ep)

/-- `UpdateEndpointWithCallInfo`. -/
def updateEndpointWithCallInfo (d : Directory) (cfg : VoIpConfig) (callInfo : SkCallInfo)
    (h : SkinnyHeaders) : Directory :=
  let callId := generateSkinnyCallId cfg h.ipDest h.tcpDest callInfo.callId
  let set (party : String) : Directory :=
    if party ∈ d.skinnyGlobalNumbersList then d
    else setEndpointExtension d cfg party h.ipDest callId h.tcpDest
  if callInfo.callType = 1 then set callInfo.calledParty
  else if callInfo.callType = 2 then set callInfo.callingParty
  else if callInfo.callType = 3 then set callInfo.calledParty
  else d

/-- A CallInfo for the session that has its call id already. -/
def repeatCallInfo (σ : VoIpSessions) (cfg : VoIpConfig) (r : Ref) (callInfo : SkCallInfo)
    (h : SkinnyHeaders) (now : Int) : VoIpSessions :=
  σ.updateCall r fun c =>
    let c := { c with skinnyLastCallInfoTime := now }
    let c := if cfg.skinnyAllowCallInfoUpdate then c.updateWithCallInfo cfg σ.directory callInfo
      else c
    c.reportSkinnyCallInfo cfg callInfo h

/-- A late CallInfo, for a session that has had none. -/
def lateCallInfo (σ : VoIpSessions) (cfg : VoIpConfig) (r : Ref) (callId : String)
    (callInfo : SkCallInfo) (h : SkinnyHeaders) (now : Int) : VoIpSessions :=
  let c := { (σ.sessions r).toVoIpCall with skinnyLastCallInfoTime := now }
  let c := (c.updateWithCallInfo cfg σ.directory callInfo).updateMetadataSkinny cfg
  let c := c.reportSkinnyCallInfo cfg callInfo h
  (σ.setSession r { σ.sessions r with toVoIpCall := c, callId := callId }).insertCallId r

/-- `SkinnyCallInfoStopsPrevious`: the session whose RTP is the newest at the endpoint is stopped. -/
def stopPrevious (σ : VoIpSessions) (cfg : VoIpConfig) (endpointIp : InAddr) (now : Int) :
    VoIpSessions :=
  match σ.findNewestRtpByEndpointIp endpointIp with
  | some r =>
    if cfg.skinnyCallInfoStopsPrevious ∧
        (cfg.skinnyCallInfoStopsPreviousToleranceSec = 0 ∨
          sec now - (σ.sessions r).lastRtpStreamStart ≤
            cfg.skinnyCallInfoStopsPreviousToleranceSec) then
      σ.stop cfg r now
    else σ
  | none => σ

/-- The session that a CallInfo creates. -/
def createByCallInfo (σ : VoIpSessions) (cfg : VoIpConfig) (callId : String) (callInfo : SkCallInfo)
    (h : SkinnyHeaders) (now : Int) : VoIpSessions :=
  let r := σ.created
  let σ := σ.create cfg now
  let c := { (σ.sessions r).toVoIpCall with
    endPointIp := h.ipDest
    endPointSignallingPort := h.tcpDest
    protocol := .skinny
    skinnyLastCallInfoTime := now }
  let c := (c.updateWithCallInfo cfg σ.directory callInfo).reportSkinnyCallInfo cfg callInfo h
  let σ := σ.setSession r { σ.sessions r with toVoIpCall := c, callId := callId }
  (σ.stopPrevious cfg h.ipDest now).insertCallId r

/-- `ReportSkinnyCallInfo`. -/
def reportSkinnyCallInfo (σ : VoIpSessions) (cfg : VoIpConfig) (callInfo : SkCallInfo)
    (h : SkinnyHeaders) (now : Int) : VoIpSessions :=
  let callId := generateSkinnyCallId cfg h.ipDest h.tcpDest callInfo.callId
  let σ := { σ with directory := updateEndpointWithCallInfo σ.directory cfg callInfo h }
  match σ.byCallId[callId]? with
  | some r => σ.repeatCallInfo cfg r callInfo h now
  | none =>
    match σ.findByEndpointIpUsingIpAndPort h.ipDest with
    | some r =>
      if cfg.skinnyAllowLateCallInfo ∧ (σ.sessions r).callId = "" then
        σ.lateCallInfo cfg r callId callInfo h now
      else σ.createByCallInfo cfg callId callInfo h now
    | none => σ.createByCallInfo cfg callId callInfo h now

def reportSkinnyCallStateMessage (σ : VoIpSessions) (cfg : VoIpConfig) (m : SkCallStateMessage)
    (h : SkinnyHeaders) (now : Int) : VoIpSessions :=
  match σ.byCallId[generateSkinnyCallId cfg h.ipDest h.tcpDest m.callId]? with
  | some r => σ.updateCall r (·.reportSkinnyCallStateMessage cfg m now)
  | none => σ

/-- The session created where a media address comes before the CallInfo. -/
def createByMedia (σ : VoIpSessions) (cfg : VoIpConfig) (endpointIp : InAddr)
    (signallingPort : UInt16) (passThruPartyId : UInt32) (endpoint : Option VoIpEndpointInfo)
    (mediaIp : InAddr) (mediaPort : UInt16) (now : Int) : VoIpSessions :=
  let r := σ.created
  let party := match endpoint with
    | some ep => ep.extension
    | none => inetNtop endpointIp
  let σ := (σ.create cfg now).updateCall r fun c => { c with
    endPointIp := endpointIp
    endPointSignallingPort := signallingPort
    protocol := .skinny
    skinnyPassThruPartyId := passThruPartyId
    localParty := σ.directory.getLocalPartyMap party }
  σ.setMediaAddress cfg r mediaIp mediaPort now

/-- What OpenReceiveChannelAck and StartMediaTransmission have in common: the media address of the
endpoint's newest session, or of a new one. -/
def reportSkinnyMedia (σ : VoIpSessions) (cfg : VoIpConfig) (endpointIp : InAddr)
    (signallingPort : UInt16) (passThruPartyId : UInt32) (endpoint : Option VoIpEndpointInfo)
    (mediaIp : InAddr) (mediaPort : UInt16) (now : Int) : VoIpSessions :=
  match σ.findNewestByEndpoint cfg endpointIp signallingPort with
  | some r =>
    if (σ.sessions r).ipAndPort = 0 ∨ cfg.skinnyDynamicMediaAddress then
      let σ := σ.updateCall r fun c => { c with skinnyPassThruPartyId := passThruPartyId }
      σ.setMediaAddress cfg r mediaIp mediaPort now
    else σ
  | none =>
    if cfg.skinnyAllowLateCallInfo ∧ (σ.findByEndpointIp endpointIp 0).isNone then
      σ.createByMedia cfg endpointIp signallingPort passThruPartyId endpoint mediaIp mediaPort now
    else σ

def reportSkinnyOpenReceiveChannelAck (σ : VoIpSessions) (cfg : VoIpConfig)
    (m : SkOpenReceiveChannelAck) (h : SkinnyHeaders) (now : Int) : VoIpSessions :=
  if cfg.skinnyIgnoreOpenReceiveChannelAck then σ
  else
    σ.reportSkinnyMedia cfg m.endpointIpAddr h.tcpSource m.passThruPartyId
      (σ.directory.getVoIpEndpointInfo cfg m.endpointIpAddr h.tcpSource)
      m.endpointIpAddr m.endpointTcpPort.toUInt16 now

def reportSkinnyStartMediaTransmission (σ : VoIpSessions) (cfg : VoIpConfig)
    (m : SkStartMediaTransmission) (h : SkinnyHeaders) (now : Int) : VoIpSessions :=
  -- the endpoint is looked up with the port of the sender
  σ.reportSkinnyMedia cfg h.ipDest h.tcpDest m.passThruPartyId
    (σ.directory.getVoIpEndpointInfo cfg h.ipDest h.tcpSource)
    m.remoteIpAddr m.remoteTcpPort.toUInt16 now

/-- The session that a StopMediaTransmission is about: by conference id, else by pass-through
party. -/
def findByStopMedia (σ : VoIpSessions) (cfg : VoIpConfig) (m : SkStopMediaTransmission)
    (h : SkinnyHeaders) : Option Ref :=
  let byConference := if m.conferenceId ≠ 0 then
      σ.byCallId[generateSkinnyCallId cfg h.ipDest h.tcpDest m.conferenceId]?
    else none
  match byConference with
  | some r => some r
  | none => if m.passThruPartyId ≠ 0 then σ.findByEndpointIp h.ipDest m.passThruPartyId else none

def reportSkinnyStopMediaTransmission (σ : VoIpSessions) (cfg : VoIpConfig)
    (m : SkStopMediaTransmission) (h : SkinnyHeaders) (now : Int) : VoIpSessions :=
  if cfg.skinnyIgnoreStopMediaTransmission then σ
  else
    match σ.findByStopMedia cfg m h with
    | some r => if (σ.sessions r).onHold then σ else σ.stop cfg r now
    | none => σ

def reportSkinnyLineStat (σ : VoIpSessions) (cfg : VoIpConfig) (lineDirNumber : String)
    (h : SkinnyHeaders) : VoIpSessions :=
  if lineDirNumber.utf8ByteSize > 1 then
    { σ with
      directory := setEndpointExtension σ.directory cfg lineDirNumber h.ipDest "" h.tcpDest }
  else σ

def reportSkinnySoftKeyHold (σ : VoIpSessions) (cfg : VoIpConfig) (callIdentifier : UInt32)
    (h : SkinnyHeaders) (now : Int) : VoIpSessions :=
  if cfg.skinnyIgnoreHold then σ
  else
    match σ.byCallId[generateSkinnyCallId cfg h.ipSrc h.tcpSource callIdentifier]? with
    | some r => σ.updateCall r (·.goOnHold (sec now))
    | none => σ

def reportSkinnySoftKeyResume (σ : VoIpSessions) (cfg : VoIpConfig) (callIdentifier : UInt32)
    (h : SkinnyHeaders) (now : Int) : VoIpSessions :=
  match σ.byCallId[generateSkinnyCallId cfg h.ipSrc h.tcpSource callIdentifier]? with
  | some r => σ.updateCall r fun c => { c.goOffHold (sec now) with lastUpdated := sec now }
  | none => σ

def reportSkinnySoftKeyConfPressed (σ : VoIpSessions) (cfg : VoIpConfig) (endpointIp : InAddr)
    (h : SkinnyHeaders) (now : Int) : VoIpSessions :=
  match σ.directory.getVoIpEndpointInfo cfg endpointIp h.tcpSource with
  | some ep =>
    match σ.byCallId[ep.latestCallId]? with
    | some r =>
      let ep := if ep.lastConnectedWithConference < ep.lastConferencePressed ∨
            ep.lastConferencePressed = 0 then
          { ep with origOrkUid := (σ.sessions r).orkUid }
        else ep
      { σ with
        directory := σ.directory.updateEndpoint cfg endpointIp h.tcpSource
          { ep with lastConferencePressed := sec now } }
    | none => σ
  | none => σ

def reportSkinnySoftKeySetConfConnected (σ : VoIpSessions) (cfg : VoIpConfig) (endpointIp : InAddr)
    (h : SkinnyHeaders) (now : Int) : VoIpSessions :=
  match σ.directory.getVoIpEndpointInfo cfg endpointIp h.tcpDest with
  | some ep =>
    { σ with
      directory := σ.directory.updateEndpoint cfg endpointIp h.tcpDest
        { ep with lastConnectedWithConference := sec now } }
  | none => σ

def reportSkinnySoftKeySetTransfConnected (σ : VoIpSessions) (cfg : VoIpConfig)
    (callIdentifier : UInt32) (h : SkinnyHeaders) (now : Int) : VoIpSessions :=
  match σ.byCallId[generateSkinnyCallId cfg h.ipDest h.tcpDest callIdentifier]? with
  | some r => σ.stop cfg r now
  | none => σ

end VoIpSessions

end Oreka.VoIp
