import Oreka.Base.Utils
import Std.Data.TreeMap.Lemmas

/-!
# Configuration and messages of the VoIP plugin

What the sessions read of `CONFIG` and `DLLCONFIG` (`VoIpConfig.cpp`, `AcpConfig.cpp`), with the
defaults, and what the parsers report to them: `SipHeaders.h`, `Rtp.h` and the Skinny structures of
`PacketHeaderDefs.h`.
-/

open Std

namespace Oreka.VoIp

/-- A reference to a session. -/
abbrev Ref := Nat

/-! ## RTP -/

structure RtpPacketInfo where
  sourceMac : List UInt8 := []
  destMac : List UInt8 := []
  sourceIp : InAddr := {}
  destIp : InAddr := {}
  sourcePort : UInt16 := 0
  destPort : UInt16 := 0
  payloadType : UInt16 := 0
  payload : List UInt8 := []
  seqNum : UInt16 := 0
  ssrc : UInt32 := 0
  timestamp : UInt32 := 0
  arrivalTimestamp : Int := 0
  deriving DecidableEq

structure RtcpSrcDescriptionPacketInfo where
  sourceIp : InAddr
  destIp : InAddr
  sourcePort : UInt16
  destPort : UInt16
  cnameUsername : String
  cnameDomain : String

/-! ## SIP -/

/-- An INVITE, or another message with a media address. -/
structure SipInvite where
  isInvite : Bool := true
  senderIp : InAddr := {}
  originalSenderIp : InAddr := {}
  receiverIp : InAddr := {}
  fromRtpIp : InAddr := {}
  senderMac : List UInt8 := []
  receiverMac : List UInt8 := []
  fromRtpPort : String := ""
  «from» : String := ""
  «to» : String := ""
  callId : String
  replacesId : String := ""
  requestUri : String := ""
  validated : Bool := false
  attrSendonly : Bool := false
  extractedFields : List (String × String) := []
  telephoneEventPayloadType : UInt16 := 0
  fromDomain : String := ""
  toDomain : String := ""
  fromName : String := ""
  toName : String := ""
  userAgent : String := ""
  sipDialedNumber : String := ""
  sipRemoteParty : String := ""
  contact : String := ""
  sipGroupPickUpPatternDetected : Bool := false
  recvTime : Int := 0

/-- `SipInviteInfo` as `TrySipInvite` reports it: it reports none without a call id. -/
structure SipInviteInfo extends SipInvite where
  callId_ne : callId ≠ ""

structure SipFailureMessageInfo where
  callId : String
  errorCode : String

structure SipByeInfo where
  callId : String
  «from» : String := ""
  «to» : String := ""

structure SipNotifyInfo where
  receiverIp : InAddr
  dsp : String
  onHoldMarker : Bool := false
  offHoldMarker : Bool := false
  pkey : Int

structure Sip200OkInfo where
  callId : String
  hasSdp : Bool
  mediaIp : InAddr
  mediaPort : String

structure SipSessionProgressInfo where
  callId : String
  mediaIp : InAddr
  mediaPort : String
  senderIp : InAddr

structure Sip302MovedTemporarilyInfo where
  «to» : String
  contact : String

structure SipInfo where
  callId : String
  dtmfDigit : String := ""
  cSeq : String := ""
  onDemand : Bool := false
  onDemandOff : Bool := false

structure SipRefer where
  timestamp : Int
  «from» : String := ""
  «to» : String := ""
  callId : String
  referToParty : String := ""
  referredByParty : String := ""
  referredParty : String := ""

/-! ## Skinny -/

/-- The addresses in the IP and TCP headers that carry a Skinny message. -/
structure SkinnyHeaders where
  ipSrc : InAddr := {}
  ipDest : InAddr := {}
  tcpSource : UInt16 := 0
  tcpDest : UInt16 := 0

structure SkCallInfo where
  callingPartyName : String := ""
  callingParty : String := ""
  calledPartyName : String := ""
  calledParty : String := ""
  callId : UInt32
  callType : UInt32 := 0

structure SkCallStateMessage where
  callState : UInt32
  callId : UInt32

structure SkStartMediaTransmission where
  passThruPartyId : UInt32
  remoteIpAddr : InAddr
  remoteTcpPort : UInt32

structure SkStopMediaTransmission where
  conferenceId : UInt32
  passThruPartyId : UInt32

structure SkOpenReceiveChannelAck where
  endpointIpAddr : InAddr
  endpointTcpPort : UInt32
  passThruPartyId : UInt32

/-! ## Configuration -/

/-- What the members that the constructors leave uninitialised happen to hold. -/
structure Uninitialised where
  endPointIp : InAddr := {}
  endPointSignallingPort : UInt16 := 0
  localIp : InAddr := {}
  remoteIp : InAddr := {}
  holdBegin : Int := 0
  ssrcCandidateTimestamp : UInt32 := 0

structure VoIpConfig where
  lookBackRecording : Bool := true
  discardUnidirectionalCalls : Bool := false
  /-- For `SessionStartsOnS2ActivityDb`, if set: whether a packet, decoded, is louder than that. -/
  sessionStartsOnS2ActivityDb : Option (RtpPacketInfo → Bool) := none
  rtpSessionTimeoutSec : Int := 10
  rtpSessionWithSignallingTimeoutSec : Int := 10
  rtpSessionWithSignallingInitialTimeoutSec : Int := 300
  rtpSessionOnHoldTimeOutSec : Int := 1800
  rtpTrackByUdpPortOnly : Bool := false
  rtpAllowMultipleMappings : Bool := true
  mediaAddressUseSecondRtpAddress : Bool := false
  mediaAddressBlockedIpRanges : IpRanges := {}
  mediaAddressAllowedIpRanges : IpRanges := {}
  rtpSeqGapThreshold : Int := 500
  rtpDiscontinuityDetect : Bool := false
  rtpDiscontinuityMinSeqDelta : Int := 1000
  rtpBreakupOnStreamPause : Bool := false
  rtpMinAmountOfPacketsBeforeStart : Int := 50
  trackRawRtpSessionInNonLookBackMode : Bool := false
  rtpS1S2MappingDeterministic : Bool := false
  rtpS1S2MappingDeterministicS1IsLocal : Bool := true
  rtpReportDtmf : Bool := false
  rtpDtmfOnlyLocal : Bool := false
  rtpEventPayloadTypeDefaultValue : UInt16 := 0
  onDemandViaDtmfDigitsString : String := ""
  onDemandPauseViaDtmfDigitsString : String := ""
  speexPayloadTypes : List String := []
  isRtpTrackingIpAddress : InAddr → Bool := fun _ => false
  isPartOfLan : InAddr → Bool := fun _ => false
  mediaGateways : IpRanges := {}
  lanIpRanges : IpRanges := {}
  sipIgnoredMediaAddresses : IpRanges := {}
  sipTrackMediaAddressOnSender : Bool := false
  sipInviteCanPutOffHold : Bool := false
  sipDynamicMediaAddress : Bool := true
  sipUse200OkMediaAddress : Bool := true
  sipAllowMediaAddressTransfer : Bool := false
  sipAllowMetadataUpdateOnRtpChange : Bool := false
  sipCallPickUpSupport : Bool := false
  sipNotifySupport : Bool := false
  sipMetadataUseLastInvite : Bool := false
  sipRequestUriAsLocalParty : Bool := true
  sipRemotePartyFrom200OKEnable : Bool := false
  sipDirectionReferenceIpAddresses : IpRanges := {}
  sipDirectionReferenceUserAgents : List String := ["Asterisk"]
  sipDomains : List String := []
  sipOnDemandFieldName : String := "X-record"
  sipOnDemandFieldValue : String := ""
  sipOnDemandFieldValueOff : String := ""
  sipInfoDtmfRfc2976Detect : Bool := false
  necVoipGatewayNames : List String := ["sipphd", "trk001", "trk002"]
  transferTimeOutInSec : Int := 7200
  skinnyAllowMediaAddressTransfer : Bool := true
  skinnyAllowCallInfoUpdate : Bool := true
  skinnyAllowLateCallInfo : Bool := false
  skinnyCallInfoStopsPrevious : Bool := false
  skinnyCallInfoStopsPreviousToleranceSec : Int := 3
  skinnyDynamicMediaAddress : Bool := true
  skinnyIgnoreOpenReceiveChannelAck : Bool := false
  skinnyIgnoreStopMediaTransmission : Bool := true
  skinnyIgnoreHold : Bool := false
  skinnyBehindNat : Bool := false
  skinnyRtpSearchesForCallInfo : Bool := false
  skinnyNameAsLocalParty : Bool := false
  skinnyTrackConferencesTransfers : Bool := false
  skinnyReportTags : List String := []
  localPartyForceLocalIp : Bool := false
  localPartyForceLocalMac : Bool := false
  localPartyAddLocalIp : Bool := false
  localPartyNameMapEnable : Bool := false
  localPartyUseName : Bool := false
  partiesUseName : Bool := false
  useMacIfNoLocalParty : Bool := false
  inInMode : Bool := false
  dahdiIntercept : Bool := false
  sangomaEnable : Bool := false
  sangomaTxTcpPortStart : Int := 0
  sangomaTcpPortDelta : Int := 0
  urlExtractorEnable : Bool := false
  remotePartyUseExtractedKey : String := ""
  /-- The time `GenerateOrkUid` prints, in the local time zone. -/
  formatTime : Int → String := fun _ => ""
  /-- The uninitialised members of each session object. -/
  uninitialised : Ref → Uninitialised := fun _ => {}
  /-- The uninitialised address and port of the endpoint object created at a key. -/
  uninitialisedEndpoint : UInt64 → InAddr × UInt16 := fun _ => ({}, 0)

namespace VoIpConfig

def isMediaGateway (cfg : VoIpConfig) (a : InAddr) : Bool :=
  if cfg.mediaGateways.isEmpty then false else cfg.mediaGateways.contains a

/-- `Craft64bitMediaAddress`. -/
def craft64bitMediaAddress (cfg : VoIpConfig) (ip : InAddr) (port : UInt16) : UInt64 :=
  if cfg.rtpTrackByUdpPortOnly then port.toUInt64
  else (ip.sAddr.toUInt64 <<< 16) ||| port.toUInt64

/-- No address with a port has the key 0. -/
theorem craft64bitMediaAddress_ne_zero (cfg : VoIpConfig) (ip : InAddr) {port : UInt16}
    (h : port ≠ 0) : cfg.craft64bitMediaAddress ip port ≠ 0 := by
  have hp : port.toUInt64 ≠ 0 := by
    intro h0
    apply h
    have hn := congrArg UInt64.toNat h0
    apply UInt16.toNat_inj.1
    simpa using hn
  unfold craft64bitMediaAddress
  split
  · exact hp
  · intro h0
    exact hp (UInt64.or_eq_zero_iff.1 h0).2

end VoIpConfig

/-! ## What the sessions share

Parties are renamed by `m_localPartyMap`; endpoints are known by the address and port of their Skinny
connection. -/

structure UrlExtractionValue where
  value : String
  timestamp : Int

structure VoIpEndpointInfo where
  extension : String := ""
  latestCallId : String := ""
  ip : InAddr
  skinnyPort : UInt16
  lastConferencePressed : Int := 0
  lastConnectedWithConference : Int := 0
  origOrkUid : String := ""
  urlExtractionMap : TreeMap String UrlExtractionValue := ∅
  preInviteNotify : Option SipNotifyInfo := none

structure Directory where
  localPartyMap : TreeMap String String := ∅
  skinnyGlobalNumbersList : List String := []
  endpoints : TreeMap UInt64 VoIpEndpointInfo := ∅
  /-- `s_localPartyNameMap` of `ReportMetadata`. -/
  localPartyNameMap : TreeMap String String := ∅

namespace Directory

def getLocalPartyMap (d : Directory) (party : String) : String := d.localPartyMap[party]?.getD party

def saveLocalPartyMap (d : Directory) (oldparty newparty : String) : Directory :=
  { d with localPartyMap := d.localPartyMap.insertIfNew oldparty newparty }

/-- `GetVoIpEndpointInfo`. -/
def getVoIpEndpointInfo (d : Directory) (cfg : VoIpConfig) (ip : InAddr) (skinnyPort : UInt16) :
    Option VoIpEndpointInfo :=
  d.endpoints[cfg.craft64bitMediaAddress ip skinnyPort]?

/-- `GetVoIpEndpointInfoByIp`. -/
def getVoIpEndpointInfoByIp (d : Directory) (ip : InAddr) : Option VoIpEndpointInfo :=
  (d.endpoints.toList.map (·.2)).find? fun ep => ep.ip = ip

/-- Replace the endpoint at an address that has one. -/
def updateEndpoint (d : Directory) (cfg : VoIpConfig) (ip : InAddr) (skinnyPort : UInt16)
    (ep : VoIpEndpointInfo) : Directory :=
  { d with endpoints := d.endpoints.insert (cfg.craft64bitMediaAddress ip skinnyPort) ep }

end Directory

end Oreka.VoIp
