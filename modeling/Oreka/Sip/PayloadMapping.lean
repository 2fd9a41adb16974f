import Mathlib.Logic.Function.Basic
import Oreka.Serializers.Serializer
import Oreka.Sip.HeaderSearch

/-!
# Dynamic payload types

`GetDynamicPayloadMapping` of `voip/ParsingUtils.cpp` reads the rtpmap attributes of an SDP block into
the payload types of Oreka, by `GetOrekaRtpPayloadTypeForSdpRtpMap` of `Utils.cpp`; `TrySipInvite`
(`SipParsers.cpp`) calls it for the audio part of a message, after it has looked there for the payload
type of telephone events. The other fields of a message are left out. A pointer into a block is the rest
of the block from it on.
-/

namespace Oreka.Sip

open Net (byte)
open Serializers (Failure stringToInt)
open ParsingUtils

/-- `ciFind`. -/
def ciFind (haystack needle : List UInt8) : Option Nat :=
  (List.range (haystack.length + 1)).find? fun i =>
    (needle.map toUpper).isPrefixOf ((haystack.drop i).map toUpper)

/-- 0 is no match. -/
def getOrekaRtpPayloadTypeForSdpRtpMap (sdp : List UInt8) : UInt8 :=
  let finds (codec : String) : Bool := (ciFind sdp (ascii codec)).isSome
  if finds "opus" then 60
  else if finds "AMR/8000" then 61
  else if finds "AMR-WB" then 62
  else if finds "iLBC" then 63
  else if finds "SILK/8000" then 64
  else if finds "SILK/16000" then 64
  else if finds "speex" then 66
  else if finds "telephone-event" then 67
  else if finds "AAL2-G726-32" then 0
  else if finds "G726-32" then 2
  else 0

/-- `m_orekaRtpPayloadTypeMap`, an entry for each payload type from 96 on. -/
abbrev PayloadMap := Nat → UInt8

/-- "a=rtpmap:". -/
def rtpmap : List UInt8 := ascii "a=rtpmap:"

/-- The payload type of an attribute. -/
def plType (plStr : List UInt8) : Except Failure Int :=
  if plStr.length > 0 then (stringToInt plStr).map Int32.toInt else .ok (-1)

/-- An attribute is read into the map. -/
def remap (map : PayloadMap) (fullLine plStr : List UInt8) : Except Failure PayloadMap := do
  let plType ← plType plStr
  if plType > 95 ∧ plType < 127 then
    let orekaPayloadType := getOrekaRtpPayloadTypeForSdpRtpMap fullLine
    return if orekaPayloadType ≠ 0 ∧ orekaPayloadType ≠ map (plType - 96).toNat then
      Function.update map (plType - 96).toNat orekaPayloadType
    else map
  else return map

/-- The loop of `GetDynamicPayloadMapping`, from where the search goes on; none when the rounds do not
suffice. -/
def mappingLoop : Nat → List UInt8 → PayloadMap → Option (Except Failure PayloadMap)
  | 0, _, _ => none
  | rounds + 1, sdp, map =>
    match memFindStr rtpmap sdp sdp.length with
    | none => some (.ok map)
    | some rtpmapPos =>
      let fullLine := grabTokenAcceptSpace (byte sdp) rtpmapPos sdp.length
      match remap map fullLine (grabToken (byte sdp) (rtpmapPos + rtpmap.length) sdp.length) with
      | .error e => some (.error e)
      | .ok map => mappingLoop rounds (sdp.drop (rtpmapPos + fullLine.length)) map

/-- `GetDynamicPayloadMapping`, of a block that ends where the memory does. -/
def getDynamicPayloadMapping (sdp : List UInt8) (map : PayloadMap) : Option (Except Failure PayloadMap) :=
  mappingLoop (sdp.length + 1) sdp map

/-! ## The audio part of an INVITE -/

/-- A pointer that may be null, as it is compared. -/
def address (p : Option Nat) : Nat := p.elim 0 (· + 1)

/-- `audioSdpStart` and `audioSdpEnd`. -/
def audioSdp (udpPayload : List UInt8) (sipEnd : Nat) : Nat × Nat :=
  let audioStart := ParsingUtils.memFindAfter (ascii "m=audio") udpPayload sipEnd
  let videoStart := ParsingUtils.memFindAfter (ascii "m=video") udpPayload sipEnd
  (if address audioStart > address videoStart then audioStart.getD 0 else 0,
    if address audioStart < address videoStart then videoStart.getD 0 else sipEnd)

/-- "\na=rtpmap:". -/
def rtpmapLine : List UInt8 := 10 :: rtpmap

/-- The next attribute from a place on. -/
def nextRtpmap (udpPayload : List UInt8) (audioSdpEnd start : Nat) : Option Nat :=
  (ParsingUtils.memFindAfter rtpmapLine (udpPayload.drop start) (audioSdpEnd - start)).map (start + ·)

/-- "telephone-event" stands behind the payload type. -/
def isTelephoneEvent (udpPayload : List UInt8) (sipEnd audioSdpEnd rtpmapAttribute : Nat)
    (rtpPayloadType : List UInt8) : Bool :=
  match ParsingUtils.memFindAfter (rtpPayloadType ++ [0x20]) (udpPayload.drop rtpmapAttribute)
      (audioSdpEnd - rtpmapAttribute) with
  | none => false
  | some n =>
    let nextStep := rtpmapAttribute + n
    nextStep + 15 ≤ sipEnd && matchesAt (ascii "telephone-event") udpPayload nextStep

/-- The payload type that is read as the one of telephone events, if the loop comes to one. -/
def telephoneEventLoop (udpPayload : List UInt8) (sipEnd audioSdpEnd : Nat) :
    Nat → Nat → Option (Option (List UInt8))
  | 0, _ => none
  | rounds + 1, rtpmapAttribute =>
    if rtpmapAttribute < sipEnd then
      let rtpPayloadType := grabTokenSkipLeadingWhitespaces (byte udpPayload) rtpmapAttribute audioSdpEnd
      if isTelephoneEvent udpPayload sipEnd audioSdpEnd rtpmapAttribute rtpPayloadType then
        some (some rtpPayloadType)
      else
        match nextRtpmap udpPayload audioSdpEnd rtpmapAttribute with
        | none => some none
        | some rtpmapAttribute => telephoneEventLoop udpPayload sipEnd audioSdpEnd rounds rtpmapAttribute
    else some none

/-- What the attributes give `SipInviteInfo`. -/
structure InviteSdp where
  telephoneEventPayloadType : Int := 0
  orekaRtpPayloadTypeMap : PayloadMap := fun _ => 0

/-- The payload type of telephone events is read, and those of the block are mapped. -/
def readBlock (sdp : List UInt8) (rtpPayloadType : Option (List UInt8)) : Option (Except Failure InviteSdp) :=
  match rtpPayloadType.elim (.ok 0) fun s => (stringToInt s).map Int32.toInt with
  | .error e => some (.error e)
  | .ok telephoneEventPayloadType =>
    (getDynamicPayloadMapping sdp fun _ => 0).map fun r =>
      r.map fun orekaRtpPayloadTypeMap => { telephoneEventPayloadType, orekaRtpPayloadTypeMap }

/-- The rtpmap attributes of the audio part, in `TrySipInvite`. -/
def readRtpmaps (rtpReportDtmf : Bool) (udpPayload : List UInt8) (sipEnd : Nat) :
    Option (Except Failure InviteSdp) :=
  let (audioSdpStart, audioSdpEnd) := audioSdp udpPayload sipEnd
  match nextRtpmap udpPayload audioSdpEnd audioSdpStart with
  | none => some (.ok {})
  | some rtpmapAttribute =>
    let sdp := Memory.read (byte udpPayload) audioSdpStart (audioSdpEnd - audioSdpStart)
    if rtpReportDtmf then
      (telephoneEventLoop udpPayload sipEnd audioSdpEnd (sipEnd + 1) rtpmapAttribute).elim none (readBlock sdp)
    else readBlock sdp none

end Oreka.Sip
