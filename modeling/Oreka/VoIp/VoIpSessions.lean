import Oreka.VoIp.VoIpSession
import Mathlib.Logic.Function.Basic

/-!
# The session tables

`class VoIpSessions` (`voip/VoIpSession.cpp`): the sessions by media address and by call id, the
moves that the operations are made of (`Stop`, `SetMediaAddress`, `RemoveFromMediaAddressMap`), and
the lookups. Session objects are shared by reference in the source; here a reference is a number, and
the state holds the objects. The log messages are left out.
-/

open Std

namespace Oreka.VoIp

structure VoIpSessions where
  /-- The session objects, by reference. -/
  sessions : Ref → VoIpSession := fun _ => {}
  /-- How many sessions have been created. -/
  created : Nat := 0
  byIpAndPort : TreeMap UInt64 Ref := ∅
  byCallId : TreeMap String Ref := ∅
  directory : Directory := {}
  /-- The call ids of the SUBSCRIBEs kept, the oldest first. -/
  sipSubscribeMap : List String := []
  sipReferList : List SipRefer := []
  /-- `lastHoldRemoteParty` of `ReportSipNotify`. -/
  lastHoldRemoteParty : Int → String := fun _ => ""
  alphaCounter : AlphaCounter := ⟨0⟩
  /-- The sessions that `Stop` has been called on. No operation reads this. -/
  stops : List Ref := []

namespace VoIpSessions

/-! ## Objects -/

/-- Replace the object of a session. -/
def setSession (σ : VoIpSessions) (r : Ref) (s : VoIpSession) : VoIpSessions :=
  { σ with sessions := Function.update σ.sessions r s }

/-- Change what a session knows of its call. -/
def updateCall (σ : VoIpSessions) (r : Ref) (f : VoIpCall → VoIpCall) : VoIpSessions :=
  σ.setSession r { σ.sessions r with toVoIpCall := f (σ.sessions r).toVoIpCall }

/-- A new session object, at `σ.created`. -/
def create (σ : VoIpSessions) (cfg : VoIpConfig) (now : Int) : VoIpSessions :=
  let (counter, trackingId) := σ.alphaCounter.getNext
  { σ.setSession σ.created (.new cfg trackingId σ.created now) with
    created := σ.created + 1
    alphaCounter := counter }

/-! ## Moves -/

def removeFromMediaAddressMap (σ : VoIpSessions) (r : Ref) (mediaAddress : UInt64) : VoIpSessions :=
  if mediaAddress ≠ 0 ∧ σ.byIpAndPort[mediaAddress]? = some r then
    { σ with byIpAndPort := σ.byIpAndPort.erase mediaAddress }
  else σ

/-- Whether a REFER is about the call of an INVITE (`TaggingSipTransferCalls`). -/
def referMatches (d : Directory) (creationDate : Int) (i : SipInvite) (f : SipRefer) : Bool :=
  let fromUser := d.getLocalPartyMap i.from
  let toUser := d.getLocalPartyMap i.to
  decide (f.timestamp - sec creationDate > -2) && compareNoCase toUser f.referToParty &&
    (compareNoCase fromUser f.referredByParty || compareNoCase fromUser f.from ||
      compareNoCase fromUser f.to)

/-- `TaggingSipTransferCalls`: a transferred party becomes the remote party; old REFERs go. -/
def taggingSipTransferCalls (σ : VoIpSessions) (cfg : VoIpConfig) (r : Ref) (now : Int) :
    VoIpSessions :=
  let c := (σ.sessions r).toVoIpCall
  match c.invite with
  | none => σ
  | some i =>
    if c.protocol ≠ .sip ∨ c.numRtpPackets < 300 then σ
    else
      let live := σ.sipReferList.filter fun f => sec now - f.timestamp ≤ cfg.transferTimeOutInSec
      let party := live.foldl (fun party f =>
        if referMatches σ.directory c.creationDate i f ∧ compareNoCase party f.referredByParty then
          f.referredParty
        else party) c.remoteParty
      { σ.updateCall r (fun c => { c with remoteParty := party }) with sipReferList := live }

/-- Erase the entry of a session's call id, whoever it routes to. -/
def eraseCallId (σ : VoIpSessions) (callId : String) : VoIpSessions :=
  if callId ≠ "" then { σ with byCallId := σ.byCallId.erase callId } else σ

/-- The session's own part in `Stop`. -/
def stopCall (σ : VoIpSessions) (cfg : VoIpConfig) (r : Ref) (now : Int) : VoIpSessions :=
  let σ := σ.taggingSipTransferCalls cfg r now
  { σ.updateCall r (·.stop cfg σ.directory) with stops := r :: σ.stops }

/-- `Stop`. -/
def stop (σ : VoIpSessions) (cfg : VoIpConfig) (r : Ref) (now : Int) : VoIpSessions :=
  let σ := σ.stopCall cfg r now
  let σ := σ.eraseCallId (σ.sessions r).callId
  let σ := (σ.sessions r).mediaAddresses.foldl (·.removeFromMediaAddressMap r ·) σ
  σ.setSession r { σ.sessions r with mediaAddresses := [] }

/-- Whether the configuration lets an address be a media address. -/
def mediaAddressAllowed (cfg : VoIpConfig) (ip : InAddr) (port : UInt16) : Bool :=
  port ≠ 0 && !cfg.mediaAddressBlockedIpRanges.contains ip &&
    (cfg.mediaAddressAllowedIpRanges.isEmpty || cfg.mediaAddressAllowedIpRanges.contains ip)

/-- Whether a session takes a media address over from another. -/
def replaces (cfg : VoIpConfig) (s old : VoIpSession) : Bool :=
  old.protocol = .rawRtp || old.numRtpPackets = 0 ||
    (s.protocol = .skinny && cfg.skinnyAllowMediaAddressTransfer) ||
    (s.protocol = .sip && cfg.sipAllowMediaAddressTransfer)

/-- Without multiple mappings, the old mapping of a session that gets a new one goes. -/
def clearMapping (σ : VoIpSessions) (cfg : VoIpConfig) (r : Ref) : VoIpSessions :=
  if cfg.rtpAllowMultipleMappings then σ
  else
    let σ := σ.removeFromMediaAddressMap r (σ.sessions r).ipAndPort
    σ.setSession r { σ.sessions r with mediaAddresses := [] }

/-- The media address becomes the session's, in the map too if it is free. -/
def mapMediaAddress (σ : VoIpSessions) (r : Ref) (ip : InAddr) (mediaAddress : UInt64) :
    VoIpSessions :=
  let s := σ.sessions r
  let σ := σ.setSession r { s with
    mediaAddresses := s.mediaAddresses ++ [mediaAddress], ipAndPort := mediaAddress, rtpIp := ip }
  { σ with byIpAndPort := σ.byIpAndPort.insertIfNew mediaAddress r }

/-- Make room on a media address: a raw RTP session is stopped, a signalled one only loses it. -/
def evict (σ : VoIpSessions) (cfg : VoIpConfig) (old : Ref) (mediaAddress : UInt64) (now : Int) :
    VoIpSessions :=
  if (σ.sessions old).protocol = .rawRtp then σ.stop cfg old now
  else σ.removeFromMediaAddressMap old mediaAddress

/-- `SetMediaAddress`. -/
def setMediaAddress (σ : VoIpSessions) (cfg : VoIpConfig) (r : Ref) (ip : InAddr) (port : UInt16)
    (now : Int) : VoIpSessions :=
  if ¬ mediaAddressAllowed cfg ip port then σ
  else
    let mediaAddress := cfg.craft64bitMediaAddress ip port
    match σ.byIpAndPort[mediaAddress]? with
    | none => (σ.clearMapping cfg r).mapMediaAddress r ip mediaAddress
    | some old =>
      if compareNoCase (σ.sessions old).trackingId (σ.sessions r).trackingId then σ
      else if replaces cfg (σ.sessions r) (σ.sessions old) then
        ((σ.evict cfg old mediaAddress now).clearMapping cfg r).mapMediaAddress r ip mediaAddress
      else σ

/-- `m_byCallId.insert` of a session under its call id. -/
def insertCallId (σ : VoIpSessions) (r : Ref) : VoIpSessions :=
  { σ with byCallId := σ.byCallId.insertIfNew (σ.sessions r).callId r }

/-! ## Lookups -/

def findByMediaAddress (σ : VoIpSessions) (cfg : VoIpConfig) (ip : InAddr) (port : UInt16) :
    Option Ref :=
  σ.byIpAndPort[cfg.craft64bitMediaAddress ip port]?

/-- The sessions of either map, in its order. -/
def onMedia (σ : VoIpSessions) : List Ref := σ.byIpAndPort.toList.map (·.2)

def onCallIds (σ : VoIpSessions) : List Ref := σ.byCallId.toList.map (·.2)

def findByEndpointIpUsingIpAndPort (σ : VoIpSessions) (ip : InAddr) : Option Ref :=
  σ.onMedia.find? fun r => (σ.sessions r).endPointIp = ip

def findByEndpointIp (σ : VoIpSessions) (ip : InAddr) (passThruPartyId : UInt32) : Option Ref :=
  σ.onCallIds.find? fun r => (σ.sessions r).endPointIp = ip ∧
    (passThruPartyId = 0 ∨ (σ.sessions r).skinnyPassThruPartyId = passThruPartyId)

/-- `findNewestRtpByEndpointIp`. A session without RTP replaces what was found; the latest time is an `int`. -/
def findNewestRtpByEndpointIp (σ : VoIpSessions) (ip : InAddr) : Option Ref :=
  (σ.onMedia.foldl (fun (found : Option Ref × Int) r =>
    if (σ.sessions r).endPointIp ≠ ip then found
    else
      match (σ.sessions r).lastRtpPacket with
      | some last =>
        if last.arrivalTimestamp > found.2 then (some r, last.arrivalTimestamp.bmod (2 ^ 32)) else found
      | none => (some r, found.2)) (none, 0)).1

/-- The first of the sessions of a list that is later than all before it. -/
def newest (σ : VoIpSessions) (time : VoIpCall → Int) (rs : List Ref) : Option Ref :=
  rs.foldl (fun found r =>
    match found with
    | some f =>
      if time (σ.sessions r).toVoIpCall > time (σ.sessions f).toVoIpCall then some r else some f
    | none => some r) none

def findNewestByEndpoint (σ : VoIpSessions) (cfg : VoIpConfig) (ip : InAddr) (port : UInt16) :
    Option Ref :=
  σ.newest (·.skinnyLastCallInfoTime) (σ.onCallIds.filter fun r =>
    (σ.sessions r).endPointIp = ip ∧
      (¬ cfg.skinnyBehindNat ∨ (σ.sessions r).endPointSignallingPort = port))

end VoIpSessions

end Oreka.VoIp
