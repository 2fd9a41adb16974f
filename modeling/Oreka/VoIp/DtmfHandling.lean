import Oreka.Lib.Changes
import Oreka.VoIp.VoIpSession

/-!
# Telephone events

`HandleRtpEvent` of `common/DtmfHandling.cpp`, with the digits that it reports. An event is reported
with its first packet whose end bit is set; the packets behind are told from those of the next event
by one remembered timestamp.
-/

namespace Oreka.VoIp

open Changes

/-- A call of `ReportDtmfDigit`. -/
structure DtmfReport where
  channel : Nat
  digitValue : String
  digitDuration : Nat
  digitVolume : Nat
  rtpEventTs : UInt32
  rtpEventSeqNo : UInt16
  deriving DecidableEq, Repr

/-- `RtpEventInfo`, read from the payload (`RtpEventPayloadFormat`); nothing for a payload that is
too small. -/
structure RtpEventInfo where
  event : UInt8
  isEnd : Bool
  volume : Nat
  duration : Nat
  startTimestamp : UInt32
  deriving DecidableEq, Repr

def RtpEventInfo.ofPacket (p : RtpPacketInfo) : Option RtpEventInfo :=
  match p.payload with
  | event :: erVolume :: d₁ :: d₂ :: _ =>
    some ⟨event, erVolume &&& 0x80 ≠ 0, (erVolume &&& 0x3F).toNat, d₁.toNat * 256 + d₂.toNat,
      p.timestamp⟩
  | _ => none

/-- The report that `HandleRtpEvent` makes, `currentRtpEventTs` being the remembered timestamp. -/
def rtpEventReport (currentRtpEventTs : UInt32) (channel : Nat) (p : RtpPacketInfo) :
    Option DtmfReport :=
  match RtpEventInfo.ofPacket p with
  | none => none
  | some info =>
    if currentRtpEventTs ≠ info.startTimestamp ∧ info.isEnd then
      some ⟨channel, VoIpCall.dtmfDigitToString info.event, info.duration, info.volume,
        info.startTimestamp, p.seqNum⟩
    else none

/-- `HandleRtpEvent` on the session: what it reports is remembered and handed to `ReportDtmfDigit`. -/
theorem handleRtpEvent_eq (c : VoIpCall) (cfg : VoIpConfig) (channel : Nat) (p : RtpPacketInfo) :
    c.handleRtpEvent cfg p =
      match rtpEventReport c.currentRtpEventTs channel p with
      | none => c
      | some r => { c with currentRtpEventTs := r.rtpEventTs }.reportDtmfDigit cfg r.digitValue := by
  unfold VoIpCall.handleRtpEvent rtpEventReport RtpEventInfo.ofPacket
  rcases hp : p.payload with _ | ⟨event, _ | ⟨erVolume, _ | ⟨d₁, _ | ⟨d₂, rest⟩⟩⟩⟩
  · rfl
  · rfl
  · rfl
  · rfl
  · by_cases h : c.currentRtpEventTs ≠ p.timestamp ∧ erVolume &&& 0x80 ≠ 0
    · simp [h]
    · simp [h]

theorem VoIpCall.currentRtpEventTs_reportDtmfDigit (c : VoIpCall) (cfg : VoIpConfig)
    (digitValue : String) :
    (c.reportDtmfDigit cfg digitValue).currentRtpEventTs = c.currentRtpEventTs := by
  unfold VoIpCall.reportDtmfDigit
  extract_lets c₁ c₂ onDemandCommand pauseCommand c₃ identical pauseCommand' onDemandCommand'
  have h₂ : c₂.currentRtpEventTs = c.currentRtpEventTs := by
    show c₁.currentRtpEventTs = c.currentRtpEventTs
    unfold c₁
    split
    · rfl
    · rfl
  have h₃ : c₃.currentRtpEventTs = c.currentRtpEventTs := by
    rw [← h₂]
    unfold c₃
    split
    · rfl
    · rfl
  clear_value c₂ c₃ onDemandCommand' pauseCommand'
  split
  · exact h₂
  · cases c₃.onDemand <;> cases c₃.keepRtp <;> cases onDemandCommand' <;> cases pauseCommand' <;>
      exact h₃

/-- One packet after the other, each with its channel, and what is reported. -/
def VoIpCall.handleRtpEvents (c : VoIpCall) (cfg : VoIpConfig) :
    List (Nat × RtpPacketInfo) → VoIpCall × List DtmfReport
  | [] => (c, [])
  | (channel, p) :: ps =>
    let r := (c.handleRtpEvent cfg p).handleRtpEvents cfg ps
    (r.1, (rtpEventReport c.currentRtpEventTs channel p).toList ++ r.2)

/-! ## Streams of events -/

/-- An event is known by its timestamp. -/
structure TelephoneEvent where
  timestamp : UInt32
  event : UInt8
  deriving DecidableEq, Repr

/-- A packet of the event, an update or an end. -/
def TelephoneEvent.Sends (e : TelephoneEvent) (p : RtpPacketInfo) : Prop :=
  ∃ info, RtpEventInfo.ofPacket p = some info ∧ info.startTimestamp = e.timestamp ∧
    info.event = e.event

/-- A packet with the end bit. -/
def endPacket (p : RtpPacketInfo) : Bool := (RtpEventInfo.ofPacket p).any (·.isEnd)

/-- The packets of some events, in any order, at least one of each with the end bit. -/
structure EventStream where
  events : List TelephoneEvent
  packets : List (Nat × RtpPacketInfo)
  distinct : (events.map TelephoneEvent.timestamp).Nodup
  sent : ∀ x ∈ packets, ∃ e ∈ events, e.Sends x.2
  ended : ∀ e ∈ events, ∃ x ∈ packets, e.Sends x.2 ∧ endPacket x.2

/-- The timestamps of the packets with the end bit, in the order in which they arrive. -/
def endTimestamps (ps : List (Nat × RtpPacketInfo)) : List UInt32 :=
  (ps.filter fun x => endPacket x.2).map fun x => x.2.timestamp

/-- Each event is reported once, with its digit. -/
def EventStream.ReportedOnce (s : EventStream) (c : VoIpCall) (cfg : VoIpConfig) : Prop :=
  ((c.handleRtpEvents cfg s.packets).2.map fun r => (r.rtpEventTs, r.digitValue)).Perm
    (s.events.map fun e => (e.timestamp, VoIpCall.dtmfDigitToString e.event))

end Oreka.VoIp
