import Oreka.VoIp.Proof.HoldSteps
import Oreka.Lib.Run

/-!
# The hold duration

A session accounts for its holds by itself: `GoOnHold` remembers when the hold began, `GoOffHold` adds the time
since then. `HoldWatch` is a clock beside the sessions that sees only whether the session is on hold. The two agree
(`accounted_of_orderly`) where every report is `Orderly`: `GoOnHold` finds no hold to begin a second time, and a
RESUME, which does not look, finds one to end.
-/

namespace Oreka.VoIp

namespace VoIpSessions

open VoIpCall

variable {σ : VoIpSessions} {cfg : VoIpConfig} {r : Ref}

/-- The sessions, when the last hold of the watched one began, and for how long it has been on hold, but for a hold
that goes on. -/
structure HoldWatch where
  sessions : VoIpSessions
  since : Int := 0
  total : Int := 0

namespace HoldWatch

def onHold (w : HoldWatch) (r : Ref) : Bool := (w.sessions.sessions r).onHold

/-- A step, and what the clock sees of it. -/
def step (cfg : VoIpConfig) (r : Ref) (w : HoldWatch) (x : Int × Op) : HoldWatch :=
  let σ := VoIpSessions.step cfg w.sessions x
  { sessions := σ
    since := if ¬ w.onHold r ∧ (σ.sessions r).onHold then reportTime x else w.since
    total := if w.onHold r ∧ ¬ (σ.sessions r).onHold then w.total + (reportTime x - w.since) else w.total }

/-- Off hold, a session has been on hold for as long as it says. -/
def Accounted (r : Ref) (w : HoldWatch) : Prop :=
  ¬ w.onHold r → (w.sessions.sessions r).holdDuration = w.total

instance (r : Ref) (w : HoldWatch) : Decidable (Accounted r w) := inferInstanceAs (Decidable (_ → _))

/-- The condition on a step: a report of a hold that has begun, or of the end of one that there is not, comes in the
second in which the last hold began. -/
def Orderly (cfg : VoIpConfig) (r : Ref) (w : HoldWatch) (x : Int × Op) : Prop :=
  (w.sessions.holdReport cfg x.2 = some r → w.onHold r → reportTime x = (w.sessions.sessions r).holdBegin) ∧
    (w.sessions.resumeReport cfg x.2 = some r → ¬ w.onHold r →
      reportTime x = (w.sessions.sessions r).holdBegin)

instance (cfg : VoIpConfig) (r : Ref) (w : HoldWatch) (x : Int × Op) : Decidable (Orderly cfg r w x) :=
  inferInstanceAs (Decidable (_ ∧ _))

/-- The session and the clock agree, on a hold that goes on as well. -/
structure Agree (r : Ref) (w : HoldWatch) : Prop where
  created : r < w.sessions.created
  duration : (w.sessions.sessions r).holdDuration = w.total
  begin : w.onHold r → (w.sessions.sessions r).holdBegin = w.since

theorem Agree.accounted {w : HoldWatch} (h : Agree r w) : Accounted r w := fun _ => h.duration

/-- The fields of a hold that a step leaves. -/
theorem hold_fields {c c' : VoIpCall} (h : c'.hold = c.hold) :
    c'.onHold = c.onHold ∧ c'.holdBegin = c.holdBegin ∧ c'.holdDuration = c.holdDuration := by
  simpa only [VoIpCall.hold, Hold.mk.injEq] using h

theorem hold_fields_on {c c' : VoIpCall} {t : Int} (h : c'.hold = c.hold.on t) :
    c'.onHold = true ∧ c'.holdBegin = t ∧ c'.holdDuration = c.holdDuration := by
  simpa only [VoIpCall.hold, Hold.on, Hold.mk.injEq] using h

theorem hold_fields_off {c c' : VoIpCall} {t : Int} (h : c'.hold = c.hold.off t) :
    c'.onHold = false ∧ c'.holdBegin = c.holdBegin ∧ c'.holdDuration = c.holdDuration + (t - c.holdBegin) := by
  simpa only [VoIpCall.hold, Hold.off, Hold.mk.injEq] using h

/-- A hold ends. -/
theorem Agree.ended (cfg : VoIpConfig) {w : HoldWatch} {x : Int × Op} (h : Agree r w) (hon : w.onHold r)
    (hoff : ((VoIpSessions.step cfg w.sessions x).sessions r).hold = (w.sessions.sessions r).hold.off (reportTime x)) :
    ((w.step cfg r x).sessions.sessions r).holdDuration = (w.step cfg r x).total ∧ ¬ (w.step cfg r x).onHold r := by
  obtain ⟨hon', -, hduration⟩ := hold_fields_off hoff
  have hnow : ¬ (w.step cfg r x).onHold r := by
    unfold onHold HoldWatch.step
    rw [hon']
    exact Bool.false_ne_true
  refine ⟨?_, hnow⟩
  unfold HoldWatch.step
  dsimp only
  rw [if_pos ⟨hon, by rw [hon']; exact Bool.false_ne_true⟩, hduration, h.duration, h.begin hon]

theorem Agree.step {w : HoldWatch} {x : Int × Op} (h : Agree r w) (hx : Orderly cfg r w x) :
    Agree r (w.step cfg r x) := by
  have hmoves := step_hold cfg h.created x
  have hcreated : r < (w.step cfg r x).sessions.created := h.created.trans_le hmoves.created
  have hended (hon : w.onHold r) (hoff) : Agree r (w.step cfg r x) :=
    have hend := Agree.ended cfg h hon hoff
    ⟨hcreated, hend.1, fun hon' => absurd hon' hend.2⟩
  rcases hmoves.hold with (hsame | ⟨hon, hoff⟩) | ⟨hreport, hon'⟩ | ⟨hreport, hoff⟩
  · -- nothing about hold
    obtain ⟨hon', hbegin, hduration⟩ := hold_fields hsame
    have hstep : w.step cfg r x = { w with sessions := VoIpSessions.step cfg w.sessions x } := by
      unfold HoldWatch.step onHold
      simp [hon']
    rw [hstep]
    refine ⟨hmoves.created.trans_lt' h.created, hduration.trans h.duration, fun hon => ?_⟩
    exact hbegin.trans (h.begin (hon'.symm.trans hon))
  · exact hended hon hoff
  · -- a hold begins, or begins again
    obtain ⟨hon', hbegin, hduration⟩ := hold_fields_on hon'
    refine ⟨hcreated, ?_, fun _ => ?_⟩
    · unfold HoldWatch.step
      simp [hon', hduration, h.duration]
    · by_cases hon : w.onHold r
      · have hsince := hx.1 hreport hon
        rw [h.begin hon] at hsince
        unfold HoldWatch.step
        simp [hon, hbegin, hsince]
      · unfold HoldWatch.step
        simp [hon, hon', hbegin]
  · by_cases hon : w.onHold r
    · exact hended hon hoff
    · -- there is no hold to end
      obtain ⟨hon', hbegin, hduration⟩ := hold_fields_off hoff
      refine ⟨hcreated, ?_, fun honNow => ?_⟩
      · have htime := hx.2 hreport hon
        unfold HoldWatch.step
        simp [hon, hduration, h.duration, htime]
      · cases hon'.symm.trans honNow

/-- A session that has not been on hold yet. -/
def NeverHeld (σ : VoIpSessions) (r : Ref) : Prop :=
  r < σ.created ∧ ¬ (σ.sessions r).onHold ∧ (σ.sessions r).holdDuration = 0

instance (σ : VoIpSessions) (r : Ref) : Decidable (NeverHeld σ r) := inferInstanceAs (Decidable (_ ∧ _))

theorem create_neverHeld (σ : VoIpSessions) (cfg : VoIpConfig) (now : Int) :
    NeverHeld (σ.create cfg now) σ.created := by
  refine ⟨Nat.lt_succ_self _, ?_, ?_⟩
  · rw [create_self]
    exact Bool.false_ne_true
  · rw [create_self]
    rfl

/-- In a run of any operations that are all orderly, a session that has not been on hold before is, whenever it is
off hold, found to have been on hold for as long as it has. -/
theorem accounted_of_orderly (cfg : VoIpConfig) (σ : VoIpSessions) (r : Ref) (run : List (Int × Op))
    (hfirst : NeverHeld σ r) (hrun : Run.Meets (HoldWatch.step cfg r) (Orderly cfg r) ⟨σ, 0, 0⟩ run) :
    Run.Always (HoldWatch.step cfg r) (Accounted r) ⟨σ, 0, 0⟩ run := by
  obtain ⟨hcreated, hoff, hduration⟩ := hfirst
  have hagree : Agree r ⟨σ, 0, 0⟩ := ⟨hcreated, hduration, fun hon => absurd hon hoff⟩
  exact (Run.always_of_inv (fun _ _ => Agree.step) hagree hrun).mono fun _ => Agree.accounted

/-- The headers of what is sent to the phone at 10.0.0.1. -/
def toPhoneHeaders : SkinnyHeaders where
  ipSrc := ⟨10, 0, 0, 9⟩
  ipDest := ⟨10, 0, 0, 1⟩
  tcpSource := 2000
  tcpDest := 50000

/-- The headers of what it sends. -/
def phoneHeaders : SkinnyHeaders where
  ipSrc := ⟨10, 0, 0, 1⟩
  ipDest := ⟨10, 0, 0, 9⟩
  tcpSource := 50000
  tcpDest := 2000

/-- A packet that it receives. -/
def receivedPacket : RtpPacketInfo where
  sourceIp := ⟨10, 0, 0, 3⟩
  sourcePort := 6000
  destIp := ⟨10, 0, 0, 1⟩
  destPort := 4000
  timestamp := 160

/-- A packet that it sends. -/
def sentPacket : RtpPacketInfo where
  sourceIp := ⟨10, 0, 0, 1⟩
  sourcePort := 4000
  destIp := ⟨10, 0, 0, 3⟩
  destPort := 6000
  ssrc := 1
  timestamp := 320

/-- A call of the phone, with RTP both ways. -/
def skinnyCallRun : List (Int × Op) :=
  [(0, .skinnyCallInfo { callId := 7, callingParty := "100", calledParty := "200", callType := 1 } toPhoneHeaders),
    (0, .skinnyOpenReceiveChannelAck
      { endpointIpAddr := ⟨10, 0, 0, 1⟩, endpointTcpPort := 4000, passThruPartyId := 5 } phoneHeaders),
    (0, .rtpPacket receivedPacket),
    (0, .rtpPacket sentPacket),
    (0, .rtpPacket { receivedPacket with seqNum := 1, timestamp := 320 })]

/-- The user of the phone presses HOLD, or RESUME, at a second. -/
def pressHold (t : Int) : Int × Op := (t * 1000000, .skinnySoftKeyHold 7 phoneHeaders)

def pressResume (t : Int) : Int × Op := (t * 1000000, .skinnySoftKeyResume 7 phoneHeaders)

/-- Two holds, of ten and of fifteen seconds. -/
theorem accounted_of_orderly_skinny :
    Run.Always (HoldWatch.step {} 0) (Accounted 0) ⟨skinnyCallRun.foldl (VoIpSessions.step {}) {}, 0, 0⟩
      [pressHold 10, pressResume 20, pressHold 30, pressResume 45] :=
  accounted_of_orderly {} _ 0 _ (by decide) (by decide)

/-- A hold of ten seconds whose RESUME comes twice, and one of twenty seconds whose HOLD does. -/
theorem not_accounted :
    let σ := skinnyCallRun.foldl (VoIpSessions.step {}) {}
    (NeverHeld σ 0 ∧ (σ.sessions 0).started) ∧
      ¬ Run.Always (HoldWatch.step {} 0) (Accounted 0) ⟨σ, 0, 0⟩ [pressHold 10, pressResume 20, pressResume 30] ∧
      ¬ Run.Always (HoldWatch.step {} 0) (Accounted 0) ⟨σ, 0, 0⟩ [pressHold 10, pressHold 20, pressResume 30] := by
  refine ⟨by decide, fun h => ?_, fun h => ?_⟩
  · have hlast := h.last
    revert hlast
    decide
  · have hlast := h.last
    revert hlast
    decide

end HoldWatch

end VoIpSessions

end Oreka.VoIp
