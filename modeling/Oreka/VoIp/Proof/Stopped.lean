import Oreka.VoIp.Proof.Steps

/-!
# Stopped sessions

A session that `Stop` has been called on is not routed to, in runs whose steps all meet
`KeepsStoppedOut`. Two kinds of steps do not: a `StopCapture` of a session without a call id, whose
successor gets an entry under the empty call id that `Stop` does not erase, and a packet after which
`ReportRtpPacket` tracks the session it has just stopped.
-/

open Std KeyedMap

namespace Oreka.VoIp

namespace VoIpSessions

/-- No entry of either map routes to a session that has been stopped. -/
def StoppedUnreachable (σ : VoIpSessions) : Prop :=
  ∀ s ∈ σ.stops, (∀ k : UInt64, σ.byIpAndPort[k]? ≠ some s) ∧ ∀ c : String, σ.byCallId[c]? ≠ some s

/-- The condition on a step, in the state before it. -/
def KeepsStoppedOut (cfg : VoIpConfig) (σ : VoIpSessions) (x : Int × Op) : Prop :=
  (∀ r ∈ σ.stopsCaptureOf x.2, (σ.sessions r).callId ≠ "") ∧ σ.stepRemapsStopped cfg x = false

instance (cfg : VoIpConfig) (σ : VoIpSessions) (x : Int × Op) :
    Decidable (KeepsStoppedOut cfg σ x) :=
  inferInstanceAs (Decidable (_ ∧ _))

theorem RoutesOk.stoppedUnreachable {cfg : VoIpConfig} {σ : VoIpSessions}
    (h : RoutesOk cfg True True σ) : StoppedUnreachable σ := by
  intro s hs
  exact ⟨fun k hk => (h.media k s hk).live trivial hs, fun c hc => (h.callIds c s hc).live trivial hs⟩

theorem always_stoppedUnreachable (cfg : VoIpConfig) (run : List (Int × Op))
    (hrun : Run.Meets (step cfg) (KeepsStoppedOut cfg) {} run) :
    Run.Always (step cfg) StoppedUnreachable {} run := by
  have hinv : Run.Always (step cfg) (RoutesOk cfg True True) {} run :=
    Run.always_of_inv (fun σ x h hx => h.step id x (fun _ r hr => hx.1 r hr) fun _ => hx.2)
      routesOk_empty hrun
  exact hinv.mono fun _ h => h.stoppedUnreachable

/-- A SIP call with RTP, the stop of its capture, and the expiry of its successor. -/
theorem always_stoppedUnreachable_call :
    Run.Always (step {}) StoppedUnreachable {}
      [(0, .sipInvite {
          callId := "1@a"
          fromRtpIp := ⟨10, 0, 0, 1⟩
          fromRtpPort := "4000"
          callId_ne := by decide }),
        (1000000, .rtpPacket {
          sourceIp := ⟨10, 0, 0, 2⟩
          sourcePort := 5000
          destIp := ⟨10, 0, 0, 1⟩
          destPort := 4000
          arrivalTimestamp := 1 }),
        (2000000, .stopCaptureNativeCallId "1@a"),
        (900000000, .hoover 900)] :=
  always_stoppedUnreachable {} _ (by decide +kernel)

/-- A packet of a stream to 10.0.0.1, port 4000. -/
def rawPacket : RtpPacketInfo where
  sourceIp := ⟨10, 0, 0, 3⟩
  sourcePort := 5000
  destIp := ⟨10, 0, 0, 1⟩
  destPort := 4000
  timestamp := 160

/-- The capture of a raw RTP session is stopped, and its successor expires. -/
def captureRun : List (Int × Op) :=
  [(0, .rtpPacket rawPacket), (1000000, .stopCapture "10.0.0.1"), (60000000, .hoover 60)]

/-- Raw RTP sessions at two addresses, and a packet from the one to the other, which is discontinuous
with the stream there. -/
def discontinuousRun : List (Int × Op) :=
  [(0, .rtpPacket rawPacket),
    (0, .rtpPacket { rawPacket with destIp := ⟨10, 0, 0, 2⟩ }),
    (0, .rtpPacket { rawPacket with
      sourceIp := ⟨10, 0, 0, 2⟩, sourcePort := 4000, seqNum := 5000, timestamp := 800000 })]

/-- In both runs the last state routes to a session that has been stopped. -/
theorem stopped_reachable :
    ¬ Run.Always (step {}) StoppedUnreachable {} captureRun ∧
      ¬ Run.Always
        (step { mediaAddressUseSecondRtpAddress := true, rtpDiscontinuityDetect := true })
        StoppedUnreachable {} discontinuousRun := by
  constructor
  · intro h
    have hrouted : let σ := captureRun.foldl (step {}) {}
        1 ∈ σ.stops ∧ σ.byCallId[""]? = some 1 := by decide +kernel
    exact (h.last 1 hrouted.1).2 "" hrouted.2
  · intro h
    have hrouted : let cfg : VoIpConfig :=
          { mediaAddressUseSecondRtpAddress := true, rtpDiscontinuityDetect := true }
        let σ := discontinuousRun.foldl (step cfg) {}
        0 ∈ σ.stops ∧ σ.byIpAndPort[cfg.craft64bitMediaAddress ⟨10, 0, 0, 1⟩ 4000]? = some 0 := by
      decide
    exact (h.last 0 hrouted.1).1 _ hrouted.2

end VoIpSessions

end Oreka.VoIp

/-!
## The indexes agree with the sessions

Without `StopCapture` commands, every entry of either map is under a key that its session holds, which
is what `Stop` relies on to erase it; and without multiple mappings a session has one entry at most in
the map of media addresses.
-/

open Std KeyedMap

namespace Oreka.VoIp

namespace VoIpSessions

/-- A `StopCapture` command. -/
def Op.isStopCapture : Op → Bool
  | .stopCapture _ => true
  | .stopCaptureOrkuid _ => true
  | .stopCaptureNativeCallId _ => true
  | _ => false

structure IndexesConsistent (cfg : VoIpConfig) (σ : VoIpSessions) : Prop where
  media : ∀ (k : UInt64) (s : Ref), σ.byIpAndPort[k]? = some s → k ∈ (σ.sessions s).mediaAddresses
  callIds : ∀ (c : String) (s : Ref), σ.byCallId[c]? = some s → (σ.sessions s).callId = c
  single : cfg.rtpAllowMultipleMappings = false → ∀ (s : Ref) (k k' : UInt64),
    σ.byIpAndPort[k]? = some s → σ.byIpAndPort[k']? = some s →
      k = (σ.sessions s).ipAndPort ∧ k' = k

variable {cfg : VoIpConfig} {live : Prop} {σ : VoIpSessions}

theorem RoutesOk.indexesConsistent (h : RoutesOk cfg True live σ) : IndexesConsistent cfg σ where
  media k s hs := (h.media k s hs).mem
  callIds c s hs := by
    have he := h.callIds c s hs
    exact (he.eq.resolve_right (he.ne trivial)).symm
  single hmulti s k k' hk hk' := by
    have hlast := (h.media k s hk).last hmulti
    exact ⟨hlast, ((h.media k' s hk').last hmulti).trans hlast.symm⟩

theorem stopsCaptureOf_eq_none (σ : VoIpSessions) {op : Op} (h : op.isStopCapture = false) :
    σ.stopsCaptureOf op = none := by
  cases op with
  | stopCapture | stopCaptureOrkuid | stopCaptureNativeCallId => cases h
  | _ => rfl

/-- Every step but a `StopCapture` keeps the invariant, whatever it does to stopped sessions. -/
theorem RoutesOk.step_of_not_stopCapture (h : RoutesOk cfg True False σ) {x : Int × Op}
    (hx : x.2.isStopCapture = false) : RoutesOk cfg True False (VoIpSessions.step cfg σ x) := by
  refine h.step (fun _ => trivial) x (fun _ r hr => ?_) False.elim
  rw [stopsCaptureOf_eq_none σ hx] at hr
  cases hr

/-- In every run without `StopCapture`, the indexes are consistent in every state. -/
theorem always_indexesConsistent (cfg : VoIpConfig) (run : List (Int × Op))
    (hrun : ∀ x ∈ run, x.2.isStopCapture = false) :
    Run.Always (step cfg) (IndexesConsistent cfg) {} run := by
  have hinv : Run.Always (step cfg) (RoutesOk cfg True False) {} run :=
    Run.always_of_inv (fun _ _ h hx => h.step_of_not_stopCapture hx) routesOk_empty
      (Run.meets_of_forall hrun)
  exact hinv.mono fun _ h => h.indexesConsistent

/-- An INVITE, a packet to its media address, and the expiry of the call. -/
theorem always_indexesConsistent_call :
    Run.Always (step {}) (IndexesConsistent {}) {}
      [(0, .sipInvite {
          callId := "1@a"
          fromRtpIp := ⟨10, 0, 0, 1⟩
          fromRtpPort := "4000"
          callId_ne := by decide }),
        (1000000, .rtpPacket {
          sourceIp := ⟨10, 0, 0, 2⟩
          sourcePort := 5000
          destIp := ⟨10, 0, 0, 1⟩
          destPort := 4000
          arrivalTimestamp := 1 }),
        (60000000, .hoover 60)] :=
  always_indexesConsistent {} _ (by decide)

end VoIpSessions

end Oreka.VoIp
