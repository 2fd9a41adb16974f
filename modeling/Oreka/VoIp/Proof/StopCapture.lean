import Oreka.VoIp.Proof.Steps

/-!
# What a stopped capture hands over

A `StopCapture` command creates a session that is to gather the RTP of the one it stops. It inserts
the last media address and the call id only, whatever the maps held before: `handsOver_iff` says
exactly when this leaves all routes of the stopped session to the new one and every other route as it
was.
-/

open Std KeyedMap

namespace Oreka.VoIp

namespace VoIpSessions

variable {cfg : VoIpConfig} {strict live : Prop} {σ : VoIpSessions} {r : Ref} {k : UInt64} {now : Int}

/-- One session is created, the routes to `r` now lead to it, and all other routes are as before. -/
structure HandsOver (σ σ' : VoIpSessions) (r : Ref) : Prop where
  created : σ'.created = σ.created + 1
  media : ∀ k : UInt64, σ.byIpAndPort[k]? = some r → σ'.byIpAndPort[k]? = some σ.created
  media_ne : ∀ k : UInt64, σ.byIpAndPort[k]? ≠ some r → σ'.byIpAndPort[k]? = σ.byIpAndPort[k]?
  callIds : ∀ c : String, σ.byCallId[c]? = some r → σ'.byCallId[c]? = some σ.created
  callIds_ne : ∀ c : String, σ.byCallId[c]? ≠ some r → σ'.byCallId[c]? = σ.byCallId[c]?

/-- What the call ids must be before the hand-over. -/
def CallIdHandsOver (σ : VoIpSessions) (r : Ref) : Prop :=
  if (σ.sessions r).callId = "" then ∃ x, x ≠ r ∧ σ.byCallId[""]? = some x
  else σ.byCallId[(σ.sessions r).callId]? = some r ∧ σ.byCallId[""]? ≠ some r

/-! ## The maps afterwards -/

theorem handOver_created (σ : VoIpSessions) (cfg : VoIpConfig) (r : Ref) (now : Int) :
    (σ.handOver cfg r now).created = σ.created + 1 :=
  (stop_spec (σ.createSuccessor cfg r now) cfg r now).created

theorem stop_byIpAndPort (h : RoutesOk cfg strict live σ) (r : Ref) (now : Int) (a : UInt64) :
    (σ.stop cfg r now).byIpAndPort[a]? =
      if σ.byIpAndPort[a]? = some r then none else σ.byIpAndPort[a]? := by
  rw [(stop_spec σ cfg r now).byIpAndPort]
  by_cases ha : σ.byIpAndPort[a]? = some r
  · have he := h.media a r ha
    have h0 : a ≠ 0 := fun h0 => h.nonzero r (h0 ▸ he.mem)
    rw [if_pos ha, if_pos ⟨he.mem, h0, ha⟩]
  · rw [if_neg ha, if_neg fun hc => ha hc.2.2]

theorem handOver_maps (h : RoutesOk cfg strict live σ) (hr : r < σ.created) (now : Int) :
    (∀ a : UInt64, (σ.handOver cfg r now).byIpAndPort[a]? =
      if (σ.sessions r).ipAndPort = a ∧ (σ.byIpAndPort[a]? = some r ∨ σ.byIpAndPort[a]? = none) then
        some σ.created
      else if σ.byIpAndPort[a]? = some r then none else σ.byIpAndPort[a]?) ∧
    ∀ c : String, (σ.handOver cfg r now).byCallId[c]? =
      if (σ.sessions r).callId = c ∧ (c ≠ "" ∨ σ.byCallId[c]? = none) then some σ.created
      else σ.byCallId[c]? := by
  have hs := createSuccessor_spec σ cfg r now
  have hτ := h.createSuccessor r now
  unfold handOver
  dsimp only
  set τ := σ.createSuccessor cfg r now
  have hspec := stop_spec τ cfg r now
  have hnew : (τ.stop cfg r now).sessions σ.created = τ.sessions σ.created :=
    hspec.sessions_ne _ (Nat.ne_of_gt hr)
  have hold : τ.sessions r = σ.sessions r := hs.sessions_ne r (Nat.ne_of_lt hr)
  constructor
  · intro a
    have hstop := stop_byIpAndPort hτ r now
    rw [hs.byIpAndPort] at hstop
    simp only [insertCallId, getElem?_insertIfNew, hnew, hs.keys.ipAndPort, hstop]
    grind
  · intro c
    have hstop := hspec.byCallId
    rw [hs.byCallId, hold] at hstop
    simp only [insertCallId, getElem?_insertIfNew, hnew, hs.keys.callId, hstop]
    grind

/-! ## The hand-over -/

theorem media_handsOver (h : RoutesOk cfg strict live σ) (hr : σ.byIpAndPort[k]? = some r)
    (now : Int) :
    ((∀ k : UInt64, σ.byIpAndPort[k]? = some r →
        (σ.handOver cfg r now).byIpAndPort[k]? = some σ.created) ∧
      ∀ k : UInt64, σ.byIpAndPort[k]? ≠ some r →
        (σ.handOver cfg r now).byIpAndPort[k]? = σ.byIpAndPort[k]?) ↔
    ∀ k : UInt64, σ.byIpAndPort[k]? = some r → k = (σ.sessions r).ipAndPort := by
  have hmaps := (handOver_maps h (h.media k r hr).lt now).1
  constructor
  · rintro ⟨hmedia, -⟩ a ha
    have hnew := hmedia a ha
    rw [hmaps] at hnew
    by_contra hne
    rw [if_neg fun hc => hne hc.1.symm, if_pos ha] at hnew
    cases hnew
  · intro honly
    have hlast : σ.byIpAndPort[(σ.sessions r).ipAndPort]? = some r := honly k hr ▸ hr
    refine ⟨fun a ha => ?_, fun a ha => ?_⟩
    · rw [hmaps, if_pos ⟨(honly a ha).symm, .inl ha⟩]
    · rw [hmaps, if_neg, if_neg ha]
      rintro ⟨rfl, -⟩
      exact ha hlast

theorem callIds_handsOver (h : RoutesOk cfg strict live σ) (hr : r < σ.created) (now : Int) :
    ((∀ c : String, σ.byCallId[c]? = some r →
        (σ.handOver cfg r now).byCallId[c]? = some σ.created) ∧
      ∀ c : String, σ.byCallId[c]? ≠ some r →
        (σ.handOver cfg r now).byCallId[c]? = σ.byCallId[c]?) ↔ CallIdHandsOver σ r := by
  have hmaps := (handOver_maps h hr now).2
  have hfresh (c : String) : σ.byCallId[c]? ≠ some σ.created := fun hc =>
    Nat.lt_irrefl _ (h.callIds c _ hc).lt
  have hkey {c : String} (hc : σ.byCallId[c]? = some r) : c = (σ.sessions r).callId ∨ c = "" :=
    (h.callIds c r hc).eq
  unfold CallIdHandsOver
  by_cases hid : (σ.sessions r).callId = ""
  · rw [if_pos hid]
    rw [hid] at hmaps hkey
    constructor
    · rintro ⟨hcall, hother⟩
      cases hx : σ.byCallId[""]? with
      | none =>
        have hnew := hother "" (by simp [hx])
        rw [hmaps, if_pos ⟨rfl, .inr hx⟩, hx] at hnew
        cases hnew
      | some x =>
        refine ⟨x, fun hxr => ?_, rfl⟩
        subst hxr
        have hnew := hcall "" hx
        rw [hmaps, if_neg (by simp [hx]), hx] at hnew
        exact hfresh "" (hx.trans hnew)
    · rintro ⟨x, hxr, hx⟩
      have hnot (c : String) : σ.byCallId[c]? ≠ some r := by
        intro hc
        have hc0 : c = "" := (hkey hc).elim id id
        subst hc0
        rw [hx] at hc
        exact hxr (Option.some.inj hc)
      refine ⟨fun c hc => absurd hc (hnot c), fun c _ => ?_⟩
      rw [hmaps, if_neg]
      rintro ⟨rfl, hc⟩
      simp [hx] at hc
  · rw [if_neg hid]
    constructor
    · rintro ⟨hcall, hother⟩
      refine ⟨?_, fun hempty => ?_⟩
      · by_contra hne
        have hnew := hother _ hne
        rw [hmaps, if_pos ⟨rfl, .inl hid⟩] at hnew
        exact hfresh _ hnew.symm
      · have hnew := hcall "" hempty
        rw [hmaps, if_neg fun hc => hid hc.1] at hnew
        exact hfresh "" hnew
    · rintro ⟨hrouted, hempty⟩
      refine ⟨fun c hc => ?_, fun c hc => ?_⟩
      · rcases hkey hc with rfl | rfl
        · rw [hmaps, if_pos ⟨rfl, .inl hid⟩]
        · exact absurd hc hempty
      · rw [hmaps, if_neg]
        rintro ⟨rfl, -⟩
        exact hc hrouted

theorem handOver_handsOver (h : RoutesOk cfg strict live σ) (hr : σ.byIpAndPort[k]? = some r)
    (now : Int) : HandsOver σ (σ.handOver cfg r now) r ↔
      (∀ k : UInt64, σ.byIpAndPort[k]? = some r → k = (σ.sessions r).ipAndPort) ∧
        CallIdHandsOver σ r := by
  rw [← media_handsOver h hr now, ← callIds_handsOver h (h.media k r hr).lt now]
  constructor
  · intro ho
    exact ⟨⟨ho.media, ho.media_ne⟩, ho.callIds, ho.callIds_ne⟩
  · rintro ⟨⟨hmedia, hmedia_ne⟩, hcall, hcall_ne⟩
    exact ⟨handOver_created σ cfg r now, hmedia, hmedia_ne, hcall, hcall_ne⟩

/-- What a command leaves that stops a capture. -/
theorem step_stopsCapture {op : Op} (h : σ.stopsCaptureOf op = some r) (now : Int) :
    step cfg σ (now, op) = σ.handOver cfg r now := by
  have hof {which : VoIpSession → Bool} (hf : σ.findCapture which = some r) :
      (σ.stopCaptureOf cfg which now).sessions = σ.handOver cfg r now := by
    unfold stopCaptureOf
    rw [hf]
  cases op with
  | stopCapture | stopCaptureOrkuid | stopCaptureNativeCallId => exact hof h
  | _ => cases h

theorem mem_onMedia_of_stopsCapture {op : Op} (h : σ.stopsCaptureOf op = some r) : r ∈ σ.onMedia := by
  cases op with
  | stopCapture | stopCaptureOrkuid | stopCaptureNativeCallId =>
    unfold stopsCaptureOf at h
    exact mem_of_findCapture h
  | _ => cases h

/-- Every state that a run reaches is in order, but for the empty call id and for stopped sessions. -/
theorem routesOk_run (cfg : VoIpConfig) (run : List (Int × Op)) :
    RoutesOk cfg False False (run.foldl (step cfg) {}) :=
  Run.inv_foldl (fun _ x h => h.step id x False.elim False.elim) run routesOk_empty

/-- A command that stops the capture of `r`, in any reachable state, hands all its routes over exactly
when its last media address is its only one, and its call ids are as in `CallIdHandsOver`. -/
theorem handsOver_iff (cfg : VoIpConfig) (run : List (Int × Op)) (now : Int) (op : Op) (r : Ref)
    (hop : (run.foldl (step cfg) {}).stopsCaptureOf op = some r) :
    let σ := run.foldl (step cfg) {}
    HandsOver σ (step cfg σ (now, op)) r ↔
      (∀ k : UInt64, σ.byIpAndPort[k]? = some r → k = (σ.sessions r).ipAndPort) ∧
        CallIdHandsOver σ r := by
  obtain ⟨k, hk⟩ := mem_onMedia.1 (mem_onMedia_of_stopsCapture hop)
  dsimp only
  rw [step_stopsCapture hop]
  exact handOver_handsOver (routesOk_run cfg run) hk now

/-- The INVITE of a call, which gives its media address. -/
def callRun : List (Int × Op) :=
  [(0, .sipInvite {
      callId := "1@a"
      fromRtpIp := ⟨10, 0, 0, 1⟩
      fromRtpPort := "4000"
      callId_ne := by decide })]

theorem handsOver_iff_call :
    let σ := callRun.foldl (step {}) {}
    HandsOver σ (step {} σ (1000000, .stopCaptureNativeCallId "1@a")) 0 ↔
      (∀ k : UInt64, σ.byIpAndPort[k]? = some 0 → k = (σ.sessions 0).ipAndPort) ∧
        CallIdHandsOver σ 0 :=
  handsOver_iff {} callRun 1000000 (.stopCaptureNativeCallId "1@a") 0 (by decide +kernel)

/-- With a second address, from the 200 OK, the first one is lost. -/
theorem not_handsOver :
    let σ := (callRun ++ [(1000000, Op.sip200Ok {
      callId := "1@a"
      hasSdp := true
      mediaIp := ⟨10, 0, 0, 2⟩
      mediaPort := "5000" })]).foldl (step {}) {}
    σ.stopsCaptureOf (.stopCaptureNativeCallId "1@a") = some 0 ∧
      ¬ HandsOver σ (step {} σ (2000000, .stopCaptureNativeCallId "1@a")) 0 := by
  dsimp only
  refine ⟨by decide +kernel, fun h => ?_⟩
  have hfirst := h.media (VoIpConfig.craft64bitMediaAddress {} ⟨10, 0, 0, 1⟩ 4000)
    (by decide)
  revert hfirst
  decide +kernel

end VoIpSessions

end Oreka.VoIp
