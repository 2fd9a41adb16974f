import Oreka.Lib.LastWinner
import Oreka.VoIp.Operations

/-!
# The session that a lookup finds

Two lookups of `VoIpSessions` go through a map for the session that is the latest by some time. That for
the newest RTP also takes every session without RTP, whatever it has found before; that for RTP behind a
NAT starts from the present time, which a session signalled before does not reach.
-/

namespace Oreka.VoIp.VoIpSessions

open LastWinner

variable {σ : VoIpSessions} {cfg : VoIpConfig} {p : RtpPacketInfo} {ip : InAddr} {r : Ref}
  {rs : List Ref} {t now : Int}

/-! ## The newest RTP -/

/-- The sessions of an endpoint, in the order of their media addresses. -/
def endpointSessions (σ : VoIpSessions) (ip : InAddr) : List Ref :=
  σ.onMedia.filter fun r => (σ.sessions r).endPointIp = ip

/-- When the last RTP packet of a session has arrived. -/
def lastArrival (σ : VoIpSessions) (r : Ref) : Option Int :=
  (σ.sessions r).lastRtpPacket.map (·.arrivalTimestamp)

/-- Whether a session replaces what was found, and the latest time after it. -/
def newerRtp (σ : VoIpSessions) (latest : Int) (r : Ref) : Bool := (σ.lastArrival r).all (latest < ·)

def latestRtp (σ : VoIpSessions) (latest : Int) (r : Ref) : Int :=
  ((σ.lastArrival r).map (·.bmod (2 ^ 32))).getD latest

theorem findNewestRtpByEndpointIp_eq (σ : VoIpSessions) (ip : InAddr) :
    σ.findNewestRtpByEndpointIp ip = kept σ.newerRtp σ.latestRtp 0 (σ.endpointSessions ip) := by
  unfold findNewestRtpByEndpointIp kept endpointSessions
  rw [List.foldl_filter]
  congr 2
  funext found r
  unfold LastWinner.step newerRtp latestRtp lastArrival
  by_cases hip : (σ.sessions r).endPointIp = ip
  · cases hlast : (σ.sessions r).lastRtpPacket with
    | none => simp [hip]
    | some last => simp [hip]
  · simp [hip]

/-- What an `int` makes of a time is one of its values, and no later time. -/
theorem bmod_lt (t : Int) : t.bmod (2 ^ 32) < 2 ^ 31 :=
  Int.bmod_lt (by decide)

theorem bmod_le (ht : -2 ^ 31 ≤ t) : t.bmod (2 ^ 32) ≤ t := by
  rw [Int.bmod_eq_emod]
  split
  · omega
  · omega

/-- The latest time stays below one that no arrival reaches, or that an `int` does not reach. -/
theorem mark_lt {latest : Int} (hlow : -2 ^ 31 ≤ latest) (hlatest : latest < t)
    (hall : ∀ r ∈ rs, ∀ t', σ.lastArrival r = some t' → t' < t ∨ 2 ^ 31 ≤ t) :
    mark σ.newerRtp σ.latestRtp latest rs < t := by
  induction rs generalizing latest with
  | nil => exact hlatest
  | cons r rs ih =>
    have hrs : ∀ r ∈ rs, ∀ t', σ.lastArrival r = some t' → t' < t ∨ 2 ^ 31 ≤ t :=
      fun c hc => hall c (List.mem_cons_of_mem r hc)
    show mark σ.newerRtp σ.latestRtp (if σ.newerRtp latest r then σ.latestRtp latest r else latest) rs < t
    split
    · rename_i hwins
      cases hr : σ.lastArrival r with
      | none =>
        have hstays : σ.latestRtp latest r = latest := by
          unfold latestRtp
          rw [hr]
          rfl
        rw [hstays]
        exact ih hlow hlatest hrs
      | some t' =>
        have hlater : latest < t' := by simpa [newerRtp, hr] using hwins
        have htakes : σ.latestRtp latest r = t'.bmod (2 ^ 32) := by
          unfold latestRtp
          rw [hr]
          rfl
        rw [htakes]
        refine ih (Int.le_bmod (by decide)) ?_ hrs
        rcases hall r List.mem_cons_self t' hr with h | h
        · exact Int.lt_of_le_of_lt (bmod_le (by omega)) h
        · exact Int.lt_of_lt_of_le (bmod_lt t') h
    · exact ih hlow hlatest hrs

/-- Of times that an `int` holds, the latest is as late as any. -/
theorem le_mark {latest : Int} (hlatest : 0 ≤ latest)
    (hall : ∀ r ∈ rs, ∀ t', σ.lastArrival r = some t' → t' < 2 ^ 31) :
    latest ≤ mark σ.newerRtp σ.latestRtp latest rs ∧
      ∀ r ∈ rs, ∀ t', σ.lastArrival r = some t' → t' ≤ mark σ.newerRtp σ.latestRtp latest rs := by
  induction rs generalizing latest with
  | nil => exact ⟨Int.le_refl _, by simp⟩
  | cons r rs ih =>
    have hrs : ∀ r ∈ rs, ∀ t', σ.lastArrival r = some t' → t' < 2 ^ 31 :=
      fun c hc => hall c (List.mem_cons_of_mem r hc)
    -- the time after the first session
    obtain ⟨next, hnext, hle, hr⟩ : ∃ next,
        (if σ.newerRtp latest r then σ.latestRtp latest r else latest) = next ∧ latest ≤ next ∧
          ∀ t', σ.lastArrival r = some t' → t' ≤ next := by
      unfold newerRtp latestRtp
      cases hr : σ.lastArrival r with
      | none => exact ⟨latest, by simp, Int.le_refl _, by simp⟩
      | some t' =>
        have ht' := hall r List.mem_cons_self t' hr
        by_cases hlater : latest < t'
        · have hmod : t'.bmod (2 ^ 32) = t' := Int.bmod_eq_of_le (by omega) (by omega)
          exact ⟨t', by simpa [hlater] using hmod, Int.le_of_lt hlater, by simp⟩
        · exact ⟨latest, by simp [hlater], Int.le_refl _, by simpa using Int.not_lt.1 hlater⟩
    rw [show mark σ.newerRtp σ.latestRtp latest (r :: rs) = mark σ.newerRtp σ.latestRtp next rs from
      congrArg (mark σ.newerRtp σ.latestRtp · rs) hnext]
    obtain ⟨hmark, hmem⟩ := ih (Int.le_trans hlatest hle) hrs
    refine ⟨Int.le_trans hle hmark, fun c hc t' ht' => ?_⟩
    rcases List.mem_cons.1 hc with rfl | hc
    · exact Int.le_trans (hr t' ht') hmark
    · exact hmem c hc t' ht'

/-- The endpoint's session with the newest RTP: none has a packet that arrived later. -/
def IsNewestRtp (σ : VoIpSessions) (ip : InAddr) (r : Ref) : Prop :=
  r ∈ σ.endpointSessions ip ∧ ∃ t, σ.lastArrival r = some t ∧
    ∀ r' ∈ σ.endpointSessions ip, ∀ t', σ.lastArrival r' = some t' → t' ≤ t

/-- Where a session of the endpoint has RTP, the one with the newest is found. -/
def FindsNewestRtp (σ : VoIpSessions) (ip : InAddr) : Prop :=
  (∃ r ∈ σ.endpointSessions ip, σ.lastArrival r ≠ none) →
    ∃ r, σ.findNewestRtpByEndpointIp ip = some r ∧ σ.IsNewestRtp ip r

/-- No session without RTP comes behind the newest RTP, which is the first of its time. From 2^31 on,
where an `int` does not hold the time, none comes behind it that is later than what the `int` holds
instead. -/
def NewestRtpIsLast (σ : VoIpSessions) (ip : InAddr) : Prop :=
  ∃ before r after t, σ.endpointSessions ip = before ++ r :: after ∧ σ.lastArrival r = some t ∧ 0 < t ∧
    (∀ c ∈ before, ∀ t', σ.lastArrival c = some t' → t' ≤ t ∧ (t' < t ∨ 2 ^ 31 ≤ t)) ∧
    ∀ c ∈ after, ∃ t', σ.lastArrival c = some t' ∧ t' ≤ t.bmod (2 ^ 32)

theorem NewestRtpIsLast.finds (h : σ.NewestRtpIsLast ip) :
    ∃ r, σ.findNewestRtpByEndpointIp ip = some r ∧ σ.IsNewestRtp ip r := by
  obtain ⟨before, r, after, t, hsessions, hr, ht, hbefore, hafter⟩ := h
  have hmark : mark σ.newerRtp σ.latestRtp 0 before < t :=
    mark_lt (by decide) ht fun c hc t' ht' => (hbefore c hc t' ht').2
  have hleaves : σ.latestRtp (mark σ.newerRtp σ.latestRtp 0 before) r = t.bmod (2 ^ 32) := by
    unfold latestRtp
    rw [hr]
    rfl
  refine ⟨r, ?_, ?_, t, hr, fun c hc t' ht' => ?_⟩
  · rw [findNewestRtpByEndpointIp_eq, kept_eq_some_iff]
    refine ⟨before, after, hsessions, by simp [newerRtp, hr, hmark], fun c hc => ?_⟩
    obtain ⟨t', ht', hle⟩ := hafter c hc
    rw [hleaves]
    simpa [newerRtp, ht'] using hle
  · rw [hsessions]
    simp
  · rw [hsessions] at hc
    rcases List.mem_append.1 hc with hc | hc
    · exact (hbefore c hc t' ht').1
    · rcases List.mem_cons.1 hc with rfl | hc
      · rw [hr, Option.some.injEq] at ht'
        exact ht' ▸ Int.le_refl t
      · obtain ⟨t'', ht'', hle⟩ := hafter c hc
        rw [ht'', Option.some.injEq] at ht'
        rw [← ht']
        exact Int.le_trans hle (bmod_le (by omega))

theorem IsNewestRtp.isLast (hfind : σ.findNewestRtpByEndpointIp ip = some r) (h : σ.IsNewestRtp ip r) :
    σ.NewestRtpIsLast ip := by
  obtain ⟨-, t, hr, hmax⟩ := h
  rw [findNewestRtpByEndpointIp_eq, kept_eq_some_iff] at hfind
  obtain ⟨before, after, hsessions, hwins, hafter⟩ := hfind
  have hmark : mark σ.newerRtp σ.latestRtp 0 before < t := by simpa [newerRtp, hr] using hwins
  have hbefore : ∀ c ∈ before, ∀ t', σ.lastArrival c = some t' → t' ≤ t := by
    intro c hc
    exact hmax c (by simp [hsessions, hc])
  have hleaves : σ.latestRtp (mark σ.newerRtp σ.latestRtp 0 before) r = t.bmod (2 ^ 32) := by
    unfold latestRtp
    rw [hr]
    rfl
  refine ⟨before, r, after, t, hsessions, hr, ?_, fun c hc t' ht' => ⟨hbefore c hc t' ht', ?_⟩, fun c hc => ?_⟩
  · by_cases hlarge : 2 ^ 31 ≤ t
    · omega
    · have hle := le_mark (Int.le_refl 0) fun c hc t' ht' => by
        have := hbefore c hc t' ht'
        omega
      exact Int.lt_of_le_of_lt hle.1 hmark
  · by_cases hlarge : 2 ^ 31 ≤ t
    · exact .inr hlarge
    · have hle := le_mark (Int.le_refl 0) fun c hc t' ht' => by
        have := hbefore c hc t' ht'
        omega
      exact .inl (Int.lt_of_le_of_lt (hle.2 c hc t' ht') hmark)
  · have hc' := hafter c hc
    rw [hleaves] at hc'
    cases hlast : σ.lastArrival c with
    | none => simp [newerRtp, hlast] at hc'
    | some t' => exact ⟨t', rfl, by simpa [newerRtp, hlast] using hc'⟩

/-- **The newest RTP is found** exactly if no session of the endpoint that comes behind it replaces it. -/
theorem findsNewestRtp_iff (σ : VoIpSessions) (ip : InAddr) :
    σ.FindsNewestRtp ip ↔
      ((∃ r ∈ σ.endpointSessions ip, σ.lastArrival r ≠ none) → σ.NewestRtpIsLast ip) := by
  constructor
  · intro hfinds hrtp
    obtain ⟨r, hfind, hnewest⟩ := hfinds hrtp
    exact hnewest.isLast hfind
  · intro hlast hrtp
    exact (hlast hrtp).finds

/-- A phone in a call, with a second one whose RTP has not started. -/
def secondCall : VoIpSessions where
  sessions r :=
    if r = 0 then { endPointIp := ⟨10, 0, 0, 1⟩, lastRtpPacket := some { arrivalTimestamp := 1700000000 } }
    else { endPointIp := ⟨10, 0, 0, 1⟩ }
  byIpAndPort := ((∅ : Std.TreeMap UInt64 Ref).insert 1 0).insert 2 1

theorem endpointSessions_secondCall : secondCall.endpointSessions ⟨10, 0, 0, 1⟩ = [0, 1] := by
  decide

/-- The call that has no RTP yet is found. -/
theorem not_findsNewestRtp : ¬ secondCall.FindsNewestRtp ⟨10, 0, 0, 1⟩ := by
  have hfind : secondCall.findNewestRtpByEndpointIp ⟨10, 0, 0, 1⟩ = some 1 := by decide
  intro h
  obtain ⟨r, hr, -, t, ht, -⟩ := h ⟨0, by rw [endpointSessions_secondCall]; decide, by decide⟩
  rw [hfind, Option.some.injEq] at hr
  subst hr
  exact absurd ht (by simp [lastArrival, secondCall])

/-! ## RTP behind a NAT -/

/-- The sessions without a media address of the two endpoints of a packet, in the order of their call
ids. -/
def behindNatSessions (σ : VoIpSessions) (p : RtpPacketInfo) : List Ref :=
  σ.onCallIds.filter fun r =>
    ((σ.sessions r).endPointIp = p.sourceIp ∨ (σ.sessions r).endPointIp = p.destIp) ∧
      (σ.sessions r).ipAndPort = 0

/-- When a session was signalled last. -/
def signalled (σ : VoIpSessions) (r : Ref) : Int := (σ.sessions r).skinnyLastCallInfoTime

theorem mostRecentBehindNat_eq (σ : VoIpSessions) (p : RtpPacketInfo) (now : Int) :
    σ.mostRecentBehindNat p now = (σ.behindNatSessions p).foldl
      (LastWinner.step (fun t r => t ≤ σ.signalled r) fun _ r => σ.signalled r) (none, now) := by
  unfold mostRecentBehindNat behindNatSessions
  rw [List.foldl_filter]
  congr 1
  funext found r
  unfold LastWinner.step signalled
  by_cases hcandidate : ((σ.sessions r).endPointIp = p.sourceIp ∨ (σ.sessions r).endPointIp = p.destIp) ∧
      (σ.sessions r).ipAndPort = 0
  · simp [hcandidate]
  · simp only [hcandidate, decide_false, Bool.false_eq_true, if_false]
    exact if_neg fun h => hcandidate ⟨h.1, h.2.2⟩

/-- The last in the order of those that were signalled latest. -/
def IsLastLatest (σ : VoIpSessions) (p : RtpPacketInfo) (r : Ref) : Prop :=
  ∃ before after, σ.behindNatSessions p = before ++ r :: after ∧
    (∀ c ∈ before, σ.signalled c ≤ σ.signalled r) ∧ ∀ c ∈ after, σ.signalled c < σ.signalled r

theorem mark_signalled_le_iff :
    mark (fun t r => decide (t ≤ σ.signalled r)) (fun _ r => σ.signalled r) now rs ≤ t ↔
      now ≤ t ∧ ∀ c ∈ rs, σ.signalled c ≤ t := by
  induction rs generalizing now with
  | nil => simp [mark]
  | cons r rs ih =>
    show mark _ _ (if decide (now ≤ σ.signalled r) then σ.signalled r else now) rs ≤ t ↔ _
    rw [ih, List.forall_mem_cons, ← and_assoc]
    apply and_congr_left
    intro _
    split
    · rename_i hle
      have := of_decide_eq_true hle
      omega
    · rename_i hle
      have : ¬ now ≤ σ.signalled r := by simpa using hle
      omega

/-- The search finds the latest, if that is not before the present time. -/
theorem mostRecentBehindNat_eq_some_iff :
    σ.mostRecentBehindNat p now = (some r, t) ↔
      σ.IsLastLatest p r ∧ now ≤ σ.signalled r ∧ t = σ.signalled r := by
  have hkept : (σ.mostRecentBehindNat p now).1 = some r ↔ σ.IsLastLatest p r ∧ now ≤ σ.signalled r := by
    rw [mostRecentBehindNat_eq]
    show kept _ _ now (σ.behindNatSessions p) = some r ↔ _
    rw [kept_eq_some_iff]
    constructor
    · rintro ⟨before, after, hsessions, hwins, hafter⟩
      rw [decide_eq_true_iff, mark_signalled_le_iff] at hwins
      exact ⟨⟨before, after, hsessions, hwins.2, fun c hc => by simpa using hafter c hc⟩, hwins.1⟩
    · rintro ⟨⟨before, after, hsessions, hbefore, hafter⟩, hnow⟩
      refine ⟨before, after, hsessions, ?_, fun c hc => by simpa using hafter c hc⟩
      rw [decide_eq_true_iff, mark_signalled_le_iff]
      exact ⟨hnow, hbefore⟩
  have htime (h : (σ.mostRecentBehindNat p now).1 = some r) :
      (σ.mostRecentBehindNat p now).2 = σ.signalled r := by
    rw [mostRecentBehindNat_eq] at h ⊢
    obtain ⟨-, hmark⟩ := mark_of_kept h
    exact (snd_foldl _ _).trans hmark
  rw [Prod.ext_iff, hkept, and_assoc]
  apply and_congr_right
  intro hlatest
  apply and_congr_right
  intro hnow
  rw [htime (hkept.2 ⟨hlatest, hnow⟩)]
  exact eq_comm

/-- The far address of a packet becomes that of a session of one of its endpoints. -/
def attachFarAddress (σ : VoIpSessions) (cfg : VoIpConfig) (p : RtpPacketInfo) (now : Int) (r : Ref) :
    VoIpSessions :=
  if (σ.sessions r).endPointIp = p.sourceIp then σ.setMediaAddress cfg r p.destIp p.destPort now
  else σ.setMediaAddress cfg r p.sourceIp p.sourcePort now

/-- No other session of the two endpoints without a media address was signalled later. -/
def IsLatestSignalled (σ : VoIpSessions) (p : RtpPacketInfo) (r : Ref) : Prop :=
  r ∈ σ.behindNatSessions p ∧ ∀ c ∈ σ.behindNatSessions p, σ.signalled c ≤ σ.signalled r

/-- Signalled in the last 30 seconds. -/
def Recent (σ : VoIpSessions) (now : Int) (r : Ref) : Prop := now - σ.signalled r ≤ 30 * 1000000

/-- The far address is attached to the session signalled latest, if it is recent, and else nothing is. -/
structure AttachesLatest (σ : VoIpSessions) (cfg : VoIpConfig) (p : RtpPacketInfo) (now : Int) : Prop where
  recent : ∀ r, σ.IsLatestSignalled p r → σ.Recent now r → ∃ r', σ.IsLatestSignalled p r' ∧
    σ.skinnyFindMostLikelySessionForRtpBehindNat cfg p now = some (σ.attachFarAddress cfg p now r')
  old : (∀ r, σ.IsLatestSignalled p r → ¬ σ.Recent now r) →
    σ.skinnyFindMostLikelySessionForRtpBehindNat cfg p now = none

/-- A session that can win: it is signalled no earlier than the search begins, less than 2^31 seconds
ahead, and not stopped. -/
def SignalledFromNow (σ : VoIpSessions) (p : RtpPacketInfo) (now : Int) (r : Ref) : Prop :=
  σ.IsLastLatest p r ∧ now ≤ σ.signalled r ∧ (sec now - sec (σ.signalled r)).bmod (2 ^ 32) ≤ 30 ∧
    (σ.sessions r).stopped = false

theorem IsLastLatest.isLatestSignalled (h : σ.IsLastLatest p r) : σ.IsLatestSignalled p r := by
  obtain ⟨before, after, hsessions, hbefore, hafter⟩ := h
  refine ⟨by simp [hsessions], fun c hc => ?_⟩
  rw [hsessions] at hc
  rcases List.mem_append.1 hc with hc | hc
  · exact hbefore c hc
  · rcases List.mem_cons.1 hc with rfl | hc
    · exact Int.le_refl _
    · exact Int.le_of_lt (hafter c hc)

theorem skinnyFindMostLikelySessionForRtpBehindNat_eq_some_iff {τ : VoIpSessions} :
    σ.skinnyFindMostLikelySessionForRtpBehindNat cfg p now = some τ ↔
      ∃ r, σ.SignalledFromNow p now r ∧ τ = σ.attachFarAddress cfg p now r := by
  unfold skinnyFindMostLikelySessionForRtpBehindNat
  constructor
  · intro h
    split at h
    · rename_i r t hfound
      obtain ⟨hlatest, hnow, rfl⟩ := mostRecentBehindNat_eq_some_iff.1 hfound
      by_cases hrejected : (sec now - sec (σ.signalled r)).bmod (2 ^ 32) > 30 ∨ (σ.sessions r).stopped
      · rw [if_pos hrejected] at h
        cases h
      · rw [if_neg hrejected] at h
        obtain ⟨hold, hstopped⟩ := not_or.1 hrejected
        refine ⟨r, ⟨hlatest, hnow, Int.not_lt.1 hold, by simpa using hstopped⟩, ?_⟩
        rw [← apply_ite some] at h
        exact (Option.some.inj h).symm
    · cases h
  · rintro ⟨r, ⟨hlatest, hnow, hold, hstopped⟩, rfl⟩
    rw [mostRecentBehindNat_eq_some_iff.2 ⟨hlatest, hnow, rfl⟩]
    dsimp only
    rw [if_neg (not_or.2 ⟨Int.not_lt.2 hold, by simp [hstopped]⟩)]
    exact (apply_ite some _ _ _).symm

/-- **The session signalled latest gets the address** exactly if, where there is a recent one, it was
signalled no earlier than the search begins. -/
theorem attachesLatest_iff (σ : VoIpSessions) (cfg : VoIpConfig) (p : RtpPacketInfo) (now : Int) :
    σ.AttachesLatest cfg p now ↔
      ((∃ r, σ.IsLatestSignalled p r ∧ σ.Recent now r) → ∃ r, σ.SignalledFromNow p now r) := by
  constructor
  · rintro h ⟨r, hlatest, hrecent⟩
    obtain ⟨r', -, hfind⟩ := h.recent r hlatest hrecent
    obtain ⟨r'', hfrom, -⟩ := skinnyFindMostLikelySessionForRtpBehindNat_eq_some_iff.1 hfind
    exact ⟨r'', hfrom⟩
  · intro h
    refine ⟨fun r hlatest hrecent => ?_, fun hold => ?_⟩
    · obtain ⟨r', hfrom⟩ := h ⟨r, hlatest, hrecent⟩
      exact ⟨r', hfrom.1.isLatestSignalled,
        skinnyFindMostLikelySessionForRtpBehindNat_eq_some_iff.2 ⟨r', hfrom, rfl⟩⟩
    · rw [Option.eq_none_iff_forall_ne_some]
      intro τ hτ
      obtain ⟨r, hfrom, -⟩ := skinnyFindMostLikelySessionForRtpBehindNat_eq_some_iff.1 hτ
      apply hold r hfrom.1.isLatestSignalled
      have hnow := hfrom.2.1
      unfold Recent
      omega

/-- A call signalled a second ago, and a packet of its phone. -/
def signalledBefore : VoIpSessions where
  sessions _ := { endPointIp := ⟨10, 0, 0, 1⟩, skinnyLastCallInfoTime := 1700000000000000 }
  byCallId := (∅ : Std.TreeMap String Ref).insert "1" 0

def packetBehindNat : RtpPacketInfo := { sourceIp := ⟨10, 0, 0, 1⟩, destIp := ⟨10, 0, 0, 9⟩, destPort := 4000 }

/-- The call does not get the address. -/
theorem not_attachesLatest : ¬ signalledBefore.AttachesLatest {} packetBehindNat 1700000001000000 := by
  have hsessions : signalledBefore.behindNatSessions packetBehindNat = [0] := by decide
  intro h
  have hlatest : signalledBefore.IsLatestSignalled packetBehindNat 0 := by
    unfold IsLatestSignalled
    rw [hsessions]
    decide
  have hrecent : signalledBefore.Recent 1700000001000000 0 := by
    show (1700000001000000 : Int) - 1700000000000000 ≤ 30 * 1000000
    decide
  obtain ⟨r, -, hfind⟩ := h.recent 0 hlatest hrecent
  obtain ⟨r', ⟨hlast, hnow, -⟩, -⟩ := skinnyFindMostLikelySessionForRtpBehindNat_eq_some_iff.1 hfind
  exact absurd hnow (by decide : ¬ (1700000001000000 : Int) ≤ 1700000000000000)

end Oreka.VoIp.VoIpSessions
