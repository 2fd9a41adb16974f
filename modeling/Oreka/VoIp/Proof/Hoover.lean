import Oreka.VoIp.Proof.StopCapture

/-!
# What `Hoover` leaves

`Hoover` collects the expired sessions of the map of media addresses, stops them, and does the same with
the map of call ids. `Stop` erases by the keys a session holds, so that what goes is not always what has
expired: `hooverOk_iff` says exactly when it is.
-/

open Std KeyedMap

namespace Oreka.VoIp

namespace VoIpSessions

variable {cfg : VoIpConfig} {strict live : Prop} {σ σ' : VoIpSessions} {t now : Int} {s : Ref}

/-! ## Stopping many sessions -/

/-- What is left after the sessions of `rs` have been stopped. -/
structure StopEachSpec (σ σ' : VoIpSessions) (rs : List Ref) : Prop where
  expiry : ∀ x, SameExpiry (σ.sessions x) (σ'.sessions x)
  callId : ∀ x, (σ'.sessions x).callId = (σ.sessions x).callId
  byIpAndPort : ∀ (k : UInt64) (s : Ref),
    σ'.byIpAndPort[k]? = some s ↔ σ.byIpAndPort[k]? = some s ∧ s ∉ rs
  byCallId : ∀ (c : String) (s : Ref), σ'.byCallId[c]? = some s ↔
    σ.byCallId[c]? = some s ∧ ∀ d ∈ rs, (σ.sessions d).callId = c → c = ""

theorem stop_stopEachSpec (h : RoutesOk cfg strict live σ) (r : Ref) (now : Int) :
    StopEachSpec σ (σ.stop cfg r now) [r] := by
  have hs := stop_spec σ cfg r now
  constructor
  case expiry =>
    intro x
    by_cases hx : x = r
    · rw [hx]
      exact hs.expiry
    · rw [hs.sessions_ne x hx]
      exact .refl _
  case callId =>
    intro x
    by_cases hx : x = r
    · rw [hx, hs.callId]
    · rw [hs.sessions_ne x hx]
  case byIpAndPort =>
    intro k x
    rw [stop_byIpAndPort h, List.mem_singleton]
    grind
  case byCallId =>
    intro c x
    rw [hs.byCallId]
    simp only [List.mem_singleton, forall_eq]
    grind

theorem stopEach_spec (h : RoutesOk cfg False False σ) {rs : List Ref}
    (hrs : ∀ r ∈ rs, r < σ.created) (now : Int) : StopEachSpec σ (σ.stopEach cfg rs now) rs := by
  unfold stopEach
  induction rs generalizing σ with
  | nil =>
    exact ⟨fun _ => .refl _, fun _ => rfl, fun _ _ => by simp, fun _ _ => by simp⟩
  | cons r rs ih =>
    have hs := stop_stopEachSpec h r now
    have hlt : ∀ x ∈ rs, x < (σ.stop cfg r now).created := by
      intro x hx
      rw [(stop_spec σ cfg r now).created]
      exact hrs x (List.mem_cons_of_mem r hx)
    have ht := ih (h.stop id (hrs r List.mem_cons_self) now) hlt
    constructor
    case expiry => exact fun x => (hs.expiry x).trans (ht.expiry x)
    case callId => exact fun x => (ht.callId x).trans (hs.callId x)
    case byIpAndPort =>
      intro k x
      rw [List.foldl_cons, ht.byIpAndPort, hs.byIpAndPort]
      simp only [List.mem_cons, List.not_mem_nil, or_false, not_or, and_assoc]
    case byCallId =>
      intro c x
      rw [List.foldl_cons, ht.byCallId, hs.byCallId]
      simp only [hs.callId, List.forall_mem_cons, List.not_mem_nil, false_imp_iff, forall_const,
        true_and, and_assoc]

/-! ## Expiry -/

/-- The timeout of the call's kind is over. -/
def Expired (cfg : VoIpConfig) (t : Int) (c : VoIpCall) : Prop := t - c.lastUpdated > timeout cfg c

/-- The timeout of a call with signalling is over, whatever the kind. -/
def ExpiredSignalled (cfg : VoIpConfig) (t : Int) (c : VoIpCall) : Prop :=
  t - c.lastUpdated > signalledTimeout cfg c

theorem signalledTimeout_congr {s s' : VoIpSession} (h : SameExpiry s s') :
    signalledTimeout cfg s'.toVoIpCall = signalledTimeout cfg s.toVoIpCall := by
  unfold signalledTimeout
  rw [h.onHold, h.numRtpPackets, h.numIgnoredRtpPackets]

theorem expired_congr {s s' : VoIpSession} (h : SameExpiry s s') :
    Expired cfg t s'.toVoIpCall ↔ Expired cfg t s.toVoIpCall := by
  unfold Expired timeout
  rw [h.lastUpdated, h.protocol, signalledTimeout_congr h]

theorem expiredSignalled_congr {s s' : VoIpSession} (h : SameExpiry s s') :
    ExpiredSignalled cfg t s'.toVoIpCall ↔ ExpiredSignalled cfg t s.toVoIpCall := by
  unfold ExpiredSignalled
  rw [h.lastUpdated, signalledTimeout_congr h]

/-- Nothing expired is left in the maps, and nothing else is gone. -/
structure HooverOk (cfg : VoIpConfig) (t : Int) (σ σ' : VoIpSessions) : Prop where
  media : ∀ (k : UInt64) (s : Ref), σ'.byIpAndPort[k]? = some s →
    ¬ Expired cfg t (σ'.sessions s).toVoIpCall
  callIds : ∀ (c : String) (s : Ref), σ'.byCallId[c]? = some s →
    ¬ Expired cfg t (σ'.sessions s).toVoIpCall
  media_kept : ∀ (k : UInt64) (s : Ref), σ.byIpAndPort[k]? = some s →
    ¬ Expired cfg t (σ.sessions s).toVoIpCall → σ'.byIpAndPort[k]? = some s
  callIds_kept : ∀ (c : String) (s : Ref), σ.byCallId[c]? = some s →
    ¬ Expired cfg t (σ.sessions s).toVoIpCall → σ'.byCallId[c]? = some s

/-- A session that is on one of the maps and has expired by that map's rule. -/
def Dismissable (σ : VoIpSessions) (cfg : VoIpConfig) (t : Int) (s : Ref) : Prop :=
  (s ∈ σ.onMedia ∧ Expired cfg t (σ.sessions s).toVoIpCall) ∨
    (s ∈ σ.onCallIds ∧ ExpiredSignalled cfg t (σ.sessions s).toVoIpCall)

/-- The condition on the state before: the keys match the expiry. -/
structure KeysMatchExpiry (σ : VoIpSessions) (cfg : VoIpConfig) (t : Int) : Prop where
  /-- An expired session has a call id in the map that is dismissed, and not the empty one. -/
  expired : ∀ (c : String) (s : Ref), σ.byCallId[c]? = some s →
    Expired cfg t (σ.sessions s).toVoIpCall →
      c ≠ "" ∧ ∃ d, Dismissable σ cfg t d ∧ (σ.sessions d).callId = c
  /-- Another's call id in the map is not. -/
  unexpired : ∀ (c : String) (s d : Ref), σ.byCallId[c]? = some s →
    ¬ Expired cfg t (σ.sessions s).toVoIpCall → Dismissable σ cfg t d →
      (σ.sessions d).callId = c → c = ""
  media : ∀ s ∈ σ.onMedia, Dismissable σ cfg t s → Expired cfg t (σ.sessions s).toVoIpCall

/-! ## What is dismissed -/

/-- A session that `Hoover` stops: the second pass finds what the first has left of the call ids. -/
def Dismissed (σ : VoIpSessions) (cfg : VoIpConfig) (t : Int) (s : Ref) : Prop :=
  (s ∈ σ.onMedia ∧ Expired cfg t (σ.sessions s).toVoIpCall) ∨
    ((∃ c : String, σ.byCallId[c]? = some s ∧ ∀ d ∈ σ.onMedia,
        Expired cfg t (σ.sessions d).toVoIpCall → (σ.sessions d).callId = c → c = "") ∧
      ExpiredSignalled cfg t (σ.sessions s).toVoIpCall)

theorem Dismissed.dismissable (h : Dismissed σ cfg t s) : Dismissable σ cfg t s := by
  rcases h with h | ⟨⟨c, hc, -⟩, h⟩
  · exact .inl h
  · exact .inr ⟨mem_onCallIds.2 ⟨c, hc⟩, h⟩

/-- What could be dismissed is, or one with its call id is. -/
theorem Dismissable.dismissed (h : RoutesOk cfg strict live σ) (hs : Dismissable σ cfg t s) :
    Dismissed σ cfg t s ∨ ∃ c : String, c ≠ "" ∧ σ.byCallId[c]? = some s ∧
      (σ.sessions s).callId = c ∧ ∃ d, Dismissed σ cfg t d ∧ (σ.sessions d).callId = c := by
  rcases hs with hs | ⟨hmem, hs⟩
  · exact .inl (.inl hs)
  · obtain ⟨c, hc⟩ := mem_onCallIds.1 hmem
    by_cases hfree : ∀ d ∈ σ.onMedia,
        Expired cfg t (σ.sessions d).toVoIpCall → (σ.sessions d).callId = c → c = ""
    · exact .inl (.inr ⟨⟨c, hc, hfree⟩, hs⟩)
    · push Not at hfree
      obtain ⟨d, hd, hexp, hid, hne⟩ := hfree
      refine .inr ⟨c, hne, hc, ?_, d, .inl ⟨hd, hexp⟩, hid⟩
      exact ((h.callIds c s hc).eq.resolve_right hne).symm

theorem exists_dismissed (h : RoutesOk cfg strict live σ) {c : String} {d : Ref}
    (hd : Dismissable σ cfg t d) (hid : (σ.sessions d).callId = c) :
    ∃ d, Dismissed σ cfg t d ∧ (σ.sessions d).callId = c := by
  rcases hd.dismissed h with hd | ⟨c', -, -, hid', d', hd', hid''⟩
  · exact ⟨d, hd, hid⟩
  · exact ⟨d', hd', hid''.trans (hid'.symm.trans hid)⟩

/-- `Hoover`, all of it. -/
structure HooverSpec (cfg : VoIpConfig) (t : Int) (σ σ' : VoIpSessions) : Prop where
  expiry : ∀ x, SameExpiry (σ.sessions x) (σ'.sessions x)
  byIpAndPort : ∀ (k : UInt64) (s : Ref),
    σ'.byIpAndPort[k]? = some s ↔ σ.byIpAndPort[k]? = some s ∧ ¬ Dismissed σ cfg t s
  byCallId : ∀ (c : String) (s : Ref), σ'.byCallId[c]? = some s ↔
    σ.byCallId[c]? = some s ∧ ∀ d, Dismissed σ cfg t d → (σ.sessions d).callId = c → c = ""

theorem mem_expiredOnMedia :
    s ∈ σ.expiredOnMedia cfg t ↔ s ∈ σ.onMedia ∧ Expired cfg t (σ.sessions s).toVoIpCall := by
  unfold expiredOnMedia Expired
  rw [List.mem_filter, decide_eq_true_iff]

theorem mem_expiredOnCallIds : s ∈ σ.expiredOnCallIds cfg t ↔
    s ∈ σ.onCallIds ∧ ExpiredSignalled cfg t (σ.sessions s).toVoIpCall := by
  unfold expiredOnCallIds ExpiredSignalled
  rw [List.mem_filter, decide_eq_true_iff]

theorem hoover_spec (h : RoutesOk cfg False False σ) (t now : Int) :
    HooverSpec cfg t σ (σ.hoover cfg t now) := by
  have hlt : ∀ r ∈ σ.expiredOnMedia cfg t, r < σ.created := fun r hr =>
    (h.of_onMedia (mem_expiredOnMedia.1 hr).1).lt
  have h1 := stopEach_spec h hlt now
  have hτ := h.stopEach id hlt now
  unfold hoover
  dsimp only
  set τ := σ.stopEach cfg (σ.expiredOnMedia cfg t) now
  have h2 : StopEachSpec τ (τ.stopEach cfg (τ.expiredOnCallIds cfg t) now) _ := stopEach_spec hτ
    (fun r hr => (hτ.of_onCallIds (mem_expiredOnCallIds.1 hr).1).lt) now
  have hdismissed (x : Ref) : Dismissed σ cfg t x ↔
      x ∈ σ.expiredOnMedia cfg t ∨ x ∈ τ.expiredOnCallIds cfg t := by
    unfold Dismissed
    simp only [mem_expiredOnMedia, mem_expiredOnCallIds, mem_onCallIds, h1.byCallId,
      expiredSignalled_congr (h1.expiry x), and_imp]
  constructor
  case expiry => exact fun x => (h1.expiry x).trans (h2.expiry x)
  case byIpAndPort =>
    intro k x
    rw [h2.byIpAndPort, h1.byIpAndPort, hdismissed, not_or, and_assoc]
  case byCallId =>
    intro c x
    rw [h2.byCallId, h1.byCallId, and_assoc]
    simp only [hdismissed, h1.callId, or_imp, forall_and]

/-! ## Exactly the expired sessions go -/

theorem HooverSpec.ok_iff (hspec : HooverSpec cfg t σ σ') (h : RoutesOk cfg strict live σ) :
    HooverOk cfg t σ σ' ↔ KeysMatchExpiry σ cfg t := by
  constructor
  · intro hok
    constructor
    case expired =>
      intro c s hc hexp
      by_contra hnot
      have hc' : σ'.byCallId[c]? = some s := by
        refine (hspec.byCallId c s).2 ⟨hc, fun d hd hid => ?_⟩
        by_contra hne
        exact hnot ⟨hne, d, hd.dismissable, hid⟩
      exact hok.callIds c s hc' ((expired_congr (hspec.expiry s)).2 hexp)
    case unexpired =>
      intro c s d hc hexp hd hid
      obtain ⟨d', hd', hid'⟩ := exists_dismissed h hd hid
      exact ((hspec.byCallId c s).1 (hok.callIds_kept c s hc hexp)).2 d' hd' hid'
    case media =>
      intro s hs hd
      by_contra hexp
      obtain ⟨k, hk⟩ := mem_onMedia.1 hs
      have hkept := ((hspec.byIpAndPort k s).1 (hok.media_kept k s hk hexp)).2
      rcases hd.dismissed h with hd | ⟨c, hne, hc, -, d, hd, hid⟩
      · exact hkept hd
      · exact hne (((hspec.byCallId c s).1 (hok.callIds_kept c s hc hexp)).2 d hd hid)
  · intro hkeys
    constructor
    case media =>
      intro k s hk hexp
      obtain ⟨hk', hnot⟩ := (hspec.byIpAndPort k s).1 hk
      exact hnot (.inl ⟨mem_onMedia.2 ⟨k, hk'⟩, (expired_congr (hspec.expiry s)).1 hexp⟩)
    case callIds =>
      intro c s hc hexp
      obtain ⟨hc', hnot⟩ := (hspec.byCallId c s).1 hc
      obtain ⟨hne, d, hd, hid⟩ := hkeys.expired c s hc' ((expired_congr (hspec.expiry s)).1 hexp)
      obtain ⟨d', hd', hid'⟩ := exists_dismissed h hd hid
      exact hne (hnot d' hd' hid')
    case media_kept =>
      intro k s hk hexp
      refine (hspec.byIpAndPort k s).2 ⟨hk, fun hd => hexp ?_⟩
      exact hkeys.media s (mem_onMedia.2 ⟨k, hk⟩) hd.dismissable
    case callIds_kept =>
      intro c s hc hexp
      exact (hspec.byCallId c s).2 ⟨hc, fun d hd hid => hkeys.unexpired c s d hc hexp hd.dismissable hid⟩

/-- In any reachable state, at any time, `Hoover` dismisses what has expired and nothing else exactly
when the keys match the expiry. -/
theorem hooverOk_iff (cfg : VoIpConfig) (run : List (Int × Op)) (t now : Int) :
    let σ := run.foldl (step cfg) {}
    HooverOk cfg t σ (σ.hoover cfg t now) ↔ KeysMatchExpiry σ cfg t :=
  (hoover_spec (routesOk_run cfg run) t now).ok_iff (routesOk_run cfg run)

/-- The successor of a raw RTP session whose capture was stopped stays in the map of call ids, long
after it has expired. -/
theorem not_hooverOk :
    let σ := [(0, Op.rtpPacket {
        sourceIp := ⟨10, 0, 0, 3⟩
        sourcePort := 5000
        destIp := ⟨10, 0, 0, 1⟩
        destPort := 4000 }),
      (1000000, .stopCapture "10.0.0.1")].foldl (step {}) {}
    ¬ HooverOk {} 900 σ (σ.hoover {} 900 900000000) := by
  intro σ h
  have hleft : (σ.hoover {} 900 900000000).byCallId[""]? = some 1 := by decide +kernel
  have hold : Expired {} 900 ((σ.hoover {} 900 900000000).sessions 1).toVoIpCall := by
    show (900 : Int) - _ > _
    decide +kernel
  exact h.callIds "" 1 hleft hold

end VoIpSessions

end Oreka.VoIp
