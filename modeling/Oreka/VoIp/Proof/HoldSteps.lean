import Oreka.VoIp.Proof.PacketPath
import Oreka.VoIp.Proof.Steps

/-!
# What the operations do to a hold

`Kept r σ σ'`: nothing is reported to session `r` about hold. Every operation is such a step, unless it calls
`GoOnHold` or `GoOffHold` on the session (`step_hold`): `holdReport` and `resumeReport` are the sessions that the
messages about hold find, and RTP or an INVITE may end a hold of any session that is on hold.
-/

namespace Oreka.VoIp

namespace VoIpCall

variable {c : VoIpCall} {cfg : VoIpConfig} {d : Directory} {p : RtpPacketInfo} {now : Int}

/-! ## A packet -/

theorem mapDeterministic_hold : (c.mapDeterministic cfg).hold = c.hold := by
  unfold mapDeterministic
  split
  · split
    · dsimp only
      split <;> rfl
    · rfl
  · rfl

theorem countAlien_hold (c : VoIpCall) (p : RtpPacketInfo) (now : Int) : (c.countAlien p now).hold = c.hold := by
  unfold countAlien
  dsimp only
  repeat' split
  all_goals rfl

/-- The session that a verdict leaves. -/
def Verdict.call : Verdict → VoIpCall
  | .dismissed c => c
  | .rejected c => c
  | .kept c _ => c

theorem continueSide1_hold {last : RtpPacketInfo} : (c.continueSide1 cfg p last).call.hold = c.hold := by
  unfold continueSide1
  dsimp only
  split
  · rfl
  split
  · rfl
  split
  · rfl
  · dsimp only [Verdict.call]
    split <;> split <;> rfl

theorem continueSide2_hold {last : RtpPacketInfo} : (c.continueSide2 cfg p last).call.hold = c.hold := by
  unfold continueSide2
  dsimp only
  split
  · rfl
  split
  · rfl
  split <;> rfl

theorem remapSide_hold : (c.remapSide p now).call.hold = c.hold := by
  have h := countAlien_hold c p now
  simp only [remapSide]
  split
  · exact h
  · split <;> exact h

theorem verdict_hold (c : VoIpCall) (cfg : VoIpConfig) (p : RtpPacketInfo) (channel : Nat) (first : Bool)
    (now : Int) : (c.verdict cfg p channel first now).call.hold = c.hold := by
  unfold verdict
  split
  · exact continueSide1_hold
  · exact continueSide2_hold
  · exact remapSide_hold
  · rfl

theorem placePacket_hold : (c.placePacket cfg d p now).call.hold = c.hold := by
  have hdet : (({ c with lastRtpPacket := some p } : VoIpCall).detectChannel cfg d p now).1.hold = c.hold :=
    detectChannel_hold
  unfold placePacket
  dsimp only
  generalize ({ c with lastRtpPacket := some p } : VoIpCall).detectChannel cfg d p now = r at hdet ⊢
  obtain ⟨c₁, d₁, channel, first⟩ := r
  have hver := verdict_hold c₁ cfg p channel first now
  dsimp only at hdet ⊢
  cases hv : c₁.verdict cfg p channel first now <;> rw [hv] at hver
  · exact hver.trans hdet
  · exact hver.trans hdet
  · exact (hold_of_core keepPacket_core).trans (mapDeterministic_hold.trans (hver.trans hdet))

theorem addRtpPacket_hold : MayResume c.hold (c.addRtpPacket cfg d p now).call.hold p.arrivalTimestamp := by
  cases h : c.toPlace cfg d p now with
  | none =>
    left
    rcases (addRtpPacket_of_not_toPlace h).2 with hsame | ⟨c', d', hc', hdet⟩
    · exact hold_of_core hsame
    · rw [hold_of_core hdet, detectChannel_hold]
      exact hold_of_core hc'
  | some r =>
    obtain ⟨c', d'⟩ := r
    obtain ⟨hadd, -, hhold⟩ := addRtpPacket_of_toPlace h
    rw [hadd, placePacket_hold]
    exact hhold

end VoIpCall

namespace VoIpSessions

open VoIpCall

variable {σ σ' σ'' : VoIpSessions} {cfg : VoIpConfig} {r x : Ref} {now : Int}

/-! ## Nothing about hold -/

/-- Nothing happens to the hold of `r`, if there is such a session. -/
structure Kept (r : Ref) (σ σ' : VoIpSessions) : Prop where
  created : σ.created ≤ σ'.created
  hold : r < σ.created → (σ'.sessions r).hold = (σ.sessions r).hold

namespace Kept

theorem refl (r : Ref) (σ : VoIpSessions) : Kept r σ σ := ⟨le_rfl, fun _ => rfl⟩

theorem trans (h : Kept r σ σ') (h' : Kept r σ' σ'') : Kept r σ σ'' where
  created := h.created.trans h'.created
  hold hr := (h'.hold (lt_of_lt_of_le hr h.created)).trans (h.hold hr)

theorem of_sessions (hs : σ'.sessions = σ.sessions) (hc : σ'.created = σ.created) : Kept r σ σ' :=
  ⟨hc.ge, fun _ => by rw [hs]⟩

theorem of_update {s : VoIpSession} (he : σ'.sessions = Function.update σ.sessions x s)
    (hc : σ'.created = σ.created) (hs : s.hold = (σ.sessions x).hold) : Kept r σ σ' := by
  refine ⟨hc.ge, fun _ => ?_⟩
  rw [he]
  by_cases hx : r = x
  · subst hx
    rw [Function.update_self, hs]
  · rw [Function.update_of_ne hx]

theorem setSession (σ : VoIpSessions) (x : Ref) {s : VoIpSession} (hs : s.hold = (σ.sessions x).hold) :
    Kept r σ (σ.setSession x s) := of_update rfl rfl hs

theorem setSession_ne (σ : VoIpSessions) (s : VoIpSession) (hx : r ≠ x) : Kept r σ (σ.setSession x s) :=
  ⟨le_rfl, fun _ => by rw [VoIpSessions.setSession_ne _ _ hx]⟩

theorem updateCall (σ : VoIpSessions) (x : Ref) {f : VoIpCall → VoIpCall} (hf : ∀ c, (f c).hold = c.hold) :
    Kept r σ (σ.updateCall x f) := setSession σ x (hf _)

theorem updateCall_ne (σ : VoIpSessions) (f : VoIpCall → VoIpCall) (hx : r ≠ x) : Kept r σ (σ.updateCall x f) :=
  setSession_ne σ _ hx

theorem create (σ : VoIpSessions) (cfg : VoIpConfig) (now : Int) : Kept r σ (σ.create cfg now) where
  created := Nat.le_succ _
  hold hr := by rw [create_ne σ cfg now hr.ne]

theorem foldl {β : Type} {f : VoIpSessions → β → VoIpSessions} (hf : ∀ σ b, Kept r σ (f σ b)) (l : List β)
    (σ : VoIpSessions) : Kept r σ (l.foldl f σ) := by
  induction l generalizing σ with
  | nil => exact refl r σ
  | cons b l ih => exact (hf σ b).trans (ih (f σ b))

theorem removeFromMediaAddressMap (σ : VoIpSessions) (x : Ref) (k : UInt64) :
    Kept r σ (σ.removeFromMediaAddressMap x k) :=
  of_sessions (removeFromMediaAddressMap_sessions σ x k) (removeFromMediaAddressMap_created σ x k)

theorem stop (σ : VoIpSessions) (cfg : VoIpConfig) (x : Ref) (now : Int) : Kept r σ (σ.stop cfg x now) := by
  obtain ⟨party, stopped, live, hcall⟩ := stopCall_eq σ cfg x now
  have h₁ : Kept r σ (σ.stopCall cfg x now) := by
    rw [hcall]
    exact of_update rfl rfl rfl
  obtain ⟨hs, -, hc, -⟩ := eraseCallId_rest (σ.stopCall cfg x now) ((σ.stopCall cfg x now).sessions x).callId
  refine (h₁.trans (of_sessions hs hc)).trans ?_
  exact (foldl (fun σ k => removeFromMediaAddressMap σ x k) _ _).trans (setSession _ x rfl)

theorem setMediaAddress (σ : VoIpSessions) (cfg : VoIpConfig) (x : Ref) (ip : InAddr) (port : UInt16) (now : Int) :
    Kept r σ (σ.setMediaAddress cfg x ip port now) := by
  have hmap (σ : VoIpSessions) (k : UInt64) : Kept r σ ((σ.clearMapping cfg x).mapMediaAddress x ip k) := by
    have hclear : Kept r σ (σ.clearMapping cfg x) := by
      unfold clearMapping
      split
      · exact refl r σ
      · exact (removeFromMediaAddressMap σ x _).trans (setSession _ x rfl)
    exact hclear.trans (of_update rfl rfl rfl)
  have hevict (old : Ref) (k : UInt64) : Kept r σ (σ.evict cfg old k now) := by
    unfold evict
    split
    · exact stop σ cfg old now
    · exact removeFromMediaAddressMap σ old k
  unfold VoIpSessions.setMediaAddress
  split
  · exact refl r σ
  dsimp only
  split
  · exact hmap σ _
  split
  · exact refl r σ
  split
  · exact (hevict _ _).trans (hmap _ _)
  · exact refl r σ

end Kept

end VoIpSessions

/-! ## What is reported to a session -/

namespace VoIpCall

variable {c : VoIpCall} {cfg : VoIpConfig} {d : Directory}

theorem reportSipInvite_hold {i : SipInvite} : (c.reportSipInvite cfg d i).hold = c.hold := by
  unfold VoIpCall.reportSipInvite
  extract_lets c₁ c₂ c₃ c₄ c₅ c₆
  have h₁ : c₁.hold = c.hold := by
    simp only [c₁]
    split <;> rfl
  have h₂ : c₂.hold = c₁.hold := by
    simp only [c₂]
    split <;> rfl
  have h₃ : c₃.hold = c₂.hold := rfl
  have h₄ : c₄.hold = c₃.hold := by
    simp only [c₄]
    split <;> rfl
  have h₅ : c₅.hold = c₄.hold := by
    simp only [c₅]
    split <;> rfl
  have h₆ : c₆.hold = c₅.hold := by
    simp only [c₆]
    split <;> rfl
  have h : c₆.hold = c.hold := h₆.trans (h₅.trans (h₄.trans (h₃.trans (h₂.trans h₁))))
  clear_value c₆
  split
  · split <;> exact h
  · exact h

theorem reportSipBye_hold {bye : SipByeInfo} : (c.reportSipBye cfg d bye).hold = c.hold := by
  unfold VoIpCall.reportSipBye
  repeat' split
  all_goals rfl

theorem reportSipNotify_hold {notify : SipNotifyInfo} : (c.reportSipNotify cfg notify).hold = c.hold := by
  unfold VoIpCall.reportSipNotify
  split
  · split
    · dsimp only
      split <;> rfl
    · rfl
  · rfl

theorem reportSipInfo_hold {info : SipInfo} : (c.reportSipInfo cfg info).hold = c.hold := by
  have hdtmf : (({ c with lastSipInfo := some info } : VoIpCall).reportDtmfDigit cfg info.dtmfDigit).hold = c.hold :=
    hold_of_core reportDtmfDigit_core
  unfold VoIpCall.reportSipInfo
  split
  · rfl
  · dsimp only
    repeat' split
    all_goals first | rfl | exact hdtmf

theorem reportSkinnyCallInfo_hold {callInfo : SkCallInfo} {h : SkinnyHeaders} :
    (c.reportSkinnyCallInfo cfg callInfo h).hold = c.hold := by
  simp only [VoIpCall.reportSkinnyCallInfo]
  repeat' split
  all_goals rfl

theorem updateWithCallInfo_hold {m : SkCallInfo} : (c.updateWithCallInfo cfg d m).hold = c.hold := by
  simp only [updateWithCallInfo]
  repeat' split
  all_goals rfl

theorem updateMetadataSkinny_hold : (c.updateMetadataSkinny cfg).hold = c.hold := hold_of_core addLocalIp_core

theorem reportRtcpSrcDescription_hold {info : RtcpSrcDescriptionPacketInfo} :
    (c.reportRtcpSrcDescription cfg d info).hold = c.hold := by
  unfold VoIpCall.reportRtcpSrcDescription
  split
  · dsimp only
    split
    · exact hold_of_core addLocalIp_core
    · rfl
  · split <;> rfl

end VoIpCall

namespace VoIpSessions

open VoIpCall

variable {σ σ' : VoIpSessions} {cfg : VoIpConfig} {r x : Ref} {now : Int}

namespace Kept

/-! ## SIP -/

theorem directory (σ : VoIpSessions) (d : Directory) : Kept r σ { σ with directory := d } := of_sessions rfl rfl

theorem insertCallId (σ : VoIpSessions) (x : Ref) : Kept r σ (σ.insertCallId x) := of_sessions rfl rfl

theorem trySessionCallPickUp (σ : VoIpSessions) (cfg : VoIpConfig) (x : Ref) (id : String) :
    Kept r σ (σ.trySessionCallPickUp cfg x id) := by
  unfold VoIpSessions.trySessionCallPickUp
  split
  · exact of_update rfl rfl rfl
  · exact refl r σ

theorem giveInvite (σ : VoIpSessions) (cfg : VoIpConfig) (x : Ref) (i : SipInvite) :
    Kept r σ (σ.giveInvite cfg x i) :=
  (trySessionCallPickUp σ cfg x i.replacesId).trans (updateCall _ x fun _ => reportSipInvite_hold)

theorem setInviteMediaAddress (σ : VoIpSessions) (cfg : VoIpConfig) (x : Ref) (i : SipInvite) (port : UInt16)
    (now : Int) : Kept r σ (σ.setInviteMediaAddress cfg x i port now) := by
  have h := setMediaAddress (r := r) σ cfg x i.fromRtpIp port now
  unfold VoIpSessions.setInviteMediaAddress
  dsimp only
  split
  · exact h.trans (setMediaAddress _ cfg x _ port now)
  · exact h

theorem takePreInviteNotify (σ : VoIpSessions) (cfg : VoIpConfig) (i : SipInvite) :
    Kept r σ (σ.takePreInviteNotify cfg i).1 := by
  unfold VoIpSessions.takePreInviteNotify
  split
  · split
    · split
      · exact directory σ _
      · exact refl r σ
    · exact refl r σ
  · exact refl r σ

theorem createByInvite (hr : r < σ.created) (i : SipInvite) (port : UInt16) (now : Int) :
    Kept r σ (σ.createByInvite cfg i port now) := by
  have h₁ := (create (r := r) σ cfg now).trans (trySessionCallPickUp _ cfg σ.created i.replacesId)
  unfold VoIpSessions.createByInvite
  dsimp only
  generalize (σ.create cfg now).trySessionCallPickUp cfg σ.created i.replacesId = σ₁ at h₁ ⊢
  have h₂ := h₁.trans (setSession_ne σ₁ { σ₁.sessions σ.created with
    callId := i.callId, protocol := .sip, sipDialedNumber := i.sipDialedNumber } hr.ne)
  generalize σ₁.setSession σ.created _ = σ₂ at h₂ ⊢
  have h₃ := h₂.trans (takePreInviteNotify σ₂ cfg i)
  generalize σ₂.takePreInviteNotify cfg i = r₃ at h₃ ⊢
  obtain ⟨σ₃, i₃⟩ := r₃
  exact ((h₃.trans (updateCall_ne σ₃ _ hr.ne)).trans (setInviteMediaAddress _ cfg _ i₃ port now)).trans
    (insertCallId _ _)

end Kept

/-- What a report at time `t` may do to the hold of `r`: end it; begin it where `holds`; or end it whether there is
one or not, where `resumes`. -/
structure Moves (holds resumes : Prop) (t : Int) (r : Ref) (σ σ' : VoIpSessions) : Prop where
  created : σ.created ≤ σ'.created
  hold : MayResume (σ.sessions r).hold (σ'.sessions r).hold t ∨
    (holds ∧ (σ'.sessions r).hold = (σ.sessions r).hold.on t) ∨
    (resumes ∧ (σ'.sessions r).hold = (σ.sessions r).hold.off t)

variable {holds resumes : Prop} {t : Int}

theorem Kept.moves (h : Kept r σ σ') (hr : r < σ.created) : Moves holds resumes t r σ σ' where
  created := h.created
  hold := .inl (.inl (h.hold hr))

theorem Moves.imp {holds' : Prop} (hm : Moves holds resumes t r σ σ') (h : holds → holds') :
    Moves holds' resumes t r σ σ' := ⟨hm.created, hm.hold.imp_right (.imp_left (.imp_left h))⟩

/-- Nothing more happens to the hold. -/
theorem Moves.kept {σ'' : VoIpSessions} (hm : Moves holds resumes t r σ σ') (hr : r < σ.created)
    (hk : Kept r σ' σ'') : Moves holds resumes t r σ σ'' where
  created := hm.created.trans hk.created
  hold := by
    rw [hk.hold (hr.trans_le hm.created)]
    exact hm.hold

/-- Nothing has happened to the hold before. -/
theorem Kept.andMoves {σ'' : VoIpSessions} (hk : Kept r σ σ') (hr : r < σ.created)
    (hm : Moves holds resumes t r σ' σ'') : Moves holds resumes t r σ σ'' where
  created := hk.created.trans hm.created
  hold := by
    rw [← hk.hold hr]
    exact hm.hold

theorem goOnHold_hold (c : VoIpCall) (t : Int) : (c.goOnHold t).hold = c.hold ∨ (c.goOnHold t).hold = c.hold.on t := by
  unfold goOnHold
  split
  · exact .inr rfl
  · exact .inl rfl

/-- `GoOnHold` of the session `x`. -/
theorem moves_goOnHold (hr : r < σ.created) (hx : x = r → holds) :
    Moves holds resumes t r σ (σ.updateCall x (·.goOnHold t)) := by
  by_cases hxr : r = x
  · subst hxr
    refine ⟨le_rfl, ?_⟩
    rw [updateCall_self]
    exact (goOnHold_hold (σ.sessions r).toVoIpCall t).imp .inl fun h => .inl ⟨hx rfl, h⟩
  · exact (Kept.updateCall_ne σ _ hxr).moves hr

/-- `GoOffHold` of the session `x`, which is on hold unless `resumes`. -/
theorem moves_goOffHold {f : VoIpCall → VoIpCall} (hf : ∀ c, (f c).hold = c.hold.off t) (hr : r < σ.created)
    (hx : x = r → (σ.sessions r).onHold ∨ resumes) : Moves holds resumes t r σ (σ.updateCall x f) := by
  by_cases hxr : r = x
  · subst hxr
    refine ⟨le_rfl, ?_⟩
    rw [updateCall_self]
    rcases hx rfl with hon | hres
    · exact .inl (.inr ⟨hon, hf _⟩)
    · exact .inr (.inr ⟨hres, hf _⟩)
  · exact (Kept.updateCall_ne σ _ hxr).moves hr

theorem moves_holdByInvite {i : SipInvite} {port : UInt16} (hr : r < σ.created)
    (h : σ.holdByInvite cfg x i port now = some σ') (hx : i.attrSendonly → x = r → holds) :
    Moves holds resumes i.recvTime r σ σ' := by
  unfold holdByInvite at h
  split at h
  case isTrue hsend =>
    obtain rfl := Option.some.inj h
    exact moves_goOnHold hr (hx hsend)
  case isFalse =>
    split at h
    case isTrue hon =>
      obtain rfl := Option.some.inj h
      refine Moves.kept ?_ hr (Kept.setMediaAddress _ cfg x _ port now)
      exact moves_goOffHold (fun _ => rfl) hr fun hxr => .inl (hxr ▸ hon.1)
    case isFalse => cases h

theorem moves_inviteByCallId {i : SipInvite} {port : UInt16} {key : UInt64} (hr : r < σ.created)
    (hx : i.attrSendonly → σ.byCallId[i.callId]? = some r → holds) :
    Moves holds resumes i.recvTime r σ (σ.reportSipInviteByCallId cfg i port key now) := by
  unfold reportSipInviteByCallId
  cases hfound : σ.byCallId[i.callId]? with
  | none => exact (Kept.createByInvite hr i port now).moves hr
  | some x =>
    dsimp only
    cases hhold : σ.holdByInvite cfg x i port now with
    | some σ' => exact moves_holdByInvite hr hhold fun hs he => hx hs (he ▸ hfound)
    | none =>
      have hmedia : Kept r σ (if (σ.sessions x).ipAndPort ≠ key ∧ cfg.sipDynamicMediaAddress then
          σ.setInviteMediaAddress cfg x i port now else σ) := by
        split
        · exact .setInviteMediaAddress σ cfg x i port now
        · exact .refl r σ
      exact (hmedia.trans (.giveInvite _ cfg x i)).moves hr

/-- The session that an INVITE is found to be about. -/
def inviteSession (σ : VoIpSessions) (cfg : VoIpConfig) (i : SipInvite) : Option Ref :=
  if cfg.sipIgnoredMediaAddresses.contains i.fromRtpIp then none
  else
    let rtpPortAsInt := if (strtol i.fromRtpPort).2 then (strtol i.fromRtpPort).1 else 0
    match σ.findByMediaAddress cfg i.fromRtpIp (.ofInt rtpPortAsInt) with
    | none => σ.byCallId[i.callId]?
    | some r =>
      let s := σ.sessions r
      if s.protocol = .rawRtp ∨ (s.protocol = .sip ∧ cfg.rtpAllowMultipleMappings) ∨
          (¬ cfg.rtpAllowMultipleMappings ∧ ¬ compareNoCase i.callId s.callId) then
        σ.byCallId[i.callId]?
      else some r

theorem moves_sipInvite (i : SipInvite) (now : Int) (hr : r < σ.created) :
    Moves (i.attrSendonly ∧ σ.inviteSession cfg i = some r) resumes i.recvTime r σ
      (σ.reportSipInvite cfg i now) := by
  unfold reportSipInvite inviteSession
  by_cases hign : cfg.sipIgnoredMediaAddresses.contains i.fromRtpIp = true
  · rw [if_pos hign, if_pos hign]
    exact (Kept.refl r σ).moves hr
  rw [if_neg hign, if_neg hign]
  dsimp only
  cases hfound : σ.findByMediaAddress cfg i.fromRtpIp
    (.ofInt (if (strtol i.fromRtpPort).2 then (strtol i.fromRtpPort).1 else 0)) with
  | none => exact moves_inviteByCallId hr fun hs he => ⟨hs, he⟩
  | some x =>
    dsimp only
    by_cases hraw : (σ.sessions x).protocol = .rawRtp ∨
      ((σ.sessions x).protocol = .sip ∧ cfg.rtpAllowMultipleMappings)
    · rw [if_pos hraw, if_pos (hraw.imp_right .inl)]
      exact moves_inviteByCallId hr fun hs he => ⟨hs, he⟩
    rw [if_neg hraw]
    by_cases hother : ¬ cfg.rtpAllowMultipleMappings ∧ ¬ compareNoCase i.callId (σ.sessions x).callId
    · rw [if_pos hother, if_pos (.inr (.inr hother))]
      have hkept : Kept r σ (σ.updateCall x fun c => { c with protocol := .rawRtp }) := .updateCall σ x fun _ => rfl
      exact hkept.andMoves hr (moves_inviteByCallId hr fun hs he => ⟨hs, he⟩)
    · rw [if_neg hother, if_neg fun h => h.elim (fun h => hraw (.inl h)) fun h =>
        h.elim (fun h => hraw (.inr h)) hother]
      cases hhold : σ.holdByInvite cfg x i _ now with
      | some σ' => exact moves_holdByInvite hr hhold fun hs he => ⟨hs, he ▸ rfl⟩
      | none => exact (Kept.giveInvite σ cfg x i).moves hr

namespace Kept

theorem reportSipSubscribe (σ : VoIpSessions) (callId : String) : Kept r σ (σ.reportSipSubscribe callId) :=
  of_sessions rfl rfl

theorem reportSipErrorPacket (σ : VoIpSessions) (cfg : VoIpConfig) (info : SipFailureMessageInfo) (now : Int) :
    Kept r σ (σ.reportSipErrorPacket cfg info now) := by
  unfold VoIpSessions.reportSipErrorPacket
  split
  · split
    · exact refl r σ
    · exact stop σ cfg _ now
  · exact refl r σ

theorem reportSipSessionProgress (σ : VoIpSessions) (cfg : VoIpConfig) (info : SipSessionProgressInfo) (now : Int) :
    Kept r σ (σ.reportSipSessionProgress cfg info now) := by
  unfold VoIpSessions.reportSipSessionProgress
  split
  · dsimp only
    split
    · exact (setMediaAddress σ cfg _ _ _ now).trans (setMediaAddress _ cfg _ _ _ now)
    · exact setMediaAddress σ cfg _ _ _ now
  · exact refl r σ

theorem reportSip200Ok (σ : VoIpSessions) (cfg : VoIpConfig) (info : Sip200OkInfo) (now : Int) :
    Kept r σ (σ.reportSip200Ok cfg info now) := by
  unfold VoIpSessions.reportSip200Ok
  split
  · split
    · exact setMediaAddress σ cfg _ _ _ now
    · exact refl r σ
  · exact refl r σ

theorem reportSipBye (σ : VoIpSessions) (cfg : VoIpConfig) (bye : SipByeInfo) (now : Int) :
    Kept r σ (σ.reportSipBye cfg bye now) := by
  unfold VoIpSessions.reportSipBye
  split
  · exact (updateCall σ _ fun _ => reportSipBye_hold).trans (stop _ cfg _ now)
  · exact refl r σ

theorem reportSipNotify (σ : VoIpSessions) (cfg : VoIpConfig) (notify : SipNotifyInfo) :
    Kept r σ (σ.reportSipNotify cfg notify) := by
  unfold VoIpSessions.reportSipNotify
  extract_lets session dsp
  clear_value session
  split
  · exact of_sessions rfl rfl
  · split
    · exact refl r σ
    · split
      · exact updateCall σ _ fun _ => reportSipNotify_hold
      · exact directory σ _

theorem reportSipInfo (σ : VoIpSessions) (cfg : VoIpConfig) (info : SipInfo) :
    Kept r σ (σ.reportSipInfo cfg info) := by
  unfold VoIpSessions.reportSipInfo
  split
  · exact updateCall σ _ fun _ => reportSipInfo_hold
  · exact refl r σ

theorem reportSipRefer (σ : VoIpSessions) (info : SipRefer) : Kept r σ (σ.reportSipRefer info) := by
  unfold VoIpSessions.reportSipRefer
  split
  · exact of_sessions rfl rfl
  · exact refl r σ

/-! ## Skinny -/

theorem stopPrevious (σ : VoIpSessions) (cfg : VoIpConfig) (ip : InAddr) (now : Int) :
    Kept r σ (σ.stopPrevious cfg ip now) := by
  unfold VoIpSessions.stopPrevious
  split
  · split
    · exact stop σ cfg _ now
    · exact refl r σ
  · exact refl r σ

theorem createByCallInfo (hr : r < σ.created) (callId : String) (callInfo : SkCallInfo) (h : SkinnyHeaders)
    (now : Int) : Kept r σ (σ.createByCallInfo cfg callId callInfo h now) := by
  unfold VoIpSessions.createByCallInfo
  dsimp only
  exact (((create σ cfg now).trans (setSession_ne _ _ hr.ne)).trans (stopPrevious _ cfg _ now)).trans
    (insertCallId _ _)

theorem reportSkinnyCallInfo (hr : r < σ.created) (callInfo : SkCallInfo) (h : SkinnyHeaders) (now : Int) :
    Kept r σ (σ.reportSkinnyCallInfo cfg callInfo h now) := by
  have hdir : Kept r σ { σ with directory := updateEndpointWithCallInfo σ.directory cfg callInfo h } :=
    directory σ _
  have hr' : r < ({ σ with directory := updateEndpointWithCallInfo σ.directory cfg callInfo h } :
    VoIpSessions).created := hr
  unfold VoIpSessions.reportSkinnyCallInfo
  dsimp only
  split
  · refine hdir.trans (updateCall _ _ fun c => ?_)
    dsimp only
    rw [reportSkinnyCallInfo_hold]
    split
    · exact updateWithCallInfo_hold
    · rfl
  · split
    · split
      · refine hdir.trans ((setSession _ _ ?_).trans (insertCallId _ _))
        exact reportSkinnyCallInfo_hold.trans (updateMetadataSkinny_hold.trans updateWithCallInfo_hold)
      · exact hdir.trans (createByCallInfo hr' _ _ _ now)
    · exact hdir.trans (createByCallInfo hr' _ _ _ now)

theorem createByMedia (hr : r < σ.created) (ip : InAddr) (port : UInt16) (id : UInt32)
    (ep : Option VoIpEndpointInfo) (mediaIp : InAddr) (mediaPort : UInt16) (now : Int) :
    Kept r σ (σ.createByMedia cfg ip port id ep mediaIp mediaPort now) := by
  have hcreate := create (r := r) σ cfg now
  unfold VoIpSessions.createByMedia
  dsimp only
  generalize σ.create cfg now = σ₁ at hcreate ⊢
  exact (hcreate.trans (updateCall_ne σ₁ _ hr.ne)).trans (setMediaAddress _ cfg _ _ _ now)

theorem reportSkinnyMedia (hr : r < σ.created) (ip : InAddr) (port : UInt16) (id : UInt32)
    (ep : Option VoIpEndpointInfo) (mediaIp : InAddr) (mediaPort : UInt16) (now : Int) :
    Kept r σ (σ.reportSkinnyMedia cfg ip port id ep mediaIp mediaPort now) := by
  unfold VoIpSessions.reportSkinnyMedia
  split
  · split
    · exact (updateCall σ _ fun _ => by rfl).trans (setMediaAddress _ cfg _ _ _ now)
    · exact refl r σ
  · split
    · exact createByMedia hr _ _ _ _ _ _ now
    · exact refl r σ

theorem reportSkinnyOpenReceiveChannelAck (hr : r < σ.created) (m : SkOpenReceiveChannelAck) (h : SkinnyHeaders)
    (now : Int) : Kept r σ (σ.reportSkinnyOpenReceiveChannelAck cfg m h now) := by
  unfold VoIpSessions.reportSkinnyOpenReceiveChannelAck
  split
  · exact refl r σ
  · exact reportSkinnyMedia hr _ _ _ _ _ _ now

theorem reportSkinnyStopMediaTransmission (σ : VoIpSessions) (cfg : VoIpConfig) (m : SkStopMediaTransmission)
    (h : SkinnyHeaders) (now : Int) : Kept r σ (σ.reportSkinnyStopMediaTransmission cfg m h now) := by
  unfold VoIpSessions.reportSkinnyStopMediaTransmission
  split
  · exact refl r σ
  split
  · split
    · exact refl r σ
    · exact stop σ cfg _ now
  · exact refl r σ

theorem reportSkinnyLineStat (σ : VoIpSessions) (cfg : VoIpConfig) (number : String) (h : SkinnyHeaders) :
    Kept r σ (σ.reportSkinnyLineStat cfg number h) := by
  unfold VoIpSessions.reportSkinnyLineStat
  split
  · exact directory σ _
  · exact refl r σ

theorem reportSkinnySoftKeyConfPressed (σ : VoIpSessions) (cfg : VoIpConfig) (ip : InAddr) (h : SkinnyHeaders)
    (now : Int) : Kept r σ (σ.reportSkinnySoftKeyConfPressed cfg ip h now) := by
  unfold VoIpSessions.reportSkinnySoftKeyConfPressed
  split
  · split
    · exact directory σ _
    · exact refl r σ
  · exact refl r σ

theorem reportSkinnySoftKeySetConfConnected (σ : VoIpSessions) (cfg : VoIpConfig) (ip : InAddr) (h : SkinnyHeaders)
    (now : Int) : Kept r σ (σ.reportSkinnySoftKeySetConfConnected cfg ip h now) := by
  unfold VoIpSessions.reportSkinnySoftKeySetConfConnected
  split
  · exact directory σ _
  · exact refl r σ

theorem reportSkinnySoftKeySetTransfConnected (σ : VoIpSessions) (cfg : VoIpConfig) (id : UInt32)
    (h : SkinnyHeaders) (now : Int) : Kept r σ (σ.reportSkinnySoftKeySetTransfConnected cfg id h now) := by
  unfold VoIpSessions.reportSkinnySoftKeySetTransfConnected
  split
  · exact stop σ cfg _ now
  · exact refl r σ

/-! ## Captures, expiry and the rest -/

theorem reportRtcpSrcDescription (σ : VoIpSessions) (cfg : VoIpConfig) (info : RtcpSrcDescriptionPacketInfo) :
    Kept r σ (σ.reportRtcpSrcDescription cfg info) := by
  unfold VoIpSessions.reportRtcpSrcDescription
  split
  · exact updateCall σ _ fun _ => reportRtcpSrcDescription_hold
  · exact refl r σ

theorem hoover (σ : VoIpSessions) (cfg : VoIpConfig) (t now : Int) : Kept r σ (σ.hoover cfg t now) :=
  (foldl (fun σ x => stop σ cfg x now) _ σ).trans (foldl (fun σ x => stop σ cfg x now) _ _)

theorem startCaptureOf (σ : VoIpSessions) (which : VoIpSession → Bool) : Kept r σ (σ.startCaptureOf which).1 := by
  unfold VoIpSessions.startCaptureOf
  split
  · dsimp only
    exact updateCall σ _ fun _ => by rfl
  · exact refl r σ

theorem pauseCaptureOf (σ : VoIpSessions) (which : VoIpSession → Bool) : Kept r σ (σ.pauseCaptureOf which).1 := by
  unfold VoIpSessions.pauseCaptureOf
  split
  · dsimp only
    exact updateCall σ _ fun _ => by rfl
  · exact refl r σ

theorem stopCaptureOf (hr : r < σ.created) (which : VoIpSession → Bool) (now : Int) :
    Kept r σ (σ.stopCaptureOf cfg which now).sessions := by
  have hcreate (x : Ref) : Kept r σ (σ.createSuccessor cfg x now) :=
    (create σ cfg now).trans (setSession_ne _ _ hr.ne)
  unfold VoIpSessions.stopCaptureOf
  split
  · exact ((hcreate _).trans (stop _ cfg _ now)).trans (of_sessions rfl rfl)
  · exact refl r σ

theorem reportOnDemandMarkerByIp (σ : VoIpSessions) (ip : InAddr) : Kept r σ (σ.reportOnDemandMarkerByIp ip) := by
  unfold VoIpSessions.reportOnDemandMarkerByIp
  dsimp only
  split
  · exact updateCall σ _ fun _ => by rfl
  · exact refl r σ

theorem storeExtracted (σ : VoIpSessions) (cfg : VoIpConfig) (pairs : List (String × String)) (ip : InAddr)
    (now : Int) : Kept r σ (σ.storeExtracted cfg pairs ip now) :=
  foldl (fun σ _ => directory σ _) pairs σ

end Kept

/-! ## RTP -/

/-- RTP that has arrived at `t` may have ended the hold of `r`. -/
structure Resumed (t : Int) (r : Ref) (σ σ' : VoIpSessions) : Prop where
  created : σ.created ≤ σ'.created
  hold : MayResume (σ.sessions r).hold (σ'.sessions r).hold t

theorem Kept.resumed (h : Kept r σ σ') (hr : r < σ.created) : Resumed t r σ σ' := ⟨h.created, .inl (h.hold hr)⟩

theorem Resumed.moves (h : Resumed t r σ σ') : Moves holds resumes t r σ σ' := ⟨h.created, .inl h.hold⟩

theorem Resumed.trans {σ'' : VoIpSessions} (h : Resumed t r σ σ') (h' : Resumed t r σ' σ'') : Resumed t r σ σ'' := by
  refine ⟨h.created.trans h'.created, ?_⟩
  rcases h.hold with heq | ⟨hon, heq⟩
  · rw [← heq]
    exact h'.hold
  · rcases h'.hold with heq' | ⟨hoff, -⟩
    · exact .inr ⟨hon, heq'.trans heq⟩
    · rw [heq] at hoff
      cases hoff

theorem Resumed.kept {σ'' : VoIpSessions} (h : Resumed t r σ σ') (hr : r < σ.created) (hk : Kept r σ' σ'') :
    Resumed t r σ σ'' := h.trans (hk.resumed (hr.trans_le h.created))

theorem giveRtpPacket_hold (cfg : VoIpConfig) (hr : r < σ.created) (found : Option Ref) (p : RtpPacketInfo)
    (now : Int) :
    let g := σ.giveRtpPacket cfg found p now
    Resumed p.arrivalTimestamp r σ g.1 ∧ g.2.1.arrivalTimestamp = p.arrivalTimestamp := by
  cases found with
  | none => exact ⟨(Kept.refl r σ).resumed hr, rfl⟩
  | some x =>
    obtain ⟨t, hpacket⟩ := addRtpPacket_packet (σ.sessions x).toVoIpCall cfg σ.directory p now
    generalize ha : (σ.sessions x).addRtpPacket cfg σ.directory p now = a at hpacket
    have harrival : a.packet.arrivalTimestamp = p.arrivalTimestamp := by rw [hpacket]
    have htaken : Resumed p.arrivalTimestamp r σ (σ.taken x a) := by
      refine ⟨le_rfl, ?_⟩
      by_cases hxr : r = x
      · subst hxr
        rw [taken_call, if_pos rfl, ← ha]
        exact addRtpPacket_hold
      · rw [taken_call, if_neg hxr]
        exact .inl rfl
    cases hok : a.ok with
    | true =>
      rw [giveRtpPacket_ok ha hok]
      exact ⟨htaken, harrival⟩
    | false =>
      rw [giveRtpPacket_rejected ha hok]
      exact ⟨htaken.kept hr (.stop _ cfg x now), harrival⟩

namespace Kept

theorem track (σ : VoIpSessions) (cfg : VoIpConfig) (x : Ref) (tracked : Bool) (p : RtpPacketInfo) (now : Int) :
    Kept r σ (σ.track cfg x tracked p now) := by
  have hsecond : Kept r σ (σ.trackSecond cfg x tracked p now) := by
    unfold trackSecond
    split
    · split <;> exact setMediaAddress σ cfg x _ _ now
    · exact refl r σ
  unfold VoIpSessions.track
  refine hsecond.trans ?_
  unfold trackFirst
  split
  · split
    · exact setMediaAddress _ cfg x _ _ now
    · exact refl r _
  · exact refl r _

theorem merge (σ : VoIpSessions) (cfg : VoIpConfig) (r1 r2 : Ref) (p : RtpPacketInfo) (now : Int) :
    Kept r σ (σ.merge cfg r1 r2 p now) := by
  unfold VoIpSessions.merge
  split
  · unfold takeOver
    repeat' split
    all_goals first | exact refl r σ | exact of_sessions rfl rfl
  · exact stop σ cfg _ now

theorem skinnyFind {p : RtpPacketInfo} (h : σ.skinnyFind cfg p now = some σ') : Kept r σ σ' := by
  unfold VoIpSessions.skinnyFind at h
  split at h
  · cases h
  split at h
  · unfold skinnyFindMostLikelySessionForRtp at h
    obtain ⟨⟨ep, srcmatch⟩, -, h⟩ := Option.bind_eq_some_iff.mp h
    dsimp only at h
    split at h
    · cases h
    obtain ⟨x, -, h⟩ := Option.bind_eq_some_iff.mp h
    split at h
    · cases h
    obtain rfl := Option.some.inj h
    have hport : Kept r σ (σ.updateCall x fun c => { c with endPointSignallingPort := ep.skinnyPort }) :=
      updateCall σ x fun _ => rfl
    split
    · exact hport.trans (setMediaAddress _ cfg x _ _ now)
    · exact hport.trans (setMediaAddress _ cfg x _ _ now)
  · unfold skinnyFindMostLikelySessionForRtpBehindNat at h
    split at h
    · split at h
      · cases h
      · split at h
        · obtain rfl := Option.some.inj h
          exact setMediaAddress σ cfg _ _ _ now
        · obtain rfl := Option.some.inj h
          exact setMediaAddress σ cfg _ _ _ now
    · cases h

theorem createByRtp (hr : r < σ.created) (p : RtpPacketInfo) (now : Int) : Kept r σ (σ.createByRtp cfg p now) := by
  have hcreate := create (r := r) σ cfg now
  unfold VoIpSessions.createByRtp
  dsimp only
  generalize σ.create cfg now = σ₁ at hcreate ⊢
  refine (((hcreate.trans (updateCall_ne σ₁ _ hr.ne)).trans (setMediaAddress _ cfg _ _ _ now)).trans
    (updateCall_ne _ _ hr.ne)).trans (directory _ _)

end Kept

theorem giveAtDestination_hold (cfg : VoIpConfig) (hr : r < σ.created) (session1 : Option Ref) (n1 : Nat)
    (p : RtpPacketInfo) (now : Int) :
    Resumed p.arrivalTimestamp r σ (σ.giveAtDestination cfg session1 n1 p now) := by
  unfold giveAtDestination
  dsimp only
  generalize σ.findByMediaAddress cfg p.destIp p.destPort = session2
  have h := (giveRtpPacket_hold cfg hr session2 p now).1
  generalize σ.giveRtpPacket cfg session2 p now = g at h ⊢
  obtain ⟨σ₂, p₂, n₂⟩ := g
  dsimp only at h ⊢
  split
  · split
    · split
      · exact h.kept hr (.merge σ₂ cfg _ _ p₂ now)
      · exact h
    · exact h
  split
  · split
    · exact h.kept hr (.track σ₂ cfg _ _ p₂ now)
    · exact h
  split
  · cases hfind : σ₂.skinnyFind cfg p₂ now with
    | some σ' => exact h.kept hr (.skinnyFind hfind)
    | none => exact h.kept hr (.createByRtp (hr.trans_le h.created) p₂ now)
  · exact h

theorem reportRtpPacket_hold (cfg : VoIpConfig) (p : RtpPacketInfo) (now : Int) (hr : r < σ.created) :
    Resumed p.arrivalTimestamp r σ (σ.reportRtpPacket cfg p now) := by
  have hsangoma : (sangoma cfg p).arrivalTimestamp = p.arrivalTimestamp := by
    unfold sangoma
    split
    · dsimp only
      split <;> split <;> rfl
    · rfl
  unfold reportRtpPacket
  dsimp only
  generalize σ.findByMediaAddress cfg (sangoma cfg p).sourceIp (sangoma cfg p).sourcePort = session1
  have h := giveRtpPacket_hold cfg hr session1 (sangoma cfg p) now
  generalize σ.giveRtpPacket cfg session1 (sangoma cfg p) now = g at h ⊢
  obtain ⟨σ₁, p₁, n₁⟩ := g
  obtain ⟨hm, harrival⟩ := h
  dsimp only at hm harrival ⊢
  have hdest := giveAtDestination_hold cfg (hr.trans_le hm.created) session1 n₁ p₁ now
  rw [harrival, hsangoma] at hdest
  rw [hsangoma] at hm
  exact hm.trans hdest

/-! ## A step -/

/-- The session that is told of a hold. -/
def holdReport (σ : VoIpSessions) (cfg : VoIpConfig) : Op → Option Ref
  | .sipInvite invite =>
    if invite.toSipInvite.attrSendonly then σ.inviteSession cfg invite.toSipInvite else none
  | .skinnyCallStateMessage m h =>
    if m.callState = 8 ∧ ¬ cfg.skinnyIgnoreHold then
      σ.byCallId[generateSkinnyCallId cfg h.ipDest h.tcpDest m.callId]?
    else none
  | .skinnySoftKeyHold id h =>
    if cfg.skinnyIgnoreHold then none
    else σ.byCallId[generateSkinnyCallId cfg h.ipSrc h.tcpSource id]?
  | _ => none

/-- The session that is told of the end of a hold, on hold or not. -/
def resumeReport (σ : VoIpSessions) (cfg : VoIpConfig) : Op → Option Ref
  | .skinnySoftKeyResume id h => σ.byCallId[generateSkinnyCallId cfg h.ipSrc h.tcpSource id]?
  | _ => none

/-- The time a report gives to a hold, in seconds. -/
def reportTime : Int × Op → Int
  | (_, .sipInvite invite) => invite.toSipInvite.recvTime
  | (_, .rtpPacket p) => p.arrivalTimestamp
  | (now, _) => sec now

theorem moves_reportSipInvite (invite : SipInvite) (now : Int) (hr : r < σ.created) :
    Moves ((if invite.attrSendonly then σ.inviteSession cfg invite else none) = some r) resumes invite.recvTime r σ
      (σ.reportSipInvite cfg invite now) := by
  refine (moves_sipInvite invite now hr).imp ?_
  rintro ⟨hsend, hsession⟩
  rw [if_pos hsend, hsession]

theorem moves_callStateMessage (m : SkCallStateMessage) (h : SkinnyHeaders) (now : Int) (hr : r < σ.created) :
    Moves (σ.holdReport cfg (.skinnyCallStateMessage m h) = some r) resumes (sec now) r σ
      (σ.reportSkinnyCallStateMessage cfg m h now) := by
  simp only [reportSkinnyCallStateMessage, holdReport]
  cases hfound : σ.byCallId[generateSkinnyCallId cfg h.ipDest h.tcpDest m.callId]? with
  | none => exact (Kept.refl r σ).moves hr
  | some x =>
    dsimp only
    unfold VoIpCall.reportSkinnyCallStateMessage
    by_cases hstate : m.callState = 8 ∧ ¬ cfg.skinnyIgnoreHold
    · simp only [if_pos hstate]
      exact moves_goOnHold hr fun hx => hx ▸ rfl
    · simp only [if_neg hstate]
      exact (Kept.updateCall σ x fun _ => rfl).moves hr

theorem moves_softKeyHold (id : UInt32) (h : SkinnyHeaders) (now : Int) (hr : r < σ.created) :
    Moves (σ.holdReport cfg (.skinnySoftKeyHold id h) = some r) resumes (sec now) r σ
      (σ.reportSkinnySoftKeyHold cfg id h now) := by
  simp only [reportSkinnySoftKeyHold, holdReport]
  by_cases hignore : cfg.skinnyIgnoreHold
  · rw [if_pos hignore, if_pos hignore]
    exact (Kept.refl r σ).moves hr
  rw [if_neg hignore, if_neg hignore]
  cases hfound : σ.byCallId[generateSkinnyCallId cfg h.ipSrc h.tcpSource id]? with
  | none => exact (Kept.refl r σ).moves hr
  | some x => exact moves_goOnHold hr fun hx => hx ▸ rfl

theorem moves_softKeyResume (id : UInt32) (h : SkinnyHeaders) (now : Int) (hr : r < σ.created) :
    Moves holds (σ.resumeReport cfg (.skinnySoftKeyResume id h) = some r) (sec now) r σ
      (σ.reportSkinnySoftKeyResume cfg id h now) := by
  simp only [reportSkinnySoftKeyResume, resumeReport]
  cases hfound : σ.byCallId[generateSkinnyCallId cfg h.ipSrc h.tcpSource id]? with
  | none => exact (Kept.refl r σ).moves hr
  | some x => exact moves_goOffHold (fun _ => rfl) hr fun hx => .inr (hx ▸ rfl)

/-- What a step does to the hold of a session. -/
theorem step_hold (cfg : VoIpConfig) (hr : r < σ.created) (x : Int × Op) :
    Moves (σ.holdReport cfg x.2 = some r) (σ.resumeReport cfg x.2 = some r) (reportTime x) r σ (step cfg σ x) := by
  obtain ⟨now, op⟩ := x
  cases op with
  | sipInvite invite => exact moves_reportSipInvite invite.toSipInvite now hr
  | sipSubscribe callId => exact (Kept.reportSipSubscribe σ callId).moves hr
  | sipErrorPacket info => exact (Kept.reportSipErrorPacket σ cfg info now).moves hr
  | sipSessionProgress info => exact (Kept.reportSipSessionProgress σ cfg info now).moves hr
  | sip302MovedTemporarily info => exact (Kept.directory σ _).moves hr
  | sip200Ok info => exact (Kept.reportSip200Ok σ cfg info now).moves hr
  | sipBye bye => exact (Kept.reportSipBye σ cfg bye now).moves hr
  | sipNotify notify => exact (Kept.reportSipNotify σ cfg notify).moves hr
  | sipInfo info => exact (Kept.reportSipInfo σ cfg info).moves hr
  | sipRefer info => exact (Kept.reportSipRefer σ info).moves hr
  | skinnyCallInfo callInfo h => exact (Kept.reportSkinnyCallInfo hr callInfo h now).moves hr
  | skinnyCallStateMessage m h => exact moves_callStateMessage m h now hr
  | skinnyOpenReceiveChannelAck m h => exact (Kept.reportSkinnyOpenReceiveChannelAck hr m h now).moves hr
  | skinnyStartMediaTransmission m h => exact (Kept.reportSkinnyMedia hr ..).moves hr
  | skinnyStopMediaTransmission m h => exact (Kept.reportSkinnyStopMediaTransmission σ cfg m h now).moves hr
  | skinnyLineStat number h => exact (Kept.reportSkinnyLineStat σ cfg number h).moves hr
  | skinnySoftKeyHold id h => exact moves_softKeyHold id h now hr
  | skinnySoftKeyResume id h => exact moves_softKeyResume id h now hr
  | skinnySoftKeyConfPressed ip h => exact (Kept.reportSkinnySoftKeyConfPressed σ cfg ip h now).moves hr
  | skinnySoftKeySetConfConnected ip h => exact (Kept.reportSkinnySoftKeySetConfConnected σ cfg ip h now).moves hr
  | skinnySoftKeySetTransfConnected id h =>
    exact (Kept.reportSkinnySoftKeySetTransfConnected σ cfg id h now).moves hr
  | rtpPacket p => exact (reportRtpPacket_hold cfg p now hr).moves
  | rtcpSrcDescription info => exact (Kept.reportRtcpSrcDescription σ cfg info).moves hr
  | hoover t => exact (Kept.hoover σ cfg t now).moves hr
  | stopAll => exact (Kept.hoover σ cfg _ now).moves hr
  | startCapture party => exact (Kept.startCaptureOf σ _).moves hr
  | startCaptureOrkuid orkuid => exact (Kept.startCaptureOf σ _).moves hr
  | startCaptureNativeCallId callid => exact (Kept.startCaptureOf σ _).moves hr
  | pauseCapture party => exact (Kept.pauseCaptureOf σ _).moves hr
  | pauseCaptureOrkuid orkuid => exact (Kept.pauseCaptureOf σ _).moves hr
  | pauseCaptureNativeCallId callid => exact (Kept.pauseCaptureOf σ _).moves hr
  | stopCapture party => exact (Kept.stopCaptureOf hr _ now).moves hr
  | stopCaptureOrkuid orkuid => exact (Kept.stopCaptureOf hr _ now).moves hr
  | stopCaptureNativeCallId callid => exact (Kept.stopCaptureOf hr _ now).moves hr
  | onDemandMarkerByIp ip => exact (Kept.reportOnDemandMarkerByIp σ ip).moves hr
  | urlExtraction pairs ip => exact (Kept.storeExtracted σ cfg pairs ip now).moves hr
  | saveLocalPartyMap oldparty newparty => exact (Kept.directory σ _).moves hr
  | clearLocalPartyMap => exact (Kept.directory σ _).moves hr
  | saveSkinnyGlobalNumbersList number => exact (Kept.directory σ _).moves hr

end VoIpSessions

end Oreka.VoIp
