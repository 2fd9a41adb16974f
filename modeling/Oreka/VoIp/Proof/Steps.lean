import Oreka.VoIp.Proof.Routes

/-!
# Each operation keeps the tables in order

For each operation of `VoIpSessions`, that it keeps `RoutesOk`. Two need a condition: a packet that
makes `ReportRtpPacket` map a session it has just stopped breaks the part of `RoutesOk` about stopped
sessions, and a `StopCapture` of a session without a call id the part about the empty call id.
`RoutesOk.step` puts the operations together.
-/

open Std KeyedMap

namespace Oreka.VoIp

namespace VoIpSessions

variable {cfg : VoIpConfig} {strict live : Prop} {σ τ : VoIpSessions} {r : Ref} {now : Int}

/-! ## What a lookup finds is in a map -/

theorem mem_onMedia : r ∈ σ.onMedia ↔ ∃ k : UInt64, σ.byIpAndPort[k]? = some r := by
  simp only [onMedia, List.mem_map, Prod.exists, TreeMap.mem_toList_iff_getElem?_eq_some]
  exact ⟨fun ⟨k, _, h, e⟩ => ⟨k, e ▸ h⟩, fun ⟨k, h⟩ => ⟨k, r, h, rfl⟩⟩

theorem mem_onCallIds : r ∈ σ.onCallIds ↔ ∃ c : String, σ.byCallId[c]? = some r := by
  simp only [onCallIds, List.mem_map, Prod.exists, TreeMap.mem_toList_iff_getElem?_eq_some]
  exact ⟨fun ⟨c, _, h, e⟩ => ⟨c, e ▸ h⟩, fun ⟨c, h⟩ => ⟨c, r, h, rfl⟩⟩

/-- A search over a list keeps, at each element, what it has found or takes the element. -/
theorem mem_of_foldl {β : Type} (found : β → Option Ref) {f : β → Ref → β}
    (hf : ∀ b x, found (f b x) = found b ∨ found (f b x) = some x) (l : List Ref) (b : β)
    (h : found (l.foldl f b) = some r) : found b = some r ∨ r ∈ l := by
  induction l generalizing b with
  | nil => exact .inl h
  | cons x l ih =>
    rcases ih (f b x) h with h | h
    · rcases hf b x with hx | hx
      · exact .inl (hx ▸ h)
      · rw [hx] at h
        cases h
        exact .inr List.mem_cons_self
    · exact .inr (List.mem_cons_of_mem x h)

theorem mem_of_newestRtp {ip : InAddr} (h : σ.findNewestRtpByEndpointIp ip = some r) :
    r ∈ σ.onMedia := by
  refine (mem_of_foldl Prod.fst (fun found x => ?_) σ.onMedia (none, 0) h).resolve_left nofun
  split
  · exact .inl rfl
  · split
    · split
      · exact .inr rfl
      · exact .inl rfl
    · exact .inr rfl

theorem mem_of_mostRecentBehindNat {p : RtpPacketInfo}
    (h : (σ.mostRecentBehindNat p now).1 = some r) : r ∈ σ.onCallIds := by
  refine (mem_of_foldl Prod.fst (fun found x => ?_) σ.onCallIds (none, now) h).resolve_left nofun
  dsimp only
  split
  · exact .inr rfl
  · exact .inl rfl

theorem mem_of_newest {time : VoIpCall → Int} {rs : List Ref} (h : σ.newest time rs = some r) :
    r ∈ rs := by
  refine (mem_of_foldl id (fun found x => ?_) rs none h).resolve_left nofun
  cases found with
  | none => exact .inr rfl
  | some f =>
    dsimp only [id]
    split
    · exact .inr rfl
    · exact .inl rfl

theorem mem_of_findNewestByEndpoint {ip : InAddr} {port : UInt16}
    (h : σ.findNewestByEndpoint cfg ip port = some r) : r ∈ σ.onCallIds :=
  (List.mem_filter.1 (mem_of_newest h)).1

theorem mem_of_findByEndpointIp {ip : InAddr} {id : UInt32}
    (h : σ.findByEndpointIp ip id = some r) : r ∈ σ.onCallIds :=
  List.mem_of_find?_eq_some h

theorem mem_of_findCapture {which : VoIpSession → Bool} (h : σ.findCapture which = some r) :
    r ∈ σ.onMedia :=
  List.mem_of_find?_eq_some h

theorem mem_of_findByStopMedia {m : SkStopMediaTransmission} {h : SkinnyHeaders}
    (hr : σ.findByStopMedia cfg m h = some r) : r ∈ σ.onCallIds := by
  unfold findByStopMedia at hr
  dsimp only at hr
  split at hr
  · rename_i x hx
    cases hr
    split at hx
    · exact mem_onCallIds.2 ⟨_, hx⟩
    · cases hx
  · split at hr
    · exact mem_of_findByEndpointIp hr
    · cases hr

/-! ## The packets that map a stopped session -/

/-- The session at a packet's destination rejects the packet, after the session at its source has
taken it: what it then knows of its call. -/
def lateReject (σ : VoIpSessions) (cfg : VoIpConfig) (rtpPacket : RtpPacketInfo) (now : Int) :
    Option VoIpCall :=
  let p := sangoma cfg rtpPacket
  match σ.findByMediaAddress cfg p.sourceIp p.sourcePort,
      σ.findByMediaAddress cfg p.destIp p.destPort with
  | some r1, some r2 =>
    let a := (σ.sessions r1).addRtpPacket cfg σ.directory p now
    let c := if r2 = r1 then a.call else (σ.sessions r2).toVoIpCall
    let b := c.addRtpPacket cfg a.directory a.packet now
    if a.ok ∧ ¬ b.ok then some b.call else none
  | _, _ => none

/-- The packet is rejected late, and an address of it is then tracked for the session just stopped. -/
def remapsStopped (σ : VoIpSessions) (cfg : VoIpConfig) (p : RtpPacketInfo) (now : Int) : Bool :=
  (σ.lateReject cfg p now).any fun c =>
    cfg.mediaAddressUseSecondRtpAddress ||
      (c.numRtpPackets = 1 && c.protocol = .sip && (trackingAddress cfg (sangoma cfg p)).isSome)

/-- `AddRtpPacket` changes nothing of the packet but its payload type. -/
theorem addRtpPacket_packet (c : VoIpCall) (cfg : VoIpConfig) (d : Directory) (p : RtpPacketInfo)
    (now : Int) : ∃ t, (c.addRtpPacket cfg d p now).packet = { p with payloadType := t } := by
  have hmark (c : VoIpCall) : ∃ t, c.markSpeex cfg p = { p with payloadType := t } := by
    unfold VoIpCall.markSpeex
    split <;> exact ⟨_, rfl⟩
  have hplace (c : VoIpCall) (d : Directory) :
      ∃ t, (c.placePacket cfg d p now).packet = { p with payloadType := t } := by
    unfold VoIpCall.placePacket
    dsimp only
    split
    · exact ⟨_, rfl⟩
    · exact ⟨_, rfl⟩
    · exact hmark _
  unfold VoIpCall.addRtpPacket
  dsimp only
  split
  · split <;> exact ⟨_, rfl⟩
  · split
    · exact ⟨_, rfl⟩
    · -- the session may have been started first
      split
      all_goals
        split
        · exact ⟨_, rfl⟩
        · split
          · exact ⟨_, rfl⟩
          · exact hplace _ _

theorem trackingAddress_addRtpPacket (c : VoIpCall) (cfg : VoIpConfig) (d : Directory)
    (p : RtpPacketInfo) (now : Int) :
    trackingAddress cfg (c.addRtpPacket cfg d p now).packet = trackingAddress cfg p := by
  obtain ⟨t, ht⟩ := addRtpPacket_packet c cfg d p now
  rw [ht]
  rfl

/-- The state with what `AddRtpPacket` has left of a session. -/
def taken (σ : VoIpSessions) (r : Ref) (a : VoIpCall.Added) : VoIpSessions :=
  { σ.updateCall r (fun _ => a.call) with directory := a.directory }

theorem sameRoutes_taken (σ : VoIpSessions) (r : Ref) (a : VoIpCall.Added) :
    SameRoutes σ (σ.taken r a) :=
  (sameRoutes_updateCall σ r _).trans (sameRoutes_directory _ _)

theorem giveRtpPacket_ok {p : RtpPacketInfo} {a : VoIpCall.Added}
    (ha : (σ.sessions r).addRtpPacket cfg σ.directory p now = a) (hok : a.ok = true) :
    σ.giveRtpPacket cfg (some r) p now = (σ.taken r a, a.packet, 1) := by
  subst ha
  exact if_pos hok

theorem giveRtpPacket_rejected {p : RtpPacketInfo} {a : VoIpCall.Added}
    (ha : (σ.sessions r).addRtpPacket cfg σ.directory p now = a) (hok : a.ok = false) :
    σ.giveRtpPacket cfg (some r) p now = ((σ.taken r a).stop cfg r now, a.packet, 0) := by
  subst ha
  exact if_neg (by simp [hok])

theorem taken_call (σ : VoIpSessions) (r x : Ref) (a : VoIpCall.Added) :
    ((σ.taken r a).sessions x).toVoIpCall =
      if x = r then a.call else (σ.sessions x).toVoIpCall := by
  unfold taken
  by_cases hx : x = r
  · subst hx
    rw [if_pos rfl]
    simp only [updateCall_self]
  · rw [if_neg hx]
    simp only [updateCall_ne σ _ hx]

namespace RoutesOk

theorem of_onMedia (h : RoutesOk cfg strict live σ) (hr : r ∈ σ.onMedia) : Mappable live σ r := by
  obtain ⟨k, hk⟩ := mem_onMedia.1 hr
  exact (h.media k r hk).mappable

theorem of_onCallIds (h : RoutesOk cfg strict live σ) (hr : r ∈ σ.onCallIds) :
    Mappable live σ r := by
  obtain ⟨c, hc⟩ := mem_onCallIds.1 hr
  exact (h.callIds c r hc).mappable

/-! ## SIP -/

theorem sameRoutes_pickUp (σ : VoIpSessions) (cfg : VoIpConfig) (r : Ref) (id : String) :
    SameRoutes σ (σ.trySessionCallPickUp cfg r id) := by
  unfold trySessionCallPickUp
  split
  · exact (sameRoutes_updateCall σ r _).trans (sameRoutes_sipSubscribeMap _ _)
  · exact .refl σ

theorem sameRoutes_takePreInviteNotify (σ : VoIpSessions) (cfg : VoIpConfig) (i : SipInvite) :
    SameRoutes σ (σ.takePreInviteNotify cfg i).1 := by
  unfold takePreInviteNotify
  split
  · split
    · split
      · exact sameRoutes_directory σ _
      · exact .refl σ
    · exact .refl σ
  · exact .refl σ

theorem sameRoutes_giveInvite (σ : VoIpSessions) (cfg : VoIpConfig) (r : Ref) (i : SipInvite) :
    SameRoutes σ (σ.giveInvite cfg r i) := by
  unfold VoIpSessions.giveInvite
  exact (sameRoutes_pickUp σ cfg r i.replacesId).trans (sameRoutes_updateCall _ r _)

theorem setInviteMediaAddress (hls : live → strict) (h : RoutesOk cfg strict live σ)
    (hr : Mappable live σ r) (i : SipInvite) (port : UInt16) (now : Int) :
    RoutesOk cfg strict live (σ.setInviteMediaAddress cfg r i port now) ∧
      Mappable live (σ.setInviteMediaAddress cfg r i port now) r ∧
      ((σ.setInviteMediaAddress cfg r i port now).sessions r).callId = (σ.sessions r).callId := by
  have h' := h.setMediaAddress hls hr i.fromRtpIp port now
  have hr' : Mappable live (σ.setMediaAddress cfg r i.fromRtpIp port now) r :=
    hr.setMediaAddress i.fromRtpIp port now
  have hid := setMediaAddress_callId σ cfg r i.fromRtpIp port now
  unfold VoIpSessions.setInviteMediaAddress
  dsimp only
  split
  · exact ⟨h'.setMediaAddress hls hr' _ _ _, hr'.setMediaAddress _ _ _,
      (setMediaAddress_callId ..).trans hid⟩
  · exact ⟨h', hr', hid⟩

theorem holdByInvite (hls : live → strict) (h : RoutesOk cfg strict live σ)
    (hr : Mappable live σ r) {i : SipInvite} {port : UInt16}
    (hτ : σ.holdByInvite cfg r i port now = some τ) : RoutesOk cfg strict live τ := by
  unfold VoIpSessions.holdByInvite at hτ
  split at hτ
  · cases hτ
    exact h.updateCall r _
  · split at hτ
    · cases hτ
      have hs := sameRoutes_updateCall σ r
        fun c => { c.goOffHold i.recvTime with lastUpdated := sec now }
      exact (h.same hs).setMediaAddress hls (hr.same hs) _ _ _
    · cases hτ

theorem createByInvite (hls : live → strict) (h : RoutesOk cfg strict live σ) {i : SipInvite}
    (hi : i.callId ≠ "") (port : UInt16) (now : Int) :
    RoutesOk cfg strict live (σ.createByInvite cfg i port now) := by
  have hs := sameRoutes_pickUp (σ.create cfg now) cfg σ.created i.replacesId
  have hr : Mappable live ((σ.create cfg now).trySessionCallPickUp cfg σ.created i.replacesId)
      σ.created := (h.mappable_create now).same hs
  have hempty : (((σ.create cfg now).trySessionCallPickUp cfg σ.created i.replacesId).sessions
      σ.created).callId = "" := by
    rw [(hs.keys _).callId, create_self]
    rfl
  have h1 := (h.create now).same hs
  unfold VoIpSessions.createByInvite
  dsimp only
  set τ := (σ.create cfg now).trySessionCallPickUp cfg σ.created i.replacesId with hτ
  have h2 := h1.name hempty
    { (τ.sessions σ.created).toVoIpCall with protocol := .sip, sipDialedNumber := i.sipDialedNumber }
    i.callId
  have hr2 : Mappable live (τ.setSession σ.created { τ.sessions σ.created with
      callId := i.callId, protocol := .sip, sipDialedNumber := i.sipDialedNumber }) σ.created :=
    ⟨hr.lt, hr.live⟩
  set υ := τ.setSession σ.created { τ.sessions σ.created with
      callId := i.callId, protocol := .sip, sipDialedNumber := i.sipDialedNumber } with hυ
  have hid : (υ.sessions σ.created).callId = i.callId := by rw [hυ, setSession_self]
  have hs3 := (sameRoutes_takePreInviteNotify υ cfg i).trans
    (sameRoutes_updateCall (υ.takePreInviteNotify cfg i).1 σ.created fun c =>
      { c.reportSipInvite cfg (υ.takePreInviteNotify cfg i).1.directory
        (υ.takePreInviteNotify cfg i).2 with sipLastInvite := now })
  obtain ⟨h4, hr4, hid4⟩ := (h2.same hs3).setInviteMediaAddress hls (hr2.same hs3)
    (υ.takePreInviteNotify cfg i).2 port now
  refine h4.insertCallId hr4 fun _ => ?_
  rw [hid4, (hs3.keys _).callId, hid]
  exact hi

theorem reportSipInviteByCallId (hls : live → strict) (h : RoutesOk cfg strict live σ)
    {i : SipInvite} (hi : i.callId ≠ "") (port : UInt16) (key : UInt64) (now : Int) :
    RoutesOk cfg strict live (σ.reportSipInviteByCallId cfg i port key now) := by
  unfold VoIpSessions.reportSipInviteByCallId
  split
  · rename_i r hr
    have hm := (h.callIds _ r hr).mappable
    split
    · rename_i τ hτ
      exact h.holdByInvite hls hm hτ
    · dsimp only
      split
      · exact (h.setInviteMediaAddress hls hm i port now).1.same (sameRoutes_giveInvite ..)
      · exact h.same (sameRoutes_giveInvite ..)
  · exact h.createByInvite hls hi port now

theorem reportSipInvite (hls : live → strict) (h : RoutesOk cfg strict live σ) {i : SipInvite}
    (hi : i.callId ≠ "") (now : Int) : RoutesOk cfg strict live (σ.reportSipInvite cfg i now) := by
  unfold VoIpSessions.reportSipInvite
  dsimp only
  split
  · exact h
  · split
    · exact h.reportSipInviteByCallId hls hi _ _ now
    · rename_i r hr
      split
      · exact h.reportSipInviteByCallId hls hi _ _ now
      · split
        · exact (h.updateCall r _).reportSipInviteByCallId hls hi _ _ now
        · split
          · rename_i τ hτ
            exact h.holdByInvite hls (h.media _ r hr).mappable hτ
          · exact h.same (sameRoutes_giveInvite ..)

theorem reportSipErrorPacket (hls : live → strict) (h : RoutesOk cfg strict live σ)
    (info : SipFailureMessageInfo) (now : Int) :
    RoutesOk cfg strict live (σ.reportSipErrorPacket cfg info now) := by
  unfold VoIpSessions.reportSipErrorPacket
  split
  · rename_i r hr
    split
    · exact h
    · exact h.stop hls (h.callIds _ r hr).lt now
  · exact h

theorem reportSipSessionProgress (hls : live → strict) (h : RoutesOk cfg strict live σ)
    (info : SipSessionProgressInfo) (now : Int) :
    RoutesOk cfg strict live (σ.reportSipSessionProgress cfg info now) := by
  unfold VoIpSessions.reportSipSessionProgress
  split
  · rename_i r hr
    have hm := (h.callIds _ r hr).mappable
    have h' := h.setMediaAddress hls hm info.mediaIp (.ofInt (atoi info.mediaPort)) now
    dsimp only
    split
    · exact h'.setMediaAddress hls (hm.setMediaAddress _ _ _) _ _ _
    · exact h'
  · exact h

theorem reportSip200Ok (hls : live → strict) (h : RoutesOk cfg strict live σ)
    (info : Sip200OkInfo) (now : Int) :
    RoutesOk cfg strict live (σ.reportSip200Ok cfg info now) := by
  unfold VoIpSessions.reportSip200Ok
  split
  · rename_i r hr
    split
    · exact h.setMediaAddress hls (h.callIds _ r hr).mappable _ _ _
    · exact h
  · exact h

theorem reportSipBye (hls : live → strict) (h : RoutesOk cfg strict live σ) (bye : SipByeInfo)
    (now : Int) : RoutesOk cfg strict live (σ.reportSipBye cfg bye now) := by
  unfold VoIpSessions.reportSipBye
  split
  · rename_i r hr
    exact (h.updateCall r _).stop hls (h.callIds _ r hr).lt now
  · exact h

theorem sameRoutes_reportSipNotify (σ : VoIpSessions) (cfg : VoIpConfig) (notify : SipNotifyInfo) :
    SameRoutes σ (σ.reportSipNotify cfg notify) := by
  unfold reportSipNotify
  extract_lets session dsp
  clear_value session
  split
  · exact ⟨rfl, rfl, rfl, rfl, fun _ => ⟨rfl, rfl, rfl⟩⟩
  · split
    · exact .refl σ
    · split
      · exact sameRoutes_updateCall ..
      · exact sameRoutes_directory σ _

theorem sameRoutes_reportSipInfo (σ : VoIpSessions) (cfg : VoIpConfig) (info : SipInfo) :
    SameRoutes σ (σ.reportSipInfo cfg info) := by
  unfold reportSipInfo
  split
  · exact sameRoutes_updateCall ..
  · exact .refl σ

theorem sameRoutes_reportSipRefer (σ : VoIpSessions) (info : SipRefer) :
    SameRoutes σ (σ.reportSipRefer info) := by
  unfold reportSipRefer
  split
  · exact sameRoutes_sipReferList σ _
  · exact .refl σ

/-! ## Skinny -/

theorem lateCallInfo (h : RoutesOk cfg strict live σ) (hr : Mappable live σ r)
    (hempty : (σ.sessions r).callId = "") {callId : String} (hid : callId ≠ "")
    (callInfo : SkCallInfo) (hd : SkinnyHeaders) (now : Int) :
    RoutesOk cfg strict live (σ.lateCallInfo cfg r callId callInfo hd now) := by
  unfold VoIpSessions.lateCallInfo
  dsimp only
  refine (h.name hempty _ callId).insertCallId ⟨hr.lt, hr.live⟩ fun _ => ?_
  rw [setSession_self]
  exact hid

/-- The session that a CallInfo stops is not the one it has just created, which has no RTP. -/
theorem stopPrevious (hls : live → strict) (h : RoutesOk cfg strict live σ)
    (hr : Mappable live σ r) (hnot : r ∉ σ.onMedia) (ip : InAddr) (now : Int) :
    RoutesOk cfg strict live (σ.stopPrevious cfg ip now) ∧
      Mappable live (σ.stopPrevious cfg ip now) r ∧
      ((σ.stopPrevious cfg ip now).sessions r).callId = (σ.sessions r).callId := by
  unfold VoIpSessions.stopPrevious
  split
  · rename_i x hx
    have hmem := mem_of_newestRtp hx
    have hne : r ≠ x := fun e => hnot (e ▸ hmem)
    split
    · refine ⟨h.stop hls (h.of_onMedia hmem).lt now, hr.stop hne, ?_⟩
      rw [(stop_spec σ cfg x now).sessions_ne r hne]
    · exact ⟨h, hr, rfl⟩
  · exact ⟨h, hr, rfl⟩

theorem createByCallInfo (hls : live → strict) (h : RoutesOk cfg strict live σ) {callId : String}
    (hid : callId ≠ "") (callInfo : SkCallInfo) (hd : SkinnyHeaders) (now : Int) :
    RoutesOk cfg strict live (σ.createByCallInfo cfg callId callInfo hd now) := by
  have hempty : ((σ.create cfg now).sessions σ.created).callId = "" := by
    rw [create_self]
    rfl
  have hr : Mappable live (σ.create cfg now) σ.created := h.mappable_create now
  have hnot : σ.created ∉ σ.onMedia := fun hmem =>
    Nat.lt_irrefl _ (h.of_onMedia hmem).lt
  unfold VoIpSessions.createByCallInfo
  dsimp only
  obtain ⟨h', hr', hid'⟩ := ((h.create now).name hempty _ callId).stopPrevious hls
    ⟨hr.lt, hr.live⟩ hnot hd.ipDest now
  refine h'.insertCallId hr' fun _ => ?_
  rw [hid', setSession_self]
  exact hid

theorem reportSkinnyCallInfo (hls : live → strict) (h : RoutesOk cfg strict live σ)
    (callInfo : SkCallInfo) (hd : SkinnyHeaders) (now : Int) :
    RoutesOk cfg strict live (σ.reportSkinnyCallInfo cfg callInfo hd now) := by
  have h' := h.directory (updateEndpointWithCallInfo σ.directory cfg callInfo hd)
  have hid := generateSkinnyCallId_ne cfg hd.ipDest hd.tcpDest callInfo.callId
  unfold VoIpSessions.reportSkinnyCallInfo
  dsimp only
  split
  · exact h'.updateCall _ _
  · split
    · rename_i r hr
      split
      · rename_i hempty
        exact h'.lateCallInfo (h'.of_onMedia (List.mem_of_find?_eq_some hr)) hempty.2 hid _ _ _
      · exact h'.createByCallInfo hls hid _ _ _
    · exact h'.createByCallInfo hls hid _ _ _

theorem sameRoutes_callStateMessage (σ : VoIpSessions) (cfg : VoIpConfig) (m : SkCallStateMessage)
    (h : SkinnyHeaders) (now : Int) : SameRoutes σ (σ.reportSkinnyCallStateMessage cfg m h now) := by
  unfold reportSkinnyCallStateMessage
  split
  · exact sameRoutes_updateCall ..
  · exact .refl σ

theorem reportSkinnyMedia (hls : live → strict) (h : RoutesOk cfg strict live σ) (ip : InAddr)
    (signallingPort : UInt16) (id : UInt32) (endpoint : Option VoIpEndpointInfo) (mediaIp : InAddr)
    (mediaPort : UInt16) (now : Int) : RoutesOk cfg strict live
      (σ.reportSkinnyMedia cfg ip signallingPort id endpoint mediaIp mediaPort now) := by
  unfold VoIpSessions.reportSkinnyMedia
  split
  · rename_i r hr
    split
    · have hs := sameRoutes_updateCall σ r fun c => { c with skinnyPassThruPartyId := id }
      have hm := h.of_onCallIds (mem_of_findNewestByEndpoint hr)
      exact (h.same hs).setMediaAddress hls (hm.same hs) _ _ _
    · exact h
  · split
    · unfold createByMedia
      dsimp only
      exact ((h.create now).updateCall _ _).setMediaAddress hls
        ((h.mappable_create now).same (sameRoutes_updateCall ..)) _ _ _
    · exact h

theorem reportSkinnyOpenReceiveChannelAck (hls : live → strict) (h : RoutesOk cfg strict live σ)
    (m : SkOpenReceiveChannelAck) (hd : SkinnyHeaders) (now : Int) :
    RoutesOk cfg strict live (σ.reportSkinnyOpenReceiveChannelAck cfg m hd now) := by
  unfold VoIpSessions.reportSkinnyOpenReceiveChannelAck
  split
  · exact h
  · exact h.reportSkinnyMedia hls ..

theorem reportSkinnyStopMediaTransmission (hls : live → strict) (h : RoutesOk cfg strict live σ)
    (m : SkStopMediaTransmission) (hd : SkinnyHeaders) (now : Int) :
    RoutesOk cfg strict live (σ.reportSkinnyStopMediaTransmission cfg m hd now) := by
  unfold VoIpSessions.reportSkinnyStopMediaTransmission
  split
  · exact h
  · split
    · rename_i r hr
      split
      · exact h
      · exact h.stop hls (h.of_onCallIds (mem_of_findByStopMedia hr)).lt now
    · exact h

theorem sameRoutes_reportSkinnyLineStat (σ : VoIpSessions) (cfg : VoIpConfig) (number : String)
    (h : SkinnyHeaders) : SameRoutes σ (σ.reportSkinnyLineStat cfg number h) := by
  unfold reportSkinnyLineStat
  split
  · exact sameRoutes_directory σ _
  · exact .refl σ

theorem sameRoutes_softKeyHold (σ : VoIpSessions) (cfg : VoIpConfig) (id : UInt32)
    (h : SkinnyHeaders) (now : Int) : SameRoutes σ (σ.reportSkinnySoftKeyHold cfg id h now) := by
  unfold reportSkinnySoftKeyHold
  split
  · exact .refl σ
  · split
    · exact sameRoutes_updateCall ..
    · exact .refl σ

theorem sameRoutes_softKeyResume (σ : VoIpSessions) (cfg : VoIpConfig) (id : UInt32)
    (h : SkinnyHeaders) (now : Int) : SameRoutes σ (σ.reportSkinnySoftKeyResume cfg id h now) := by
  unfold reportSkinnySoftKeyResume
  split
  · exact sameRoutes_updateCall ..
  · exact .refl σ

theorem sameRoutes_softKeyConfPressed (σ : VoIpSessions) (cfg : VoIpConfig) (ip : InAddr)
    (h : SkinnyHeaders) (now : Int) :
    SameRoutes σ (σ.reportSkinnySoftKeyConfPressed cfg ip h now) := by
  unfold reportSkinnySoftKeyConfPressed
  split
  · split
    · exact sameRoutes_directory σ _
    · exact .refl σ
  · exact .refl σ

theorem sameRoutes_softKeySetConfConnected (σ : VoIpSessions) (cfg : VoIpConfig) (ip : InAddr)
    (h : SkinnyHeaders) (now : Int) :
    SameRoutes σ (σ.reportSkinnySoftKeySetConfConnected cfg ip h now) := by
  unfold reportSkinnySoftKeySetConfConnected
  split
  · exact sameRoutes_directory σ _
  · exact .refl σ

theorem reportSkinnySoftKeySetTransfConnected (hls : live → strict)
    (h : RoutesOk cfg strict live σ) (id : UInt32) (hd : SkinnyHeaders) (now : Int) :
    RoutesOk cfg strict live (σ.reportSkinnySoftKeySetTransfConnected cfg id hd now) := by
  unfold VoIpSessions.reportSkinnySoftKeySetTransfConnected
  split
  · rename_i r hr
    exact h.stop hls (h.callIds _ r hr).lt now
  · exact h

/-! ## RTP -/

theorem takeOver (h : RoutesOk cfg strict live σ) (r1 r2 : Ref) (p : RtpPacketInfo) :
    RoutesOk cfg strict live (σ.takeOver cfg r1 r2 p) := by
  unfold VoIpSessions.takeOver
  split
  · split
    · exact h.eraseMediaAddress _
    · exact h
  · split
    · exact h.eraseMediaAddress _
    · exact h

theorem mergee_eq (σ : VoIpSessions) (cfg : VoIpConfig) (r1 r2 : Ref) (p : RtpPacketInfo) :
    σ.mergee cfg r1 r2 p = r1 ∨ σ.mergee cfg r1 r2 p = r2 := by
  unfold mergee
  grind

theorem merge (hls : live → strict) (h : RoutesOk cfg strict live σ) {r1 r2 : Ref}
    (h1 : r1 < σ.created) (h2 : r2 < σ.created) (p : RtpPacketInfo) (now : Int) :
    RoutesOk cfg strict live (σ.merge cfg r1 r2 p now) := by
  unfold VoIpSessions.merge
  split
  · exact h.takeOver r1 r2 p
  · refine h.stop hls ?_ now
    rcases mergee_eq σ cfg r1 r2 p with he | he
    · rw [he]
      exact h1
    · rw [he]
      exact h2

theorem trackSecond (hls : live → strict) (h : RoutesOk cfg strict live σ) (hr : Mappable live σ r)
    (b : Bool) (p : RtpPacketInfo) (now : Int) :
    RoutesOk cfg strict live (σ.trackSecond cfg r b p now) ∧
      Mappable live (σ.trackSecond cfg r b p now) r := by
  unfold VoIpSessions.trackSecond
  split
  · split
    · exact ⟨h.setMediaAddress hls hr _ _ _, hr.setMediaAddress _ _ _⟩
    · exact ⟨h.setMediaAddress hls hr _ _ _, hr.setMediaAddress _ _ _⟩
  · exact ⟨h, hr⟩

theorem track (hls : live → strict) (h : RoutesOk cfg strict live σ) (hr : Mappable live σ r)
    (b : Bool) (p : RtpPacketInfo) (now : Int) :
    RoutesOk cfg strict live (σ.track cfg r b p now) := by
  obtain ⟨h', hr'⟩ := h.trackSecond hls hr b p now
  unfold VoIpSessions.track trackFirst
  split
  · split
    · exact h'.setMediaAddress hls hr' _ _ _
    · exact h'
  · exact h'

theorem skinnyFind (hls : live → strict) (h : RoutesOk cfg strict live σ) {p : RtpPacketInfo}
    (hτ : σ.skinnyFind cfg p now = some τ) : RoutesOk cfg strict live τ := by
  unfold VoIpSessions.skinnyFind at hτ
  split at hτ
  · cases hτ
  · split at hτ
    · unfold skinnyFindMostLikelySessionForRtp at hτ
      simp only [bind, Option.bind_eq_some_iff] at hτ
      obtain ⟨⟨ep, srcmatch⟩, _, hτ⟩ := hτ
      dsimp only at hτ
      split at hτ
      · cases hτ
      · rw [Option.bind_eq_some_iff] at hτ
        obtain ⟨r, hr, hτ⟩ := hτ
        split at hτ
        · cases hτ
        · cases hτ
          have hs := sameRoutes_updateCall σ r
            fun c => { c with endPointSignallingPort := ep.skinnyPort }
          have hm := (h.callIds _ r hr).mappable.same hs
          split
          · exact (h.same hs).setMediaAddress hls hm _ _ _
          · exact (h.same hs).setMediaAddress hls hm _ _ _
    · unfold skinnyFindMostLikelySessionForRtpBehindNat at hτ
      split at hτ
      · rename_i r latest hr
        have hm := h.of_onCallIds (mem_of_mostRecentBehindNat (congrArg Prod.fst hr))
        split at hτ
        · cases hτ
        · split at hτ
          · cases hτ
            exact h.setMediaAddress hls hm _ _ _
          · cases hτ
            exact h.setMediaAddress hls hm _ _ _
      · cases hτ

theorem createByRtp (hls : live → strict) (h : RoutesOk cfg strict live σ) (p : RtpPacketInfo)
    (now : Int) : RoutesOk cfg strict live (σ.createByRtp cfg p now) := by
  have hm (f : VoIpCall → VoIpCall) : Mappable live ((σ.create cfg now).updateCall σ.created f)
      σ.created := (h.mappable_create now).same (sameRoutes_updateCall ..)
  unfold VoIpSessions.createByRtp
  dsimp only
  exact ((((h.create now).updateCall σ.created _).setMediaAddress hls (hm _) _ _ _).updateCall
    σ.created _).directory _

/-- A session that was rejected late is not mapped again, unless the packet is as in
`remapsStopped`. -/
theorem track_rejected (σ : VoIpSessions) {p : RtpPacketInfo} {b : Bool}
    (hsecond : cfg.mediaAddressUseSecondRtpAddress = false)
    (hfirst : (σ.sessions r).numRtpPackets = 1 → (σ.sessions r).protocol = .sip →
      trackingAddress cfg p = none) : σ.track cfg r b p now = σ := by
  have hτ : σ.trackSecond cfg r b p now = σ := by
    unfold VoIpSessions.trackSecond
    rw [if_neg (by simp [hsecond])]
  unfold VoIpSessions.track
  rw [hτ]
  unfold trackFirst
  split
  · rename_i hc
    rw [hfirst hc.1 hc.2]
  · rfl

/-- A packet that no session took. -/
theorem unclaimed (hls : live → strict) (h : RoutesOk cfg strict live σ) (p : RtpPacketInfo)
    (now : Int) : RoutesOk cfg strict live
      (if cfg.lookBackRecording ∨ cfg.trackRawRtpSessionInNonLookBackMode then
        (σ.skinnyFind cfg p now).getD (σ.createByRtp cfg p now)
      else σ) := by
  split
  · cases hτ : σ.skinnyFind cfg p now with
    | none => exact h.createByRtp hls p now
    | some τ => exact h.skinnyFind hls hτ
  · exact h

/-- What the session at the destination must not do with the packet where `live`: reject it and then
be tracked. -/
def TracksNoRejected (σ : VoIpSessions) (cfg : VoIpConfig) (p : RtpPacketInfo) (now : Int) : Prop :=
  ∀ r, σ.findByMediaAddress cfg p.destIp p.destPort = some r →
    let b := (σ.sessions r).addRtpPacket cfg σ.directory p now
    b.ok = false → cfg.mediaAddressUseSecondRtpAddress = false ∧
      (b.call.numRtpPackets = 1 → b.call.protocol = .sip → trackingAddress cfg p = none)

/-- The session at the source took the packet. -/
theorem giveAtDestination_one (hls : live → strict) (h : RoutesOk cfg strict live σ) {r1 : Ref}
    (hr1 : Mappable live σ r1) (p : RtpPacketInfo) (now : Int)
    (hlive : live → TracksNoRejected σ cfg p now) :
    RoutesOk cfg strict live (σ.giveAtDestination cfg (some r1) 1 p now) := by
  unfold giveAtDestination
  dsimp only
  cases h2 : σ.findByMediaAddress cfg p.destIp p.destPort with
  | none => exact h.track hls hr1 _ _ _
  | some r2 =>
    obtain ⟨b, hb⟩ : ∃ b, (σ.sessions r2).addRtpPacket cfg σ.directory p now = b := ⟨_, rfl⟩
    have hm := (h.media _ r2 h2).mappable
    have hs := sameRoutes_taken σ r2 b
    cases hok : b.ok with
    | true =>
      rw [giveRtpPacket_ok hb hok]
      show RoutesOk cfg strict live (if r1 ≠ r2 then _ else _)
      split
      · exact (h.same hs).merge hls (hr1.same hs).lt (hm.same hs).lt _ _
      · exact h.same hs
    | false =>
      rw [giveRtpPacket_rejected hb hok]
      show RoutesOk cfg strict live (VoIpSessions.track _ cfg r2 true _ now)
      have hτ := (h.same hs).stop hls (hm.same hs).lt now
      have hspec := stop_spec (σ.taken r2 b) cfg r2 now
      by_cases hl : live
      · obtain ⟨hsecond, hfirst⟩ := hlive hl r2 h2 (hb ▸ hok)
        have hcall := taken_call σ r2 r2 b
        rw [if_pos rfl] at hcall
        rw [track_rejected _ hsecond]
        · exact hτ
        · rw [hspec.expiry.numRtpPackets, hspec.expiry.protocol, hcall, ← hb,
            trackingAddress_addRtpPacket]
          exact hfirst
      · exact hτ.track hls ⟨hspec.created ▸ (hm.same hs).lt, fun hl' => absurd hl' hl⟩ _ _ _

/-- No session at the source took the packet. -/
theorem giveAtDestination_zero (hls : live → strict) (h : RoutesOk cfg strict live σ)
    (session1 : Option Ref) (p : RtpPacketInfo) (now : Int) :
    RoutesOk cfg strict live (σ.giveAtDestination cfg session1 0 p now) := by
  unfold giveAtDestination
  dsimp only
  cases h2 : σ.findByMediaAddress cfg p.destIp p.destPort with
  | none => exact h.unclaimed hls p now
  | some r2 =>
    obtain ⟨b, hb⟩ : ∃ b, (σ.sessions r2).addRtpPacket cfg σ.directory p now = b := ⟨_, rfl⟩
    have hm := (h.media _ r2 h2).mappable
    have hs := sameRoutes_taken σ r2 b
    cases hok : b.ok with
    | true =>
      rw [giveRtpPacket_ok hb hok]
      exact (h.same hs).track hls (hm.same hs) _ _ _
    | false =>
      rw [giveRtpPacket_rejected hb hok]
      exact ((h.same hs).stop hls (hm.same hs).lt now).unclaimed hls _ now

theorem reportRtpPacket (hls : live → strict) (h : RoutesOk cfg strict live σ)
    (rtpPacket : RtpPacketInfo) (now : Int)
    (hlive : live → σ.remapsStopped cfg rtpPacket now = false) :
    RoutesOk cfg strict live (σ.reportRtpPacket cfg rtpPacket now) := by
  unfold VoIpSessions.reportRtpPacket
  unfold remapsStopped lateReject at hlive
  dsimp only at hlive ⊢
  generalize sangoma cfg rtpPacket = p at hlive ⊢
  cases h1 : σ.findByMediaAddress cfg p.sourceIp p.sourcePort with
  | none => exact h.giveAtDestination_zero hls none p now
  | some r1 =>
    obtain ⟨a, ha⟩ : ∃ a, (σ.sessions r1).addRtpPacket cfg σ.directory p now = a := ⟨_, rfl⟩
    have hm := (h.media _ r1 h1).mappable
    have hs := sameRoutes_taken σ r1 a
    cases hok : a.ok with
    | false =>
      rw [giveRtpPacket_rejected ha hok]
      exact ((h.same hs).stop hls (hm.same hs).lt now).giveAtDestination_zero hls _ _ now
    | true =>
      rw [giveRtpPacket_ok ha hok]
      refine (h.same hs).giveAtDestination_one hls (hm.same hs) _ now fun hl r2 h2 => ?_
      obtain ⟨t, ht⟩ := addRtpPacket_packet (σ.sessions r1).toVoIpCall cfg σ.directory p now
      have hdest : a.packet = { p with payloadType := t } := ha ▸ ht
      have h2' : σ.findByMediaAddress cfg p.destIp p.destPort = some r2 := by
        rw [hdest] at h2
        exact h2
      have hremaps := hlive hl
      rw [h1, h2'] at hremaps
      dsimp only at hremaps ⊢
      rw [taken_call]
      rw [ha] at hremaps
      intro hb
      have htrack : trackingAddress cfg a.packet = trackingAddress cfg p :=
        ha ▸ trackingAddress_addRtpPacket ..
      rw [if_pos ⟨hok, fun hb' => Bool.false_ne_true (hb.symm.trans hb')⟩] at hremaps
      simp only [Option.any_some, Bool.or_eq_false_iff, Bool.and_eq_false_imp, decide_eq_true_eq,
        Option.isSome_eq_false_iff, Option.isNone_iff_eq_none, Bool.and_eq_true, and_imp] at hremaps
      rw [htrack]
      exact hremaps

theorem sameRoutes_rtcpSrcDescription (σ : VoIpSessions) (cfg : VoIpConfig)
    (info : RtcpSrcDescriptionPacketInfo) : SameRoutes σ (σ.reportRtcpSrcDescription cfg info) := by
  unfold reportRtcpSrcDescription
  split
  · exact sameRoutes_updateCall ..
  · exact .refl σ

/-! ## Expiry -/

theorem stopEach (hls : live → strict) (h : RoutesOk cfg strict live σ) {rs : List Ref}
    (hrs : ∀ r ∈ rs, r < σ.created) (now : Int) :
    RoutesOk cfg strict live (σ.stopEach cfg rs now) := by
  unfold VoIpSessions.stopEach
  induction rs generalizing σ with
  | nil => exact h
  | cons r rs ih =>
    refine ih (h.stop hls (hrs r List.mem_cons_self) now) fun x hx => ?_
    rw [(stop_spec σ cfg r now).created]
    exact hrs x (List.mem_cons_of_mem r hx)

theorem hoover (hls : live → strict) (h : RoutesOk cfg strict live σ) (t now : Int) :
    RoutesOk cfg strict live (σ.hoover cfg t now) := by
  have h' : RoutesOk cfg strict live (σ.stopEach cfg (σ.expiredOnMedia cfg t) now) :=
    h.stopEach hls (fun r hr => (h.of_onMedia (List.mem_filter.1 hr).1).lt) now
  exact h'.stopEach hls (fun r hr => (h'.of_onCallIds (List.mem_filter.1 hr).1).lt) now

/-! ## Captures -/

theorem sameRoutes_startCaptureOf (σ : VoIpSessions) (which : VoIpSession → Bool) :
    SameRoutes σ (σ.startCaptureOf which).1 := by
  unfold startCaptureOf
  split
  · dsimp only
    exact sameRoutes_updateCall ..
  · exact .refl σ

theorem sameRoutes_pauseCaptureOf (σ : VoIpSessions) (which : VoIpSession → Bool) :
    SameRoutes σ (σ.pauseCaptureOf which).1 := by
  unfold pauseCaptureOf
  split
  · dsimp only
    exact sameRoutes_updateCall ..
  · exact .refl σ

theorem stopCaptureOf (hls : live → strict) (h : RoutesOk cfg strict live σ)
    (which : VoIpSession → Bool) (now : Int)
    (hid : strict → ∀ r, σ.findCapture which = some r → (σ.sessions r).callId ≠ "") :
    RoutesOk cfg strict live (σ.stopCaptureOf cfg which now).sessions := by
  unfold VoIpSessions.stopCaptureOf
  split
  · rename_i r hr
    obtain ⟨k, hk⟩ := mem_onMedia.1 (mem_of_findCapture hr)
    exact h.handOver hls hk (fun hst => hid hst r hr) now
  · exact h

theorem sameRoutes_onDemandMarkerByIp (σ : VoIpSessions) (ip : InAddr) :
    SameRoutes σ (σ.reportOnDemandMarkerByIp ip) := by
  unfold reportOnDemandMarkerByIp
  dsimp only
  split
  · exact sameRoutes_updateCall ..
  · exact .refl σ

theorem sameRoutes_storeExtracted (σ : VoIpSessions) (cfg : VoIpConfig)
    (pairs : List (String × String)) (ip : InAddr) (now : Int) :
    SameRoutes σ (σ.storeExtracted cfg pairs ip now) := by
  unfold storeExtracted
  induction pairs generalizing σ with
  | nil => exact .refl σ
  | cons pair pairs ih => exact (sameRoutes_directory σ _).trans (ih _)

end RoutesOk

/-! ## A step -/

/-- The session whose capture an operation stops. -/
def stopsCaptureOf (σ : VoIpSessions) : Op → Option Ref
  | .stopCapture party => σ.findCapture (·.partyMatches party)
  | .stopCaptureOrkuid orkuid => σ.findCapture (·.orkUidMatches orkuid)
  | .stopCaptureNativeCallId callid => σ.findCapture (·.nativeCallIdMatches callid)
  | _ => none

/-- Whether an operation is a packet as in `remapsStopped`. -/
def stepRemapsStopped (σ : VoIpSessions) (cfg : VoIpConfig) : Int × Op → Bool
  | (now, .rtpPacket p) => σ.remapsStopped cfg p now
  | _ => false

theorem RoutesOk.step (hls : live → strict) (h : RoutesOk cfg strict live σ) (x : Int × Op)
    (hid : strict → ∀ r, σ.stopsCaptureOf x.2 = some r → (σ.sessions r).callId ≠ "")
    (hlive : live → σ.stepRemapsStopped cfg x = false) :
    RoutesOk cfg strict live (step cfg σ x) := by
  obtain ⟨now, op⟩ := x
  cases op with
  | sipInvite invite => exact h.reportSipInvite hls invite.callId_ne now
  | sipSubscribe callId => exact h.same (sameRoutes_sipSubscribeMap σ _)
  | sipErrorPacket info => exact h.reportSipErrorPacket hls info now
  | sipSessionProgress info => exact h.reportSipSessionProgress hls info now
  | sip302MovedTemporarily info => exact h.directory _
  | sip200Ok info => exact h.reportSip200Ok hls info now
  | sipBye bye => exact h.reportSipBye hls bye now
  | sipNotify notify => exact h.same (sameRoutes_reportSipNotify ..)
  | sipInfo info => exact h.same (sameRoutes_reportSipInfo ..)
  | sipRefer info => exact h.same (sameRoutes_reportSipRefer ..)
  | skinnyCallInfo callInfo hd => exact h.reportSkinnyCallInfo hls callInfo hd now
  | skinnyCallStateMessage m hd => exact h.same (sameRoutes_callStateMessage ..)
  | skinnyOpenReceiveChannelAck m hd => exact h.reportSkinnyOpenReceiveChannelAck hls m hd now
  | skinnyStartMediaTransmission m hd => exact h.reportSkinnyMedia hls ..
  | skinnyStopMediaTransmission m hd => exact h.reportSkinnyStopMediaTransmission hls m hd now
  | skinnyLineStat number hd => exact h.same (sameRoutes_reportSkinnyLineStat ..)
  | skinnySoftKeyHold id hd => exact h.same (sameRoutes_softKeyHold ..)
  | skinnySoftKeyResume id hd => exact h.same (sameRoutes_softKeyResume ..)
  | skinnySoftKeyConfPressed ip hd => exact h.same (sameRoutes_softKeyConfPressed ..)
  | skinnySoftKeySetConfConnected ip hd => exact h.same (sameRoutes_softKeySetConfConnected ..)
  | skinnySoftKeySetTransfConnected id hd =>
    exact h.reportSkinnySoftKeySetTransfConnected hls id hd now
  | rtpPacket p => exact h.reportRtpPacket hls p now hlive
  | rtcpSrcDescription info => exact h.same (sameRoutes_rtcpSrcDescription ..)
  | hoover t => exact h.hoover hls t now
  | stopAll => exact h.hoover hls _ now
  | startCapture party => exact h.same (sameRoutes_startCaptureOf ..)
  | startCaptureOrkuid orkuid => exact h.same (sameRoutes_startCaptureOf ..)
  | startCaptureNativeCallId callid => exact h.same (sameRoutes_startCaptureOf ..)
  | pauseCapture party => exact h.same (sameRoutes_pauseCaptureOf ..)
  | pauseCaptureOrkuid orkuid => exact h.same (sameRoutes_pauseCaptureOf ..)
  | pauseCaptureNativeCallId callid => exact h.same (sameRoutes_pauseCaptureOf ..)
  | stopCapture party => exact h.stopCaptureOf hls _ now hid
  | stopCaptureOrkuid orkuid => exact h.stopCaptureOf hls _ now hid
  | stopCaptureNativeCallId callid => exact h.stopCaptureOf hls _ now hid
  | onDemandMarkerByIp ip => exact h.same (sameRoutes_onDemandMarkerByIp ..)
  | urlExtraction pairs ip => exact h.same (sameRoutes_storeExtracted ..)
  | saveLocalPartyMap oldparty newparty => exact h.directory _
  | clearLocalPartyMap => exact h.directory _
  | saveSkinnyGlobalNumbersList number => exact h.directory _

end VoIpSessions

end Oreka.VoIp
