import Oreka.VoIp.Proof.Moves
import Oreka.Lib.Run

/-!
# What every entry of the tables satisfies

`RoutesOk cfg strict live σ`: an entry of the map of media addresses has one of its session's
addresses as its key, without multiple mappings the last one; an entry of the map of call ids has its
session's call id, or none, as its key. With `strict` there is no entry for the empty call id, with
`live` no entry routes to a session that has been stopped. Each operation is made of the moves, and
each move keeps `RoutesOk`.
-/

open Std KeyedMap

namespace Oreka.VoIp

namespace VoIpSessions

/-- What ties an entry of the map of media addresses to its session. -/
structure MediaEntry (cfg : VoIpConfig) (live : Prop) (σ : VoIpSessions) (r : Ref) (k : UInt64) :
    Prop where
  lt : r < σ.created
  mem : k ∈ (σ.sessions r).mediaAddresses
  last : cfg.rtpAllowMultipleMappings = false → k = (σ.sessions r).ipAndPort
  live : live → r ∉ σ.stops

/-- What ties an entry of the map of call ids to its session. -/
structure CallIdEntry (strict live : Prop) (σ : VoIpSessions) (r : Ref) (c : String) : Prop where
  lt : r < σ.created
  eq : c = (σ.sessions r).callId ∨ c = ""
  ne : strict → c ≠ ""
  live : live → r ∉ σ.stops

/-- The invariant (module doc). -/
structure RoutesOk (cfg : VoIpConfig) (strict live : Prop) (σ : VoIpSessions) : Prop where
  media : Keyed σ.byIpAndPort (MediaEntry cfg live σ)
  callIds : Keyed σ.byCallId (CallIdEntry strict live σ)
  nonzero : ∀ r, 0 ∉ (σ.sessions r).mediaAddresses
  last : ∀ r, (σ.sessions r).mediaAddresses ≠ [] →
    (σ.sessions r).ipAndPort ∈ (σ.sessions r).mediaAddresses
  stops_lt : ∀ r ∈ σ.stops, r < σ.created

/-- A session that may be mapped: one that exists, and with `live` has not been stopped. -/
structure Mappable (live : Prop) (σ : VoIpSessions) (r : Ref) : Prop where
  lt : r < σ.created
  live : live → r ∉ σ.stops

variable {cfg : VoIpConfig} {strict live : Prop} {σ σ' : VoIpSessions} {r x : Ref} {k : UInt64}
  {c : String} {now : Int}

theorem MediaEntry.mappable (h : MediaEntry cfg live σ r k) : Mappable live σ r := ⟨h.lt, h.live⟩

theorem CallIdEntry.mappable (h : CallIdEntry strict live σ r c) : Mappable live σ r :=
  ⟨h.lt, h.live⟩

theorem Mappable.same (h : Mappable live σ r) (hs : SameRoutes σ σ') : Mappable live σ' r :=
  ⟨hs.created ▸ h.lt, fun hl => hs.stops ▸ h.live hl⟩

theorem Mappable.stop (h : Mappable live σ r) (hne : r ≠ x) :
    Mappable live (σ.stop cfg x now) r := by
  have hs := stop_spec σ cfg x now
  refine ⟨hs.created ▸ h.lt, fun hl => ?_⟩
  rw [hs.stops]
  simp [hne, h.live hl]

theorem Mappable.removeFromMediaAddressMap (h : Mappable live σ r) (x : Ref) (k : UInt64) :
    Mappable live (σ.removeFromMediaAddressMap x k) r := by
  refine ⟨?_, fun hl => ?_⟩
  · rw [removeFromMediaAddressMap_created]
    exact h.lt
  · rw [removeFromMediaAddressMap_stops]
    exact h.live hl

theorem Mappable.map (h : Mappable live σ x) (hm : MapSpec cfg σ σ' r k) : Mappable live σ' x :=
  ⟨hm.created ▸ h.lt, fun hl => hm.stops ▸ h.live hl⟩

theorem routesOk_empty : RoutesOk cfg strict live {} where
  media := keyed_empty
  callIds := keyed_empty
  nonzero r := by simp
  last r h := absurd rfl h
  stops_lt r h := by simp at h

namespace RoutesOk

/-! ## Moves -/

theorem same (h : RoutesOk cfg strict live σ) (hs : SameRoutes σ σ') :
    RoutesOk cfg strict live σ' where
  media := by
    rw [hs.byIpAndPort]
    refine h.media.mono (fun _ _ => id) fun k r _ he => ?_
    have hk := hs.keys r
    exact ⟨hs.created ▸ he.lt, hk.mediaAddresses ▸ he.mem,
      fun hm => hk.ipAndPort ▸ he.last hm, fun hl => hs.stops ▸ he.live hl⟩
  callIds := by
    rw [hs.byCallId]
    refine h.callIds.mono (fun _ _ => id) fun c r _ he => ?_
    exact ⟨hs.created ▸ he.lt, (hs.keys r).callId ▸ he.eq, he.ne, fun hl => hs.stops ▸ he.live hl⟩
  nonzero r := (hs.keys r).mediaAddresses ▸ h.nonzero r
  last r := by
    rw [(hs.keys r).mediaAddresses, (hs.keys r).ipAndPort]
    exact h.last r
  stops_lt r := by
    rw [hs.stops, hs.created]
    exact h.stops_lt r

theorem updateCall (h : RoutesOk cfg strict live σ) (r : Ref) (f : VoIpCall → VoIpCall) :
    RoutesOk cfg strict live (σ.updateCall r f) :=
  h.same (sameRoutes_updateCall σ r f)

theorem directory (h : RoutesOk cfg strict live σ) (d : Directory) :
    RoutesOk cfg strict live { σ with directory := d } :=
  h.same (sameRoutes_directory σ d)

/-- A session object is added. -/
theorem new (h : RoutesOk cfg strict live σ) (hmaps : σ'.byIpAndPort = σ.byIpAndPort)
    (hids : σ'.byCallId = σ.byCallId) (hcreated : σ'.created = σ.created + 1)
    (hstops : σ'.stops = σ.stops) (hne : ∀ x, x ≠ σ.created → σ'.sessions x = σ.sessions x)
    (hzero : 0 ∉ (σ'.sessions σ.created).mediaAddresses)
    (hlast : (σ'.sessions σ.created).mediaAddresses ≠ [] →
      (σ'.sessions σ.created).ipAndPort ∈ (σ'.sessions σ.created).mediaAddresses) :
    RoutesOk cfg strict live σ' where
  media := by
    rw [hmaps]
    refine h.media.mono (fun _ _ => id) fun k r _ he => ?_
    have hr := hne r (Nat.ne_of_lt he.lt)
    exact ⟨hcreated ▸ Nat.lt_succ_of_lt he.lt, hr ▸ he.mem, fun hm => hr ▸ he.last hm,
      fun hl => hstops ▸ he.live hl⟩
  callIds := by
    rw [hids]
    refine h.callIds.mono (fun _ _ => id) fun c r _ he => ?_
    exact ⟨hcreated ▸ Nat.lt_succ_of_lt he.lt, hne r (Nat.ne_of_lt he.lt) ▸ he.eq, he.ne,
      fun hl => hstops ▸ he.live hl⟩
  nonzero r := by
    by_cases hr : r = σ.created
    · subst hr
      exact hzero
    · rw [hne r hr]
      exact h.nonzero r
  last r := by
    by_cases hr : r = σ.created
    · subst hr
      exact hlast
    · rw [hne r hr]
      exact h.last r
  stops_lt r hr := by
    rw [hstops] at hr
    rw [hcreated]
    exact Nat.lt_succ_of_lt (h.stops_lt r hr)

theorem create (h : RoutesOk cfg strict live σ) (now : Int) :
    RoutesOk cfg strict live (σ.create cfg now) := by
  refine h.new rfl rfl rfl rfl (fun x hx => create_ne σ cfg now hx) ?_ ?_
  · rw [create_self]
    exact List.not_mem_nil
  · rw [create_self]
    exact fun h => absurd rfl h

/-- What is created has not been stopped. -/
theorem mappable_create (h : RoutesOk cfg strict live σ) (now : Int) :
    Mappable live (σ.create cfg now) σ.created :=
  ⟨Nat.lt_succ_self _, fun _ hmem => Nat.lt_irrefl _ (h.stops_lt _ hmem)⟩

/-- A session without a call id gets one. -/
theorem name (h : RoutesOk cfg strict live σ) (hempty : (σ.sessions r).callId = "")
    (call : VoIpCall) (callId : String) :
    RoutesOk cfg strict live
      (σ.setSession r { σ.sessions r with toVoIpCall := call, callId := callId }) := by
  have hkeys (x : Ref) : ((σ.setSession r { σ.sessions r with
      toVoIpCall := call, callId := callId }).sessions x).mediaAddresses =
        (σ.sessions x).mediaAddresses ∧
      ((σ.setSession r { σ.sessions r with
      toVoIpCall := call, callId := callId }).sessions x).ipAndPort = (σ.sessions x).ipAndPort := by
    by_cases hx : x = r
    · subst hx
      rw [setSession_self]
      exact ⟨rfl, rfl⟩
    · rw [setSession_ne _ _ hx]
      exact ⟨rfl, rfl⟩
  constructor
  case media =>
    refine h.media.mono (fun _ _ => id) fun k x _ he => ?_
    exact ⟨he.lt, (hkeys x).1 ▸ he.mem, fun hm => (hkeys x).2 ▸ he.last hm, he.live⟩
  case callIds =>
    refine h.callIds.mono (fun _ _ => id) fun c x _ he => ⟨he.lt, ?_, he.ne, he.live⟩
    by_cases hx : x = r
    · subst hx
      rcases he.eq with hc | hc
      · exact .inr (hc.trans hempty)
      · exact .inr hc
    · rw [setSession_ne _ _ hx]
      exact he.eq
  case nonzero =>
    intro x
    rw [(hkeys x).1]
    exact h.nonzero x
  case last =>
    intro x
    rw [(hkeys x).1, (hkeys x).2]
    exact h.last x
  case stops_lt => exact h.stops_lt

theorem insertCallId (h : RoutesOk cfg strict live σ) (hr : Mappable live σ r)
    (hne : strict → (σ.sessions r).callId ≠ "") :
    RoutesOk cfg strict live (σ.insertCallId r) where
  media := h.media.mono (fun _ _ => id) fun _ _ _ he => ⟨he.lt, he.mem, he.last, he.live⟩
  callIds := by
    have hnew : CallIdEntry strict live σ r (σ.sessions r).callId := ⟨hr.lt, .inl rfl, hne, hr.live⟩
    exact (h.callIds.insertIfNew hnew).mono (fun _ _ => id)
      fun _ _ _ he => ⟨he.lt, he.eq, he.ne, he.live⟩
  nonzero := h.nonzero
  last := h.last
  stops_lt := h.stops_lt

/-- Entries of the map of media addresses go. -/
theorem drop (h : RoutesOk cfg strict live σ) (hids : σ'.byCallId = σ.byCallId)
    (hcreated : σ'.created = σ.created) (hstops : σ'.stops = σ.stops)
    (hsessions : σ'.sessions = σ.sessions)
    (hmaps : ∀ (a : UInt64) (x : Ref), σ'.byIpAndPort[a]? = some x → σ.byIpAndPort[a]? = some x) :
    RoutesOk cfg strict live σ' where
  media := by
    refine h.media.mono hmaps fun k r _ he => ?_
    exact ⟨hcreated ▸ he.lt, hsessions ▸ he.mem, fun hm => hsessions ▸ he.last hm,
      fun hl => hstops ▸ he.live hl⟩
  callIds := by
    rw [hids]
    refine h.callIds.mono (fun _ _ => id) fun c r _ he => ?_
    exact ⟨hcreated ▸ he.lt, hsessions ▸ he.eq, he.ne, fun hl => hstops ▸ he.live hl⟩
  nonzero := hsessions ▸ h.nonzero
  last := hsessions ▸ h.last
  stops_lt := by
    rw [hstops, hcreated]
    exact h.stops_lt

theorem eraseMediaAddress (h : RoutesOk cfg strict live σ) (k : UInt64) :
    RoutesOk cfg strict live (σ.eraseMediaAddress k) :=
  h.drop rfl rfl rfl rfl fun _ _ => of_erase

theorem removeFromMediaAddressMap (h : RoutesOk cfg strict live σ) (r : Ref) (k : UInt64) :
    RoutesOk cfg strict live (σ.removeFromMediaAddressMap r k) := by
  refine h.drop (removeFromMediaAddressMap_byCallId ..) (removeFromMediaAddressMap_created ..)
    (removeFromMediaAddressMap_stops ..) (removeFromMediaAddressMap_sessions ..) fun a x hx => ?_
  rw [removeFromMediaAddressMap_entry] at hx
  split at hx
  · cases hx
  · exact hx

/-- After `Stop`, no media address routes to the session. -/
theorem stop_byIpAndPort_ne (h : RoutesOk cfg strict live σ) (r : Ref) (now : Int) (a : UInt64) :
    (σ.stop cfg r now).byIpAndPort[a]? ≠ some r := by
  intro ha
  rw [(stop_spec σ cfg r now).byIpAndPort] at ha
  split at ha
  · cases ha
  · rename_i hn
    have he := h.media a r ha
    exact hn ⟨he.mem, fun h0 => h.nonzero r (h0 ▸ he.mem), ha⟩

/-- After `Stop`, no call id routes to the session, unless it is the empty one. -/
theorem stop_byCallId_ne (h : RoutesOk cfg strict live σ) (r : Ref) (now : Int) (hc : c ≠ "") :
    (σ.stop cfg r now).byCallId[c]? ≠ some r := by
  intro ha
  rw [(stop_spec σ cfg r now).byCallId] at ha
  split at ha
  · cases ha
  · rename_i hn
    rcases (h.callIds c r ha).eq with he | he
    · exact hn ⟨he, hc⟩
    · exact hc he

theorem stop (hls : live → strict) (h : RoutesOk cfg strict live σ) (hr : r < σ.created)
    (now : Int) : RoutesOk cfg strict live (σ.stop cfg r now) := by
  have hs := stop_spec σ cfg r now
  constructor
  case media =>
    intro k x hx
    have hxr : x ≠ r := fun e => h.stop_byIpAndPort_ne r now k (e ▸ hx)
    rw [hs.byIpAndPort] at hx
    split at hx
    · cases hx
    · have he := h.media k x hx
      have hsx := hs.sessions_ne x hxr
      refine ⟨hs.created ▸ he.lt, hsx ▸ he.mem, fun hm => hsx ▸ he.last hm, fun hl => ?_⟩
      rw [hs.stops]
      simp [hxr, he.live hl]
  case callIds =>
    intro c x hx
    have hx' := hx
    rw [hs.byCallId] at hx'
    split at hx'
    · cases hx'
    · have he := h.callIds c x hx'
      have hid : ((σ.stop cfg r now).sessions x).callId = (σ.sessions x).callId := by
        by_cases hxr : x = r
        · rw [hxr, hs.callId]
        · rw [hs.sessions_ne x hxr]
      refine ⟨hs.created ▸ he.lt, hid ▸ he.eq, he.ne, fun hl => ?_⟩
      have hxr : x ≠ r := fun e => h.stop_byCallId_ne r now (he.ne (hls hl)) (e ▸ hx)
      rw [hs.stops]
      simp [hxr, he.live hl]
  case nonzero =>
    intro x
    by_cases hxr : x = r
    · rw [hxr, hs.mediaAddresses]
      exact List.not_mem_nil
    · rw [hs.sessions_ne x hxr]
      exact h.nonzero x
  case last =>
    intro x
    by_cases hxr : x = r
    · rw [hxr, hs.mediaAddresses]
      exact fun h => absurd rfl h
    · rw [hs.sessions_ne x hxr]
      exact h.last x
  case stops_lt =>
    intro x hx
    rw [hs.stops] at hx
    rw [hs.created]
    rcases List.mem_cons.1 hx with rfl | hx
    · exact hr
    · exact h.stops_lt x hx

theorem map (h : RoutesOk cfg strict live σ) (hr : Mappable live σ r) (hk : k ≠ 0)
    (hm : MapSpec cfg σ σ' r k) : RoutesOk cfg strict live σ' := by
  have hmem : k ∈ (σ'.sessions r).mediaAddresses := by
    rw [hm.mediaAddresses]
    split <;> simp
  constructor
  case media =>
    intro a x hx
    rcases hm.entry a x hx with ⟨rfl, rfl⟩ | ⟨hx, hold⟩
    · exact ⟨hm.created ▸ hr.lt, hmem, fun _ => hm.ipAndPort.symm, fun hl => hm.stops ▸ hr.live hl⟩
    · have he := h.media a x hx
      by_cases hxr : x = r
      · subst hxr
        cases hmulti : cfg.rtpAllowMultipleMappings with
        | true =>
          refine ⟨hm.created ▸ he.lt, ?_, fun hf => ?_, fun hl => hm.stops ▸ he.live hl⟩
          · rw [hm.mediaAddresses, if_pos hmulti]
            exact List.mem_append_left _ he.mem
          · rw [hmulti] at hf
            cases hf
        | false =>
          -- the last mapping was the only one
          have ha := he.last hmulti
          have h0 : (σ.sessions x).ipAndPort ≠ 0 := fun h0 =>
            h.nonzero x (h0 ▸ ha ▸ he.mem)
          exact absurd ha (hold hmulti rfl h0)
      · have hsx := hm.sessions_ne x hxr
        exact ⟨hm.created ▸ he.lt, hsx ▸ he.mem, fun hf => hsx ▸ he.last hf,
          fun hl => hm.stops ▸ he.live hl⟩
  case callIds =>
    rw [hm.byCallId]
    refine h.callIds.mono (fun _ _ => id) fun c x _ he => ?_
    refine ⟨hm.created ▸ he.lt, ?_, he.ne, fun hl => hm.stops ▸ he.live hl⟩
    by_cases hxr : x = r
    · rw [hxr, hm.callId]
      exact hxr ▸ he.eq
    · rw [hm.sessions_ne x hxr]
      exact he.eq
  case nonzero =>
    intro x
    by_cases hxr : x = r
    · rw [hxr, hm.mediaAddresses]
      split
      · simp [h.nonzero r, hk.symm]
      · simp [hk.symm]
    · rw [hm.sessions_ne x hxr]
      exact h.nonzero x
  case last =>
    intro x
    by_cases hxr : x = r
    · rw [hxr, hm.ipAndPort]
      exact fun _ => hmem
    · rw [hm.sessions_ne x hxr]
      exact h.last x
  case stops_lt =>
    rw [hm.stops, hm.created]
    exact h.stops_lt

/-- An entry for the last address of a session. -/
theorem insertIpAndPort (h : RoutesOk cfg strict live σ) (hr : Mappable live σ r)
    (hmem : (σ.sessions r).mediaAddresses ≠ []) :
    RoutesOk cfg strict live
      { σ with byIpAndPort := σ.byIpAndPort.insertIfNew (σ.sessions r).ipAndPort r } where
  media := by
    have hnew : MediaEntry cfg live σ r (σ.sessions r).ipAndPort :=
      ⟨hr.lt, h.last r hmem, fun _ => rfl, hr.live⟩
    exact (h.media.insertIfNew hnew).mono (fun _ _ => id)
      fun _ _ _ he => ⟨he.lt, he.mem, he.last, he.live⟩
  callIds := h.callIds.mono (fun _ _ => id) fun _ _ _ he => ⟨he.lt, he.eq, he.ne, he.live⟩
  nonzero := h.nonzero
  last := h.last
  stops_lt := h.stops_lt

theorem setMediaAddress (hls : live → strict) (h : RoutesOk cfg strict live σ)
    (hr : Mappable live σ r) (ip : InAddr) (port : UInt16) (now : Int) :
    RoutesOk cfg strict live (σ.setMediaAddress cfg r ip port now) := by
  rcases setMediaAddress_cases σ cfg r ip port now with heq | ⟨hk, hm⟩ | ⟨hk, old, hne, hold, hm⟩
  · rw [heq]
    exact h
  · exact h.map hr hk hm
  · rcases hm with hm | hm
    · exact (h.stop hls (h.media _ _ hold).lt now).map (hr.stop hne.symm) hk hm
    · exact (h.removeFromMediaAddressMap old _).map (hr.removeFromMediaAddressMap old _) hk hm

theorem createSuccessor (h : RoutesOk cfg strict live σ) (r : Ref) (now : Int) :
    RoutesOk cfg strict live (σ.createSuccessor cfg r now) := by
  have hs := createSuccessor_spec σ cfg r now
  refine h.new hs.byIpAndPort hs.byCallId hs.created hs.stops hs.sessions_ne ?_ ?_
  · rw [hs.keys.mediaAddresses]
    exact h.nonzero r
  · rw [hs.keys.mediaAddresses, hs.keys.ipAndPort]
    exact h.last r

/-- The stop of a capture. -/
theorem handOver (hls : live → strict) (h : RoutesOk cfg strict live σ)
    (hr : σ.byIpAndPort[k]? = some r) (hid : strict → (σ.sessions r).callId ≠ "") (now : Int) :
    RoutesOk cfg strict live (σ.handOver cfg r now) := by
  have he := h.media k r hr
  have hs := createSuccessor_spec σ cfg r now
  have hτr := h.createSuccessor r now
  set τ := σ.createSuccessor cfg r now with hτ
  have hne : σ.created ≠ r := Nat.ne_of_gt he.lt
  have hmap : Mappable live τ σ.created := by
    refine ⟨?_, fun _ hmem => ?_⟩
    · rw [hs.created]
      exact Nat.lt_succ_self _
    · rw [hs.stops] at hmem
      exact Nat.lt_irrefl _ (h.stops_lt _ hmem)
  have ht := stop_spec τ cfg r now
  have hlt : r < τ.created := by
    rw [hs.created]
    exact Nat.lt_succ_of_lt he.lt
  have hυr := hτr.stop hls hlt now
  have hυmap : Mappable live (τ.stop cfg r now) σ.created := hmap.stop hne
  set υ := τ.stop cfg r now with hυ
  have hself : υ.sessions σ.created = τ.sessions σ.created := ht.sessions_ne _ hne
  have hins := hυr.insertIpAndPort hυmap (by
    rw [hself, hs.keys.mediaAddresses]
    exact List.ne_nil_of_mem he.mem)
  refine hins.insertCallId ⟨hυmap.lt, hυmap.live⟩ fun hst => ?_
  rw [hself, hs.keys.callId]
  exact hid hst

end RoutesOk

/-- A session stays what it is while it gets a media address. -/
theorem Mappable.setMediaAddress (hr : Mappable live σ r) (ip : InAddr) (port : UInt16)
    (now : Int) : Mappable live (σ.setMediaAddress cfg r ip port now) r := by
  rcases setMediaAddress_cases σ cfg r ip port now with heq | ⟨_, hm⟩ | ⟨_, old, hne, _, hm⟩
  · rw [heq]
    exact hr
  · exact hr.map hm
  · rcases hm with hm | hm
    · exact (hr.stop hne.symm).map hm
    · exact (hr.removeFromMediaAddressMap old _).map hm

theorem setMediaAddress_callId (σ : VoIpSessions) (cfg : VoIpConfig) (r : Ref) (ip : InAddr)
    (port : UInt16) (now : Int) :
    ((σ.setMediaAddress cfg r ip port now).sessions r).callId = (σ.sessions r).callId := by
  rcases setMediaAddress_cases σ cfg r ip port now with heq | ⟨_, hm⟩ | ⟨_, old, hne, _, hm⟩
  · rw [heq]
  · exact hm.callId
  · rcases hm with hm | hm
    · rw [hm.callId, (stop_spec σ cfg old now).sessions_ne r hne.symm]
    · rw [hm.callId, removeFromMediaAddressMap_sessions]

end VoIpSessions

end Oreka.VoIp
