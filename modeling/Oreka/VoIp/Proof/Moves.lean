import Oreka.Lib.KeyedMap
import Oreka.VoIp.Operations

/-!
# What the moves do to the tables

For each move of `VoIpSessions.lean`: the two maps afterwards, entry by entry, and the session
objects. Later proofs use these lemmas and do not unfold the moves.
-/

open Std KeyedMap

namespace Oreka.VoIp

namespace VoIpSessions

variable {σ σ' σ'' : VoIpSessions} {cfg : VoIpConfig} {r x : Ref} {now : Int}

/-! ## Objects -/

@[simp] theorem setSession_self (σ : VoIpSessions) (r : Ref) (s : VoIpSession) :
    (σ.setSession r s).sessions r = s := Function.update_self ..

theorem setSession_ne (σ : VoIpSessions) (s : VoIpSession) (h : x ≠ r) :
    (σ.setSession r s).sessions x = σ.sessions x := Function.update_of_ne h ..

@[simp] theorem setSession_byIpAndPort (σ : VoIpSessions) (r : Ref) (s : VoIpSession) :
    (σ.setSession r s).byIpAndPort = σ.byIpAndPort := rfl

@[simp] theorem setSession_byCallId (σ : VoIpSessions) (r : Ref) (s : VoIpSession) :
    (σ.setSession r s).byCallId = σ.byCallId := rfl

@[simp] theorem setSession_created (σ : VoIpSessions) (r : Ref) (s : VoIpSession) :
    (σ.setSession r s).created = σ.created := rfl

@[simp] theorem setSession_stops (σ : VoIpSessions) (r : Ref) (s : VoIpSession) :
    (σ.setSession r s).stops = σ.stops := rfl

/-- The members of a session that the tables route by are those of another. -/
structure SameKeys (s s' : VoIpSession) : Prop where
  ipAndPort : s'.ipAndPort = s.ipAndPort
  callId : s'.callId = s.callId
  mediaAddresses : s'.mediaAddresses = s.mediaAddresses

/-- Neither a map has changed, nor what the tables route by. -/
structure SameRoutes (σ σ' : VoIpSessions) : Prop where
  byIpAndPort : σ'.byIpAndPort = σ.byIpAndPort
  byCallId : σ'.byCallId = σ.byCallId
  created : σ'.created = σ.created
  stops : σ'.stops = σ.stops
  keys : ∀ x, SameKeys (σ.sessions x) (σ'.sessions x)

theorem SameRoutes.refl (σ : VoIpSessions) : SameRoutes σ σ :=
  ⟨rfl, rfl, rfl, rfl, fun _ => ⟨rfl, rfl, rfl⟩⟩

theorem SameRoutes.trans (h : SameRoutes σ σ') (h' : SameRoutes σ' σ'') : SameRoutes σ σ'' where
  byIpAndPort := h'.byIpAndPort.trans h.byIpAndPort
  byCallId := h'.byCallId.trans h.byCallId
  created := h'.created.trans h.created
  stops := h'.stops.trans h.stops
  keys x := ⟨(h'.keys x).ipAndPort.trans (h.keys x).ipAndPort,
    (h'.keys x).callId.trans (h.keys x).callId,
    (h'.keys x).mediaAddresses.trans (h.keys x).mediaAddresses⟩

/-- What a session knows of its call is not what the tables route by. -/
theorem sameRoutes_updateCall (σ : VoIpSessions) (r : Ref) (f : VoIpCall → VoIpCall) :
    SameRoutes σ (σ.updateCall r f) := by
  refine ⟨rfl, rfl, rfl, rfl, fun x => ?_⟩
  by_cases hx : x = r
  · subst hx
    simp only [updateCall, setSession_self]
    exact ⟨rfl, rfl, rfl⟩
  · simp only [updateCall, setSession_ne _ _ hx]
    exact ⟨rfl, rfl, rfl⟩

theorem sameRoutes_directory (σ : VoIpSessions) (d : Directory) :
    SameRoutes σ { σ with directory := d } :=
  ⟨rfl, rfl, rfl, rfl, fun _ => ⟨rfl, rfl, rfl⟩⟩

theorem sameRoutes_sipSubscribeMap (σ : VoIpSessions) (l : List String) :
    SameRoutes σ { σ with sipSubscribeMap := l } :=
  ⟨rfl, rfl, rfl, rfl, fun _ => ⟨rfl, rfl, rfl⟩⟩

theorem sameRoutes_sipReferList (σ : VoIpSessions) (l : List SipRefer) :
    SameRoutes σ { σ with sipReferList := l } :=
  ⟨rfl, rfl, rfl, rfl, fun _ => ⟨rfl, rfl, rfl⟩⟩

/-! ## A session leaves the map of media addresses -/

theorem removeFromMediaAddressMap_sessions (σ : VoIpSessions) (r : Ref) (k : UInt64) :
    (σ.removeFromMediaAddressMap r k).sessions = σ.sessions := by
  unfold removeFromMediaAddressMap
  split <;> rfl

theorem removeFromMediaAddressMap_byCallId (σ : VoIpSessions) (r : Ref) (k : UInt64) :
    (σ.removeFromMediaAddressMap r k).byCallId = σ.byCallId := by
  unfold removeFromMediaAddressMap
  split <;> rfl

theorem removeFromMediaAddressMap_created (σ : VoIpSessions) (r : Ref) (k : UInt64) :
    (σ.removeFromMediaAddressMap r k).created = σ.created := by
  unfold removeFromMediaAddressMap
  split <;> rfl

theorem removeFromMediaAddressMap_stops (σ : VoIpSessions) (r : Ref) (k : UInt64) :
    (σ.removeFromMediaAddressMap r k).stops = σ.stops := by
  unfold removeFromMediaAddressMap
  split <;> rfl

theorem removeFromMediaAddressMap_entry (σ : VoIpSessions) (r : Ref) (k a : UInt64) :
    (σ.removeFromMediaAddressMap r k).byIpAndPort[a]? =
      if a = k ∧ k ≠ 0 ∧ σ.byIpAndPort[k]? = some r then none else σ.byIpAndPort[a]? := by
  unfold removeFromMediaAddressMap
  by_cases hc : k ≠ 0 ∧ σ.byIpAndPort[k]? = some r
  · rw [if_pos hc]
    by_cases ha : a = k
    · subst ha
      simp [hc]
    · have ha' : k ≠ a := fun e => ha e.symm
      simp [getElem?_erase, ha, ha']
  · rw [if_neg hc, if_neg fun h => hc h.2]

/-- All addresses of a list leave the map, where they route to the session. -/
theorem removeEach (ks : List UInt64) (σ : VoIpSessions) (r : Ref) :
    let σ' := ks.foldl (·.removeFromMediaAddressMap r ·) σ
    σ'.sessions = σ.sessions ∧ σ'.byCallId = σ.byCallId ∧ σ'.created = σ.created ∧
      σ'.stops = σ.stops ∧ ∀ a, σ'.byIpAndPort[a]? =
        if a ∈ ks ∧ a ≠ 0 ∧ σ.byIpAndPort[a]? = some r then none else σ.byIpAndPort[a]? := by
  induction ks generalizing σ with
  | nil => exact ⟨rfl, rfl, rfl, rfl, fun a => by simp⟩
  | cons k ks ih =>
    obtain ⟨hs, hc, hn, ht, he⟩ := ih (σ.removeFromMediaAddressMap r k)
    refine ⟨hs.trans (removeFromMediaAddressMap_sessions ..),
      hc.trans (removeFromMediaAddressMap_byCallId ..),
      hn.trans (removeFromMediaAddressMap_created ..),
      ht.trans (removeFromMediaAddressMap_stops ..), fun a => ?_⟩
    rw [List.foldl_cons, he, removeFromMediaAddressMap_entry]
    by_cases hak : a = k
    · subst hak
      by_cases hr : a ≠ 0 ∧ σ.byIpAndPort[a]? = some r <;> simp [hr]
    · simp [hak]

/-! ## A session is created -/

theorem create_self (σ : VoIpSessions) (cfg : VoIpConfig) (now : Int) :
    (σ.create cfg now).sessions σ.created = .new cfg σ.alphaCounter.getNext.2 σ.created now :=
  setSession_self ..

theorem create_ne (σ : VoIpSessions) (cfg : VoIpConfig) (now : Int) (h : x ≠ σ.created) :
    (σ.create cfg now).sessions x = σ.sessions x :=
  setSession_ne σ _ h

/-! ## Stop -/

/-- What a session knows that its expiry depends on. -/
structure SameExpiry (s s' : VoIpSession) : Prop where
  lastUpdated : s'.lastUpdated = s.lastUpdated
  protocol : s'.protocol = s.protocol
  onHold : s'.onHold = s.onHold
  numRtpPackets : s'.numRtpPackets = s.numRtpPackets
  numIgnoredRtpPackets : s'.numIgnoredRtpPackets = s.numIgnoredRtpPackets

theorem SameExpiry.refl (s : VoIpSession) : SameExpiry s s := ⟨rfl, rfl, rfl, rfl, rfl⟩

theorem SameExpiry.trans {s s' s'' : VoIpSession} (h : SameExpiry s s') (h' : SameExpiry s' s'') :
    SameExpiry s s'' where
  lastUpdated := h'.lastUpdated.trans h.lastUpdated
  protocol := h'.protocol.trans h.protocol
  onHold := h'.onHold.trans h.onHold
  numRtpPackets := h'.numRtpPackets.trans h.numRtpPackets
  numIgnoredRtpPackets := h'.numIgnoredRtpPackets.trans h.numIgnoredRtpPackets

theorem updateCall_self (σ : VoIpSessions) (r : Ref) (f : VoIpCall → VoIpCall) :
    (σ.updateCall r f).sessions r =
      { σ.sessions r with toVoIpCall := f (σ.sessions r).toVoIpCall } :=
  setSession_self ..

theorem updateCall_ne (σ : VoIpSessions) (f : VoIpCall → VoIpCall) (h : x ≠ r) :
    (σ.updateCall r f).sessions x = σ.sessions x :=
  setSession_ne _ _ h

theorem taggingSipTransferCalls_eq (σ : VoIpSessions) (cfg : VoIpConfig) (r : Ref) (now : Int) :
    ∃ party live, σ.taggingSipTransferCalls cfg r now =
      { σ.updateCall r (fun c => { c with remoteParty := party }) with sipReferList := live } := by
  have hself : σ = { σ.updateCall r (fun c => { c with remoteParty := c.remoteParty }) with
      sipReferList := σ.sipReferList } := by
    simp [updateCall, setSession]
  unfold taggingSipTransferCalls
  dsimp only
  split
  · exact ⟨_, _, hself⟩
  · split
    · exact ⟨_, _, hself⟩
    · exact ⟨_, _, rfl⟩

theorem call_stop_eq (c : VoIpCall) (cfg : VoIpConfig) (d : Directory) :
    ∃ party stopped, c.stop cfg d = { c with remoteParty := party, stopped := stopped } := by
  unfold VoIpCall.stop
  split
  · dsimp only
    split <;> exact ⟨_, _, rfl⟩
  · exact ⟨c.remoteParty, c.stopped, rfl⟩

/-- The session's own part in `Stop` is about its remote party, and whether it has stopped. -/
theorem stopCall_eq (σ : VoIpSessions) (cfg : VoIpConfig) (r : Ref) (now : Int) :
    ∃ party stopped live, σ.stopCall cfg r now =
      { σ.updateCall r (fun c => { c with remoteParty := party, stopped := stopped }) with
        sipReferList := live, stops := r :: σ.stops } := by
  obtain ⟨party, live, ht⟩ := taggingSipTransferCalls_eq σ cfg r now
  unfold stopCall
  rw [ht]
  obtain ⟨party', stopped, hs⟩ :=
    call_stop_eq { (σ.sessions r).toVoIpCall with remoteParty := party } cfg σ.directory
  refine ⟨party', stopped, live, ?_⟩
  simp only [updateCall, setSession, Function.update_self, Function.update_idem] at *
  rw [hs]

theorem eraseCallId_entry (σ : VoIpSessions) (callId c : String) :
    (σ.eraseCallId callId).byCallId[c]? =
      if c = callId ∧ c ≠ "" then none else σ.byCallId[c]? := by
  unfold eraseCallId
  by_cases hid : callId = ""
  · subst hid
    have hn : ¬ (c = "" ∧ c ≠ "") := fun h => h.2 h.1
    rw [if_neg hn, if_neg (not_not_intro rfl)]
  · rw [if_pos hid, getElem?_erase]
    by_cases hc : c = callId
    · subst hc
      rw [if_pos rfl, if_pos ⟨rfl, hid⟩]
    · rw [if_neg fun h => hc h.symm, if_neg fun h => hc h.1]

theorem eraseCallId_rest (σ : VoIpSessions) (callId : String) :
    (σ.eraseCallId callId).sessions = σ.sessions ∧
      (σ.eraseCallId callId).byIpAndPort = σ.byIpAndPort ∧
      (σ.eraseCallId callId).created = σ.created ∧ (σ.eraseCallId callId).stops = σ.stops := by
  unfold eraseCallId
  split <;> exact ⟨rfl, rfl, rfl, rfl⟩

/-- `Stop`, all of it. The entry of the session's call id goes whoever it routes to; of its media
addresses go the entries that route to it. -/
structure StopSpec (σ σ' : VoIpSessions) (r : Ref) : Prop where
  created : σ'.created = σ.created
  stops : σ'.stops = r :: σ.stops
  sessions_ne : ∀ x, x ≠ r → σ'.sessions x = σ.sessions x
  mediaAddresses : (σ'.sessions r).mediaAddresses = []
  ipAndPort : (σ'.sessions r).ipAndPort = (σ.sessions r).ipAndPort
  callId : (σ'.sessions r).callId = (σ.sessions r).callId
  expiry : SameExpiry (σ.sessions r) (σ'.sessions r)
  byCallId : ∀ c : String, σ'.byCallId[c]? =
    if c = (σ.sessions r).callId ∧ c ≠ "" then none else σ.byCallId[c]?
  byIpAndPort : ∀ a : UInt64, σ'.byIpAndPort[a]? =
    if a ∈ (σ.sessions r).mediaAddresses ∧ a ≠ 0 ∧ σ.byIpAndPort[a]? = some r then none
    else σ.byIpAndPort[a]?

theorem stop_spec (σ : VoIpSessions) (cfg : VoIpConfig) (r : Ref) (now : Int) :
    StopSpec σ (σ.stop cfg r now) r := by
  obtain ⟨party, stopped, live, hcall⟩ := stopCall_eq σ cfg r now
  set τ := σ.stopCall cfg r now with hτ
  set υ := τ.eraseCallId (τ.sessions r).callId with hυ
  obtain ⟨hus, hui, hun, hut⟩ := eraseCallId_rest τ (τ.sessions r).callId
  obtain ⟨hs, hc, hn, ht, he⟩ := removeEach (υ.sessions r).mediaAddresses υ r
  have hstop : σ.stop cfg r now =
      ((υ.sessions r).mediaAddresses.foldl (·.removeFromMediaAddressMap r ·) υ).setSession r
        { ((υ.sessions r).mediaAddresses.foldl (·.removeFromMediaAddressMap r ·) υ).sessions r with
          mediaAddresses := [] } := rfl
  have hself : τ.sessions r = { σ.sessions r with remoteParty := party, stopped := stopped } := by
    simp only [hcall, updateCall, setSession, Function.update_self]
  have hne (x : Ref) (hx : x ≠ r) : τ.sessions x = σ.sessions x := by
    simp only [hcall, updateCall, setSession, Function.update_of_ne hx]
  have hmap : τ.byIpAndPort = σ.byIpAndPort := by rw [hcall]; rfl
  have hids : τ.byCallId = σ.byCallId := by rw [hcall]; rfl
  rw [hstop]
  constructor
  case created => rw [setSession_created, hn, hun, hcall]; rfl
  case stops => rw [setSession_stops, ht, hut, hcall]
  case sessions_ne =>
    intro x hx
    rw [setSession_ne _ _ hx, hs, hus, hne x hx]
  case mediaAddresses => rw [setSession_self]
  case ipAndPort => rw [setSession_self, hs, hus, hself]
  case callId => rw [setSession_self, hs, hus, hself]
  case expiry =>
    rw [setSession_self, hs, hus, hself]
    exact ⟨rfl, rfl, rfl, rfl, rfl⟩
  case byCallId =>
    intro c
    rw [setSession_byCallId, hc, eraseCallId_entry, hself, hids]
  case byIpAndPort =>
    intro a
    rw [setSession_byIpAndPort, he, hus, hui, hself, hmap]

/-! ## The successor of a session whose capture is stopped -/

/-- `createSuccessor`: a new object with the addresses and the call id of `r`. -/
structure SuccessorSpec (σ σ' : VoIpSessions) (r : Ref) : Prop where
  created : σ'.created = σ.created + 1
  stops : σ'.stops = σ.stops
  byIpAndPort : σ'.byIpAndPort = σ.byIpAndPort
  byCallId : σ'.byCallId = σ.byCallId
  sessions_ne : ∀ x, x ≠ σ.created → σ'.sessions x = σ.sessions x
  keys : SameKeys (σ.sessions r) (σ'.sessions σ.created)

theorem createSuccessor_spec (σ : VoIpSessions) (cfg : VoIpConfig) (r : Ref) (now : Int) :
    SuccessorSpec σ (σ.createSuccessor cfg r now) r := by
  constructor
  case created => rfl
  case stops => rfl
  case byIpAndPort => rfl
  case byCallId => rfl
  case sessions_ne => exact fun x hx => (setSession_ne _ _ hx).trans (create_ne σ cfg now hx)
  case keys =>
    have hself : (σ.createSuccessor cfg r now).sessions σ.created =
      (σ.sessions r).copyMetadata ((σ.create cfg now).sessions σ.created) := setSession_self ..
    rw [hself]
    exact ⟨rfl, rfl, rfl⟩

/-! ## A session gets a media address -/

/-- A new mapping of `r` at `k`. -/
structure MapSpec (cfg : VoIpConfig) (σ σ' : VoIpSessions) (r : Ref) (k : UInt64) : Prop where
  created : σ'.created = σ.created
  stops : σ'.stops = σ.stops
  sessions_ne : ∀ x, x ≠ r → σ'.sessions x = σ.sessions x
  mediaAddresses : (σ'.sessions r).mediaAddresses =
    if cfg.rtpAllowMultipleMappings then (σ.sessions r).mediaAddresses ++ [k] else [k]
  ipAndPort : (σ'.sessions r).ipAndPort = k
  callId : (σ'.sessions r).callId = (σ.sessions r).callId
  byCallId : σ'.byCallId = σ.byCallId
  /-- Entries are old ones, save that of `k`; without multiple mappings the last one of `r` is
  gone. -/
  entry : ∀ (a : UInt64) (x : Ref), σ'.byIpAndPort[a]? = some x → (a = k ∧ x = r) ∨
    (σ.byIpAndPort[a]? = some x ∧ (cfg.rtpAllowMultipleMappings = false → x = r →
      (σ.sessions r).ipAndPort ≠ 0 → a ≠ (σ.sessions r).ipAndPort))

theorem clearMapping_multi (σ : VoIpSessions) (r : Ref) (h : cfg.rtpAllowMultipleMappings = true) :
    σ.clearMapping cfg r = σ := by
  unfold clearMapping
  rw [if_pos h]

theorem map_spec (σ : VoIpSessions) (cfg : VoIpConfig) (r : Ref) (ip : InAddr) (k : UInt64) :
    MapSpec cfg σ ((σ.clearMapping cfg r).mapMediaAddress r ip k) r k := by
  cases hmulti : cfg.rtpAllowMultipleMappings with
  | true =>
    rw [clearMapping_multi σ r hmulti]
    unfold mapMediaAddress
    constructor
    case created => rfl
    case stops => rfl
    case sessions_ne => exact fun x hx => setSession_ne _ _ hx
    case mediaAddresses => simp [hmulti]
    case ipAndPort => simp
    case callId => simp
    case byCallId => rfl
    case entry =>
      intro a x hx
      simp only [setSession_byIpAndPort, getElem?_insertIfNew] at hx
      split at hx
      · rename_i hk
        cases hx
        exact .inl ⟨hk.1.symm, rfl⟩
      · exact .inr ⟨hx, fun h => by simp [hmulti] at h⟩
  | false =>
    have hclear : σ.clearMapping cfg r =
        (σ.removeFromMediaAddressMap r (σ.sessions r).ipAndPort).setSession r
          { (σ.removeFromMediaAddressMap r (σ.sessions r).ipAndPort).sessions r with
            mediaAddresses := [] } := by
      unfold clearMapping
      rw [if_neg (by simp [hmulti])]
    rw [hclear]
    unfold mapMediaAddress
    constructor
    case created => exact removeFromMediaAddressMap_created ..
    case stops => exact removeFromMediaAddressMap_stops ..
    case sessions_ne =>
      intro x hx
      refine (setSession_ne _ _ hx).trans ?_
      rw [setSession_ne _ _ hx, removeFromMediaAddressMap_sessions]
    case mediaAddresses => simp [hmulti]
    case ipAndPort => simp
    case callId => simp [removeFromMediaAddressMap_sessions]
    case byCallId => exact removeFromMediaAddressMap_byCallId ..
    case entry =>
      intro a x hx
      simp only [setSession_byIpAndPort, getElem?_insertIfNew] at hx
      split at hx
      · rename_i hk
        cases hx
        exact .inl ⟨hk.1.symm, rfl⟩
      · rw [removeFromMediaAddressMap_entry] at hx
        split at hx
        · cases hx
        · rename_i hn
          refine .inr ⟨hx, fun _ hxr h0 ha => hn ?_⟩
          subst hxr ha
          exact ⟨rfl, h0, hx⟩

/-- What `SetMediaAddress` comes to: nothing; or a new mapping, at a free address or after what was
there has made room. -/
theorem setMediaAddress_cases (σ : VoIpSessions) (cfg : VoIpConfig) (r : Ref) (ip : InAddr)
    (port : UInt16) (now : Int) :
    let σ' := σ.setMediaAddress cfg r ip port now
    let k := cfg.craft64bitMediaAddress ip port
    σ' = σ ∨ (k ≠ 0 ∧ MapSpec cfg σ σ' r k) ∨
      (k ≠ 0 ∧ ∃ old, old ≠ r ∧ σ.byIpAndPort[k]? = some old ∧
        (MapSpec cfg (σ.stop cfg old now) σ' r k ∨
          MapSpec cfg (σ.removeFromMediaAddressMap old k) σ' r k)) := by
  dsimp only
  unfold setMediaAddress
  by_cases hallow : mediaAddressAllowed cfg ip port = true
  · have hport : port ≠ 0 := by
      intro h
      simp [mediaAddressAllowed, h] at hallow
    have hk := cfg.craft64bitMediaAddress_ne_zero ip hport
    rw [if_neg (not_not_intro hallow)]
    dsimp only
    split
    · exact .inr (.inl ⟨hk, map_spec ..⟩)
    · rename_i old hold
      split
      · exact .inl rfl
      · rename_i hid
        split
        · refine .inr (.inr ⟨hk, old, ?_, hold, ?_⟩)
          · intro h
            subst h
            simp [compareNoCase] at hid
          · unfold evict
            split
            · exact .inl (map_spec ..)
            · exact .inr (map_spec ..)
        · exact .inl rfl
  · rw [if_pos hallow]
    exact .inl rfl

end VoIpSessions

end Oreka.VoIp
