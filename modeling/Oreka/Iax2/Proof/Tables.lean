import Oreka.Iax2.Iax2Session
import Oreka.Lib.Run

/-!
# The two tables of IAX2 sessions

`TablesOk σ`: every entry of either table has the current key of its session, and stopping a session
that a table holds removes it from both and nothing else. `TableInv` is what the operations keep: it adds
that a session found by its destination key is found by its source key too, and one with a
destination key by that as well. An AUTHREQ gives its session the sender's key whatever the session
was found by before and whoever is found by that key, and an ACCEPT does not look at the session's
old key; `KeyFree` is the case where that is harmless. A run keeps `TablesOk` iff all its steps are
`KeyFree`.
-/

open Std KeyedMap

namespace Oreka.Iax2

namespace Iax2Session

/-! ## What the session operations leave of the keys -/

/-- Neither key of the session has changed. -/
def SameKeys (s s' : Iax2Session) : Prop :=
  s'.srcIpAndCallNo = s.srcIpAndCallNo ∧ s'.destIpAndCallNo = s.destIpAndCallNo

theorem SameKeys.rfl' {s : Iax2Session} : SameKeys s s := ⟨rfl, rfl⟩

theorem SameKeys.trans {s s' s'' : Iax2Session} (h : SameKeys s s') (h' : SameKeys s' s'') :
    SameKeys s s'' :=
  ⟨h'.1.trans h.1, h'.2.trans h.2⟩

theorem stop_keys (s : Iax2Session) : SameKeys s s.stop.1 := by
  unfold stop
  split <;> exact ⟨rfl, rfl⟩

theorem processMetadataIax2_keys (s : Iax2Session) (cfg : Config) (pkt : Iax2PacketInfo) :
    SameKeys s (s.processMetadataIax2 cfg pkt) := by
  unfold processMetadataIax2
  cases s.newInfo with
  | none => exact ⟨rfl, rfl⟩
  | some n =>
    dsimp only
    repeat' split
    all_goals exact ⟨rfl, rfl⟩

theorem reportMetadata_keys (s : Iax2Session) : SameKeys s s.reportMetadata.1 := by
  unfold reportMetadata ensureLocalParty
  dsimp only
  split <;> exact ⟨rfl, rfl⟩

theorem side_keys {s s' : Iax2Session} {cfg : Config} {packets packets' : Ref → Iax2PacketInfo}
    {p : Ref} {channel : UInt8} (h : s.side cfg packets p = some (s', packets', channel)) :
    SameKeys s s' := by
  unfold side at h
  dsimp only at h
  repeat' split at h
  all_goals cases h
  all_goals exact ⟨rfl, rfl⟩

theorem advance_keys (s : Iax2Session) (channel : UInt8) : SameKeys s (s.advance channel) := by
  unfold advance
  split <;> exact ⟨rfl, rfl⟩

theorem deliver_keys (s : Iax2Session) (pkt : Iax2PacketInfo) (channel : UInt8) :
    SameKeys s (s.deliver pkt channel).1 := by
  unfold deliver
  dsimp only
  split <;> exact ⟨rfl, rfl⟩

theorem startAtFirst_keys (s : Iax2Session) (cfg : Config) (now : Int) :
    SameKeys s (s.startAtFirst cfg now).1 := by
  unfold startAtFirst
  split
  · have h : SameKeys s (s.start cfg now).1 := ⟨rfl, rfl⟩
    exact h.trans (reportMetadata_keys _)
  · exact .rfl'

theorem acceptPacket_keys (s : Iax2Session) (cfg : Config) (packets : Ref → Iax2PacketInfo)
    (p : Ref) (now : Int) : SameKeys s (s.acceptPacket cfg packets p now).session := by
  unfold acceptPacket
  set s₀ := if (packets p).frameType = .full then
    { s with codec := (packets p).payloadType.toNat } else s with hs₀
  have h₀ : SameKeys s s₀ := by
    rw [hs₀]
    split <;> exact ⟨rfl, rfl⟩
  dsimp only
  cases hside : ({ s₀ with lastIax2Packet := some p }).side cfg packets p with
  | none => exact h₀.trans ⟨rfl, rfl⟩
  | some r =>
    obtain ⟨s₁, packets', channel⟩ := r
    have h₁ : SameKeys s { s₀ with lastIax2Packet := some p } := h₀
    have h₁ : SameKeys s s₁ := h₁.trans (side_keys hside)
    have h₂ := startAtFirst_keys { s₁ with numIax2Packets := s₁.numIax2Packets + 1 } cfg now
    exact (h₁.trans h₂).trans ((advance_keys _ _).trans (deliver_keys _ _ _))

/-- A voice frame leaves the keys of the session it is given to. -/
theorem addIax2Packet_keys (s : Iax2Session) (cfg : Config) (packets : Ref → Iax2PacketInfo)
    (p : Ref) (now : Int) : SameKeys s (s.addIax2Packet cfg packets p now).session := by
  unfold addIax2Packet
  split
  · exact .rfl'
  · split
    · split
      · exact .rfl'
      · have h : SameKeys s { s.processMetadataIax2 cfg (packets p) with state := .up } :=
          processMetadataIax2_keys s cfg (packets p)
        exact h.trans (acceptPacket_keys _ cfg packets p now)
    · exact acceptPacket_keys s cfg packets p now

/-- The session of a NEW: its source key is that of the NEW, and it has no destination key. -/
theorem newFor_keys (cfg : Config) (trackingId : String) (invite : Iax2NewInfo) (now : Int) :
    (newFor cfg trackingId invite now).srcIpAndCallNo = ipAndCallNo invite.senderIp invite.callNo ∧
      (newFor cfg trackingId invite now).destIpAndCallNo = "" := by
  unfold newFor reportIax2New new
  cases cfg.iax2TreatCallerIdNameAsXUniqueId <;> exact ⟨rfl, rfl⟩

end Iax2Session

namespace Iax2Sessions

variable {σ σ' : Iax2Sessions} {cfg : Config} {r x : Ref} {k : String}

/-- The current keys of a session. -/
def srcKey (σ : Iax2Sessions) (r : Ref) : String := (σ.sessions r).srcIpAndCallNo

def destKey (σ : Iax2Sessions) (r : Ref) : String := (σ.sessions r).destIpAndCallNo

/-- A table holds the session. -/
def Refers (σ : Iax2Sessions) (r : Ref) : Prop :=
  ∃ k : String, σ.bySrcIpAndCallNo[k]? = some r ∨ σ.byDestIpAndCallNo[k]? = some r

/-- `Stop` removes the session from both tables, and nothing else. -/
structure StopClears (σ : Iax2Sessions) (r : Ref) : Prop where
  src_ne : ∀ k : String, (σ.stop r).bySrcIpAndCallNo[k]? ≠ some r
  dest_ne : ∀ k : String, (σ.stop r).byDestIpAndCallNo[k]? ≠ some r
  src_keep : ∀ (k : String) (x : Ref), x ≠ r → σ.bySrcIpAndCallNo[k]? = some x →
    (σ.stop r).bySrcIpAndCallNo[k]? = some x
  dest_keep : ∀ (k : String) (x : Ref), x ≠ r → σ.byDestIpAndCallNo[k]? = some x →
    (σ.stop r).byDestIpAndCallNo[k]? = some x

/-- The tables agree with the sessions' keys, so that `Stop` of a session that they hold (its callers
stop no others) clears that session from them and no other. -/
structure TablesOk (σ : Iax2Sessions) : Prop where
  src : ∀ (k : String) (r : Ref), σ.bySrcIpAndCallNo[k]? = some r → k = σ.srcKey r
  dest : ∀ (k : String) (r : Ref), σ.byDestIpAndCallNo[k]? = some r → k = σ.destKey r
  stops : ∀ r, σ.Refers r → σ.StopClears r

/-- The step gives a destination key only to a session that has none, and only one that no session is
found by; or it is the key the session has. -/
def KeyFree (σ : Iax2Sessions) : Op → Prop
  | .authreq info =>
    ∀ r, σ.bySrcIpAndCallNo[ipAndCallNo info.receiverIp info.receiverCallno]? = some r →
      σ.destKey r = ipAndCallNo info.senderIp info.senderCallno ∨
      (σ.destKey r = "" ∧
        σ.byDestIpAndCallNo[ipAndCallNo info.senderIp info.senderCallno]? = none)
  | .accept info =>
    ∀ r, σ.bySrcIpAndCallNo[ipAndCallNo info.receiverIp info.receiverCallno]? = some r →
      σ.byDestIpAndCallNo[ipAndCallNo info.senderIp info.senderCallno]? = none →
      σ.destKey r = ""
  | _ => True

/-- The invariant of the tables (module doc). -/
structure TableInv (σ : Iax2Sessions) : Prop where
  src : Keyed σ.bySrcIpAndCallNo fun r k => σ.srcKey r = k
  dest : Keyed σ.byDestIpAndCallNo fun r k => σ.destKey r = k
  src_of_dest : ∀ (k : String) (r : Ref), σ.byDestIpAndCallNo[k]? = some r →
    σ.bySrcIpAndCallNo[σ.srcKey r]? = some r
  dest_of_src : ∀ (k : String) (r : Ref), σ.bySrcIpAndCallNo[k]? = some r → σ.destKey r ≠ "" →
    σ.byDestIpAndCallNo[σ.destKey r]? = some r
  created : ∀ (k : String) (r : Ref), σ.bySrcIpAndCallNo[k]? = some r → r < σ.created
  src_empty : σ.bySrcIpAndCallNo[""]? = none
  dest_empty : σ.byDestIpAndCallNo[""]? = none

theorem tableInv_empty : TableInv {} where
  src := keyed_empty
  dest := keyed_empty
  src_of_dest k r h := by simp at h
  dest_of_src k r h := by simp at h
  created k r h := by simp at h
  src_empty := by simp
  dest_empty := by simp

/-- The invariant reads no more of the sessions than their keys. -/
theorem TableInv.congr (hi : TableInv σ) 
    (hs : ∀ k : String, σ'.bySrcIpAndCallNo[k]? = σ.bySrcIpAndCallNo[k]?)
    (hd : ∀ k : String, σ'.byDestIpAndCallNo[k]? = σ.byDestIpAndCallNo[k]?)
    (hc : σ'.created = σ.created)
    (hk : ∀ r, (σ.sessions r).SameKeys (σ'.sessions r)) : TableInv σ' := by
  have hks : ∀ r, σ'.srcKey r = σ.srcKey r := fun r => (hk r).1
  have hkd : ∀ r, σ'.destKey r = σ.destKey r := fun r => (hk r).2
  constructor
  · intro k r h
    rw [hs] at h
    rw [hks]
    exact hi.src k r h
  · intro k r h
    rw [hd] at h
    rw [hkd]
    exact hi.dest k r h
  · intro k r h
    rw [hd] at h
    rw [hs, hks]
    exact hi.src_of_dest k r h
  · intro k r h hne
    rw [hs] at h
    rw [hkd] at hne
    rw [hd, hkd]
    exact hi.dest_of_src k r h hne
  · intro k r h
    rw [hs] at h
    rw [hc]
    exact hi.created k r h
  · rw [hs]
    exact hi.src_empty
  · rw [hd]
    exact hi.dest_empty

/-! ## Stop -/

theorem getElem?_eraseKey {m : TreeMap String Ref} (h : m[""]? = none) (key a : String) :
    (eraseKey m key)[a]? = if key = a then none else m[a]? := by
  unfold eraseKey
  split
  · exact getElem?_erase m key a
  · rename_i hk
    have hk' : key = "" := by simpa using hk
    subst hk'
    split
    · rename_i ha
      rw [← ha, h]
    · rfl

theorem stop_sessions (σ : Iax2Sessions) (r : Ref) (x : Ref) :
    (σ.sessions x).SameKeys ((σ.stop r).sessions x) := by
  by_cases hx : x = r
  · subst hx
    have h : (σ.stop x).sessions x = (σ.sessions x).stop.1 := by simp [stop, send, setSession]
    rw [h]
    exact Iax2Session.stop_keys _
  · have h : (σ.stop r).sessions x = σ.sessions x := by simp [stop, send, setSession, hx]
    rw [h]
    exact .rfl'

@[simp] theorem srcKey_stop (σ : Iax2Sessions) (r x : Ref) : (σ.stop r).srcKey x = σ.srcKey x :=
  (stop_sessions σ r x).1

@[simp] theorem destKey_stop (σ : Iax2Sessions) (r x : Ref) : (σ.stop r).destKey x = σ.destKey x :=
  (stop_sessions σ r x).2

theorem bySrc_stop (σ : Iax2Sessions) (r : Ref) :
    (σ.stop r).bySrcIpAndCallNo = eraseKey σ.bySrcIpAndCallNo (σ.srcKey r) := by
  have h := (Iax2Session.stop_keys (σ.sessions r)).1
  simp only [stop, send, setSession, h, srcKey]

theorem byDest_stop (σ : Iax2Sessions) (r : Ref) :
    (σ.stop r).byDestIpAndCallNo = eraseKey σ.byDestIpAndCallNo (σ.destKey r) := by
  have h := (Iax2Session.stop_keys (σ.sessions r)).2
  simp only [stop, send, setSession, h, destKey]

theorem TableInv.getElem?_src_stop (hi : TableInv σ) (r : Ref) (k : String) :
    (σ.stop r).bySrcIpAndCallNo[k]? =
      if σ.srcKey r = k then none else σ.bySrcIpAndCallNo[k]? := by
  rw [bySrc_stop, getElem?_eraseKey hi.src_empty]

theorem TableInv.getElem?_dest_stop (hi : TableInv σ) (r : Ref) (k : String) :
    (σ.stop r).byDestIpAndCallNo[k]? =
      if σ.destKey r = k then none else σ.byDestIpAndCallNo[k]? := by
  rw [byDest_stop, getElem?_eraseKey hi.dest_empty]

theorem TableInv.of_src_stop (hi : TableInv σ) (h : (σ.stop r).bySrcIpAndCallNo[k]? = some x) :
    σ.bySrcIpAndCallNo[k]? = some x ∧ σ.srcKey r ≠ k := by
  rw [hi.getElem?_src_stop] at h
  split at h
  · cases h
  · rename_i hk
    exact ⟨h, hk⟩

theorem TableInv.of_dest_stop (hi : TableInv σ) (h : (σ.stop r).byDestIpAndCallNo[k]? = some x) :
    σ.byDestIpAndCallNo[k]? = some x ∧ σ.destKey r ≠ k := by
  rw [hi.getElem?_dest_stop] at h
  split at h
  · cases h
  · rename_i hk
    exact ⟨h, hk⟩

/-- No other session is found by the session's keys. -/
structure Owns (σ : Iax2Sessions) (r : Ref) : Prop where
  src : ∀ x, σ.bySrcIpAndCallNo[σ.srcKey r]? = some x → x = r
  dest : ∀ x, σ.byDestIpAndCallNo[σ.destKey r]? = some x → x = r

theorem TableInv.src_of_refers (hi : TableInv σ) (h : σ.Refers r) :
    σ.bySrcIpAndCallNo[σ.srcKey r]? = some r := by
  obtain ⟨k, hk | hk⟩ := h
  · rw [hi.src k r hk]
    exact hk
  · exact hi.src_of_dest k r hk

theorem TableInv.owns (hi : TableInv σ) (h : σ.Refers r) : σ.Owns r := by
  have hsrc := hi.src_of_refers h
  constructor
  · intro x hx
    rw [hsrc] at hx
    exact (Option.some.inj hx).symm
  · intro x hx
    have hne : σ.destKey r ≠ "" := by
      intro he
      rw [he, hi.dest_empty] at hx
      cases hx
    rw [hi.dest_of_src _ r hsrc hne] at hx
    exact (Option.some.inj hx).symm

theorem TableInv.stop (hi : TableInv σ) (ho : σ.Owns r) : TableInv (σ.stop r) := by
  constructor
  · intro k x hx
    rw [srcKey_stop]
    exact hi.src k x (hi.of_src_stop hx).1
  · intro k x hx
    rw [destKey_stop]
    exact hi.dest k x (hi.of_dest_stop hx).1
  · intro k x hx
    obtain ⟨hx, hk⟩ := hi.of_dest_stop hx
    have hsrc := hi.src_of_dest k x hx
    rw [srcKey_stop, hi.getElem?_src_stop, if_neg]
    · exact hsrc
    · -- the session with `r`'s source key is `r`, whose destination key has been erased
      intro he
      have hxr : x = r := ho.src x (by rw [he]; exact hsrc)
      rw [hxr] at hx
      exact hk (hi.dest k r hx)
  · intro k x hx hne
    obtain ⟨hx, hk⟩ := hi.of_src_stop hx
    rw [destKey_stop] at hne ⊢
    have hdest := hi.dest_of_src k x hx hne
    rw [hi.getElem?_dest_stop, if_neg]
    · exact hdest
    · intro he
      have hxr : x = r := ho.dest x (by rw [he]; exact hdest)
      rw [hxr] at hx
      exact hk (hi.src k r hx)
  · intro k x hx
    exact hi.created k x (hi.of_src_stop hx).1
  · rw [hi.getElem?_src_stop]
    split
    · rfl
    · exact hi.src_empty
  · rw [hi.getElem?_dest_stop]
    split
    · rfl
    · exact hi.dest_empty

/-- Stopping another session leaves it so that nobody else is found by the session's keys. -/
theorem TableInv.owns_stop (hi : TableInv σ) (ho : σ.Owns x) (r : Ref) : (σ.stop r).Owns x := by
  constructor
  · intro y hy
    rw [srcKey_stop] at hy
    exact ho.src y (hi.of_src_stop hy).1
  · intro y hy
    rw [destKey_stop] at hy
    exact ho.dest y (hi.of_dest_stop hy).1

theorem TableInv.stopClears (hi : TableInv σ) (h : σ.Refers r) : σ.StopClears r := by
  have ho := hi.owns h
  constructor
  · intro k hk
    obtain ⟨hk, hne⟩ := hi.of_src_stop hk
    exact hne (hi.src k r hk)
  · intro k hk
    obtain ⟨hk, hne⟩ := hi.of_dest_stop hk
    exact hne (hi.dest k r hk)
  · intro k x hx hk
    rw [hi.getElem?_src_stop, if_neg]
    · exact hk
    · intro he
      rw [← he] at hk
      exact hx (ho.src x hk)
  · intro k x hx hk
    rw [hi.getElem?_dest_stop, if_neg]
    · exact hk
    · intro he
      rw [← he] at hk
      exact hx (ho.dest x hk)

theorem TableInv.tablesOk (hi : TableInv σ) : TablesOk σ where
  src k r h := (hi.src k r h).symm
  dest k r h := (hi.dest k r h).symm
  stops _ h := hi.stopClears h

/-! ## The operations keep the invariant -/

theorem TableInv.stopFound (hi : TableInv σ) (found : Option Ref)
    (h : ∀ r, found = some r → σ.Refers r) : TableInv (σ.stopFound found) := by
  cases found with
  | none => exact hi
  | some r => exact hi.stop (hi.owns (h r rfl))

theorem TableInv.reportIax2Hangup (hi : TableInv σ) (bye : Iax2PeerInfo) :
    TableInv (σ.reportIax2Hangup bye) := by
  unfold Iax2Sessions.reportIax2Hangup
  set receiver := ipAndCallNo bye.receiverIp bye.receiverCallno
  set sender := ipAndCallNo bye.senderIp bye.senderCallno
  dsimp only
  have h₁ := hi.stopFound σ.bySrcIpAndCallNo[receiver]? fun r h => ⟨_, .inl h⟩
  have h₂ := h₁.stopFound (TreeMap.get? (Iax2Sessions.bySrcIpAndCallNo _) sender)
    fun r h => ⟨_, .inl h⟩
  have h₃ := h₂.stopFound (TreeMap.get? (Iax2Sessions.byDestIpAndCallNo _) receiver)
    fun r h => ⟨_, .inr h⟩
  exact h₃.stopFound _ fun r h => ⟨_, .inr h⟩

theorem TableInv.stopEach (rs : List Ref) : ∀ {σ : Iax2Sessions}, TableInv σ → (∀ r ∈ rs, σ.Owns r) →
    TableInv (σ.stopEach rs) := by
  induction rs with
  | nil =>
    intro σ hi _
    exact hi
  | cons r rs ih =>
    intro σ hi ho
    have hr : TableInv (σ.stop r) := hi.stop (ho r (List.mem_cons_self ..))
    exact ih hr fun x hx => hi.owns_stop (ho x (List.mem_cons_of_mem _ hx)) r

theorem mem_toDismiss {m : TreeMap String Ref} {now : Int} (h : r ∈ σ.toDismiss cfg m now) :
    ∃ k : String, m[k]? = some r := by
  obtain ⟨h, -⟩ := List.mem_filter.1 h
  obtain ⟨⟨k, x⟩, hkx, rfl⟩ := List.mem_map.1 h
  exact ⟨k, TreeMap.mem_toList_iff_getElem?_eq_some.1 hkx⟩

theorem TableInv.hoover (hi : TableInv σ) (now : Int) : TableInv (σ.hoover cfg now) := by
  unfold Iax2Sessions.hoover
  have h₁ := hi.stopEach (σ.toDismiss cfg σ.bySrcIpAndCallNo now) fun r hr => by
    obtain ⟨k, hk⟩ := mem_toDismiss hr
    exact hi.owns ⟨k, .inl hk⟩
  exact h₁.stopEach _ fun r hr => by
    obtain ⟨k, hk⟩ := mem_toDismiss hr
    exact h₁.owns ⟨k, .inr hk⟩

/-- A session object replaced by one with the same keys. -/
theorem TableInv.setSession (hi : TableInv σ) {s : Iax2Session} (h : (σ.sessions r).SameKeys s) :
    TableInv (σ.setSession r s) := by
  refine hi.congr (fun _ => rfl) (fun _ => rfl) rfl fun x => ?_
  by_cases hx : x = r
  · subst hx
    simpa [Iax2Sessions.setSession] using h
  · simp [Iax2Sessions.setSession, hx, Iax2Session.SameKeys]

theorem TableInv.givePacket (hi : TableInv σ) (h : σ.Refers r) (p : Ref) (now : Int) :
    TableInv (σ.givePacket cfg r p now).1 := by
  unfold Iax2Sessions.givePacket
  have hk := Iax2Session.addIax2Packet_keys (σ.sessions r) cfg σ.packets p now
  set a := (σ.sessions r).addIax2Packet cfg σ.packets p now
  set σ₁ : Iax2Sessions := { (σ.setSession r a.session).send a.outputs with packets := a.packets }
  have hi₁ : TableInv σ₁ := (hi.setSession hk).congr (fun _ => rfl) (fun _ => rfl) rfl fun _ => .rfl'
  dsimp only
  split
  · exact hi₁
  · exact hi₁.stop (hi₁.owns h)

theorem TableInv.reportIax2Packet (hi : TableInv σ) (p : Ref) (now : Int) :
    TableInv (σ.reportIax2Packet cfg p now).1 := by
  unfold Iax2Sessions.reportIax2Packet
  dsimp only
  split
  · rename_i r hr
    exact hi.givePacket ⟨_, .inl hr⟩ p now
  · split
    · rename_i r hr
      exact hi.givePacket ⟨_, .inr hr⟩ p now
    · exact hi

/-- A new session, under a source key that nobody is found by. -/
theorem TableInv.create (hi : TableInv σ) (invite : Iax2NewInfo) (now : Int)
    (hfree : σ.bySrcIpAndCallNo[ipAndCallNo invite.senderIp invite.callNo]? = none) :
    TableInv (σ.create cfg invite now) := by
  have hne := ipAndCallNo_ne_empty invite.senderIp invite.callNo
  obtain ⟨hnewSrc, hnewDest⟩ :=
    Iax2Session.newFor_keys cfg σ.alphaCounter.getNext.2 invite now
  set key := ipAndCallNo invite.senderIp invite.callNo
  set σ' := σ.create cfg invite now with hσ'
  have hs : σ'.srcKey σ.created = key := by
    simpa [hσ', Iax2Sessions.create, Iax2Sessions.setSession, srcKey] using hnewSrc
  have hd : σ'.destKey σ.created = "" := by
    simpa [hσ', Iax2Sessions.create, Iax2Sessions.setSession, destKey] using hnewDest
  have hold : ∀ x, x < σ.created → σ'.sessions x = σ.sessions x := by
    intro x hx
    simp [hσ', Iax2Sessions.create, Iax2Sessions.setSession, Nat.ne_of_lt hx]
  have hbySrc : ∀ k : String, σ'.bySrcIpAndCallNo[k]? =
      if key = k then some σ.created else σ.bySrcIpAndCallNo[k]? := by
    intro k
    have hm : σ'.bySrcIpAndCallNo = σ.bySrcIpAndCallNo.insertIfNew key σ.created := by
      simp only [hσ', Iax2Sessions.create, Iax2Sessions.setSession, hnewSrc]
    rw [hm, getElem?_insertIfNew]
    simp [hfree]
  have hlt : ∀ (k : String) (x : Ref), σ.byDestIpAndCallNo[k]? = some x → x < σ.created := fun k x h =>
    hi.created _ x (hi.src_of_dest k x h)
  constructor
  · intro k x hx
    rw [hbySrc] at hx
    split at hx
    · rename_i hk
      cases hx
      rw [hs, hk]
    · rw [srcKey, hold x (hi.created k x hx)]
      exact hi.src k x hx
  · intro k x hx
    rw [destKey, hold x (hlt k x hx)]
    exact hi.dest k x hx
  · intro k x hx
    have hsrc := hi.src_of_dest k x hx
    rw [srcKey, hold x (hlt k x hx), hbySrc, if_neg]
    · exact hsrc
    · intro he
      rw [he] at hfree
      exact absurd (hfree.symm.trans hsrc) (by simp)
  · intro k x hx hdx
    rw [hbySrc] at hx
    split at hx
    · cases hx
      exact absurd hd hdx
    · have hlt := hi.created k x hx
      rw [destKey, hold x hlt] at hdx ⊢
      exact hi.dest_of_src k x hx hdx
  · intro k x hx
    have hc : σ'.created = σ.created + 1 := rfl
    rw [hbySrc] at hx
    rw [hc]
    split at hx
    · cases hx
      exact Nat.lt_succ_self _
    · exact Nat.lt_succ_of_lt (hi.created k x hx)
  · rw [hbySrc, if_neg hne]
    exact hi.src_empty
  · exact hi.dest_empty

theorem TableInv.reportIax2New (hi : TableInv σ) (invite : Iax2NewInfo) (now : Int) :
    TableInv (σ.reportIax2New cfg invite now) := by
  unfold Iax2Sessions.reportIax2New
  split
  · rename_i hfree
    exact hi.create invite now hfree
  · rename_i r hr
    split
    · exact hi
    · have hi' : TableInv (σ.stop r) := hi.stop (hi.owns ⟨_, .inl hr⟩)
      refine hi'.create invite now ?_
      rw [hi.getElem?_src_stop, if_pos (hi.src _ r hr)]

/-- A session without a destination key gets one that nobody is found by. -/
theorem TableInv.register (hi : TableInv σ) {s : Iax2Session} {src dest : String}
    (hr : σ.bySrcIpAndCallNo[src]? = some r) (hnone : σ.destKey r = "")
    (hfree : σ.byDestIpAndCallNo[dest]? = none) (hne : dest ≠ "")
    (hs : s.srcIpAndCallNo = σ.srcKey r) (hd : s.destIpAndCallNo = dest) :
    TableInv { σ.setSession r s with
      byDestIpAndCallNo := σ.byDestIpAndCallNo.insertIfNew dest r } := by
  set σ' : Iax2Sessions := { σ.setSession r s with
    byDestIpAndCallNo := σ.byDestIpAndCallNo.insertIfNew dest r } with hσ'
  have hsrc : ∀ x, σ'.srcKey x = σ.srcKey x := by
    intro x
    by_cases hx : x = r
    · subst hx
      simpa [hσ', srcKey, Iax2Sessions.setSession] using hs
    · simp [hσ', srcKey, Iax2Sessions.setSession, hx]
  have hdest : ∀ x, σ'.destKey x = if x = r then dest else σ.destKey x := by
    intro x
    by_cases hx : x = r
    · subst hx
      simpa [hσ', destKey, Iax2Sessions.setSession] using hd
    · simp [hσ', destKey, Iax2Sessions.setSession, hx]
  have hby : ∀ k : String, σ'.byDestIpAndCallNo[k]? =
      if dest = k then some r else σ.byDestIpAndCallNo[k]? := by
    intro k
    rw [hσ', getElem?_insertIfNew]
    simp [hfree]
  have hnr : ∀ k : String, σ.byDestIpAndCallNo[k]? ≠ some r := by
    -- `r` has no destination key yet, and nothing is found by an empty one
    intro k hk
    have hkr : σ.destKey r = k := hi.dest k r hk
    rw [hnone] at hkr
    subst hkr
    rw [hi.dest_empty] at hk
    cases hk
  have hbySrc : σ'.bySrcIpAndCallNo = σ.bySrcIpAndCallNo := rfl
  constructor
  · intro k x hx
    rw [hsrc]
    exact hi.src k x hx
  · intro k x hx
    rw [hby] at hx
    rw [hdest]
    split at hx
    · rename_i hk
      cases hx
      rw [if_pos rfl, hk]
    · have hxr : x ≠ r := fun e => hnr k (e ▸ hx)
      rw [if_neg hxr]
      exact hi.dest k x hx
  · intro k x hx
    rw [hby] at hx
    rw [hsrc, hbySrc]
    split at hx
    · cases hx
      rw [hi.src src r hr]
      exact hr
    · exact hi.src_of_dest k x hx
  · intro k x hx hdx
    rw [hdest] at hdx ⊢
    rw [hby]
    by_cases hxr : x = r
    · simp [hxr]
    · rw [if_neg hxr] at hdx ⊢
      have hx' := hi.dest_of_src k x hx hdx
      rw [if_neg]
      · exact hx'
      · intro he
        rw [← he, hfree] at hx'
        cases hx'
  · exact hi.created
  · exact hi.src_empty
  · rw [hby, if_neg hne]
    exact hi.dest_empty

theorem TableInv.reportIax2Authreq (hi : TableInv σ) {info : Iax2PeerInfo}
    (hfree : σ.KeyFree (.authreq info)) : TableInv (σ.reportIax2Authreq info) := by
  unfold Iax2Sessions.reportIax2Authreq
  dsimp only
  split
  · exact hi
  · rename_i r hr
    rcases hfree r hr with hsame | ⟨hnone, hfree⟩
    · -- the session is already found by the sender's key
      have hne : σ.destKey r ≠ "" := by
        rw [hsame]
        exact ipAndCallNo_ne_empty _ _
      have hfound := hi.dest_of_src _ r hr hne
      rw [hsame] at hfound
      have hi' : TableInv (σ.setSession r { (σ.sessions r).reportIax2Authreq info with
          destIpAndCallNo := ipAndCallNo info.senderIp info.senderCallno, state := .waiting }) :=
        hi.setSession ⟨rfl, hsame.symm⟩
      refine hi'.congr (fun _ => rfl) (fun k => ?_) rfl fun _ => .rfl'
      rw [getElem?_insertIfNew]
      split
      · rename_i hk
        have hnone : σ.byDestIpAndCallNo[_]? = none := hk.2
        rw [hfound] at hnone
        cases hnone
      · rfl
    · exact hi.register hr hnone hfree (ipAndCallNo_ne_empty _ _) rfl rfl

theorem TableInv.reportIax2Accept (hi : TableInv σ) {info : Iax2PeerInfo}
    (hfree : σ.KeyFree (.accept info)) : TableInv (σ.reportIax2Accept info) := by
  unfold Iax2Sessions.reportIax2Accept
  dsimp only
  split
  · exact hi
  · rename_i r hr
    split
    · exact hi.setSession ⟨rfl, rfl⟩
    · rename_i hnone
      exact hi.register hr (hfree r hr hnone) hnone (ipAndCallNo_ne_empty _ _) rfl rfl

/-- A step that is `KeyFree` keeps the invariant. -/
theorem TableInv.step (hi : TableInv σ) (op : Op) (hfree : σ.KeyFree op) :
    TableInv (σ.step cfg op) := by
  cases op with
  | new invite now => exact hi.reportIax2New invite now
  | authreq info => exact hi.reportIax2Authreq hfree
  | accept info => exact hi.reportIax2Accept hfree
  | hangup info => exact hi.reportIax2Hangup info
  | packet p iax2Packet now =>
    have hi' : TableInv { σ with packets := Function.update σ.packets p iax2Packet } :=
      hi.congr (fun _ => rfl) (fun _ => rfl) rfl fun _ => .rfl'
    exact hi'.reportIax2Packet p now
  | hoover now => exact hi.hoover now
  | stopAll now => exact hi.hoover _

/-! ## A step that is not `KeyFree` breaks the tables -/

/-- A session that gets another destination key is still found by the old one. -/
theorem TableInv.not_ok_of_rekey (hi : TableInv σ) {src : String}
    (hr : σ.bySrcIpAndCallNo[src]? = some r) (hne : σ.destKey r ≠ "")
    (hkey : σ'.destKey r ≠ σ.destKey r)
    (hkeep : ∀ (k : String) (x : Ref), σ.byDestIpAndCallNo[k]? = some x →
      σ'.byDestIpAndCallNo[k]? = some x) : ¬ TablesOk σ' := by
  intro hok
  have hold := hi.dest_of_src src r hr hne
  exact hkey (hok.dest _ r (hkeep _ r hold)).symm

/-- Stopping a session that has another's destination key removes the other. -/
theorem not_ok_of_shared {src dest : String} (hne : dest ≠ "")
    (hr : σ.bySrcIpAndCallNo[src]? = some r) (hx : σ.byDestIpAndCallNo[dest]? = some x)
    (hxr : x ≠ r) (hkey : σ.destKey r = dest) : ¬ TablesOk σ := by
  intro hok
  have hkeep := (hok.stops r ⟨src, .inl hr⟩).dest_keep dest x hxr hx
  rw [byDest_stop, hkey, eraseKey, if_pos hne, getElem?_erase, if_pos rfl] at hkeep
  cases hkeep

theorem keep_insertIfNew {m : TreeMap String Ref} {key : String}
    (h : m[k]? = some x) : (m.insertIfNew key r)[k]? = some x := by
  rw [getElem?_insertIfNew]
  split
  · rename_i hk
    obtain ⟨rfl, hnone⟩ := hk
    rw [hnone] at h
    cases h
  · exact h

theorem TableInv.keyFree_of_authreq (hi : TableInv σ) {info : Iax2PeerInfo}
    (hok : TablesOk (σ.reportIax2Authreq info)) : σ.KeyFree (.authreq info) := by
  intro r hr
  by_contra hcon
  set dest := ipAndCallNo info.senderIp info.senderCallno with hdest
  set σ' := σ.reportIax2Authreq info with hσ'
  have hkey : σ'.destKey r = dest := by
    simp [hσ', Iax2Sessions.reportIax2Authreq, hr, destKey, Iax2Sessions.setSession, hdest]
  have hby : σ'.byDestIpAndCallNo = σ.byDestIpAndCallNo.insertIfNew dest r := by
    simp [hσ', Iax2Sessions.reportIax2Authreq, hr, Iax2Sessions.setSession, hdest]
  have hsrc : σ'.bySrcIpAndCallNo = σ.bySrcIpAndCallNo := by
    simp [hσ', Iax2Sessions.reportIax2Authreq, hr, Iax2Sessions.setSession]
  have hkeep : ∀ (k : String) (x : Ref), σ.byDestIpAndCallNo[k]? = some x →
      σ'.byDestIpAndCallNo[k]? = some x := by
    intro k x h
    rw [hby]
    exact keep_insertIfNew h
  push Not at hcon
  obtain ⟨hne, hfree⟩ := hcon
  by_cases hnone : σ.destKey r = ""
  · obtain ⟨x, hx⟩ := Option.ne_none_iff_exists'.1 (hfree hnone)
    have hxr : x ≠ r := by
      intro e
      have hd : σ.destKey x = dest := hi.dest _ _ hx
      rw [e] at hd
      exact hne hd
    have hr' : σ'.bySrcIpAndCallNo[_]? = some r := hsrc ▸ hr
    exact not_ok_of_shared (ipAndCallNo_ne_empty _ _) hr' (hkeep _ _ hx) hxr hkey hok
  · refine hi.not_ok_of_rekey hr hnone ?_ hkeep hok
    rw [hkey]
    exact fun e => hne e.symm

theorem TableInv.keyFree_of_accept (hi : TableInv σ) {info : Iax2PeerInfo}
    (hok : TablesOk (σ.reportIax2Accept info)) : σ.KeyFree (.accept info) := by
  intro r hr hfree
  by_contra hne
  set dest := ipAndCallNo info.senderIp info.senderCallno with hdest
  set σ' := σ.reportIax2Accept info with hσ'
  have hkey : σ'.destKey r = dest := by
    simp [hσ', Iax2Sessions.reportIax2Accept, hr, hfree, destKey, Iax2Sessions.setSession, ← hdest,
      Iax2Session.reportIax2Accept]
  have hby : σ'.byDestIpAndCallNo = σ.byDestIpAndCallNo.insertIfNew dest r := by
    simp [hσ', Iax2Sessions.reportIax2Accept, hr, hfree, Iax2Sessions.setSession, ← hdest]
  refine hi.not_ok_of_rekey hr hne ?_ (fun k x h => ?_) hok
  · -- the old key is in use, the new one is not
    intro e
    have hold := hi.dest_of_src _ r hr hne
    rw [← e, hkey, hfree] at hold
    cases hold
  · rw [hby]
    exact keep_insertIfNew h

theorem TableInv.keyFree_of_step (hi : TableInv σ) (op : Op) (hok : TablesOk (σ.step cfg op)) :
    σ.KeyFree op := by
  cases op with
  | authreq info => exact hi.keyFree_of_authreq hok
  | accept info => exact hi.keyFree_of_accept hok
  | _ => trivial

/-! ## Runs -/

/-- **The tables stay consistent along a run iff no step of it gives a session a destination key
while it has another or, in an AUTHREQ, while another session is found by it.** -/
theorem tablesOk_iff_keyFree (cfg : Config) (ops : List Op) :
    Run.Always (step cfg) TablesOk {} ops ↔ Run.Meets (step cfg) KeyFree {} ops :=
  Run.always_iff_meets_of_inv (fun _ hi => hi.tablesOk) (fun _ op hi hfree => hi.step op hfree)
    (fun _ op hi hok => hi.keyFree_of_step op hok) tableInv_empty

/-- Two calls whose callee answered both AUTHREQs from its call number 5. -/
def sharedCallNo : List Op :=
  [.new { senderIp := ⟨10, 0, 0, 1⟩, receiverIp := ⟨10, 0, 0, 9⟩, callNo := 1 } 0,
   .authreq ⟨⟨10, 0, 0, 9⟩, ⟨10, 0, 0, 1⟩, 5, 1⟩,
   .new { senderIp := ⟨10, 0, 0, 2⟩, receiverIp := ⟨10, 0, 0, 9⟩, callNo := 1 } 0,
   .authreq ⟨⟨10, 0, 0, 9⟩, ⟨10, 0, 0, 2⟩, 5, 1⟩]

/-- The second session has the key under which the first is found: stopping it removes the first. -/
theorem sharedCallNo_not_ok : ¬ Run.Always (step {}) TablesOk {} sharedCallNo := by
  intro h
  have hr : (sharedCallNo.foldl (step {}) {}).bySrcIpAndCallNo["10.0.0.2,1"]? = some 1 := by
    decide
  have hx : (sharedCallNo.foldl (step {}) {}).byDestIpAndCallNo["10.0.0.9,5"]? = some 0 := by
    decide
  have hkey : (sharedCallNo.foldl (step {}) {}).destKey 1 = "10.0.0.9,5" := by
    decide
  exact not_ok_of_shared (by decide) hr hx (by decide) hkey h.last

end Iax2Sessions

end Oreka.Iax2
