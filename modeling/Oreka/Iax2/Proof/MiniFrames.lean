import Oreka.Iax2.Proof.TrunkFrames

/-!
# A mini frame, session by session

The ways of a mini frame (`report_cases`), and what it leaves: a session that takes it in keeps it on
its channel (`report_voice_of_takes`), any other keeps what it had (`report_voice_of_not_takes`), and
the frames behind it find the same sessions as without it (`heard_of_hit`).
-/

namespace Oreka.Iax2

open Iax2Session

namespace Iax2Session

variable {s t : Iax2Session} {cfg : Config}

/-- The session takes in mini frames: it is in the right state, and has heard a full frame. -/
def Listening (s : Iax2Session) : Prop := s.TakesVoice ∧ s.lastIax2Packet ≠ none

instance (s : Iax2Session) : Decidable s.Listening := inferInstanceAs (Decidable (_ ∧ _))

/-- What a session keeps of the frames it has taken in, and how many they are. -/
def voice (s : Iax2Session) : Option Ref × Option Ref × Nat :=
  (s.lastIax2PacketSide1, s.lastIax2PacketSide2, s.numIax2Packets)

/-- What does not look at the kept packets does not change them. -/
theorem IgnoresKept.kept {f : Iax2Session → Iax2Session} (hf : IgnoresKept f) (s : Iax2Session) :
    (f s).lastIax2Packet = s.lastIax2Packet ∧
      (f s).lastIax2PacketSide1 = s.lastIax2PacketSide1 ∧
      (f s).lastIax2PacketSide2 = s.lastIax2PacketSide2 :=
  have h := hf s s.lastIax2Packet s.lastIax2PacketSide1 s.lastIax2PacketSide2
  ⟨congrArg (·.lastIax2Packet) h, congrArg (·.lastIax2PacketSide1) h,
    congrArg (·.lastIax2PacketSide2) h⟩

theorem stop_voice (s : Iax2Session) : s.stop.1.voice = s.voice := by
  unfold stop
  split <;> rfl

theorem deliver_num (s : Iax2Session) (pkt : Iax2PacketInfo) (channel : UInt8) :
    (s.deliver pkt channel).1.numIax2Packets = s.numIax2Packets ∧
      (s.deliver pkt channel).1.state = s.state := by
  unfold deliver
  dsimp only
  split <;> exact ⟨rfl, rfl⟩

theorem advance_num (s : Iax2Session) (channel : UInt8) :
    (s.advance channel).numIax2Packets = s.numIax2Packets ∧
      (s.advance channel).state = s.state := by
  unfold advance
  split <;> exact ⟨rfl, rfl⟩

theorem startAtFirst_num (s : Iax2Session) (cfg : Config) (now : Int) :
    (s.startAtFirst cfg now).1.numIax2Packets = s.numIax2Packets ∧
      (s.startAtFirst cfg now).1.state = s.state := by
  unfold startAtFirst reportMetadata ensureLocalParty
  dsimp only
  split
  · split <;> exact ⟨rfl, rfl⟩
  · exact ⟨rfl, rfl⟩

theorem play_num (s : Iax2Session) (cfg : Config) (pkt : Iax2PacketInfo) (channel : UInt8)
    (now : Int) : (s.play cfg pkt channel now).1.numIax2Packets = s.numIax2Packets + 1 ∧
      (s.play cfg pkt channel now).1.state = s.state := by
  unfold play
  dsimp only
  rw [(deliver_num ..).1, (advance_num ..).1, (startAtFirst_num ..).1, (deliver_num ..).2,
    (advance_num ..).2, (startAtFirst_num ..).2]
  exact ⟨rfl, rfl⟩

theorem play_ignoresKept (cfg : Config) (pkt : Iax2PacketInfo) (channel : UInt8) (now : Int) :
    IgnoresKept fun s => (s.play cfg pkt channel now).1 := fun s l a b =>
  congrArg (·.1) (play_withKept s cfg pkt channel now l a b)

theorem play_voice (s : Iax2Session) (cfg : Config) (pkt : Iax2PacketInfo) (channel : UInt8)
    (now : Int) : (s.play cfg pkt channel now).1.voice =
      (s.lastIax2PacketSide1, s.lastIax2PacketSide2, s.numIax2Packets + 1) := by
  obtain ⟨-, h₁, h₂⟩ := (play_ignoresKept cfg pkt channel now).kept s
  unfold voice
  rw [← h₁, ← h₂, (play_num ..).1]

theorem play_keys (s : Iax2Session) (cfg : Config) (pkt : Iax2PacketInfo) (channel : UInt8)
    (now : Int) : SameKeys s (s.play cfg pkt channel now).1 := by
  have hnum : SameKeys s { s with numIax2Packets := s.numIax2Packets + 1 } := ⟨rfl, rfl⟩
  exact hnum.trans ((startAtFirst_keys ..).trans ((advance_keys ..).trans (deliver_keys ..)))

/-- What the lookups of voice see of a session. -/
structure SameOutline (s t : Iax2Session) : Prop where
  keys : SameKeys s t
  state : t.state = s.state
  last : t.lastIax2Packet = none ↔ s.lastIax2Packet = none

theorem play_outline (s : Iax2Session) (cfg : Config) (pkt : Iax2PacketInfo) (channel : UInt8)
    (now : Int) : SameOutline s (s.play cfg pkt channel now).1 where
  keys := play_keys ..
  state := (play_num ..).2
  last := by rw [((play_ignoresKept cfg pkt channel now).kept s).1]

theorem keep_outline (s : Iax2Session) (channel : UInt8) (p : Ref) :
    SameOutline s (s.keep channel p) := by
  unfold keep
  split <;> exact ⟨⟨rfl, rfl⟩, rfl, Iff.rfl⟩

theorem stop_outline (s : Iax2Session) : SameOutline s s.stop.1 := by
  unfold stop
  split <;> exact ⟨⟨rfl, rfl⟩, rfl, Iff.rfl⟩

theorem SameOutline.rfl' : SameOutline s s := ⟨.rfl', rfl, Iff.rfl⟩

theorem SameOutline.symm (h : SameOutline s t) : SameOutline t s :=
  ⟨⟨h.keys.1.symm, h.keys.2.symm⟩, h.state.symm, h.last.symm⟩

theorem SameOutline.trans {s t u : Iax2Session} (h : SameOutline s t) (h' : SameOutline t u) :
    SameOutline s u :=
  ⟨h.keys.trans h'.keys, h'.state.trans h.state, h'.last.trans h.last⟩

theorem Hears.heard {pkt : Iax2PacketInfo} (h : s.Hears pkt) (hm : pkt.frameType = .mini) :
    s.lastIax2Packet ≠ none := by
  intro hn
  have hf := h hn
  rw [hm] at hf
  cases hf

theorem received_voice (hs : s.lastIax2Packet ≠ none) {pkt : Iax2PacketInfo}
    (hm : pkt.frameType = .mini) (p : Ref) :
    s.received cfg pkt p = { s with lastIax2Packet := some p } := by
  unfold received readHeader
  simp [hs, hm]

/-! ## The place of a packet -/

/-- The session keeps `p` as the packet of one side. -/
def Keeps (s : Iax2Session) (p : Ref) : Prop :=
  s.lastIax2PacketSide1 = some p ∨ s.lastIax2PacketSide2 = some p

/-- The session keeps `p` in the one place that the next packet to `d` is compared with. -/
def Slot (s : Iax2Session) (packets : Ref → Iax2PacketInfo) (d : InAddr) (p : Ref) : Prop :=
  s.keptFor packets d = some p ∧
    ¬ (s.lastIax2PacketSide1 = some p ∧ s.lastIax2PacketSide2 = some p)

section
variable {packets packets' : Ref → Iax2PacketInfo} {d : InAddr} {p : Ref}

theorem keptFor_congr (h : ∀ x, s.Keeps x → (packets' x).destIp = (packets x).destIp)
    (d : InAddr) : s.keptFor packets' d = s.keptFor packets d := by
  unfold keptFor
  split
  · rfl
  · next l hl => rw [h l (.inl hl)]

theorem channelFor_congr (h : ∀ x, s.Keeps x → (packets' x).destIp = (packets x).destIp)
    (d : InAddr) : s.channelFor packets' d = s.channelFor packets d := by
  unfold channelFor
  split
  · rfl
  · next l hl => rw [h l (.inl hl)]

theorem keptFor_of_voice (h : t.voice = s.voice) (packets : Ref → Iax2PacketInfo) (d : InAddr) :
    t.keptFor packets d = s.keptFor packets d := by
  unfold keptFor
  rw [(Prod.mk.inj h).1, (Prod.mk.inj (Prod.mk.inj h).2).1]

theorem keeps_of_voice (h : t.voice = s.voice) : t.Keeps p ↔ s.Keeps p := by
  unfold Keeps
  rw [(Prod.mk.inj h).1, (Prod.mk.inj (Prod.mk.inj h).2).1]

theorem slot_of_voice (h : t.voice = s.voice) : t.Slot packets d p ↔ s.Slot packets d p := by
  unfold Slot
  rw [keptFor_of_voice h, (Prod.mk.inj h).1, (Prod.mk.inj (Prod.mk.inj h).2).1]

theorem keeps_of_keptFor (h : s.keptFor packets d = some p) : s.Keeps p := by
  unfold keptFor at h
  split at h
  · cases h
  · next l hl =>
    split at h
    · exact .inl (hl.trans h)
    · exact .inr h

/-- What is kept for `d` next, after a packet to `d`. -/
theorem keptFor_keep (hp : (packets p).destIp = d) (s : Iax2Session) :
    (s.keep (s.channelFor packets d) p).keptFor packets d = some p := by
  unfold channelFor keptFor
  cases hs : s.lastIax2PacketSide1 with
  | none => simp [hp]
  | some l =>
    by_cases hd : d = (packets l).destIp
    · simp [← hd, hp]
    · simp [hd, hs]

theorem slot_keep (hp : (packets p).destIp = d) (h : ¬ s.Keeps p) :
    (s.keep (s.channelFor packets d) p).Slot packets d p := by
  refine ⟨keptFor_keep hp s, ?_⟩
  unfold keep
  split
  · exact fun hb => h (.inr hb.2)
  · exact fun hb => h (.inl hb.1)

theorem keeps_keep {x : Ref} {channel : UInt8} (h : (s.keep channel p).Keeps x) :
    s.Keeps x ∨ x = p := by
  unfold keep at h
  split at h
  · obtain h | h := h
    · exact .inr (Option.some.inj h).symm
    · exact .inl (.inr h)
  · obtain h | h := h
    · exact .inl (.inl h)
    · exact .inr (Option.some.inj h).symm

/-- The timestamp of what is kept, where the kept packets are the same. -/
theorem keptTimestamp_congr (hd : ∀ x, s.Keeps x → (packets' x).destIp = (packets x).destIp)
    (hts : ∀ x, s.Keeps x → (packets' x).timestamp = (packets x).timestamp) :
    s.keptTimestamp packets' d = s.keptTimestamp packets d := by
  unfold keptTimestamp
  rw [keptFor_congr hd]
  cases hk : s.keptFor packets d with
  | none => rfl
  | some x => simp only [Option.map_some, hts x (keeps_of_keptFor hk)]

theorem keptTimestamp_of_voice (h : t.voice = s.voice) (packets : Ref → Iax2PacketInfo)
    (d : InAddr) : t.keptTimestamp packets d = s.keptTimestamp packets d := by
  unfold keptTimestamp
  rw [keptFor_of_voice h]

end

end Iax2Session

namespace Iax2Sessions

variable {σ τ : Iax2Sessions} {cfg : Config} {p q r x : Ref} {info : Iax2PacketInfo}

/-- The frames reported each through a packet object of its own, the first one through `n`. -/
def reportFresh (σ : Iax2Sessions) (cfg : Config) : Nat → List Iax2PacketInfo → Iax2Sessions
  | _, [] => σ
  | n, info :: infos => (σ.report cfg n info).1.reportFresh cfg (n + 1) infos

/-- The session that takes in a mini frame. -/
def hit (σ : Iax2Sessions) (info : Iax2PacketInfo) : Option Ref :=
  match σ.lookup info with
  | none => none
  | some r => if (σ.sessions r).Listening then some r else none

/-- The mini frames that sessions take in, each with its session. A session in the wrong state is
stopped, and not found again. -/
def heard (σ : Iax2Sessions) : List Iax2PacketInfo → List (Ref × Iax2PacketInfo)
  | [] => []
  | info :: infos =>
    match σ.lookup info with
    | none => σ.heard infos
    | some r =>
      if (σ.sessions r).TakesVoice then
        if (σ.sessions r).lastIax2Packet = none then σ.heard infos else (r, info) :: σ.heard infos
      else (σ.stop r).heard infos

/-- The session `x` takes in the frame in the packet object `p`, and does not dismiss it. -/
def Takes (σ : Iax2Sessions) (cfg : Config) (p : Ref) (info : Iax2PacketInfo) (x : Ref) : Prop :=
  σ.hit info = some x ∧ ¬ (σ.sessions x).Duplicate cfg (σ.fill p info).packets p

theorem hit_eq_some : σ.hit info = some r ↔ σ.lookup info = some r ∧ (σ.sessions r).Listening := by
  unfold hit
  cases h : σ.lookup info with
  | none => simp
  | some r' =>
    dsimp only
    split
    · next hl =>
      constructor
      · rintro ⟨rfl⟩
        exact ⟨rfl, hl⟩
      · exact (·.1)
    · next hl =>
      constructor
      · intro h'
        cases h'
      · rintro ⟨⟨rfl⟩, hl'⟩
        exact absurd hl' hl

theorem not_takes_of_none (h : σ.hit info = none) (x : Ref) : ¬ σ.Takes cfg p info x := by
  rintro ⟨hx, -⟩
  rw [h] at hx
  cases hx

theorem not_takes_of_duplicate (h : σ.hit info = some r)
    (hd : (σ.sessions r).Duplicate cfg (σ.fill p info).packets p) (x : Ref) :
    ¬ σ.Takes cfg p info x := by
  rintro ⟨hx, hnd⟩
  obtain rfl := Option.some.inj (h.symm.trans hx)
  exact hnd hd

/-! ## One frame -/

theorem take_sessions (σ : Iax2Sessions) (r : Ref) (a : Iax2Session.Added) (x : Ref) :
    (σ.take r a).sessions x = if x = r then a.session else σ.sessions x := by
  simp [take, send, setSession, Function.update_apply]

theorem sessions_stop (σ : Iax2Sessions) (r x : Ref) :
    (σ.stop r).sessions x = if x = r then (σ.sessions x).stop.1 else σ.sessions x := by
  by_cases hx : x = r
  · subst hx
    simp [stop, send, setSession]
  · simp [stop, send, setSession, hx]

theorem stop_voice (σ : Iax2Sessions) (r x : Ref) :
    ((σ.stop r).sessions x).voice = (σ.sessions x).voice := by
  rw [sessions_stop]
  split
  · exact Iax2Session.stop_voice _
  · rfl

theorem take_unchanged (σ : Iax2Sessions) (r : Ref) (ok : Bool) :
    σ.take r ⟨σ.sessions r, σ.packets, [], ok⟩ = σ := by
  unfold take setSession send
  simp

/-- The ways of a mini frame through the packet object `p`. -/
inductive Reported (cfg : Config) (p : Ref) (info : Iax2PacketInfo) (σ : Iax2Sessions) :
    Iax2Sessions → Prop
  /-- No session takes it in. -/
  | ignored : σ.hit info = none → (∀ infos, σ.heard (info :: infos) = σ.heard infos) →
      Reported cfg p info σ (σ.fill p info)
  /-- It stops the session it is for. -/
  | refused (r : Ref) : σ.hit info = none →
      (∀ infos, σ.heard (info :: infos) = (σ.stop r).heard infos) →
      Reported cfg p info σ ((σ.fill p info).stop r)
  | duplicate (r : Ref) (s : Iax2Session) : σ.hit info = some r →
      (σ.sessions r).Duplicate cfg (σ.fill p info).packets p →
      s = { σ.sessions r with lastIax2Packet := some p, hasDuplicateIax2 := true } →
      Reported cfg p info σ ((σ.fill p info).take r ⟨s, (σ.fill p info).packets, [], true⟩)
  | kept (r : Ref) (s : Iax2Session) (packets : Ref → Iax2PacketInfo) (channel : UInt8) :
      σ.hit info = some r → ¬ (σ.sessions r).Duplicate cfg (σ.fill p info).packets p →
      channel = (σ.sessions r).channelFor (σ.fill p info).packets info.destIp →
      s = { σ.sessions r with lastIax2Packet := some p }.keep channel p →
      Reported cfg p info σ ((σ.fill p info).take r
        ⟨(s.play cfg info channel info.arrivalTimestamp).1, packets,
          (s.play cfg info channel info.arrivalTimestamp).2, true⟩)

theorem report_cases (σ : Iax2Sessions) (cfg : Config) (p : Ref) (hm : info.frameType = .mini) :
    Reported cfg p info σ (σ.report cfg p info).1 := by
  cases hl : σ.lookup info with
  | none =>
    rw [report_of_none hl]
    exact .ignored (by simp [hit, hl]) fun infos => by simp [heard, hl]
  | some r =>
    have hinfo : (σ.fill p info).packets p = info := fill_packets_self σ p info
    rw [report_of_some hl, givePacket_fst, show (σ.fill p info).sessions r = σ.sessions r from rfl]
    by_cases hv : (σ.sessions r).TakesVoice
    · by_cases hlast : (σ.sessions r).lastIax2Packet = none
      · have hh : ¬ (σ.sessions r).Hears ((σ.fill p info).packets p) := by
          simp [Hears, hlast, hm]
        rw [addIax2Packet_unheard hv hh, if_pos rfl]
        have hsame := take_unchanged (σ.fill p info) r true
        rw [show (σ.fill p info).sessions r = σ.sessions r from rfl] at hsame
        rw [hsame]
        exact .ignored (by simp [hit, hl, Listening, hlast])
          fun infos => by simp [heard, hl, hv, hlast]
      · have hh : (σ.sessions r).Hears ((σ.fill p info).packets p) := fun h => absurd h hlast
        have hhit : σ.hit info = some r := hit_eq_some.2 ⟨hl, hv, hlast⟩
        by_cases hd : (σ.sessions r).Duplicate cfg (σ.fill p info).packets p
        · rw [addIax2Packet_duplicate hv hh hd, if_pos rfl, hinfo, received_voice hlast hm]
          exact .duplicate r _ hhit hd rfl
        · obtain ⟨packets, -, he⟩ := addIax2Packet_kept info.arrivalTimestamp hv hh hd
          rw [he, if_pos rfl, hinfo]
          refine .kept r _ packets _ hhit hd rfl ?_
          unfold Iax2Session.kept
          rw [hinfo, received_voice hlast hm]
    · rw [addIax2Packet_refused hv, if_neg Bool.false_ne_true]
      have hsame := take_unchanged (σ.fill p info) r false
      rw [show (σ.fill p info).sessions r = σ.sessions r from rfl] at hsame
      rw [hsame]
      exact .refused r (by simp [hit, hl, Listening, hv]) fun infos => by simp [heard, hl, hv]

/-! ## What a frame leaves -/

/-- The tables are the same, and so is what the lookups of voice see of each session. -/
structure SameOutline (σ τ : Iax2Sessions) : Prop where
  bySrc : τ.bySrcIpAndCallNo = σ.bySrcIpAndCallNo
  byDest : τ.byDestIpAndCallNo = σ.byDestIpAndCallNo
  sessions : ∀ r, (σ.sessions r).SameOutline (τ.sessions r)

theorem SameOutline.stop (h : SameOutline σ τ) (r : Ref) : SameOutline (σ.stop r) (τ.stop r) where
  bySrc := by
    rw [bySrc_stop, bySrc_stop, h.bySrc]
    exact congrArg _ (h.sessions r).keys.1
  byDest := by
    rw [byDest_stop, byDest_stop, h.byDest]
    exact congrArg _ (h.sessions r).keys.2
  sessions x := by
    have hout (σ : Iax2Sessions) : (σ.sessions x).SameOutline ((σ.stop r).sessions x) := by
      rw [sessions_stop]
      split
      · exact stop_outline _
      · exact .rfl'
    exact (hout σ).symm.trans ((h.sessions x).trans (hout τ))

theorem SameOutline.heard (h : SameOutline σ τ) (infos : List Iax2PacketInfo) :
    τ.heard infos = σ.heard infos := by
  induction infos generalizing σ τ with
  | nil => rfl
  | cons info infos ih =>
    unfold Iax2Sessions.heard
    have hl : τ.lookup info = σ.lookup info := by
      unfold lookup
      rw [h.bySrc, h.byDest]
    rw [hl]
    cases σ.lookup info with
    | none => exact ih h
    | some r =>
      have hv : (τ.sessions r).TakesVoice ↔ (σ.sessions r).TakesVoice := by
        unfold TakesVoice
        rw [(h.sessions r).state]
      simp only [hv, (h.sessions r).last, ih h, ih (h.stop r)]

theorem SameOutline.take {a : Iax2Session.Added} (h : (σ.sessions r).SameOutline a.session) :
    SameOutline σ (σ.take r a) where
  bySrc := rfl
  byDest := rfl
  sessions x := by
    rw [take_sessions]
    split
    · next hx =>
      subst hx
      exact h
    · exact .rfl'

section
variable (hm : info.frameType = .mini)
include hm

theorem heard_of_hit_none (σ : Iax2Sessions) (cfg : Config) (p : Ref) (h : σ.hit info = none)
    (infos : List Iax2PacketInfo) :
    σ.heard (info :: infos) = (σ.report cfg p info).1.heard infos := by
  have hfill : SameOutline σ (σ.fill p info) := ⟨rfl, rfl, fun _ => .rfl'⟩
  have hcases := report_cases σ cfg p hm
  generalize (σ.report cfg p info).1 = σ' at hcases ⊢
  cases hcases with
  | ignored _ hh => rw [hh, hfill.heard]
  | refused r _ hh => rw [hh, (hfill.stop r).heard]
  | duplicate r s hr => rw [h] at hr; cases hr
  | kept r s packets channel hr => rw [h] at hr; cases hr

theorem heard_of_hit (σ : Iax2Sessions) (cfg : Config) (p : Ref) (h : σ.hit info = some r)
    (infos : List Iax2PacketInfo) :
    σ.heard (info :: infos) = (r, info) :: (σ.report cfg p info).1.heard infos := by
  have hfill : SameOutline σ (σ.fill p info) := ⟨rfl, rfl, fun _ => .rfl'⟩
  obtain ⟨hl, hv, hlast⟩ := hit_eq_some.1 h
  have hcons : σ.heard (info :: infos) = (r, info) :: σ.heard infos := by
    simp [heard, hl, hv, hlast]
  have hset : (σ.sessions r).SameOutline { σ.sessions r with lastIax2Packet := some p } :=
    ⟨.rfl', rfl, by simp [hlast]⟩
  rw [hcons]
  have hcases := report_cases σ cfg p hm
  generalize (σ.report cfg p info).1 = σ' at hcases ⊢
  cases hcases with
  | ignored hr => rw [h] at hr; cases hr
  | refused r hr => rw [h] at hr; cases hr
  | duplicate r' s hr _ hs =>
    obtain rfl := Option.some.inj (h.symm.trans hr)
    have hs' : (σ.sessions r).SameOutline s := by
      rw [hs]
      exact ⟨.rfl', rfl, by simp [hlast]⟩
    have htake := SameOutline.take (σ := σ.fill p info) (r := r)
      (a := ⟨s, (σ.fill p info).packets, [], true⟩) hs'
    rw [htake.heard, hfill.heard]
  | kept r' s packets channel hr _ _ hs =>
    obtain rfl := Option.some.inj (h.symm.trans hr)
    have hs' : (σ.sessions r).SameOutline s := by
      rw [hs]
      exact hset.trans (keep_outline ..)
    have htake := SameOutline.take (σ := σ.fill p info) (r := r)
      (a := ⟨(s.play cfg info channel info.arrivalTimestamp).1, packets,
        (s.play cfg info channel info.arrivalTimestamp).2, true⟩) (hs'.trans (play_outline ..))
    rw [htake.heard, hfill.heard]

/-- A session that does not take the frame in keeps what it had. -/
theorem report_voice_of_not_takes (σ : Iax2Sessions) (cfg : Config) (p : Ref)
    (h : ¬ σ.Takes cfg p info x) :
    ((σ.report cfg p info).1.sessions x).voice = (σ.sessions x).voice := by
  have hcases := report_cases σ cfg p hm
  generalize (σ.report cfg p info).1 = σ' at hcases ⊢
  cases hcases with
  | ignored => rfl
  | refused r => exact stop_voice _ _ _
  | duplicate r s _ _ hs =>
    rw [take_sessions]
    split
    · next hx =>
      subst hx
      rw [hs]
      rfl
    · rfl
  | kept r s packets channel hr hd =>
    rw [take_sessions, if_neg]
    · rfl
    · rintro rfl
      exact h ⟨hr, hd⟩

/-- A session that takes the frame in keeps it on its channel. -/
theorem report_voice_of_takes (σ : Iax2Sessions) (cfg : Config) (p : Ref)
    (h : σ.Takes cfg p info x) :
    ((σ.report cfg p info).1.sessions x).voice =
      (((σ.sessions x).keep ((σ.sessions x).channelFor (σ.fill p info).packets info.destIp)
          p).lastIax2PacketSide1,
        ((σ.sessions x).keep ((σ.sessions x).channelFor (σ.fill p info).packets info.destIp)
          p).lastIax2PacketSide2, (σ.sessions x).numIax2Packets + 1) := by
  obtain ⟨hx, hnd⟩ := h
  have hcases := report_cases σ cfg p hm
  generalize (σ.report cfg p info).1 = σ' at hcases ⊢
  cases hcases with
  | ignored hr => rw [hx] at hr; cases hr
  | refused r hr => rw [hx] at hr; cases hr
  | duplicate r s hr hd =>
    obtain rfl := Option.some.inj (hx.symm.trans hr)
    exact absurd hd hnd
  | kept r s packets channel hr _ hc hs =>
    obtain rfl := Option.some.inj (hx.symm.trans hr)
    rw [take_sessions, if_pos rfl, play_voice, hs, hc]
    unfold keep
    split <;> rfl

end

end Iax2Sessions

end Oreka.Iax2
