import Oreka.VoIp.VoIpSession

/-!
# The way of a packet through AddRtpPacket

`AddRtpPacket` gets to the choice of a channel (`toPlace`), or it returns true and leaves the two sides of the
session as they are, but for a first packet of a side (`addRtpPacket_of_toPlace`, `addRtpPacket_of_not_toPlace`).
What comes before does not touch the sides.
-/

namespace Oreka.VoIp

/-- What tells the streams of a session apart. -/
structure Sides where
  lastRtpPacketSide1 : Option RtpPacketInfo
  lastRtpPacketSide2 : Option RtpPacketInfo
  mappedS1S2 : Bool
  numAlienRtpPacketsS1 : Nat
  numAlienRtpPacketsS2 : Nat
  ssrcCandidate : UInt32

/-- Whether a session is on hold, and for how long it has been. -/
structure Hold where
  onHold : Bool
  holdBegin : Int
  holdDuration : Int

def Hold.on (h : Hold) (t : Int) : Hold := { h with onHold := true, holdBegin := t }

def Hold.off (h : Hold) (t : Int) : Hold :=
  { h with onHold := false, holdDuration := h.holdDuration + (t - h.holdBegin) }

def Sides.swap (s : Sides) : Sides :=
  { s with lastRtpPacketSide1 := s.lastRtpPacketSide2, lastRtpPacketSide2 := s.lastRtpPacketSide1 }

namespace VoIpCall

def sides (c : VoIpCall) : Sides where
  lastRtpPacketSide1 := c.lastRtpPacketSide1
  lastRtpPacketSide2 := c.lastRtpPacketSide2
  mappedS1S2 := c.mappedS1S2
  numAlienRtpPacketsS1 := c.numAlienRtpPacketsS1
  numAlienRtpPacketsS2 := c.numAlienRtpPacketsS2
  ssrcCandidate := c.ssrcCandidate

def hold (c : VoIpCall) : Hold where
  onHold := c.onHold
  holdBegin := c.holdBegin
  holdDuration := c.holdDuration

def core (c : VoIpCall) : Sides × Hold := (c.sides, c.hold)

/-- The session at the choice of the channel, if `AddRtpPacket` gets there. -/
def toPlace (c : VoIpCall) (cfg : VoIpConfig) (d : Directory) (p : RtpPacketInfo) (now : Int) :
    Option (VoIpCall × Directory) :=
  let c := c.processMetadata cfg d p
  let (c, d) := c.startNonLookBack cfg d now
  if c.protocol = .sip ∧ cfg.rtpReportDtmf ∧ c.telephoneEventPayloadType ≠ 0 ∧
      p.payloadType = c.telephoneEventPayloadType then none
  else if ¬ c.keepRtp then none
  else
    let (c, d) :=
      if ¬ cfg.lookBackRecording ∧ c.numRtpPackets = 0 ∧ ¬ c.nonLookBackSessionStarted then
        c.startOrWait cfg d now
      else (c, d)
    if c.protocol = .skinny ∧ p.sourceIp ≠ c.endPointIp ∧ p.destIp ≠ c.endPointIp then none
    else (c.resumeOnRtp p).map fun c => (c, d)

variable {c : VoIpCall} {cfg : VoIpConfig} {d : Directory} {p : RtpPacketInfo} {now : Int}

theorem sides_of_core {c' : VoIpCall} (h : c'.core = c.core) : c'.sides = c.sides := congrArg Prod.fst h

theorem hold_of_core {c' : VoIpCall} (h : c'.core = c.core) : c'.hold = c.hold := congrArg Prod.snd h

/-! ## What leaves the sides alone -/

theorem core_ite {b : Prop} [Decidable b] {c₁ c₂ : VoIpCall} {s : Sides × Hold} (h₁ : c₁.core = s)
    (h₂ : c₂.core = s) : (if b then c₁ else c₂).core = s := by
  split
  · exact h₁
  · exact h₂

theorem start_core : (c.start cfg d now).1.core = c.core := by
  simp only [start]
  split <;> rfl

theorem addLocalIp_core {useName : Bool} : (c.addLocalIp cfg useName).core = c.core := by
  unfold addLocalIp
  split
  · split <;> rfl
  · rfl

theorem applyLocalPartyNameMap_core : (c.applyLocalPartyNameMap cfg d).1.core = c.core := by
  simp only [applyLocalPartyNameMap]
  repeat' split
  all_goals rfl

theorem ensureLocalParty_core : (c.ensureLocalParty cfg d).core = c.core := by
  simp only [ensureLocalParty]
  repeat' split
  all_goals rfl

theorem reportMetadata_core : (c.reportMetadata cfg d).1.core = c.core := by
  have h (c : VoIpCall) (b : Bool) : ({ c.addLocalIp cfg b with localPartyReported := true } : VoIpCall).core =
    c.core := addLocalIp_core
  simp only [reportMetadata]
  rw [h, applyLocalPartyNameMap_core]
  split <;> exact ensureLocalParty_core

theorem startAndReport_core : (c.startAndReport cfg d now).1.core = c.core := by
  simp only [startAndReport]
  rw [reportMetadata_core, start_core]

theorem startOrWait_core : (c.startOrWait cfg d now).1.core = c.core := by
  unfold startOrWait
  split
  · rfl
  · exact startAndReport_core

theorem startNonLookBack_core : (c.startNonLookBack cfg d now).1.core = c.core := by
  unfold startNonLookBack
  split
  · split
    · rfl
    · exact startAndReport_core
  · rfl

theorem processMetadataRawRtp_core : (c.processMetadataRawRtp cfg d p).core = c.core :=
  core_ite rfl rfl

theorem processMetadataSipIncoming_core {i : SipInvite} :
    (c.processMetadataSipIncoming cfg d i).core = c.core :=
  core_ite rfl rfl

theorem processMetadataSipOutgoing_core {i : SipInvite} :
    (c.processMetadataSipOutgoing cfg d i).core = c.core :=
  core_ite rfl rfl

theorem processMetadataSip_core : (c.processMetadataSip cfg d).core = c.core := by
  unfold processMetadataSip
  split
  · rfl
  · rename_i i _
    have hway : (if sipIncoming cfg i then c.processMetadataSipIncoming cfg d i
        else c.processMetadataSipOutgoing cfg d i).core = c.core :=
      core_ite processMetadataSipIncoming_core processMetadataSipOutgoing_core
    exact core_ite processMetadataSipOutgoing_core
      (core_ite (core_ite hway hway) (core_ite hway hway))

theorem processMetadata_core : (c.processMetadata cfg d p).core = c.core := by
  unfold processMetadata
  split
  · rfl
  · dsimp only
    split
    · exact processMetadataRawRtp_core
    · exact processMetadataSip_core
    · unfold processMetadataSkinny
      split <;> rfl
    · rfl

theorem reportDtmfDigit_core {digit : String} : (c.reportDtmfDigit cfg digit).core = c.core := by
  unfold reportDtmfDigit
  extract_lets c₁ c₂ onDemandCommand pauseCommand c₃ identical
  have hc₁ : c₁.core = c.core := core_ite rfl rfl
  have hc₂ : c₂.core = c.core := hc₁
  have hc₃ : c₃.core = c.core := core_ite hc₂ hc₂
  split
  · exact hc₂
  split
  · exact core_ite hc₃ hc₃
  · exact core_ite hc₃ (core_ite hc₃ hc₃)
  · exact core_ite hc₃ hc₃
  · exact core_ite hc₃ hc₃

theorem handleRtpEvent_core : (c.handleRtpEvent cfg p).core = c.core := by
  unfold handleRtpEvent
  split
  · split
    · exact reportDtmfDigit_core
    · rfl
  · rfl

/-- RTP may end a hold. -/
def MayResume (h h' : Hold) (t : Int) : Prop := h' = h ∨ h.onHold ∧ h' = h.off t

theorem resumeOnRtp_spec {c' : VoIpCall} (h : c.resumeOnRtp p = some c') :
    c'.sides = c.sides ∧ MayResume c.hold c'.hold p.arrivalTimestamp := by
  unfold resumeOnRtp at h
  split at h
  case h_1 hon _ =>
    split at h
    · cases h
    · split at h
      · obtain rfl := Option.some.inj h
        exact ⟨rfl, .inr ⟨hon, rfl⟩⟩
      · obtain rfl := Option.some.inj h
        exact ⟨rfl, .inl rfl⟩
  case h_2 =>
    obtain rfl := Option.some.inj h
    exact ⟨rfl, .inl rfl⟩

/-! ## The two ways -/

/-- A packet of the stream whose last packet is `last`. -/
def OfStream (last p : RtpPacketInfo) : Prop := p.ssrc = last.ssrc ∧ last.destIp = p.destIp

theorem startOnS2_core : (c.startOnS2 cfg d now).1.core = c.core := by
  simp only [startOnS2]
  split
  · exact startAndReport_core
  · exact startAndReport_core

/-- The channel of a packet, and what becomes of the sides: the first packet of a side is put there. -/
theorem detectChannel_cases (c : VoIpCall) (cfg : VoIpConfig) (d : Directory) (p : RtpPacketInfo) (now : Int) :
    let r := c.detectChannel cfg d p now
    (c.lastRtpPacketSide1 = none ∧ r.2.2 = (1, true) ∧ r.1.sides = { c.sides with lastRtpPacketSide1 := some p }) ∨
    (∃ s1, c.lastRtpPacketSide1 = some s1 ∧ OfStream s1 p ∧ r.2.2 = (1, false) ∧ r.1.sides = c.sides) ∨
    (∃ s1, c.lastRtpPacketSide1 = some s1 ∧ ¬OfStream s1 p ∧
      ((c.lastRtpPacketSide2 = none ∧ r.2.2 = (2, true) ∧
          r.1.sides = { c.sides with lastRtpPacketSide2 := some p }) ∨
        (∃ s2, c.lastRtpPacketSide2 = some s2 ∧ OfStream s2 p ∧ r.2.2 = (2, false) ∧ r.1.sides = c.sides) ∨
        (∃ s2, c.lastRtpPacketSide2 = some s2 ∧ ¬OfStream s2 p ∧ r.2.2 = (0, false) ∧ r.1.sides = c.sides))) := by
  dsimp only
  unfold detectChannel
  cases h1 : c.lastRtpPacketSide1 with
  | none => exact .inl ⟨rfl, rfl, rfl⟩
  | some s1 =>
    dsimp only
    by_cases hs1 : p.ssrc = s1.ssrc ∧ s1.destIp = p.destIp
    · rw [if_pos hs1]
      exact .inr (.inl ⟨s1, rfl, hs1, rfl, rfl⟩)
    · rw [if_neg hs1]
      refine .inr (.inr ⟨s1, rfl, hs1, ?_⟩)
      cases h2 : c.lastRtpPacketSide2 with
      | none =>
        refine .inl ⟨rfl, ?_⟩
        dsimp only
        split
        · exact ⟨rfl, (sides_of_core startOnS2_core).trans (by simp [sides, h1])⟩
        · exact ⟨rfl, by simp [sides, h1]⟩
      | some s2 =>
        dsimp only
        by_cases hs2 : p.ssrc = s2.ssrc ∧ s2.destIp = p.destIp
        · rw [if_pos hs2]
          refine .inr (.inl ⟨s2, rfl, hs2, ?_⟩)
          split
          · split
            · exact ⟨rfl, sides_of_core startOnS2_core⟩
            · exact ⟨rfl, rfl⟩
          · exact ⟨rfl, rfl⟩
        · rw [if_neg hs2]
          exact .inr (.inr ⟨s2, rfl, hs2, rfl, rfl⟩)

theorem detectChannel_hold : (c.detectChannel cfg d p now).1.hold = c.hold := by
  unfold detectChannel
  split
  · rfl
  split
  · rfl
  split
  · dsimp only
    split
    · exact (hold_of_core startOnS2_core).trans rfl
    · rfl
  split
  · split
    · split
      · exact hold_of_core startOnS2_core
      · rfl
    · rfl
  · rfl

theorem ignorePacket_core : (c.ignorePacket cfg d p now).1.core = c.core ∨
    (c.ignorePacket cfg d p now).1.core = (c.detectChannel cfg d p now).1.core := by
  simp only [ignorePacket]
  split
  · exact .inl rfl
  · exact .inr rfl

/-- **The two ways of a packet**: it is taken before the choice of a channel, and is at most the first of a
side, or it gets there when it has ended the hold it may end. -/
theorem addRtpPacket_ways (c : VoIpCall) (cfg : VoIpConfig) (d : Directory) (p : RtpPacketInfo) (now : Int) :
    (c.toPlace cfg d p now = none ∧ (c.addRtpPacket cfg d p now).ok = true ∧
      ((c.addRtpPacket cfg d p now).call.core = c.core ∨ ∃ (c' : VoIpCall) (d' : Directory), c'.core = c.core ∧
        (c.addRtpPacket cfg d p now).call.core = (c'.detectChannel cfg d' p now).1.core)) ∨
    ∃ (held c' : VoIpCall) (d' : Directory), c.toPlace cfg d p now = some (c', d') ∧ held.core = c.core ∧
      held.resumeOnRtp p = some c' ∧ c.addRtpPacket cfg d p now = c'.placePacket cfg d' p now := by
  have hc : ((c.processMetadata cfg d p).startNonLookBack cfg d now).1.core = c.core :=
    startNonLookBack_core.trans processMetadata_core
  unfold toPlace addRtpPacket
  dsimp only
  generalize (c.processMetadata cfg d p).startNonLookBack cfg d now = r at hc ⊢
  obtain ⟨c₁, d₁⟩ := r
  dsimp only at hc ⊢
  by_cases hdtmf : c₁.protocol = .sip ∧ cfg.rtpReportDtmf ∧ c₁.telephoneEventPayloadType ≠ 0 ∧
    p.payloadType = c₁.telephoneEventPayloadType
  · left
    rw [if_pos hdtmf, if_pos hdtmf]
    split
    · exact ⟨rfl, rfl, .inl hc⟩
    · exact ⟨rfl, rfl, .inl (handleRtpEvent_core.trans hc)⟩
  rw [if_neg hdtmf, if_neg hdtmf]
  by_cases hkeep : c₁.keepRtp
  swap
  · left
    rw [if_pos hkeep, if_pos hkeep]
    exact ⟨rfl, rfl, ignorePacket_core.imp (·.trans hc) fun h => ⟨c₁, d₁, hc, h⟩⟩
  rw [if_neg (not_not_intro hkeep), if_neg (not_not_intro hkeep)]
  have hstart : (if ¬ cfg.lookBackRecording ∧ c₁.numRtpPackets = 0 ∧ ¬ c₁.nonLookBackSessionStarted then
      c₁.startOrWait cfg d₁ now else (c₁, d₁)).1.core = c.core := by
    split
    · exact startOrWait_core.trans hc
    · exact hc
  generalize (if ¬ cfg.lookBackRecording ∧ c₁.numRtpPackets = 0 ∧ ¬ c₁.nonLookBackSessionStarted then
      c₁.startOrWait cfg d₁ now else (c₁, d₁)) = r at hstart ⊢
  obtain ⟨c₂, d₂⟩ := r
  dsimp only at hstart ⊢
  by_cases hskinny : c₂.protocol = .skinny ∧ p.sourceIp ≠ c₂.endPointIp ∧ p.destIp ≠ c₂.endPointIp
  · left
    rw [if_pos hskinny, if_pos hskinny]
    exact ⟨rfl, rfl, .inl hstart⟩
  rw [if_neg hskinny, if_neg hskinny]
  cases hres : c₂.resumeOnRtp p with
  | none => exact .inl ⟨rfl, rfl, .inl hstart⟩
  | some c₃ => exact .inr ⟨c₂, c₃, d₂, rfl, hstart, hres, rfl⟩

theorem addRtpPacket_of_toPlace {c' : VoIpCall} {d' : Directory} (h : c.toPlace cfg d p now = some (c', d')) :
    c.addRtpPacket cfg d p now = c'.placePacket cfg d' p now ∧ c'.sides = c.sides ∧
      MayResume c.hold c'.hold p.arrivalTimestamp := by
  rcases c.addRtpPacket_ways cfg d p now with ⟨hnone, -⟩ | ⟨held, c₃, d₃, hplace, hheld, hres, hadd⟩
  · rw [hnone] at h
    cases h
  · rw [hplace] at h
    cases h
    obtain ⟨hsides, hhold⟩ := resumeOnRtp_spec hres
    exact ⟨hadd, hsides.trans (sides_of_core hheld), hold_of_core hheld ▸ hhold⟩

/-- A packet that does not get to the choice of a channel is taken, and at most makes the first of a side. -/
theorem addRtpPacket_of_not_toPlace (h : c.toPlace cfg d p now = none) :
    (c.addRtpPacket cfg d p now).ok = true ∧ ((c.addRtpPacket cfg d p now).call.core = c.core ∨
      ∃ (c' : VoIpCall) (d' : Directory), c'.core = c.core ∧
        (c.addRtpPacket cfg d p now).call.core = (c'.detectChannel cfg d' p now).1.core) := by
  rcases c.addRtpPacket_ways cfg d p now with ⟨-, htaken⟩ | ⟨held, c₃, d₃, hplace, -⟩
  · exact htaken
  · rw [hplace] at h
    cases h

/-! ## A packet that is kept -/

theorem hasAddressOrAdd_core {ip : InAddr} {port : UInt16} : (c.hasAddressOrAdd ip port).1.core = c.core := by
  unfold hasAddressOrAdd
  split <;> rfl

theorem updateMetadataSipOnRtpChange_core {isNew : Bool} :
    (c.updateMetadataSipOnRtpChange cfg d p isNew).core = c.core := by
  unfold updateMetadataSipOnRtpChange
  dsimp only
  split
  · rw [addLocalIp_core]
    split <;> rfl
  · rfl

theorem noteStream_core : (c.noteStream cfg d p).core = c.core := by
  have h : ((c.hasAddressOrAdd p.sourceIp p.sourcePort).1.hasAddressOrAdd p.destIp p.destPort).1.core = c.core :=
    hasAddressOrAdd_core.trans hasAddressOrAdd_core
  simp only [noteStream]
  split
  · exact updateMetadataSipOnRtpChange_core.trans h
  · exact h

theorem keepPacket_core : (c.keepPacket cfg d p now).1.core = (c.mapDeterministic cfg).core := by
  simp only [keepPacket]
  split
  · exact startOrWait_core.trans noteStream_core
  · exact noteStream_core

/-- Whether `mapDeterministic` makes the two sides change places. -/
def swaps (c : VoIpCall) (cfg : VoIpConfig) : Bool :=
  match c.lastRtpPacketSide1, c.lastRtpPacketSide2 with
  | some s1, some s2 =>
    cfg.rtpS1S2MappingDeterministic && !c.mappedS1S2 && (c.protocol = .sip || c.protocol = .skinny) &&
      c.shouldSwapChannels cfg s1 s2
  | _, _ => false

theorem mapDeterministic_sides (c : VoIpCall) (cfg : VoIpConfig) : ∃ mapped, (c.mapDeterministic cfg).sides =
    { (if c.swaps cfg then c.sides.swap else c.sides) with mappedS1S2 := mapped } := by
  unfold mapDeterministic swaps
  cases h1 : c.lastRtpPacketSide1 with
  | none => exact ⟨c.mappedS1S2, rfl⟩
  | some s1 =>
    cases h2 : c.lastRtpPacketSide2 with
    | none => exact ⟨c.mappedS1S2, rfl⟩
    | some s2 =>
      dsimp only
      by_cases hmap : cfg.rtpS1S2MappingDeterministic = true ∧ ¬c.mappedS1S2 = true
      · refine ⟨true, ?_⟩
        rw [if_pos hmap]
        split
        case isTrue hswap =>
          have hshould : (c.protocol = .sip ∨ c.protocol = .skinny) ∧ c.shouldSwapChannels cfg s1 s2 := hswap
          simp [hmap, hshould, sides, Sides.swap, h1, h2]
        case isFalse hswap =>
          have hshould : ¬((c.protocol = .sip ∨ c.protocol = .skinny) ∧ c.shouldSwapChannels cfg s1 s2) := hswap
          rw [if_neg (by simpa [and_assoc] using fun _ _ hp => not_and.mp hshould hp)]
          simp [sides, h1, h2]
      · refine ⟨c.mappedS1S2, ?_⟩
        rw [if_neg hmap, if_neg (by simpa [and_assoc] using fun h h' => (hmap ⟨h, by simp [h']⟩).elim)]
        simp [sides, h1, h2]

/-- The counters stay where they are when the sides change places. -/
theorem mapDeterministic_counters (c : VoIpCall) (cfg : VoIpConfig) :
    (c.mapDeterministic cfg).sides.ssrcCandidate = c.sides.ssrcCandidate ∧
    (c.mapDeterministic cfg).sides.numAlienRtpPacketsS1 = c.sides.numAlienRtpPacketsS1 ∧
    (c.mapDeterministic cfg).sides.numAlienRtpPacketsS2 = c.sides.numAlienRtpPacketsS2 ∧
    ((c.mapDeterministic cfg).sides.lastRtpPacketSide1 = none ∨
        (c.mapDeterministic cfg).sides.lastRtpPacketSide2 = none →
      c.sides.lastRtpPacketSide1 = none ∨ c.sides.lastRtpPacketSide2 = none) := by
  obtain ⟨mapped, h⟩ := mapDeterministic_sides c cfg
  rw [h]
  split
  · exact ⟨rfl, rfl, rfl, Or.symm⟩
  · exact ⟨rfl, rfl, rfl, id⟩

/-! ## The verdict -/

theorem continueSide1_cases (c : VoIpCall) (cfg : VoIpConfig) (p last : RtpPacketInfo) :
    (∃ c', c.continueSide1 cfg p last = .kept c' 1 ∧
      c'.sides = { c.sides with lastRtpPacketSide1 := some p, numAlienRtpPacketsS1 := 0 }) ∨
    c.continueSide1 cfg p last = .dismissed c ∨ c.continueSide1 cfg p last = .rejected c := by
  unfold continueSide1
  dsimp only
  split
  · exact .inr (.inl rfl)
  split
  · exact .inr (.inr rfl)
  split
  · exact .inr (.inr rfl)
  · refine .inl ⟨_, rfl, ?_⟩
    split <;> split <;> rfl

theorem continueSide2_cases (c : VoIpCall) (cfg : VoIpConfig) (p last : RtpPacketInfo) :
    (∃ c', c.continueSide2 cfg p last = .kept c' 2 ∧
      c'.sides = { c.sides with lastRtpPacketSide2 := some p, numAlienRtpPacketsS2 := 0 }) ∨
    c.continueSide2 cfg p last = .dismissed c ∨ c.continueSide2 cfg p last = .rejected c := by
  unfold continueSide2
  dsimp only
  split
  · exact .inr (.inl rfl)
  split
  · exact .inr (.inr rfl)
  split
  · exact .inr (.inr rfl)
  · exact .inl ⟨_, rfl, rfl⟩

/-- What becomes of a packet whose channel is chosen, unless it matches neither side. -/
inductive Matched (s : Sides) (p : RtpPacketInfo) : Nat → Verdict → Prop
  | first1 {c : VoIpCall} : s.lastRtpPacketSide1 = none →
      c.sides = { s with lastRtpPacketSide1 := some p } → Matched s p 1 (.kept c 1)
  | first2 {c : VoIpCall} : s.lastRtpPacketSide2 = none →
      c.sides = { s with lastRtpPacketSide2 := some p } → Matched s p 2 (.kept c 2)
  | next1 {c : VoIpCall} :
      c.sides = { s with lastRtpPacketSide1 := some p, numAlienRtpPacketsS1 := 0 } → Matched s p 1 (.kept c 1)
  | next2 {c : VoIpCall} :
      c.sides = { s with lastRtpPacketSide2 := some p, numAlienRtpPacketsS2 := 0 } → Matched s p 2 (.kept c 2)
  | dismissed {c : VoIpCall} {side : Nat} : side ≠ 0 → c.sides = s → Matched s p side (.dismissed c)
  | rejected {c : VoIpCall} {side : Nat} : side ≠ 0 → c.sides = s → Matched s p side (.rejected c)

theorem verdict_cases (c : VoIpCall) (cfg : VoIpConfig) (d : Directory) (p : RtpPacketInfo) (now : Int) :
    let r := c.detectChannel cfg d p now
    let v := r.1.verdict cfg p r.2.2.1 r.2.2.2 now
    Matched c.sides p r.2.2.1 v ∨
      (∃ s1 s2, c.lastRtpPacketSide1 = some s1 ∧ c.lastRtpPacketSide2 = some s2 ∧ r.2.2.1 = 0 ∧
        r.1.sides = c.sides ∧ v = r.1.remapSide p now) := by
  dsimp only
  have h := detectChannel_cases c cfg d p now
  dsimp only at h
  generalize c.detectChannel cfg d p now = r at h ⊢
  obtain ⟨c₁, d₁, channel, first⟩ := r
  have hside1 {s1 : RtpPacketInfo} (h : c.lastRtpPacketSide1 = some s1) (hc : c₁.sides = c.sides) :
      c₁.lastRtpPacketSide1 = some s1 := (congrArg Sides.lastRtpPacketSide1 hc).trans h
  have hside2 {s2 : RtpPacketInfo} (h : c.lastRtpPacketSide2 = some s2) (hc : c₁.sides = c.sides) :
      c₁.lastRtpPacketSide2 = some s2 := (congrArg Sides.lastRtpPacketSide2 hc).trans h
  dsimp only at h ⊢
  rcases h with ⟨h1, hch, hc⟩ | ⟨s1, h1, -, hch, hc⟩ | ⟨s1, h1, -, ⟨h2, hch, hc⟩ | ⟨s2, h2, -, hch, hc⟩ |
    ⟨s2, h2, -, hch, hc⟩⟩ <;> cases hch
  · exact .inl (.first1 h1 hc)
  · left
    simp only [verdict, hside1 h1 hc]
    rcases continueSide1_cases c₁ cfg p s1 with ⟨c', hv, hc'⟩ | hv | hv <;> rw [hv]
    · exact .next1 (by rw [hc', hc])
    · exact .dismissed (by decide) hc
    · exact .rejected (by decide) hc
  · exact .inl (.first2 h2 hc)
  · left
    simp only [verdict, hside2 h2 hc]
    rcases continueSide2_cases c₁ cfg p s2 with ⟨c', hv, hc'⟩ | hv | hv <;> rw [hv]
    · exact .next2 (by rw [hc', hc])
    · exact .dismissed (by decide) hc
    · exact .rejected (by decide) hc
  · exact .inr ⟨s1, s2, h1, h2, rfl, hc, rfl⟩

/-- What another unmatched packet makes of the counters. -/
inductive CountsAlien (s : Sides) (p : RtpPacketInfo) : Sides → Prop
  | candidate : s.ssrcCandidate = -1 → CountsAlien s p { s with ssrcCandidate := p.ssrc }
  | counted : s.ssrcCandidate ≠ -1 → p.ssrc = s.ssrcCandidate → CountsAlien s p { s with
      numAlienRtpPacketsS1 := s.numAlienRtpPacketsS1 + 1, numAlienRtpPacketsS2 := s.numAlienRtpPacketsS2 + 1 }
  | stopped : CountsAlien s p { s with
      ssrcCandidate := -1, numAlienRtpPacketsS1 := 0, numAlienRtpPacketsS2 := 0 }
  | ignored : s.ssrcCandidate ≠ -1 → CountsAlien s p s

theorem CountsAlien.same {s t : Sides} {p : RtpPacketInfo} (h : CountsAlien s p t) :
    t.lastRtpPacketSide1 = s.lastRtpPacketSide1 ∧ t.lastRtpPacketSide2 = s.lastRtpPacketSide2 := by
  cases h <;> exact ⟨rfl, rfl⟩

theorem countAlien_counts (c : VoIpCall) (p : RtpPacketInfo) (now : Int) :
    CountsAlien c.sides p (c.countAlien p now).sides := by
  simp only [countAlien]
  split
  case isTrue h => exact .candidate h
  case isFalse h =>
    split
    case isTrue hp => exact .counted h hp
    case isFalse hp =>
      split
      · exact .stopped
      · exact .ignored h

theorem remapSide_cases (c : VoIpCall) (p : RtpPacketInfo) (now : Int) :
    let r := (c.countAlien p now).sides
    (∃ c', c.remapSide p now = .kept c' 1 ∧ 10 < r.numAlienRtpPacketsS1 ∧ c'.sides = { r with
      numAlienRtpPacketsS1 := 0, ssrcCandidate := -1, lastRtpPacketSide1 := some p, mappedS1S2 := false }) ∨
    (∃ c', c.remapSide p now = .kept c' 2 ∧ 10 < r.numAlienRtpPacketsS2 ∧ c'.sides = { r with
      numAlienRtpPacketsS2 := 0, ssrcCandidate := -1, lastRtpPacketSide2 := some p, mappedS1S2 := false }) ∨
    (c.remapSide p now = .dismissed (c.countAlien p now) ∧
      r.numAlienRtpPacketsS1 ≤ 10 ∧ r.numAlienRtpPacketsS2 ≤ 10) := by
  simp only [remapSide]
  by_cases h1 : (c.countAlien p now).numAlienRtpPacketsS1 > 10
  · exact .inl ⟨_, if_pos h1, h1, rfl⟩
  · by_cases h2 : (c.countAlien p now).numAlienRtpPacketsS2 > 10
    · exact .inr (.inl ⟨_, (if_neg h1).trans (if_pos h2), h2, rfl⟩)
    · exact .inr (.inr ⟨(if_neg h1).trans (if_neg h2), Nat.not_lt.mp h1, Nat.not_lt.mp h2⟩)

end VoIpCall

end Oreka.VoIp
