import Oreka.Mixer.Proof.RingInv

/-!
# Corrective deltas

The timestamps of channel 2 and of further ones are brought to the scale of the write timestamp by a delta, which
was estimated at some chunk of the channel: it is the difference between the timestamp of that chunk and the write
timestamp at that moment (`Inv.delta`), over every run. So a corrected timestamp is as far from that write timestamp
as the chunk is from the one of the estimate, and keeps the differences between chunks as long as no estimate comes
between them (`Kept`).
-/

namespace Oreka.Mixer

namespace RtpMixer

variable {cfg : MixerConfig} {m m' : RtpMixer}

/-! ## The frame of the deltas -/

/-- The delta of `m_rtpMixerChannels[i]`. -/
def chanDelta (m : RtpMixer) (i : Nat) : Int := (m.rtpMixerChannels[i]?.map (·.timestampCorrectiveDelta)).getD 0

structure SameDeltas (m m' : RtpMixer) : Prop where
  delta : m'.timestampCorrectiveDelta = m.timestampCorrectiveDelta
  chanDelta : ∀ i, m'.chanDelta i = m.chanDelta i

namespace SameDeltas

theorem of_eq (h : m'.rtpMixerChannels = m.rtpMixerChannels)
    (hd : m'.timestampCorrectiveDelta = m.timestampCorrectiveDelta) : SameDeltas m m' where
  delta := hd
  chanDelta i := by unfold RtpMixer.chanDelta; rw [h]

theorem refl (m : RtpMixer) : SameDeltas m m := of_eq rfl rfl

theorem trans {m₁ m₂ m₃ : RtpMixer} (h : SameDeltas m₁ m₂) (h' : SameDeltas m₂ m₃) :
    SameDeltas m₁ m₃ where
  delta := h'.delta.trans h.delta
  chanDelta i := (h'.chanDelta i).trans (h.chanDelta i)

/-- Channels changed in another way. -/
theorem modify {i : Nat} {f : RtpMixerChannel → RtpMixerChannel}
    (hch : m'.rtpMixerChannels = m.rtpMixerChannels.modify i f)
    (hf : ∀ ch, (f ch).timestampCorrectiveDelta = ch.timestampCorrectiveDelta)
    (hd : m'.timestampCorrectiveDelta = m.timestampCorrectiveDelta) : SameDeltas m m' where
  delta := hd
  chanDelta j := by
    unfold RtpMixer.chanDelta
    rw [hch, List.getElem?_modify]
    cases m.rtpMixerChannels[j]? with
    | none => rfl
    | some ch =>
      by_cases hi : i = j
      · simp [hi, hf]
      · simp [hi]

/-- A new channel has no delta. -/
theorem createChannels (m : RtpMixer) (cfg : MixerConfig) (n : Nat) : SameDeltas m (m.createChannels cfg n) := by
  unfold RtpMixer.createChannels
  split
  · exact refl m
  · refine ⟨rfl, fun i => ?_⟩
    unfold RtpMixer.chanDelta
    dsimp only
    rw [List.getElem?_append]
    split
    · rfl
    · rename_i hi
      rw [List.getElem?_eq_none (not_lt.1 hi), List.getElem?_map]
      cases (List.range' m.numInputChannels (n - m.numInputChannels))[i - m.rtpMixerChannels.length]? with
      | none => rfl
      | some j => rfl

theorem modifyChannel {idx : Int} {f : RtpMixerChannel → RtpMixerChannel} (h : m.modifyChannel idx f = .ok m')
    (hf : ∀ ch, (f ch).timestampCorrectiveDelta = ch.timestampCorrectiveDelta) : SameDeltas m m' := by
  unfold RtpMixer.modifyChannel at h
  split at h
  · cases h
    exact modify rfl hf rfl
  · cases h

theorem setLastChunk {idx : Int} {c : AudioChunk} (h : m.setLastChunk idx c = .ok m') : SameDeltas m m' := by
  unfold RtpMixer.setLastChunk at h
  split at h
  · exact modifyChannel h fun _ => rfl
  · cases h
    exact refl m

end SameDeltas

/-- The same channels, and the same chunks remembered as the last ones. -/
structure SameStreams (m m' : RtpMixer) : Prop where
  length : m'.rtpMixerChannels.length = m.rtpMixerChannels.length
  numInputChannels : m'.numInputChannels = m.numInputChannels
  numOutputChannels : m'.numOutputChannels = m.numOutputChannels
  lastTimestampS1 : m'.lastTimestampS1 = m.lastTimestampS1
  lastTimestampS2 : m'.lastTimestampS2 = m.lastTimestampS2
  lastChunkS1 : m'.lastChunkS1 = m.lastChunkS1
  lastChunkS2 : m'.lastChunkS2 = m.lastChunkS2

namespace SameStreams

theorem refl (m : RtpMixer) : SameStreams m m := ⟨rfl, rfl, rfl, rfl, rfl, rfl, rfl⟩

theorem trans {m₁ m₂ m₃ : RtpMixer} (h : SameStreams m₁ m₂) (h' : SameStreams m₂ m₃) : SameStreams m₁ m₃ :=
  ⟨h'.1.trans h.1, h'.2.trans h.2, h'.3.trans h.3, h'.4.trans h.4, h'.5.trans h.5, h'.6.trans h.6,
    h'.7.trans h.7⟩

end SameStreams

/-- What storing and shipping leave alone. -/
structure SameInput (m m' : RtpMixer) : Prop extends SameDeltas m m', SameStreams m m'

namespace SameInput

theorem refl (m : RtpMixer) : SameInput m m := ⟨.refl m, .refl m⟩

theorem trans {m₁ m₂ m₃ : RtpMixer} (h : SameInput m₁ m₂) (h' : SameInput m₂ m₃) : SameInput m₁ m₃ :=
  ⟨h.toSameDeltas.trans h'.toSameDeltas, h.toSameStreams.trans h'.toSameStreams⟩

theorem zeroStep (m : RtpMixer) : SameInput m m.zeroStep := by
  refine ⟨⟨rfl, fun i => ?_⟩, ⟨List.length_mapIdx, rfl, rfl, rfl, rfl, rfl, rfl⟩⟩
  unfold chanDelta RtpMixer.zeroStep
  dsimp only
  rw [List.getElem?_mapIdx]
  cases m.rtpMixerChannels[i]? with
  | none => rfl
  | some ch =>
    dsimp only [Option.map_some, Option.getD_some]
    split <;> rfl

theorem zeroLoop : ∀ (n : Nat) (m : RtpMixer), SameInput m (zeroLoop n m)
  | 0, m => refl m
  | n + 1, m => (zeroStep m).trans (zeroLoop n m.zeroStep)

theorem mixStep (chanIdx ptr : Nat) (m : RtpMixer) (x : Int) : SameInput m (m.mixStep chanIdx ptr x) := by
  unfold RtpMixer.mixStep
  by_cases h : m.numInputChannels ≠ 0
  · refine ⟨.modify (i := chanIdx) (f := fun ch => { ch with buffer := Function.update ch.buffer ptr x }) ?_
      (fun _ => rfl) rfl, ⟨?_, rfl, rfl, rfl, rfl, rfl, rfl⟩⟩
    · dsimp only
      rw [if_pos h]
    · dsimp only
      rw [if_pos h, List.length_modify]
  · refine ⟨.of_eq ?_ rfl, ⟨?_, rfl, rfl, rfl, rfl, rfl, rfl⟩⟩
    · dsimp only
      rw [if_neg h]
    · dsimp only
      rw [if_neg h]

theorem mixLoop (chanIdx : Nat) : ∀ (xs : List Int) (ptr : Nat) (m : RtpMixer),
    SameInput m (mixLoop chanIdx xs ptr m)
  | [], _, m => refl m
  | x :: xs, ptr, m => (mixStep chanIdx ptr m x).trans (mixLoop chanIdx xs _ _)

theorem mixPayload (m : RtpMixer) (c : AudioChunk) (t : UInt32) : SameInput m (m.mixPayload c t) := by
  unfold RtpMixer.mixPayload
  dsimp only
  split
  · exact refl m
  · exact mixLoop _ _ _ m

theorem writeTimestamp (m : RtpMixer) (t : UInt32) : SameInput m { m with writeTimestamp := t } :=
  ⟨.of_eq rfl rfl, ⟨rfl, rfl, rfl, rfl, rfl, rfl, rfl⟩⟩

theorem storeRtpPacket {c : AudioChunk} {t : UInt32} (h : m.storeRtpPacket c t = .ok m') : SameInput m m' := by
  unfold RtpMixer.storeRtpPacket at h
  split at h
  · cases h
  dsimp only at h
  split at h
  · cases h
    exact refl m
  split at h
  · cases h
    exact refl m
  split at h
  · cases h
    exact ((zeroLoop _ m).trans (writeTimestamp _ _)).trans (mixPayload _ c t)
  · cases h
    exact mixPayload m c t

theorem ship {ptr n : Nat} (h : m.ship cfg ptr n = .ok m') : SameInput m m' := by
  obtain ⟨m₁, h₁, h⟩ := Except.bind_eq_ok.1 h
  cases h
  unfold queueShipment checkChunkDetails at h₁
  dsimp only at h₁
  split at h₁
  · cases h₁
    exact ⟨.of_eq rfl rfl, ⟨rfl, rfl, rfl, rfl, rfl, rfl, rfl⟩⟩
  · split at h₁
    · obtain ⟨c, -, h₁⟩ := Except.bind_eq_ok.1 h₁
      cases h₁
      exact ⟨.of_eq rfl rfl, ⟨rfl, rfl, rfl, rfl, rfl, rfl, rfl⟩⟩
    · cases h₁
      exact ⟨.of_eq rfl rfl, ⟨rfl, rfl, rfl, rfl, rfl, rfl, rfl⟩⟩

theorem createShipment {force : Bool} (h : m.createShipment cfg force = .ok m') : SameInput m m' := by
  unfold RtpMixer.createShipment at h
  split at h
  · obtain ⟨m₁, h₁, h⟩ := Except.bind_eq_ok.1 h
    exact (ship h₁).trans (ship h)
  · exact ship h

end SameInput

/-! ## What a call does to the deltas -/

/-- Whether a chunk of channel 2 brings a new estimate before it is corrected. -/
def estimatesDelta (m : RtpMixer) : Prop :=
  m.oneS1PacketState ∨ m.timestampCorrectiveDelta = 0 ∧ m.writeTimestamp ≠ 0

instance (m : RtpMixer) : Decidable m.estimatesDelta := inferInstanceAs (Decidable (_ ∨ _))

/-- Whether the timestamp of a chunk is corrected by a delta. -/
def corrects (m : RtpMixer) (c : AudioChunk) : Prop :=
  c.details.channel = 2 ∨ c.details.channel ≠ 1 ∧ m.numInputChannels ≠ 0

instance (m : RtpMixer) (c : AudioChunk) : Decidable (m.corrects c) := inferInstanceAs (Decidable (_ ∨ _))

/-- The delta of a channel from the second on. -/
def correctiveDelta (m : RtpMixer) (channel : Nat) : Int :=
  if channel = 2 then m.timestampCorrectiveDelta else m.chanDelta (channel - 1)

theorem SameDeltas.correctiveDelta (h : SameDeltas m m') (k : Nat) : m'.correctiveDelta k = m.correctiveDelta k := by
  unfold RtpMixer.correctiveDelta
  rw [h.delta, h.chanDelta]

/-- How far a timestamp is from the write timestamp, which a new estimate is. -/
def distance (c : AudioChunk) (m : RtpMixer) : Int := c.details.timestamp.toNat - m.writeTimestamp.toNat

/-- The delta of channel 2 for a chunk with an estimate of its own. -/
def newDelta (m : RtpMixer) (c : AudioChunk) : Int :=
  if m.estimatesDelta then distance c m else m.timestampCorrectiveDelta

structure Corrected (m : RtpMixer) (cfg : MixerConfig) (m' : RtpMixer) (c : AudioChunk) (t : UInt32) : Prop where
  delta : m'.timestampCorrectiveDelta = if c.details.channel = 2 then m.newDelta c else m.timestampCorrectiveDelta
  chanDelta : ∀ i, m'.chanDelta i = m.chanDelta i
  corrected : m'.corrects c → c.details.channel ≠ 0 ∧
    t = applyDelta cfg c.details.timestamp (m'.correctiveDelta c.details.channel.toNat)

theorem setLastChunk_rest {idx : Int} {c : AudioChunk} (h : m.setLastChunk idx c = .ok m') :
    m'.oneS1PacketState = m.oneS1PacketState ∧ m'.numInputChannels = m.numInputChannels := by
  unfold setLastChunk modifyChannel at h
  split at h
  · split at h
    · cases h
      exact ⟨rfl, rfl⟩
    · cases h
  · cases h
    exact ⟨rfl, rfl⟩

theorem correctS2_corrected {c₀ c : AudioChunk} {t : UInt32} (h : m.correctS2 cfg c₀ = .ok (m', c, t))
    (hc : c.details.channel = 2) : Corrected m cfg m' c t := by
  unfold correctS2 at h
  generalize correctMillis c₀ m.lastChunkS2 m.lastTimestampS2 = r at h
  dsimp only at h
  obtain ⟨m₁, h₁, h⟩ := Except.bind_eq_ok.1 h
  have hsame := SameDeltas.setLastChunk h₁
  have hring := setLastChunk_sameRing h₁
  have hone := (setLastChunk_rest h₁).1
  cases h
  have hdelta : (if m₁.oneS1PacketState then (r.1.details.timestamp.toNat : Int) - m₁.writeTimestamp.toNat
      else if m₁.timestampCorrectiveDelta = 0 ∧ m₁.writeTimestamp ≠ 0 then
        (r.1.details.timestamp.toNat : Int) - m₁.writeTimestamp.toNat
      else m₁.timestampCorrectiveDelta) = m.newDelta r.1 := by
    unfold newDelta distance
    rw [hone, hsame.delta, hring.writeTimestamp]
    by_cases h1 : m.oneS1PacketState = true
    · rw [if_pos h1, if_pos (show m.estimatesDelta from .inl h1)]
    · rw [if_neg h1]
      by_cases h2 : m.timestampCorrectiveDelta = 0 ∧ m.writeTimestamp ≠ 0
      · rw [if_pos h2, if_pos (show m.estimatesDelta from .inr h2)]
      · rw [if_neg h2, if_neg (show ¬ m.estimatesDelta from not_or.2 ⟨h1, h2⟩)]
  refine ⟨?_, hsame.chanDelta, fun _ => ⟨?_, ?_⟩⟩
  · rw [if_pos hc]
    exact hdelta
  · rw [hc]
    decide
  · rw [hc]
    rfl

theorem correctOther_corrected {c₀ c : AudioChunk} {t : UInt32} (h : m.correctOther cfg c₀ = .ok (m', c, t))
    (hchannel : c.details.channel = c₀.details.channel) (h2 : c.details.channel ≠ 2) :
    Corrected m cfg m' c t := by
  unfold correctOther at h
  split at h
  · rename_i hnum
    cases h
    refine ⟨by rw [if_neg h2], fun _ => rfl, fun hcor => ?_⟩
    exact absurd hnum (hcor.resolve_left h2).2
  split at h
  · cases h
  rename_i hidx
  split at h
  · cases h
  rename_i ch hch
  generalize correctMillis c₀ ch.lastChunk ch.lastTimestamp = r at h
  dsimp only at h
  obtain ⟨m₁, h₁, h⟩ := Except.bind_eq_ok.1 h
  have hsame := SameDeltas.modifyChannel h₁ fun _ => rfl
  cases h
  refine ⟨by rw [if_neg h2]; exact hsame.delta, hsame.chanDelta, fun _ => ⟨fun h0 => hidx ?_, ?_⟩⟩
  · rw [channelIdx, ← hchannel, h0]
    decide
  · have hk : (channelIdx c₀).toNat = r.1.details.channel.toNat - 1 := by
      rw [hchannel]
      unfold channelIdx
      omega
    have h2' : r.1.details.channel.toNat ≠ 2 := fun he => h2 (UInt8.toNat_inj.1 he)
    rw [RtpMixer.correctiveDelta, if_neg h2', hsame.chanDelta, RtpMixer.chanDelta, ← hk, hch]
    rfl

/-- **The correction of a timestamp**, on any channel. -/
theorem correctTimestamp_corrected {c₀ c : AudioChunk} {t : UInt32}
    (h : m.correctTimestamp cfg c₀ = .ok (m', c, t)) : Corrected m cfg m' c t := by
  have hchannel := (correctTimestamp_ok h).2.1.2
  unfold correctTimestamp at h
  split at h
  case isTrue h1 =>
    have hc : c.details.channel = 1 := hchannel.trans h1
    have h2 : c.details.channel ≠ 2 := by
      rw [hc]
      decide
    obtain ⟨m₁, h₁, h⟩ := Except.bind_eq_ok.1 h
    have hsame := SameDeltas.setLastChunk h₁
    cases h
    refine ⟨by rw [if_neg h2]; exact hsame.delta, hsame.chanDelta, fun hcor => ?_⟩
    exact absurd hc (hcor.resolve_left h2).1
  case isFalse h1 =>
    split at h
    case isTrue h2 => exact correctS2_corrected h (hchannel.trans h2)
    case isFalse h2 => exact correctOther_corrected h hchannel (hchannel ▸ h2)

theorem createChannels_newDelta (m : RtpMixer) (cfg : MixerConfig) (n : Nat) (c : AudioChunk) :
    (m.createChannels cfg n).newDelta c = m.newDelta c := by
  unfold createChannels
  split <;> rfl

theorem accept_corrected {c₀ c : AudioChunk} {t : UInt32} (h : m.accept cfg c₀ = .ok (m', some (c, t))) :
    Corrected m cfg m' c t := by
  obtain ⟨n, -, h⟩ := Except.bind_eq_ok.1 h
  split at h
  · cases h
  split at h
  · cases h
  split at h
  · cases h
  obtain ⟨⟨m₁, c₁, t₁⟩, h₁, h⟩ := Except.bind_eq_ok.1 h
  cases h
  obtain ⟨hdelta, hchan, hcor⟩ := correctTimestamp_corrected h₁
  have hcreate :
      SameDeltas m (if m.numOutputChannels = 2 then m.createChannels cfg c₀.details.channel.toNat else m) ∧
        (if m.numOutputChannels = 2 then m.createChannels cfg c₀.details.channel.toNat else m).newDelta c =
          m.newDelta c := by
    split
    · exact ⟨.createChannels m cfg _, createChannels_newDelta m cfg _ c⟩
    · exact ⟨.refl m, rfl⟩
  rw [hcreate.2, hcreate.1.delta] at hdelta
  exact ⟨hdelta, fun i => (hchan i).trans (hcreate.1.chanDelta i), hcor⟩

/-- The chunk has to be placed, but is out of the window. -/
def outOfWindow (m : RtpMixer) (c : AudioChunk) (t : UInt32) : Prop := m.writeTimestamp ≠ 0 ∧ ¬ m.fits c t

instance (m : RtpMixer) (c : AudioChunk) (t : UInt32) : Decidable (m.outOfWindow c t) :=
  inferInstanceAs (Decidable (_ ∧ _))

theorem SameDeltas.place {c : AudioChunk} {t : UInt32} (h : m.place cfg c t = .ok m') (hin : ¬ m.outOfWindow c t) :
    SameDeltas m m' := by
  unfold RtpMixer.place at h
  split at h
  · split at h
    · have hstore := SameInput.storeRtpPacket h
      exact ⟨hstore.delta, hstore.chanDelta⟩
    · cases h
      exact refl m
  rename_i hw
  split at h
  · obtain ⟨m₁, h₁, h⟩ := Except.bind_eq_ok.1 h
    split at h
    · exact ((SameInput.storeRtpPacket h₁).trans (.createShipment h)).toSameDeltas
    · cases h
      exact (SameInput.storeRtpPacket h₁).toSameDeltas
  · exact absurd ⟨hw, ‹_›⟩ hin

theorem SameStreams.place {c : AudioChunk} {t : UInt32} (h : m.place cfg c t = .ok m') : SameStreams m m' := by
  unfold RtpMixer.place at h
  split at h
  · split at h
    · obtain ⟨-, hs⟩ := SameInput.storeRtpPacket h
      exact ⟨hs.1, hs.2, hs.3, hs.4, hs.5, hs.6, hs.7⟩
    · cases h
      exact refl m
  split at h
  · obtain ⟨m₁, h₁, h⟩ := Except.bind_eq_ok.1 h
    split at h
    · exact ((SameInput.storeRtpPacket h₁).trans (.createShipment h)).toSameStreams
    · cases h
      exact (SameInput.storeRtpPacket h₁).toSameStreams
  unfold manageOutOfRangeTimestamp at h
  dsimp only at h
  split at h
  · obtain ⟨m₁, h₁, h⟩ := Except.bind_eq_ok.1 h
    obtain ⟨m₂, h₂, h⟩ := Except.bind_eq_ok.1 h
    cases h
    obtain ⟨-, hs⟩ := SameInput.storeRtpPacket h₂
    refine (SameInput.createShipment h₁).toSameStreams.trans ?_
    exact ⟨hs.1, hs.2, hs.3, hs.4, hs.5, hs.6, hs.7⟩
  split at h
  · cases h
    exact ⟨rfl, rfl, rfl, rfl, rfl, rfl, rfl⟩
  split at h
  · unfold modifyChannel at h
    split at h
    · cases h
      exact ⟨List.length_modify .., rfl, rfl, rfl, rfl, rfl, rfl⟩
    · cases h
  · cases h
    exact refl m

/-- A chunk out of the window brings an estimate for the next one of its channel; on channel 1 it takes the delta of
channel 2 away. -/
theorem place_outOfWindow {c : AudioChunk} {t : UInt32} (h : m.place cfg c t = .ok m') (hout : m.outOfWindow c t)
    {k : Nat} (hk : 2 ≤ k) :
    m'.correctiveDelta k =
      if c.details.channel = 1 then if k = 2 then 0 else m.correctiveDelta k
      else if m.corrects c ∧ k = c.details.channel.toNat then distance c m
      else m.correctiveDelta k := by
  unfold place at h
  rw [if_neg hout.1, if_neg hout.2] at h
  unfold manageOutOfRangeTimestamp at h
  dsimp only at h
  split at h
  case isTrue h1 =>
    rw [if_pos h1]
    obtain ⟨m₁, h₁, h⟩ := Except.bind_eq_ok.1 h
    obtain ⟨m₂, h₂, h⟩ := Except.bind_eq_ok.1 h
    cases h
    have hstore := SameInput.storeRtpPacket h₂
    have hsame : SameDeltas m m₂ :=
      (SameInput.createShipment h₁).toSameDeltas.trans ⟨hstore.delta, hstore.chanDelta⟩
    unfold correctiveDelta
    split
    · rfl
    · exact hsame.chanDelta _
  case isFalse h1 =>
    rw [if_neg h1]
    split at h
    case isTrue h2 =>
      cases h
      have hk2 : c.details.channel.toNat = 2 := by
        rw [h2]
        rfl
      rw [hk2]
      by_cases hk' : k = 2
      · rw [if_pos ⟨.inl h2, hk'⟩, correctiveDelta, if_pos hk']
        rfl
      · rw [if_neg fun h => hk' h.2, correctiveDelta, correctiveDelta, if_neg hk', if_neg hk']
        rfl
    case isFalse h2 =>
      split at h
      case isTrue hnum =>
        unfold modifyChannel at h
        split at h
        case isFalse => cases h
        case isTrue hv =>
          cases h
          have hidx : (channelIdx c).toNat = c.details.channel.toNat - 1 := by
            unfold channelIdx
            omega
          have hpos : c.details.channel.toNat ≠ 0 := by
            intro h0
            have := hv.1
            unfold channelIdx at this
            omega
          by_cases hk' : k = c.details.channel.toNat
          · have hk2 : k ≠ 2 := fun he => h2 (UInt8.toNat_inj.1 (hk'.symm.trans he))
            rw [if_pos ⟨.inr ⟨h1, hnum⟩, hk'⟩, correctiveDelta, if_neg hk2]
            unfold chanDelta
            dsimp only
            have hlt : k - 1 < m.rtpMixerChannels.length := by
              have := hv.2
              unfold channelIdx at this
              omega
            rw [List.getElem?_modify, hidx, ← hk', List.getElem?_eq_getElem hlt]
            simp [distance]
          · rw [if_neg fun h => hk' h.2]
            unfold correctiveDelta
            split
            · rfl
            · unfold chanDelta
              dsimp only
              have hne : c.details.channel.toNat - 1 ≠ k - 1 := by omega
              rw [List.getElem?_modify, hidx]
              simp [hne]
      case isFalse hnum =>
        cases h
        rw [if_neg]
        rintro ⟨hcor, -⟩
        exact (hcor.resolve_left h2).2 (not_not.1 hnum)

/-- The chunk that a call has to place, for the mixer that its correction leaves, and its corrected timestamp. -/
def accepted (m : RtpMixer) (cfg : MixerConfig) (chunk : Option AudioChunk) :
    Option (RtpMixer × AudioChunk × UInt32) :=
  match chunk with
  | none => none
  | some chunk =>
    if m.error ∨ chunk.details.marker = mediaChunkEosMarker then none
    else match m.accept cfg chunk with
      | .ok (m₁, some (c, t)) => some (m₁, c, t)
      | _ => none

theorem accepted_some {chunk : Option AudioChunk} {a : RtpMixer × AudioChunk × UInt32}
    (h : m.accepted cfg chunk = some a) :
    ∃ c₀, m.accept cfg c₀ = .ok (a.1, some (a.2.1, a.2.2)) ∧
      a.1.place cfg a.2.1 a.2.2 = .ok (m.step cfg chunk) := by
  unfold accepted at h
  split at h
  · cases h
  rename_i c₀
  split at h
  · cases h
  rename_i hgo
  rw [not_or] at hgo
  split at h
  · rename_i m₁ c t ha
    cases h
    obtain ⟨m', hm'⟩ := place_isOk cfg t (accept_validIdx ha)
    refine ⟨c₀, ha, hm'.trans ?_⟩
    have hstep : m.audioChunkIn cfg (some c₀) = .ok m' := by
      unfold audioChunkIn
      rw [if_neg hgo.1]
      dsimp only
      rw [if_neg hgo.2, ha]
      exact hm'
    rw [step, hstep]
  · cases h

theorem SameDeltas.step_of_not_accepted {chunk : Option AudioChunk} (h : m.accepted cfg chunk = none) :
    SameDeltas m (m.step cfg chunk) := by
  unfold RtpMixer.step
  cases hcall : m.audioChunkIn cfg chunk with
  | error e => exact refl m
  | ok m' =>
    cases audioChunkIn_call hcall with
    | ignored _ he => exact he ▸ refl m
    | tooBig c _ _ _ he => exact he ▸ of_eq rfl rfl
    | flush _ _ hs => exact (SameInput.createShipment hs).toSameDeltas
    | place c₀ m₁ c t ha hp hplace =>
      exfalso
      unfold placed at hp
      unfold accepted at h
      cases chunk with
      | none => cases hp
      | some c₁ =>
        dsimp only at hp h
        split at hp
        · cases hp
        rename_i hgo
        rw [if_neg hgo] at h
        cases ha : m.accept cfg c₁ with
        | error e =>
          rw [ha] at hp
          cases hp
        | ok r =>
          obtain ⟨m₂, o⟩ := r
          rw [ha] at hp h
          obtain rfl : o = some (c, t) := hp
          cases h

/-! ## Estimates -/

/-- When a delta was estimated: at the chunk with this timestamp, for this write timestamp. Both are 0 where there
is no estimate. -/
structure Estimate where
  timestamp : UInt32 := 0
  writeTimestamp : UInt32 := 0

def Estimate.delta (e : Estimate) : Int := e.timestamp.toNat - e.writeTimestamp.toNat

/-- What there is to know of a channel: its last estimate, its last chunk (the timestamp, and what it was
corrected to), and whether that was corrected in range by the delta that there is now. -/
structure ChannelHistory where
  estimate : Estimate := {}
  previous : Option (UInt32 × UInt32) := none
  steady : Bool := false

/-- A mixer with the history of its channels. -/
structure Tracked where
  mixer : RtpMixer
  history : Nat → ChannelHistory := fun _ => {}

/-- The difference that is taken for the corrected timestamp. -/
def correctedValue (m : RtpMixer) (c : AudioChunk) : Int :=
  c.details.timestamp.toNat - m.correctiveDelta c.details.channel.toNat

namespace Tracked

/-- A new estimate for a channel. -/
def estimated (h : ChannelHistory) (c : AudioChunk) (m : RtpMixer) : ChannelHistory :=
  { h with estimate := { timestamp := c.details.timestamp, writeTimestamp := m.writeTimestamp }, steady := false }

/-- The history of the channel of a chunk when its timestamp is corrected. -/
def considered (s : Tracked) (c : AudioChunk) : ChannelHistory :=
  if c.details.channel = 2 ∧ s.mixer.estimatesDelta then estimated (s.history 2) c s.mixer
  else s.history c.details.channel.toNat

/-- The history of the channel of a chunk after the call: `m` is the mixer that corrects it, to `t`. -/
def recorded (s : Tracked) (m : RtpMixer) (c : AudioChunk) (t : UInt32) : ChannelHistory :=
  let h : ChannelHistory :=
    { s.considered c with
      previous := some (c.details.timestamp, t)
      steady := 0 ≤ m.correctedValue c ∧ m.correctedValue c < 4294967296 }
  if m.outOfWindow c t then estimated h c s.mixer else h

/-- The history after a chunk that is placed. -/
def record (s : Tracked) (m : RtpMixer) (c : AudioChunk) (t : UInt32) : Nat → ChannelHistory :=
  if m.corrects c then Function.update s.history c.details.channel.toNat (s.recorded m c t)
  else if c.details.channel = 1 ∧ m.outOfWindow c t then
    -- a new window: the delta of channel 2 is evaluated anew
    Function.update s.history 2 { s.history 2 with estimate := {}, steady := false }
  else s.history

def step (cfg : MixerConfig) (s : Tracked) (chunk : Option AudioChunk) : Tracked where
  mixer := s.mixer.step cfg chunk
  history := (s.mixer.accepted cfg chunk).elim s.history fun a => s.record a.1 a.2.1 a.2.2

/-- The deltas are those of the estimates, and a steady channel has been corrected by its delta. -/
structure Inv (s : Tracked) : Prop where
  delta : ∀ k, 2 ≤ k → s.mixer.correctiveDelta k = (s.history k).estimate.delta
  previous : ∀ k, 2 ≤ k → (s.history k).steady → ∀ p ∈ (s.history k).previous,
    (p.2.toNat : Int) = p.1.toNat - s.mixer.correctiveDelta k

/-- What a call keeps. The delta of a chunk is that of the channel's last estimate. Where the difference is negative,
the timestamp is not corrected; elsewhere, unless the chunk is so far ahead of the one of the estimate that the write
timestamp would wrap, the difference is a timestamp, and the one that the chunk gets; and it is as far from
the one before as the chunk is from that, where no estimate has come between them. -/
def Kept (cfg : MixerConfig) (s : Tracked) (chunk : Option AudioChunk) : Prop :=
  ∀ a ∈ s.mixer.accepted cfg chunk, a.1.corrects a.2.1 →
    let h := s.considered a.2.1
    a.1.correctiveDelta a.2.1.details.channel.toNat = h.estimate.delta ∧
      (a.1.correctedValue a.2.1 < 0 → a.2.2 = a.2.1.details.timestamp) ∧
      (0 ≤ a.1.correctedValue a.2.1 →
        a.2.1.details.timestamp.toNat + h.estimate.writeTimestamp.toNat < h.estimate.timestamp.toNat + 4294967296 →
        a.1.correctedValue a.2.1 < 4294967296 ∧ (a.2.2.toNat : Int) = a.1.correctedValue a.2.1 ∧
          (h.steady → ∀ p ∈ h.previous,
            (a.2.2.toNat : Int) - p.2.toNat = (a.2.1.details.timestamp.toNat : Int) - p.1.toNat))

variable {s : Tracked} {c : AudioChunk} {t : UInt32}

theorem applyDelta_eq {delta : Int} (h0 : 0 ≤ (t.toNat : Int) - delta)
    (h1 : (t.toNat : Int) - delta < 4294967296) : ((applyDelta cfg t delta).toNat : Int) = t.toNat - delta := by
  unfold applyDelta MixerConfig.doubleToUInt
  dsimp only
  rw [if_neg (by omega), if_pos h1]
  have hlt : ((t.toNat : Int) - delta).toNat < UInt32.size := by
    have : UInt32.size = 4294967296 := rfl
    omega
  rw [UInt32.toNat_ofNat_of_lt' hlt]
  omega

theorem applyDelta_neg {delta : Int} (h : (t.toNat : Int) - delta < 0) : applyDelta cfg t delta = t := by
  unfold applyDelta
  exact if_pos h

theorem delta_of_ne (hc : Corrected m cfg m' c t) {k : Nat} (hk : k ≠ c.details.channel.toNat) :
    m'.correctiveDelta k = m.correctiveDelta k := by
  unfold correctiveDelta
  split
  · rename_i hk2
    rw [hc.delta, if_neg]
    intro h2
    rw [h2] at hk
    exact hk hk2
  · exact hc.chanDelta _

/-- The delta of the channel that is corrected. -/
theorem Inv.considered (hi : Inv s) (hc : Corrected s.mixer cfg m' c t) (hcor : m'.corrects c) :
    m'.correctiveDelta c.details.channel.toNat = (s.considered c).estimate.delta ∧
      ((s.considered c).steady → ∀ p ∈ (s.considered c).previous,
        (p.2.toNat : Int) = p.1.toNat - m'.correctiveDelta c.details.channel.toNat) := by
  by_cases h2 : c.details.channel = 2
  · have hk : c.details.channel.toNat = 2 := by
      rw [h2]
      rfl
    have hdelta : m'.correctiveDelta 2 = s.mixer.newDelta c := by
      rw [correctiveDelta, if_pos rfl, hc.delta, if_pos h2]
    rw [hk, hdelta]
    by_cases hest : s.mixer.estimatesDelta
    · have hboth : c.details.channel = 2 ∧ s.mixer.estimatesDelta := ⟨h2, hest⟩
      rw [newDelta, if_pos hest, Tracked.considered, if_pos hboth]
      exact ⟨rfl, fun hs => by cases hs⟩
    · rw [newDelta, if_neg hest, Tracked.considered, if_neg fun h => hest h.2, hk]
      exact ⟨hi.delta 2 le_rfl, hi.previous 2 le_rfl⟩
  · have h1 := (hcor.resolve_left h2).1
    have h0 := (hc.corrected hcor).1
    have hge : 2 ≤ c.details.channel.toNat := by
      have h0' : c.details.channel.toNat ≠ 0 := fun h => h0 (UInt8.toNat_inj.1 h)
      have h1' : c.details.channel.toNat ≠ 1 := fun h => h1 (UInt8.toNat_inj.1 h)
      omega
    have hdelta : m'.correctiveDelta c.details.channel.toNat = s.mixer.correctiveDelta c.details.channel.toNat := by
      have h2' : c.details.channel.toNat ≠ 2 := fun h => h2 (UInt8.toNat_inj.1 h)
      rw [correctiveDelta, correctiveDelta, if_neg h2', if_neg h2', hc.chanDelta]
    rw [hdelta]
    unfold Tracked.considered
    rw [if_neg fun h => h2 h.1]
    exact ⟨hi.delta _ hge, hi.previous _ hge⟩

theorem Inv.kept (hi : Inv s) (chunk : Option AudioChunk) : Kept cfg s chunk := by
  rintro ⟨m₁, c, t⟩ ha hcor
  obtain ⟨c₀, hacc, -⟩ := accepted_some ha
  have hc := accept_corrected hacc
  obtain ⟨hdelta, hprevious⟩ := hi.considered hc hcor
  have ht := (hc.corrected hcor).2
  dsimp only at hdelta hprevious ht ⊢
  unfold correctedValue
  generalize s.considered c = h at hdelta hprevious ⊢
  have hest : m₁.correctiveDelta c.details.channel.toNat =
      h.estimate.timestamp.toNat - h.estimate.writeTimestamp.toNat := hdelta
  refine ⟨hdelta, fun hneg => ht.trans (applyDelta_neg hneg), fun h0 hlt => ?_⟩
  have hin : (c.details.timestamp.toNat : Int) - m₁.correctiveDelta c.details.channel.toNat < 4294967296 := by omega
  have heq : (t.toNat : Int) = c.details.timestamp.toNat - m₁.correctiveDelta c.details.channel.toNat := by
    rw [ht]
    exact applyDelta_eq h0 hin
  refine ⟨hin, heq, fun hs p hp => ?_⟩
  have := hprevious hs p hp
  omega

/-- A chunk whose timestamp a delta corrects changes nothing for the other channels. -/
theorem Inv.step_corrected (hi : Inv s) (hc : Corrected s.mixer cfg m c t) (hring : SameRing s.mixer m)
    (hplace : m.place cfg c t = .ok m') (hcor : m.corrects c) :
    Inv { mixer := m', history := s.record m c t } := by
  have h1 : c.details.channel ≠ 1 := by
    rintro h1
    rcases hcor with h2 | h
    · rw [h1] at h2
      cases h2
    · exact h.1 h1
  have hrecord : s.record m c t = Function.update s.history c.details.channel.toNat (s.recorded m c t) := if_pos hcor
  -- the delta after the call
  have hdelta : ∀ k, 2 ≤ k → m'.correctiveDelta k =
      if m.outOfWindow c t ∧ k = c.details.channel.toNat then distance c m else m.correctiveDelta k := by
    intro k hk
    by_cases hout : m.outOfWindow c t
    · rw [place_outOfWindow hplace hout hk, if_neg h1]
      by_cases hk' : k = c.details.channel.toNat
      · rw [if_pos ⟨hcor, hk'⟩, if_pos ⟨hout, hk'⟩]
      · rw [if_neg fun h => hk' h.2, if_neg fun h => hk' h.2]
    · rw [(SameDeltas.place hplace hout).correctiveDelta, if_neg fun h => hout h.1]
  rw [hrecord]
  refine ⟨fun k hk => ?_, fun k hk => ?_⟩
  all_goals
    dsimp only
    rw [hdelta k hk]
    by_cases hk' : k = c.details.channel.toNat
  case pos =>
    rw [hk', Function.update_self, recorded]
    by_cases hout : m.outOfWindow c t
    · rw [if_pos ⟨hout, rfl⟩, if_pos hout, distance, hring.writeTimestamp]
      rfl
    · rw [if_neg fun h => hout h.1, if_neg hout]
      exact (hi.considered hc hcor).1
  case neg =>
    rw [if_neg fun h => hk' h.2, Function.update_of_ne hk', delta_of_ne hc hk']
    exact hi.delta k hk
  case pos =>
    rw [hk', Function.update_self, recorded]
    by_cases hout : m.outOfWindow c t
    · rw [if_pos hout]
      exact fun hs => by cases hs
    · have hout' : ¬ (m.outOfWindow c t ∧ c.details.channel.toNat = c.details.channel.toNat) := fun h => hout h.1
      rw [if_neg hout', if_neg hout]
      intro hs p hp
      have hin := of_decide_eq_true hs
      cases hp
      rw [(hc.corrected hcor).2]
      exact applyDelta_eq hin.1 hin.2
  case neg =>
    rw [if_neg fun h => hk' h.2, Function.update_of_ne hk', delta_of_ne hc hk']
    exact hi.previous k hk

/-- Another chunk does at most take the delta of channel 2 away. -/
theorem Inv.step_other (hi : Inv s) (hc : Corrected s.mixer cfg m c t) (hplace : m.place cfg c t = .ok m')
    (hcor : ¬ m.corrects c) : Inv { mixer := m', history := s.record m c t } := by
  have h2 : c.details.channel ≠ 2 := fun h2 => hcor (.inl h2)
  have hsame : ∀ k, m.correctiveDelta k = s.mixer.correctiveDelta k := by
    intro k
    rw [correctiveDelta, correctiveDelta, hc.chanDelta, hc.delta, if_neg h2]
  rw [record, if_neg hcor]
  by_cases hreset : c.details.channel = 1 ∧ m.outOfWindow c t
  · have hdelta := fun k (hk : 2 ≤ k) => place_outOfWindow hplace hreset.2 hk
    rw [if_pos hreset]
    refine ⟨fun k hk => ?_, fun k hk => ?_⟩
    all_goals
      dsimp only
      rw [hdelta k hk, if_pos hreset.1]
      by_cases hk2 : k = 2
    case pos =>
      rw [if_pos hk2, hk2, Function.update_self]
      rfl
    case neg =>
      rw [if_neg hk2, Function.update_of_ne hk2, hsame]
      exact hi.delta k hk
    case pos =>
      rw [hk2, Function.update_self]
      exact fun hs => by cases hs
    case neg =>
      rw [if_neg hk2, Function.update_of_ne hk2, hsame]
      exact hi.previous k hk
  · have hdelta : ∀ k, 2 ≤ k → m'.correctiveDelta k = s.mixer.correctiveDelta k := by
      intro k hk
      by_cases hout : m.outOfWindow c t
      · have h1 : c.details.channel ≠ 1 := fun h1 => hreset ⟨h1, hout⟩
        rw [place_outOfWindow hplace hout hk, if_neg h1, if_neg fun h => hcor h.1, hsame]
      · rw [(SameDeltas.place hplace hout).correctiveDelta, hsame]
    rw [if_neg hreset]
    refine ⟨fun k hk => ?_, fun k hk => ?_⟩
    · dsimp only
      rw [hdelta k hk]
      exact hi.delta k hk
    · dsimp only
      rw [hdelta k hk]
      exact hi.previous k hk

theorem Inv.step (hi : Inv s) (chunk : Option AudioChunk) : Inv (s.step cfg chunk) := by
  cases ha : s.mixer.accepted cfg chunk with
  | none =>
    have hsame := SameDeltas.step_of_not_accepted ha
    have hstep : s.step cfg chunk = { mixer := s.mixer.step cfg chunk, history := s.history } := by
      rw [Tracked.step, ha]
      rfl
    rw [hstep]
    refine ⟨fun k hk => ?_, fun k hk => ?_⟩
    · rw [hsame.correctiveDelta]
      exact hi.delta k hk
    · rw [hsame.correctiveDelta]
      exact hi.previous k hk
  | some a =>
    obtain ⟨m₁, c, t⟩ := a
    obtain ⟨c₀, hacc, hplace⟩ := accepted_some ha
    have hc := accept_corrected hacc
    have hring := (accept_some hacc).1
    have hstep : s.step cfg chunk = { mixer := s.mixer.step cfg chunk, history := s.record m₁ c t } := by
      rw [Tracked.step, ha]
      rfl
    rw [hstep]
    dsimp only at hc hplace
    generalize s.mixer.step cfg chunk = m' at hplace ⊢
    by_cases hcor : m₁.corrects c
    · exact hi.step_corrected hc hring hplace hcor
    · exact hi.step_other hc hplace hcor

/-- The tracked mixer as constructed. -/
def fresh (stale : Nat → Int) (numOutputChannels : Nat) : Tracked where
  mixer := RtpMixer.fresh stale numOutputChannels

theorem fresh_inv (stale : Nat → Int) (numOutputChannels : Nat) : Inv (fresh stale numOutputChannels) where
  delta k _ := by
    unfold correctiveDelta
    split
    · rfl
    · rfl
  previous _ _ hs := by cases hs

/-- **Corrected timestamps**, over every run: see `Kept`. -/
theorem corrections_kept (cfg : MixerConfig) (stale : Nat → Int) (numOutputChannels : Nat)
    (chunks : List (Option AudioChunk)) :
    Run.Meets (step cfg) (Kept cfg) (fresh stale numOutputChannels) chunks :=
  Run.meets_of_inv (I := Inv) (C := fun _ _ => True) (fun _ chunk hi _ => ⟨hi.kept chunk, hi.step chunk⟩)
    (fresh_inv stale numOutputChannels) (Run.meets_of_forall fun _ _ => trivial)

/-- Every difference that is not negative is a timestamp, and the differences between consecutive chunks of a channel
are preserved. -/
def Preserved (cfg : MixerConfig) (s : Tracked) (chunk : Option AudioChunk) : Prop :=
  ∀ a ∈ s.mixer.accepted cfg chunk, a.1.corrects a.2.1 → 0 ≤ a.1.correctedValue a.2.1 →
    a.1.correctedValue a.2.1 < 4294967296 ∧
      ∀ p ∈ (s.considered a.2.1).previous, a.2.2 - p.2 = a.2.1.details.timestamp - p.1

instance (cfg : MixerConfig) (s : Tracked) (chunk : Option AudioChunk) : Decidable (Preserved cfg s chunk) :=
  have (a : RtpMixer × AudioChunk × UInt32) : Decidable (∀ p ∈ (s.considered a.2.1).previous,
      a.2.2 - p.2 = a.2.1.details.timestamp - p.1) := Option.decidableForallMem _
  inferInstanceAs (Decidable (∀ a ∈ s.mixer.accepted cfg chunk, _))

/-- A chunk of channel 2 that is far ahead of the window only brings a new delta, for the next one to be in the
window: the corrected timestamp of that is behind the one before. And when channel 1 is about to wrap, a difference
reaches 2^32. -/
theorem not_preserved :
    ¬ Run.Meets (step {}) (Preserved {}) (fresh (fun _ => 0) 1)
        [some (pcmChunk 1 1000 2 5), some (pcmChunk 2 5000 2 5), some (pcmChunk 2 100000 2 5),
          some (pcmChunk 2 100160 2 5)] ∧
      ¬ Run.Meets (step {}) (Preserved {}) (fresh (fun _ => 0) 1)
        [some (pcmChunk 1 4294967196 2 5), some (pcmChunk 2 0 2 5), some (pcmChunk 2 200 2 5)] := by
  constructor <;> decide +kernel

end Tracked

end RtpMixer

end Oreka.Mixer
