import Oreka.Mixer.Proof.CorrectiveDelta

/-!
# The indices of the input channels

`m_numInputChannels` is the size of `m_rtpMixerChannels` in every state, so every loop over the channels stays inside,
and `CreateChannels` has made a chunk's channel before its number becomes an index (`Indexed`). The one exception is
channel 0: nothing is created for it, and its index is -1 as soon as other channels are there (`indices_valid_iff`).
-/

namespace Oreka.Mixer

namespace RtpMixer

variable {cfg : MixerConfig} {m m' : RtpMixer}

/-- `m_numInputChannels == m_rtpMixerChannels.size()`. -/
def Counted (m : RtpMixer) : Prop := m.numInputChannels = m.rtpMixerChannels.length

instance (m : RtpMixer) : Decidable m.Counted := inferInstanceAs (Decidable (_ = _))

/-- There are separate channels in a stereo recording only, and all of them are counted. -/
structure Indexed (cfg : MixerConfig) (m : RtpMixer) : Prop where
  counted : m.Counted
  stereo : m.numInputChannels ≠ 0 → m.numOutputChannels = 2 ∧ 1 < cfg.tapeNumChannels

/-- The same number of channels. -/
def SameCounts (m m' : RtpMixer) : Prop :=
  m'.rtpMixerChannels.length = m.rtpMixerChannels.length ∧ m'.numInputChannels = m.numInputChannels ∧
    m'.numOutputChannels = m.numOutputChannels

theorem modifyChannel_sameCounts {idx : Int} {f : RtpMixerChannel → RtpMixerChannel}
    (h : m.modifyChannel idx f = .ok m') : SameCounts m m' := by
  unfold modifyChannel at h
  split at h
  · cases h
    exact ⟨List.length_modify .., rfl, rfl⟩
  · cases h

theorem setLastChunk_sameCounts {idx : Int} {c : AudioChunk} (h : m.setLastChunk idx c = .ok m') :
    SameCounts m m' := by
  unfold setLastChunk at h
  split at h
  · exact modifyChannel_sameCounts h
  · cases h
    exact ⟨rfl, rfl, rfl⟩

theorem correctTimestamp_sameCounts {c₀ c : AudioChunk} {t : UInt32}
    (h : m.correctTimestamp cfg c₀ = .ok (m', c, t)) : SameCounts m m' := by
  unfold correctTimestamp at h
  split at h
  · obtain ⟨m₁, h₁, h⟩ := Except.bind_eq_ok.1 h
    have hs := setLastChunk_sameCounts h₁
    cases h
    exact hs
  split at h
  · obtain ⟨m₁, h₁, h⟩ := Except.bind_eq_ok.1 h
    have hs := setLastChunk_sameCounts h₁
    cases h
    exact hs
  unfold correctOther at h
  split at h
  · cases h
    exact ⟨rfl, rfl, rfl⟩
  split at h
  · cases h
  split at h
  · cases h
  obtain ⟨m₁, h₁, h⟩ := Except.bind_eq_ok.1 h
  have hs := modifyChannel_sameCounts h₁
  cases h
  exact hs

theorem Indexed.of_sameCounts (hi : Indexed cfg m) (h : SameCounts m m') : Indexed cfg m' := by
  obtain ⟨hlength, hin, hout⟩ := h
  refine ⟨?_, ?_⟩
  · unfold Counted
    rw [hin, hlength]
    exact hi.counted
  · rw [hin, hout]
    exact hi.stereo

/-- The channels as the correction of a timestamp finds them. -/
def withChannels (m : RtpMixer) (cfg : MixerConfig) (c : AudioChunk) : RtpMixer :=
  if m.numOutputChannels = 2 then m.createChannels cfg c.details.channel.toNat else m

theorem Indexed.withChannels (hi : Indexed cfg m) (c : AudioChunk) : Indexed cfg (m.withChannels cfg c) ∧
    ((m.withChannels cfg c).numInputChannels ≠ 0 →
      c.details.channel.toNat ≤ (m.withChannels cfg c).numInputChannels) := by
  unfold RtpMixer.withChannels
  by_cases h2 : m.numOutputChannels = 2
  · rw [if_pos h2]
    unfold createChannels
    by_cases hskip : m.numOutputChannels = 1 ∨ cfg.tapeNumChannels ≤ 1 ∨
        c.details.channel.toNat ≤ m.numInputChannels
    · rw [if_pos hskip]
      refine ⟨hi, fun hne => ?_⟩
      obtain ⟨-, hstereo⟩ := hi.stereo hne
      rcases hskip with h1 | h1 | hle
      · omega
      · omega
      · exact hle
    · rw [if_neg hskip]
      have hcount : m.numInputChannels = m.rtpMixerChannels.length := hi.counted
      refine ⟨⟨?_, fun _ => ⟨h2, by omega⟩⟩, fun _ => le_rfl⟩
      show c.details.channel.toNat = _
      rw [List.length_append, List.length_map, List.length_range', ← hcount]
      omega
  · rw [if_neg h2]
    exact ⟨hi, fun hne => absurd (hi.stereo hne).1 h2⟩

/-- An index below the count is one into the vector. -/
theorem Counted.validIdx (h : m.Counted) {idx : Int} (h0 : 0 ≤ idx) (hlt : idx < m.numInputChannels) :
    m.validIdx idx := by
  unfold Counted at h
  exact ⟨h0, by omega⟩

theorem modifyChannel_isOk {idx : Int} (hv : m.validIdx idx) (f : RtpMixerChannel → RtpMixerChannel) :
    m.modifyChannel idx f = .ok { m with rtpMixerChannels := m.rtpMixerChannels.modify idx.toNat f } := if_pos hv

theorem setLastChunk_isOk {idx : Int} (hv : m.numInputChannels ≠ 0 → m.validIdx idx) (c : AudioChunk) :
    ∃ m', m.setLastChunk idx c = .ok m' := by
  unfold setLastChunk
  split
  · rename_i hne
    exact ⟨_, modifyChannel_isOk (hv hne) _⟩
  · exact ⟨m, rfl⟩

theorem channelIdx_of_mono {c : AudioChunk} (h0 : c.details.channel = 0) : channelIdx c < 0 := by
  unfold channelIdx
  rw [h0]
  decide

/-- **The correction of a timestamp** fails on channel 0 among others, and on no other chunk whose channel is
there. -/
theorem correctTimestamp_isOk_iff (hc : m.Counted) (c : AudioChunk)
    (hle : m.numInputChannels ≠ 0 → c.details.channel.toNat ≤ m.numInputChannels) :
    (∃ r, m.correctTimestamp cfg c = .ok r) ↔ ¬ (c.details.channel = 0 ∧ m.numInputChannels ≠ 0) := by
  unfold correctTimestamp
  split
  case isTrue h1 =>
    have hv : m.numInputChannels ≠ 0 → m.validIdx 0 := fun hne => hc.validIdx le_rfl (by omega)
    refine iff_of_true ?_ fun h0 => ?_
    · unfold correctS1
      generalize correctMillis c m.lastChunkS1 m.lastTimestampS1 = r
      obtain ⟨m₁, h₁⟩ := setLastChunk_isOk hv r.1
      dsimp only
      rw [h₁]
      exact ⟨_, rfl⟩
    · rw [h1] at h0
      cases h0.1
  case isFalse h1 =>
    split
    case isTrue h2 =>
      have hn : c.details.channel.toNat = 2 := by
        rw [h2]
        rfl
      have hv : m.numInputChannels ≠ 0 → m.validIdx 1 := by
        intro hne
        have := hle hne
        exact hc.validIdx (by decide) (by omega)
      refine iff_of_true ?_ fun h0 => ?_
      · unfold correctS2
        generalize correctMillis c m.lastChunkS2 m.lastTimestampS2 = r
        obtain ⟨m₁, h₁⟩ := setLastChunk_isOk hv r.1
        dsimp only
        rw [h₁]
        exact ⟨_, rfl⟩
      · rw [h2] at h0
        cases h0.1
    case isFalse h2 =>
      unfold correctOther
      by_cases hne : m.numInputChannels = 0
      · rw [if_pos hne]
        exact iff_of_true ⟨_, rfl⟩ fun h0 => h0.2 hne
      rw [if_neg hne]
      by_cases h0 : c.details.channel = 0
      · rw [if_pos (channelIdx_of_mono h0)]
        exact iff_of_false (by rintro ⟨r, hr⟩; cases hr) fun h => h ⟨h0, hne⟩
      · have hpos : c.details.channel.toNat ≠ 0 := fun h => h0 (UInt8.toNat_inj.1 h)
        have hv : m.validIdx (channelIdx c) := by
          have := hle hne
          unfold channelIdx
          exact hc.validIdx (by omega) (by omega)
        have hlt : (channelIdx c).toNat < m.rtpMixerChannels.length := by
          have := hv.1
          have := hv.2
          omega
        rw [if_neg (not_lt.2 hv.1), List.getElem?_eq_getElem hlt]
        generalize m.rtpMixerChannels[(channelIdx c).toNat] = ch
        have hidx : channelIdx (correctMillis c ch.lastChunk ch.lastTimestamp).1 = channelIdx c := by
          unfold channelIdx
          rw [(correctMillis_sameAudio c ch.lastChunk ch.lastTimestamp).2]
        dsimp only
        rw [hidx, modifyChannel_isOk hv]
        exact iff_of_true ⟨_, rfl⟩ fun h => h0 h.1

/-! ## A call -/

/-- `AudioChunkIn` takes the chunk up: it has audio, of a size and an encoding that are accepted. -/
def Audible (c : AudioChunk) : Prop :=
  (∃ n, c.getNumSamples = .ok n ∧ n ≠ 0) ∧ c.getNumBytes ≤ 100000 ∧ c.details.encoding = .pcmAudio

theorem accept_of_audible {c : AudioChunk} (h : Audible c) : m.accept cfg c =
    (m.withChannels cfg c).correctTimestamp cfg c >>= fun r => pure (r.1, some (r.2.1, r.2.2)) := by
  obtain ⟨⟨n, hn, hn0⟩, hbytes, henc⟩ := h
  unfold accept
  rw [hn]
  show (if n = 0 then _ else _) = _
  rw [if_neg hn0, if_neg (not_lt.2 hbytes), if_neg (not_not.2 henc)]
  rfl

/-- A chunk that is not taken up is refused before any access. -/
theorem accept_of_not_audible {c : AudioChunk} (h : ¬ Audible c) :
    (∃ e, m.accept cfg c = .error e ∧ e ≠ .channelIndex) ∨ ∃ m', m.accept cfg c = .ok (m', none) := by
  unfold accept
  cases hn : c.getNumSamples with
  | error e => exact .inl ⟨_, rfl, fun he => by cases he⟩
  | ok n =>
    show (∃ e, (if n = 0 then _ else _) = _ ∧ _) ∨ ∃ m', (if n = 0 then _ else _) = _
    by_cases hn0 : n = 0
    · rw [if_pos hn0]
      exact .inr ⟨_, rfl⟩
    rw [if_neg hn0]
    by_cases hbytes : c.getNumBytes > 100000
    · rw [if_pos hbytes]
      exact .inr ⟨_, rfl⟩
    rw [if_neg hbytes]
    by_cases henc : c.details.encoding ≠ .pcmAudio
    · rw [if_pos henc]
      exact .inl ⟨_, rfl, fun he => by cases he⟩
    · exact absurd ⟨⟨n, hn, hn0⟩, not_lt.1 hbytes, not_not.1 henc⟩ h

/-- The call takes up a chunk of channel 0 while there are separate channels. -/
def MonoAmongChannels (m : RtpMixer) (chunk : Option AudioChunk) : Prop :=
  ∃ c ∈ chunk, m.error = false ∧ c.details.marker ≠ mediaChunkEosMarker ∧ Audible c ∧
    c.details.channel = 0 ∧ m.numInputChannels ≠ 0

/-- No access of a call is outside of `m_rtpMixerChannels`: the count that bounds the loops is its size, when the call
begins as well as for the chunk that it places, and no number of a channel makes an index that is out. -/
structure InRange (cfg : MixerConfig) (m : RtpMixer) (chunk : Option AudioChunk) : Prop where
  counted : m.Counted
  placed : ∀ a ∈ m.accepted cfg chunk, a.1.Counted
  index : m.audioChunkIn cfg chunk ≠ .error .channelIndex
theorem Indexed.accept (hi : Indexed cfg m) {c₀ c : AudioChunk} {t : UInt32}
    (h : m.accept cfg c₀ = .ok (m', some (c, t))) : Indexed cfg m' := by
  by_cases ha : Audible c₀
  · rw [accept_of_audible ha] at h
    obtain ⟨⟨m₁, c₁, t₁⟩, h₁, h⟩ := Except.bind_eq_ok.1 h
    cases h
    exact (hi.withChannels c₀).1.of_sameCounts (correctTimestamp_sameCounts h₁)
  · rcases accept_of_not_audible (m := m) ha with ⟨e, he, -⟩ | ⟨m₁, he⟩
    · cases he.symm.trans h
    · cases he.symm.trans h

/-- A call keeps the count right. -/
theorem Indexed.step (hi : Indexed cfg m) (chunk : Option AudioChunk) : Indexed cfg (m.step cfg chunk) := by
  unfold RtpMixer.step
  cases hcall : m.audioChunkIn cfg chunk with
  | error e => exact hi
  | ok m' =>
    dsimp only
    cases audioChunkIn_call hcall with
    | ignored _ he => exact he ▸ hi
    | tooBig c _ _ _ he => exact he ▸ hi.of_sameCounts ⟨rfl, rfl, rfl⟩
    | flush _ _ hs =>
      obtain ⟨hin, hch, hout⟩ := createShipment_channels hs
      exact hi.of_sameCounts ⟨by rw [hch], hin, hout⟩
    | place c₀ m₁ c t ha _ hplace =>
      have hs := SameStreams.place hplace
      exact (hi.accept ha).of_sameCounts ⟨hs.length, hs.numInputChannels, hs.numOutputChannels⟩

theorem withChannels_of_mono {c : AudioChunk} (h0 : c.details.channel = 0) : m.withChannels cfg c = m := by
  unfold withChannels
  split
  · exact if_pos (.inr (.inr (by rw [h0]; exact Nat.zero_le _)))
  · rfl

theorem correctTimestamp_of_mono {c : AudioChunk} (h0 : c.details.channel = 0) (hne : m.numInputChannels ≠ 0) :
    m.correctTimestamp cfg c = .error .channelIndex := by
  unfold correctTimestamp correctOther
  rw [if_neg (by rw [h0]; decide), if_neg (by rw [h0]; decide), if_neg hne, if_pos (channelIdx_of_mono h0)]

/-- A call fails on the number of a channel exactly where it takes up a chunk of channel 0 among others. -/
theorem audioChunkIn_channelIndex_iff (hi : Indexed cfg m) (chunk : Option AudioChunk) :
    m.audioChunkIn cfg chunk = .error .channelIndex ↔ MonoAmongChannels m chunk := by
  unfold audioChunkIn
  by_cases he : m.error = true
  · rw [if_pos he]
    refine iff_of_false (fun h => by cases h) ?_
    rintro ⟨c, -, herror, -⟩
    rw [he] at herror
    cases herror
  rw [if_neg he]
  cases chunk with
  | none => exact iff_of_false (fun h => by cases h) (by rintro ⟨c, hc, -⟩; cases hc)
  | some c =>
    dsimp only
    by_cases hm : c.details.marker = mediaChunkEosMarker
    · obtain ⟨m', hship⟩ := createShipment_isOk m cfg true
      rw [if_pos hm, hship]
      refine iff_of_false (fun h => by cases h) ?_
      rintro ⟨c', hc, -, hmark, -⟩
      cases hc
      exact hmark hm
    rw [if_neg hm]
    by_cases ha : Audible c
    · rw [accept_of_audible ha]
      by_cases hmono : c.details.channel = 0 ∧ m.numInputChannels ≠ 0
      · rw [withChannels_of_mono hmono.1, correctTimestamp_of_mono hmono.1 hmono.2]
        refine iff_of_true rfl ⟨c, rfl, ?_, hm, ha, hmono⟩
        simpa using he
      · have hcount := hi.withChannels c
        have hmono' : ¬ (c.details.channel = 0 ∧ (m.withChannels cfg c).numInputChannels ≠ 0) := by
          rintro ⟨h0, hne⟩
          rw [withChannels_of_mono h0] at hne
          exact hmono ⟨h0, hne⟩
        obtain ⟨⟨m₁, c₁, t⟩, hr⟩ := (correctTimestamp_isOk_iff hcount.1.counted c hcount.2).2 hmono'
        obtain ⟨m', hm'⟩ := place_isOk cfg t (correctTimestamp_validIdx hr)
        refine iff_of_false (fun h => ?_) ?_
        · rw [hr] at h
          cases hm'.symm.trans h
        · rintro ⟨c', hc, -, -, -, h⟩
          cases hc
          exact hmono h
    · refine iff_of_false (fun h => ?_) ?_
      · rcases accept_of_not_audible (m := m) ha with ⟨e, hacc, he⟩ | ⟨m₁, hacc⟩
        · rw [hacc] at h
          cases h
          exact he rfl
        · rw [hacc] at h
          cases h
      · rintro ⟨c', hc, -, -, h, -⟩
        cases hc
        exact ha h

theorem inRange_iff (hi : Indexed cfg m) (chunk : Option AudioChunk) :
    InRange cfg m chunk ↔ ¬ MonoAmongChannels m chunk := by
  rw [← audioChunkIn_channelIndex_iff hi]
  constructor
  · intro h
    exact h.index
  · intro h
    refine ⟨hi.counted, fun a ha => ?_, h⟩
    obtain ⟨c₀, hacc, -⟩ := accepted_some ha
    exact (hi.accept hacc).counted

theorem fresh_indexed (cfg : MixerConfig) (stale : Nat → Int) (numOutputChannels : Nat) :
    Indexed cfg (fresh stale numOutputChannels) where
  counted := rfl
  stereo h := absurd rfl h

/-- **The accesses to `m_rtpMixerChannels`**, over every run: they stay inside exactly as long as no chunk of
channel 0 is taken up among separate channels. -/
theorem indices_valid_iff (cfg : MixerConfig) (stale : Nat → Int) (numOutputChannels : Nat)
    (chunks : List (Option AudioChunk)) :
    Run.Meets (fun m => step m cfg) (InRange cfg) (fresh stale numOutputChannels) chunks ↔
      Run.Meets (fun m => step m cfg) (fun m chunk => ¬ MonoAmongChannels m chunk)
        (fresh stale numOutputChannels) chunks :=
  Run.meets_congr_of_inv (fun _ chunk hi => hi.step chunk) (fun _ chunk hi => inRange_iff hi chunk)
    (fresh_indexed cfg stale numOutputChannels)

/-- A stereo tape: a chunk of channel 1, then one of channel 0. -/
theorem not_indices_valid : ¬ Run.Meets (fun m => step m { tapeNumChannels := 2 }) (InRange { tapeNumChannels := 2 })
    (fresh (fun _ => 0) 2) [some (pcmChunk 1 1000 2 5), some (pcmChunk 0 1002 2 5)] := by
  rintro ⟨-, ⟨-, -, hindex⟩, -⟩
  have hi := (fresh_indexed { tapeNumChannels := 2 } (fun _ => 0) 2).step (some (pcmChunk 1 1000 2 5))
  have haudible : Audible (pcmChunk 0 1002 2 5) := ⟨⟨2, rfl, by decide⟩, by decide, rfl⟩
  exact hindex ((audioChunkIn_channelIndex_iff hi _).2
    ⟨_, rfl, by decide +kernel, by decide, haudible, rfl, by decide +kernel⟩)

end RtpMixer

end Oreka.Mixer
