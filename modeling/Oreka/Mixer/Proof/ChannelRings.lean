import Oreka.Mixer.Proof.Loops

/-!
# The circular buffers of the input channels

A stereo mixer keeps a buffer for each input channel, which shares its pointers with the mix. A
channel that is not there yet is silent (`chanBuffer`), so creating one changes nothing; zeroing goes
over every channel in step with the mix (`zeroLoop_chanBuffer`), and the samples of a chunk overwrite
those of its own channel (`mixLoop_chanBuffer`). `SameChannels` is the frame of everything else.
-/

namespace Oreka.Mixer

namespace RtpMixer

variable {cfg : MixerConfig} {m m' : RtpMixer}

/-- The buffer of the input channel `i + 1`. -/
def chanBuffer (m : RtpMixer) (i : Nat) : Nat → Int :=
  fun slot => (m.rtpMixerChannels[i]?.map fun ch => ch.buffer slot).getD 0

/-- The channels are counted right; `m_channel` is an `unsigned char`. -/
structure Separate (m : RtpMixer) : Prop where
  length : m.rtpMixerChannels.length = m.numInputChannels
  le : m.numInputChannels ≤ 255

/-- The same audio in every channel; channels may have been created. -/
structure SameChannels (m m' : RtpMixer) : Prop where
  chanBuffer : ∀ i, m'.chanBuffer i = m.chanBuffer i
  numOutputChannels : m'.numOutputChannels = m.numOutputChannels
  le : m.numInputChannels ≤ m'.numInputChannels
  separate : m.Separate → m'.Separate

namespace SameChannels

theorem of_eq (h : m'.rtpMixerChannels = m.rtpMixerChannels)
    (hi : m'.numInputChannels = m.numInputChannels)
    (ho : m'.numOutputChannels = m.numOutputChannels) : SameChannels m m' where
  chanBuffer i := by unfold RtpMixer.chanBuffer; rw [h]
  numOutputChannels := ho
  le := hi.ge
  separate hs := ⟨by rw [h, hi, hs.length], by rw [hi]; exact hs.le⟩

theorem refl (m : RtpMixer) : SameChannels m m := of_eq rfl rfl rfl

theorem trans {m₁ m₂ m₃ : RtpMixer} (h : SameChannels m₁ m₂) (h' : SameChannels m₂ m₃) :
    SameChannels m₁ m₃ where
  chanBuffer i := (h'.chanBuffer i).trans (h.chanBuffer i)
  numOutputChannels := h'.numOutputChannels.trans h.numOutputChannels
  le := h.le.trans h'.le
  separate hs := h'.separate (h.separate hs)

end SameChannels

/-! ## The loops of a store -/

theorem zeroStep_separate (h : m.Separate) : m.zeroStep.Separate :=
  ⟨by simp [zeroStep, h.length], h.le⟩

theorem zeroStep_chanBuffer (h : m.Separate) (i : Nat) :
    m.zeroStep.chanBuffer i = Function.update (m.chanBuffer i) m.writePtr 0 := by
  funext slot
  unfold chanBuffer zeroStep
  by_cases hi : i < m.rtpMixerChannels.length
  · have hi' : i < m.numInputChannels := h.length ▸ hi
    rw [List.getElem?_mapIdx, List.getElem?_eq_getElem hi]
    simp only [Option.map_some, Option.getD_some, if_pos hi']
  · rw [List.getElem?_eq_none (by simpa using hi), List.getElem?_eq_none (by simpa using hi)]
    by_cases hs : slot = m.writePtr
    · simp [hs]
    · simp [Function.update_of_ne hs]

theorem zeroLoop_separate : ∀ (n : Nat) {m : RtpMixer}, m.Separate → (zeroLoop n m).Separate
  | 0, _, h => h
  | n + 1, _, h => zeroLoop_separate n (zeroStep_separate h)

theorem zeroLoop_chanBuffer : ∀ (n : Nat) {m : RtpMixer}, m.Separate → ∀ i,
    (zeroLoop n m).chanBuffer i =
      (Ring.fold bufferEnd (fun _ _ => 0) (List.replicate n ()) (m.chanBuffer i) m.writePtr).1
  | 0, _, _, _ => rfl
  | n + 1, m, h, i => by
    rw [zeroLoop, zeroLoop_chanBuffer n (zeroStep_separate h), zeroStep_chanBuffer h,
      List.replicate_succ, Ring.fold]
    rfl

theorem mixStep_separate {idx p : Nat} {x : Int} (h : m.Separate) :
    (m.mixStep idx p x).Separate := by
  refine ⟨?_, h.le⟩
  unfold mixStep
  dsimp only
  split
  · rw [List.length_modify, h.length]
  · exact h.length

theorem mixStep_chanBuffer {idx p : Nat} {x : Int} (h : idx < m.numInputChannels)
    (hs : m.Separate) (i : Nat) :
    (m.mixStep idx p x).chanBuffer i =
      if i = idx then Function.update (m.chanBuffer i) p x else m.chanBuffer i := by
  have h0 : m.numInputChannels ≠ 0 := by omega
  funext slot
  unfold chanBuffer mixStep
  simp only [if_pos h0, ne_eq, List.getElem?_modify]
  by_cases hi : i = idx
  · subst hi
    rw [if_pos rfl, List.getElem?_eq_getElem (hs.length ▸ h)]
    by_cases hslot : slot = p
    · simp [hslot]
    · simp [Function.update_of_ne hslot]
  · simp [hi, Ne.symm hi]

theorem mixLoop_chanBuffer (idx : Nat) : ∀ (xs : List Int) (p : Nat) {m : RtpMixer},
    idx < m.numInputChannels → m.Separate →
    (mixLoop idx xs p m).Separate ∧ ∀ i, (mixLoop idx xs p m).chanBuffer i =
      if i = idx then (Ring.fold bufferEnd (fun _ x => x) xs (m.chanBuffer i) p).1
      else m.chanBuffer i
  | [], _, _, _, hs => ⟨hs, fun i => by split <;> rfl⟩
  | x :: xs, p, m, h, hs => by
    obtain ⟨hs', hb⟩ := mixLoop_chanBuffer idx xs (Ring.next bufferEnd p)
      (m := m.mixStep idx p x) h (mixStep_separate hs)
    refine ⟨hs', fun i => ?_⟩
    have hb := hb i
    rw [mixStep_chanBuffer h hs] at hb
    rw [mixLoop, ← Ring.next, hb]
    split
    · rfl
    · rfl

theorem mixPayload_channels {c : AudioChunk} {t : UInt32} (hs : m.Separate)
    (hidx : (channelIdx c).toNat < m.numInputChannels) (ht : t.toNat ≤ m.writeTimestamp.toNat) :
    (mixPayload m c t).Separate ∧ (mixPayload m c t).numInputChannels = m.numInputChannels ∧
      (mixPayload m c t).numOutputChannels = m.numOutputChannels ∧
      ∀ i, (mixPayload m c t).chanBuffer i =
        if m.writeTimestamp.toNat - t.toNat < bufferEnd ∧ i = (channelIdx c).toNat then
          (Ring.fold bufferEnd (fun _ x => x) c.pcm (m.chanBuffer i)
            (circularPointerSubtractOffset m.writePtr (m.writeTimestamp.toNat - t.toNat))).1
        else m.chanBuffer i := by
  rw [mixPayload_run ht]
  by_cases hreach : m.writeTimestamp.toNat - t.toNat < bufferEnd
  · rw [if_pos hreach]
    obtain ⟨hs', hb⟩ := mixLoop_chanBuffer (channelIdx c).toNat c.pcm
      (circularPointerSubtractOffset m.writePtr (m.writeTimestamp.toNat - t.toNat)) hidx hs
    obtain ⟨chs, he⟩ := mixLoop_eq (channelIdx c).toNat c.pcm
      (circularPointerSubtractOffset m.writePtr (m.writeTimestamp.toNat - t.toNat)) m
    refine ⟨hs', by rw [he], by rw [he], fun i => ?_⟩
    simp only [hb, hreach, true_and]
  · simp only [hreach, false_and, if_false]
    exact ⟨hs, trivial, trivial, fun _ => trivial⟩

/-- A channel after a store: silence up to the new write timestamp `w`, and the samples from `t` on in
the chunk's own channel. -/
def storeChannel (m : RtpMixer) (c : AudioChunk) (w t i : Nat) : Nat → Int :=
  let n := w - m.writeTimestamp.toNat
  let z := (Ring.fold bufferEnd (fun _ _ => 0) (List.replicate n ()) (m.chanBuffer i) m.writePtr).1
  if w - t < bufferEnd ∧ c.details.channel.toNat = i + 1 then
    (Ring.fold bufferEnd (fun _ x => x) c.pcm z
      (circularPointerSubtractOffset ((m.writePtr + n) % bufferEnd) (w - t))).1
  else z

theorem storeRtpPacket_validIdx {c : AudioChunk} {t : UInt32} (h : m.storeRtpPacket c t = .ok m')
    (h0 : m.numInputChannels ≠ 0) : m.validIdx (channelIdx c) := by
  unfold storeRtpPacket at h
  split at h
  · cases h
  · rename_i hv
    exact not_not.1 fun hnot => hv ⟨h0, hnot⟩

/-- **What a store does to the channels.** -/
theorem storeRtpPacket_channels {c : AudioChunk} {t : UInt32} (hw : m.writePtr < bufferEnd)
    (hs : m.Separate) (h0 : m.numInputChannels ≠ 0) (h : m.storeRtpPacket c t = .ok m') :
    (1 ≤ c.details.channel.toNat ∧ c.details.channel.toNat ≤ m.numInputChannels) ∧
      m'.Separate ∧ m'.numInputChannels = m.numInputChannels ∧
      m'.numOutputChannels = m.numOutputChannels ∧
      ∀ i, m'.chanBuffer i =
        if m.dismisses c t then m.chanBuffer i
        else m.storeChannel c (max m.writeTimestamp.toNat (t.toNat + c.pcm.length)) t.toNat i := by
  have hv := storeRtpPacket_validIdx h h0
  unfold validIdx channelIdx at hv
  rw [hs.length] at hv
  have hidx : (channelIdx c).toNat < m.numInputChannels := by
    unfold channelIdx
    omega
  refine ⟨by omega, ?_⟩
  rcases storeRtpPacket_run h with ⟨hd, rfl⟩ | ⟨hd, w, hw', rfl⟩
  · exact ⟨hs, rfl, rfl, fun i => by rw [if_pos hd]⟩
  rw [← hw']
  simp only [if_neg hd, storeChannel]
  have hto : (UInt32.ofNat w).toNat = w := by rw [hw', store_toNat hd]
  have hsep := zeroLoop_separate (w - m.writeTimestamp.toNat) hs
  have hzero := zeroLoop_chanBuffer (w - m.writeTimestamp.toNat) hs
  obtain ⟨chs, hz⟩ := zeroLoop_eq (w - m.writeTimestamp.toNat) hw
  have hin : (zeroLoop (w - m.writeTimestamp.toNat) m).numInputChannels = m.numInputChannels := by
    rw [hz]
  have hout : (zeroLoop (w - m.writeTimestamp.toNat) m).numOutputChannels = m.numOutputChannels := by
    rw [hz]
  have hptr : (zeroLoop (w - m.writeTimestamp.toNat) m).writePtr =
      (m.writePtr + (w - m.writeTimestamp.toNat)) % bufferEnd := by rw [hz]
  obtain ⟨hs', hin', hout', hb⟩ := mixPayload_channels (c := c) (t := t)
    (m := { zeroLoop (w - m.writeTimestamp.toNat) m with writeTimestamp := UInt32.ofNat w })
    ⟨hsep.1, hsep.2⟩ (by dsimp only; omega) (by dsimp only; omega)
  refine ⟨hs', hin'.trans hin, hout'.trans hout, fun i => ?_⟩
  have hchan : i = (channelIdx c).toNat ↔ c.details.channel.toNat = i + 1 := by
    unfold channelIdx
    omega
  rw [hb, ← hzero]
  simp only [hto, hptr, hchan]
  rfl

/-! ## The frame -/

theorem createChannels_sameChannels (m : RtpMixer) (cfg : MixerConfig) {n : Nat} (hn : n ≤ 255) :
    SameChannels m (m.createChannels cfg n) ∧
      (m.numOutputChannels ≠ 1 → 1 < cfg.tapeNumChannels →
        n ≤ (m.createChannels cfg n).numInputChannels) := by
  unfold createChannels
  split
  · rename_i h
    exact ⟨.refl m, fun ho ht => by omega⟩
  · rename_i h
    refine ⟨⟨fun i => ?_, rfl, by dsimp only; omega, fun hs => ⟨?_, hn⟩⟩, fun _ _ => le_rfl⟩
    · -- the new channels are silent
      funext slot
      unfold chanBuffer
      rw [List.getElem?_append]
      split
      · rfl
      · rename_i hi
        rw [List.getElem?_eq_none (not_lt.1 hi), List.getElem?_map]
        cases (List.range' m.numInputChannels (n - m.numInputChannels))[i - _]? with
        | none => rfl
        | some j => rfl
    · have hlen := hs.length
      simp only [List.length_append, List.length_map, List.length_range']
      omega

theorem modifyChannel_sameChannels {idx : Int} {f : RtpMixerChannel → RtpMixerChannel}
    (h : m.modifyChannel idx f = .ok m') (hf : ∀ ch, (f ch).buffer = ch.buffer) :
    SameChannels m m' := by
  unfold modifyChannel at h
  split at h
  · cases h
    refine ⟨fun i => ?_, rfl, le_rfl, fun hs => ⟨?_, hs.le⟩⟩
    · funext slot
      unfold chanBuffer
      rw [List.getElem?_modify]
      cases m.rtpMixerChannels[i]? with
      | none => rfl
      | some ch =>
        by_cases hi : idx.toNat = i
        · simp [hi, hf]
        · simp [hi]
    · simp [hs.length]
  · cases h

theorem setLastChunk_sameChannels {idx : Int} {c : AudioChunk}
    (h : m.setLastChunk idx c = .ok m') : SameChannels m m' := by
  unfold setLastChunk at h
  split at h
  · exact modifyChannel_sameChannels h fun _ => rfl
  · cases h
    exact .refl m

theorem correctTimestamp_sameChannels {c c' : AudioChunk} {t : UInt32}
    (h : m.correctTimestamp cfg c = .ok (m', c', t)) : SameChannels m m' := by
  unfold correctTimestamp at h
  split at h
  · obtain ⟨m₁, h₁, h⟩ := Except.bind_eq_ok.1 h
    cases h
    exact (setLastChunk_sameChannels h₁).trans (.of_eq rfl rfl rfl)
  split at h
  · obtain ⟨m₁, h₁, h⟩ := Except.bind_eq_ok.1 h
    cases h
    exact (setLastChunk_sameChannels h₁).trans (.of_eq rfl rfl rfl)
  unfold correctOther at h
  split at h
  · cases h
    exact .refl _
  split at h
  · cases h
  split at h
  · cases h
  · obtain ⟨m₁, h₁, h⟩ := Except.bind_eq_ok.1 h
    cases h
    exact modifyChannel_sameChannels h₁ fun _ => rfl

/-- `accept` makes sure that the channel of the chunk is there. -/
theorem accept_sameChannels {c c' : AudioChunk} {t : UInt32} (ho : m.numOutputChannels = 2)
    (ht : 1 < cfg.tapeNumChannels) (h : m.accept cfg c = .ok (m', some (c', t))) :
    SameChannels m m' ∧ c'.details.channel.toNat ≤ m'.numInputChannels := by
  obtain ⟨n, -, h⟩ := Except.bind_eq_ok.1 h
  split at h
  · cases h
  split at h
  · cases h
  split at h
  · cases h
  obtain ⟨⟨m₁, c₁, t₁⟩, h₁, h⟩ := Except.bind_eq_ok.1 h
  cases h
  have hle : c.details.channel.toNat ≤ 255 := by
    have := c.details.channel.toNat_lt
    omega
  obtain ⟨hcreate, hnum⟩ := createChannels_sameChannels m cfg hle
  have hcorrect := correctTimestamp_sameChannels h₁
  refine ⟨hcreate.trans hcorrect, ?_⟩
  rw [(correctTimestamp_ok h₁).2.1.2]
  exact (hnum (by omega) ht).trans hcorrect.le

end RtpMixer

end Oreka.Mixer
