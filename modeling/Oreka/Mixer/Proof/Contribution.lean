import Oreka.Mixer.Proof.RingInv

/-!
# Which chunks are mixed in

A chunk contributes when each of its samples counts: were it another one, the mixer would ship another mix
(`Contributes`). Only what is placed can (`contributes_iff`): on channel 1, or within a window that has
begun, and if the window does not pass the end of the buffer behind it (`Mixes`).
-/

namespace Oreka

/-- The chunk with other samples. -/
def AudioChunk.withPcm (c : AudioChunk) (samples : List Int) : AudioChunk := { c with buffer := samples }

theorem AudioChunk.pcm_withPcm {c : AudioChunk} {samples : List Int} (h : samples.length = c.pcm.length) :
    (c.withPcm samples).pcm = samples := by
  rw [length_pcm] at h
  apply List.ext_getElem
  · rw [length_pcm, h]
    rfl
  · intro i hi hi'
    simp [pcm, withPcm, hi']

namespace Mixer.RtpMixer

variable {cfg : MixerConfig} {m m' : RtpMixer} {c c₁ : AudioChunk} {t : UInt32}

/-! ## Other samples are placed alike -/

theorem correctMillis_withPcm (c : AudioChunk) (last : Option AudioChunk) (t : UInt32) (samples : List Int) :
    correctMillis (c.withPcm samples) last t =
      ((correctMillis c last t).1.withPcm samples, (correctMillis c last t).2) := by
  cases last with
  | none => rfl
  | some last =>
    by_cases h : c.details.timestamp - t = 20
    · have h' : (c.withPcm samples).details.timestamp - t = 20 := h
      simp only [correctMillis, h, h', if_true]
      rfl
    · have h' : ¬ (c.withPcm samples).details.timestamp - t = 20 := h
      simp only [correctMillis, h, h', if_false]

/-- A channel can be changed in one way where it can be in another. -/
theorem modifyChannel_eq_ok {idx : Int} {f : RtpMixerChannel → RtpMixerChannel}
    (h : m.modifyChannel idx f = .ok m') : ∃ chs, m' = { m with rtpMixerChannels := chs } ∧
      ∀ g, ∃ chs', m.modifyChannel idx g = .ok { m with rtpMixerChannels := chs' } := by
  unfold modifyChannel at h ⊢
  by_cases hvalid : m.validIdx idx
  · rw [if_pos hvalid] at h
    cases h
    exact ⟨_, rfl, fun g => ⟨_, if_pos hvalid⟩⟩
  · rw [if_neg hvalid] at h
    cases h

theorem setLastChunk_eq_ok {idx : Int} (h : m.setLastChunk idx c = .ok m') :
    ∃ chs, m' = { m with rtpMixerChannels := chs } ∧
      ∀ c', ∃ chs', m.setLastChunk idx c' = .ok { m with rtpMixerChannels := chs' } := by
  unfold setLastChunk at h ⊢
  by_cases hcount : m.numInputChannels ≠ 0
  · rw [if_pos hcount] at h
    obtain ⟨chs, hm', hmodify⟩ := modifyChannel_eq_ok h
    exact ⟨chs, hm', fun c' => by rw [if_pos hcount]; exact hmodify _⟩
  · rw [if_neg hcount] at h
    cases h
    exact ⟨m.rtpMixerChannels, rfl, fun c' => ⟨m.rtpMixerChannels, if_neg hcount⟩⟩

theorem details_withPcm (c : AudioChunk) (samples : List Int) : (c.withPcm samples).details = c.details := rfl

theorem channelIdx_withPcm (c : AudioChunk) (samples : List Int) :
    channelIdx (c.withPcm samples) = channelIdx c := rfl

theorem correctS1_withPcm (h : m.correctS1 c = .ok (m', c₁, t)) (samples : List Int) :
    ∃ m'', m.correctS1 (c.withPcm samples) = .ok (m'', c₁.withPcm samples, t) := by
  obtain ⟨m₁, h₁, h⟩ := Except.bind_eq_ok.1 h
  cases h
  obtain ⟨chs, -, hset⟩ := setLastChunk_eq_ok h₁
  obtain ⟨chs', hset⟩ := hset ((correctMillis c m.lastChunkS1 m.lastTimestampS1).1.withPcm samples)
  unfold correctS1
  rw [correctMillis_withPcm]
  dsimp only
  rw [hset]
  exact ⟨_, rfl⟩

theorem correctS2_withPcm (h : m.correctS2 cfg c = .ok (m', c₁, t)) (samples : List Int) :
    ∃ m'', m.correctS2 cfg (c.withPcm samples) = .ok (m'', c₁.withPcm samples, t) := by
  obtain ⟨m₁, h₁, h⟩ := Except.bind_eq_ok.1 h
  cases h
  obtain ⟨chs, rfl, hset⟩ := setLastChunk_eq_ok h₁
  obtain ⟨chs', hset⟩ := hset ((correctMillis c m.lastChunkS2 m.lastTimestampS2).1.withPcm samples)
  unfold correctS2
  rw [correctMillis_withPcm]
  dsimp only
  rw [hset]
  exact ⟨_, rfl⟩

theorem correctOther_withPcm (h : m.correctOther cfg c = .ok (m', c₁, t)) (samples : List Int) :
    ∃ m'', m.correctOther cfg (c.withPcm samples) = .ok (m'', c₁.withPcm samples, t) := by
  unfold correctOther at h ⊢
  by_cases h0 : m.numInputChannels = 0
  · rw [if_pos h0] at h ⊢
    cases h
    exact ⟨m, rfl⟩
  rw [if_neg h0] at h ⊢
  by_cases hidx : channelIdx c < 0
  · rw [if_pos hidx] at h
    cases h
  rw [if_neg hidx] at h
  rw [channelIdx_withPcm, if_neg hidx]
  cases hch : m.rtpMixerChannels[(channelIdx c).toNat]? with
  | none =>
    rw [hch] at h
    cases h
  | some ch =>
    rw [hch] at h
    dsimp only at h ⊢
    obtain ⟨m₁, h₁, h⟩ := Except.bind_eq_ok.1 h
    cases h
    obtain ⟨chs, -, hmodify⟩ := modifyChannel_eq_ok h₁
    rw [correctMillis_withPcm]
    dsimp only
    rw [channelIdx_withPcm]
    obtain ⟨chs', hmodify⟩ := hmodify _
    rw [hmodify]
    exact ⟨_, rfl⟩

theorem correctTimestamp_withPcm (h : m.correctTimestamp cfg c = .ok (m', c₁, t)) (samples : List Int) :
    ∃ m'', m.correctTimestamp cfg (c.withPcm samples) = .ok (m'', c₁.withPcm samples, t) := by
  unfold correctTimestamp at h ⊢
  rw [details_withPcm]
  by_cases h1 : c.details.channel = 1
  · rw [if_pos h1] at h ⊢
    exact correctS1_withPcm h samples
  rw [if_neg h1] at h ⊢
  by_cases h2 : c.details.channel = 2
  · rw [if_pos h2] at h ⊢
    exact correctS2_withPcm h samples
  · rw [if_neg h2] at h ⊢
    exact correctOther_withPcm h samples

theorem accept_withPcm (h : m.accept cfg c = .ok (m', some (c₁, t))) (samples : List Int) :
    ∃ m'', m.accept cfg (c.withPcm samples) = .ok (m'', some (c₁.withPcm samples, t)) := by
  obtain ⟨n, hn, h⟩ := Except.bind_eq_ok.1 h
  have hn' : (c.withPcm samples).getNumSamples.mapError MixerError.audio = .ok n := hn
  by_cases hn0 : n = 0
  · rw [if_pos hn0] at h
    cases h
  rw [if_neg hn0] at h
  by_cases hbig : c.getNumBytes > 100000
  · rw [if_pos hbig] at h
    cases h
  rw [if_neg hbig] at h
  by_cases henc : c.details.encoding ≠ .pcmAudio
  · rw [if_pos henc] at h
    cases h
  rw [if_neg henc] at h
  obtain ⟨⟨m₁, c₂, t₂⟩, h₁, h⟩ := Except.bind_eq_ok.1 h
  cases h
  obtain ⟨m₂, h₂⟩ := correctTimestamp_withPcm h₁ samples
  have hbig' : ¬ (c.withPcm samples).getNumBytes > 100000 := hbig
  have henc' : ¬ (c.withPcm samples).details.encoding ≠ .pcmAudio := henc
  refine ⟨m₂, ?_⟩
  unfold accept
  rw [hn']
  show (if n = 0 then _ else _) = _
  rw [if_neg hn0, if_neg hbig', if_neg henc']
  exact congrArg (· >>= fun r => pure (r.1, some (r.2.1, r.2.2))) h₂

theorem placed_of_withPcm {r : AudioChunk × UInt32} (h : m.placed cfg (some c) = some r) (samples : List Int) :
    m.placed cfg (some (c.withPcm samples)) = some (r.1.withPcm samples, r.2) := by
  unfold placed at h ⊢
  dsimp only at h ⊢
  rw [details_withPcm]
  split at h
  · cases h
  · rename_i hmarker
    rw [if_neg hmarker]
    cases ha : m.accept cfg c with
    | error e =>
      rw [ha] at h
      cases h
    | ok mo =>
      rw [ha] at h
      obtain ⟨m', o⟩ := mo
      dsimp only at h
      rw [h] at ha
      obtain ⟨m'', ha'⟩ := accept_withPcm ha samples
      rw [ha']

/-- A chunk with other samples is placed at the same timestamp, or not either. -/
theorem placed_withPcm (m : RtpMixer) (cfg : MixerConfig) (c : AudioChunk) (samples : List Int) :
    m.placed cfg (some (c.withPcm samples)) =
      (m.placed cfg (some c)).map fun r => (r.1.withPcm samples, r.2) := by
  cases h : m.placed cfg (some c) with
  | some r => exact placed_of_withPcm h samples
  | none =>
    cases h' : m.placed cfg (some (c.withPcm samples)) with
    | none => rfl
    | some r =>
      have hback := placed_of_withPcm h' c.buffer
      exact absurd (h.symm.trans hback) (by simp)

/-- A chunk that is not accepted would not be with other samples either. -/
theorem accept_none_withPcm (h : m.accept cfg c = .ok (m', none)) (samples : List Int) :
    m.accept cfg (c.withPcm samples) = .ok (m', none) := by
  obtain ⟨n, hn, h⟩ := Except.bind_eq_ok.1 h
  have hn' : (c.withPcm samples).getNumSamples.mapError MixerError.audio = .ok n := hn
  unfold accept
  rw [hn']
  show (if n = 0 then _ else if c.getNumBytes > 100000 then _ else _) = _
  split at h
  · rename_i hn0
    rw [if_pos hn0]
    exact h
  rename_i hn0
  rw [if_neg hn0]
  split at h
  · rename_i hbig
    rw [if_pos hbig]
    exact h
  split at h
  · cases h
  · obtain ⟨_, -, h⟩ := Except.bind_eq_ok.1 h
    cases h

/-- A chunk that is not placed does the same with other samples. -/
theorem step_withPcm_of_unplaced (h : m.placed cfg (some c) = none) (samples : List Int) :
    m.step cfg (some (c.withPcm samples)) = m.step cfg (some c) := by
  have h' : m.placed cfg (some (c.withPcm samples)) = none := by
    rw [placed_withPcm, h]
    rfl
  unfold placed at h h'
  unfold RtpMixer.step audioChunkIn
  dsimp only at h h' ⊢
  rw [details_withPcm] at h' ⊢
  by_cases he : m.error = true
  · rw [if_pos he, if_pos he]
  rw [if_neg he, if_neg he]
  by_cases hm : c.details.marker = mediaChunkEosMarker
  · rw [if_pos hm, if_pos hm]
  have hnot : ¬ (m.error = true ∨ c.details.marker = mediaChunkEosMarker) := not_or.2 ⟨he, hm⟩
  rw [if_neg hnot] at h h'
  rw [if_neg hm, if_neg hm]
  cases ha : m.accept cfg c with
  | ok r =>
    obtain ⟨m', o⟩ := r
    rw [ha] at h
    cases h
    rw [accept_none_withPcm ha samples]
  | error e =>
    cases ha' : m.accept cfg (c.withPcm samples) with
    | error e' => rfl
    | ok r =>
      obtain ⟨m', o⟩ := r
      rw [ha'] at h'
      cases h'
      have hback := accept_none_withPcm ha' c.buffer
      exact absurd (hback.symm.trans ha) (by simp)

/-! ## What is shipped -/

/-- The chunk that ends a stream. -/
def endOfStream : AudioChunk := { details := { marker := mediaChunkEosMarker } }

/-- The mix that the mixer has shipped once the stream ends. -/
def output (m : RtpMixer) (cfg : MixerConfig) : List Int := (m.step cfg (some endOfStream)).shipped

/-- What the mixer ships at the end of the stream. -/
def pending (m : RtpMixer) : List Int := Ring.read bufferEnd m.buffer m.readPtr m.usedSpace

theorem output_of_error (he : m.error = true) : m.output cfg = m.shipped := by
  unfold output RtpMixer.step audioChunkIn
  rw [if_pos he]

theorem output_eq (hi : RingInv m) (he : m.error = false) : m.output cfg = m.shipped ++ m.pending := by
  obtain ⟨m', hm'⟩ := m.createShipment_isOk cfg true
  obtain ⟨n, hn, -, hshipped, -⟩ := hi.ship (.inl rfl) hm'
  have hstep : m.step cfg (some endOfStream) = m' := by
    unfold RtpMixer.step audioChunkIn
    rw [he]
    simp only [Bool.false_eq_true, if_false, endOfStream, if_true, hm']
  rw [output, hstep, hshipped, hn, if_pos rfl, Nat.sub_zero]
  rfl

theorem SameRing.pending (h : SameRing m m') : m'.pending = m.pending := by
  unfold RtpMixer.pending
  rw [h.usedSpace, h.buffer, h.readPtr]

theorem shipped_congr (h : m'.outputQueue = m.outputQueue) : m'.shipped = m.shipped := by
  unfold shipped
  rw [h]

theorem SameRing.output (hi : RingInv m) (h : SameRing m m') : m'.output cfg = m.output cfg := by
  have hshipped := shipped_congr h.outputQueue
  cases he : m.error with
  | true => rw [output_of_error he, output_of_error (h.error.trans he), hshipped]
  | false => rw [output_eq hi he, output_eq (hi.of_sameRing h) (h.error.trans he), hshipped, h.pending]

/-- A shipment hands over what is at the start of the pending samples. -/
theorem RingInv.ship_output (hi : RingInv m) {force : Bool}
    (hf : force = true ∨ m.numSampleTrigger < m.usedSpace) (h : m.createShipment cfg force = .ok m') :
    m'.shipped ++ m'.pending = m.shipped ++ m.pending := by
  obtain ⟨n, hn, hi', hshipped, hptr, hread, hwrite, hbuffer, -⟩ := hi.ship hf h
  have hle := hi.le
  have hused := hi.usedSpace_eq
  have hn' : n ≤ m.usedSpace := by
    rw [hn]
    exact Nat.sub_le ..
  have hused' : m'.usedSpace = m.usedSpace - n := by
    rw [hi'.usedSpace_eq]
    unfold window at hused ⊢
    rw [hread, hwrite]
    simp only [bufferEnd, numSamplesCircularBuffer] at *
    omega
  rw [hshipped, pending, pending, hused', hbuffer, hptr, List.append_assoc, ← Ring.read_add,
    show n + (m.usedSpace - n) = m.usedSpace by omega]

theorem RingInv.output_of_ship (hi : RingInv m) (he : m.error = false) {force : Bool}
    (hf : force = true ∨ m.numSampleTrigger < m.usedSpace) (h : m.createShipment cfg force = .ok m') :
    m'.output cfg = m.output cfg := by
  obtain ⟨-, -, hi', -, -, -, -, -, herror⟩ := hi.ship hf h
  rw [output_eq hi' (herror.trans he), output_eq hi he, hi.ship_output hf h]

/-- A forced shipment leaves nothing. -/
theorem RingInv.shipped_of_flush (hi : RingInv m) (he : m.error = false)
    (h : m.createShipment cfg true = .ok m') : m'.shipped = m.output cfg := by
  obtain ⟨n, hn, -, hshipped, -⟩ := hi.ship (.inl rfl) h
  rw [if_pos rfl, Nat.sub_zero] at hn
  rw [output_eq hi he, hshipped, hn]
  rfl

/-! ## What a call ships -/

/-- A placed chunk is not passed over: it is in the window there is, or on channel 1. -/
def hears (m : RtpMixer) (c : AudioChunk) (t : UInt32) : Prop :=
  m.writeTimestamp ≠ 0 ∧ m.fits c t ∨ c.details.channel = 1

instance (m : RtpMixer) (c : AudioChunk) (t : UInt32) : Decidable (m.hears c t) :=
  inferInstanceAs (Decidable (_ ∨ _))

/-- The window that a placed chunk is stored into: the one there is, or an empty one at its timestamp. -/
def windowFor (m : RtpMixer) (c : AudioChunk) (t : UInt32) : RtpMixer :=
  if m.writeTimestamp = 0 then { m with writeTimestamp := t, readTimestamp := t }
  else if m.fits c t then m else m.reset t

/-- Where the window ends once the chunk is stored. -/
def storedEnd (m : RtpMixer) (c : AudioChunk) (t : UInt32) : Nat :=
  max m.writeTimestamp.toNat (t.toNat + c.pcm.length)

/-- What is pending once the chunk is stored. -/
def pendingWith (m : RtpMixer) (c : AudioChunk) (t : UInt32) : List Int :=
  if m.dismisses c t then m.pending
  else Ring.read bufferEnd (m.storeBuffer c.pcm (m.storedEnd c t) t.toNat) m.readPtr
    ((m.storedEnd c t - m.readTimestamp.toNat) % bufferEnd)

/-- What is shipped before a placed chunk: all there is, if it opens another window. -/
def shippedBefore (m : RtpMixer) (cfg : MixerConfig) (c : AudioChunk) (t : UInt32) : List Int :=
  if m.writeTimestamp = 0 ∨ m.fits c t then m.shipped else m.output cfg

theorem ringInv_windowFor (hi : RingInv m) (c : AudioChunk) (t : UInt32) : RingInv (m.windowFor c t) := by
  unfold windowFor
  split
  · rename_i hw
    exact hi.first hw t m.oneS1PacketState
  · split
    · exact hi
    · exact hi.reset t

theorem windowFor_le (m : RtpMixer) (c : AudioChunk) (t : UInt32) :
    (m.windowFor c t).readTimestamp.toNat ≤ t.toNat := by
  unfold windowFor
  split
  · exact le_refl _
  · split
    · rename_i hf
      exact UInt32.le_iff_toNat_le.1 hf.1
    · exact le_refl _

theorem pending_store (hi : RingInv m) (h : m.storeRtpPacket c t = .ok m') :
    m'.pending = m.pendingWith c t := by
  obtain ⟨hi', hread, hwrite, -⟩ := hi.store h
  unfold pendingWith
  rcases storeRtpPacket_cases hi.writePtr_lt h with ⟨hd, rfl⟩ | ⟨hd, chs, w, rfl, rfl⟩
  · rw [if_pos hd]
  · rw [if_neg hd] at hwrite ⊢
    rw [pending, hi'.usedSpace_eq, window, hread, hwrite]
    rfl

/-- What is pending after a store depends on the ring only. -/
theorem pendingWith_congr (hb : m'.buffer = m.buffer) (hp : m'.writePtr = m.writePtr)
    (hw : m'.writeTimestamp = m.writeTimestamp) (hp' : m'.readPtr = m.readPtr)
    (hr : m'.readTimestamp = m.readTimestamp) : m'.pendingWith c t = m.pendingWith c t := by
  have hdismisses : m'.dismisses c t ↔ m.dismisses c t := by
    unfold dismisses
    rw [hw]
  have hend : m'.storedEnd c t = m.storedEnd c t := by
    unfold storedEnd
    rw [hw]
  have hpending : m'.pending = m.pending := by
    unfold pending usedSpace
    rw [hb, hp, hp']
  have hstore : m'.storeBuffer c.pcm (m.storedEnd c t) t.toNat =
      m.storeBuffer c.pcm (m.storedEnd c t) t.toNat := by
    unfold storeBuffer
    rw [hb, hp, hw]
  rw [pendingWith, pendingWith, if_congr hdismisses hpending rfl, hend, hp', hr, hstore]

theorem error_of_placed {r : AudioChunk × UInt32} (h : m.placed cfg (some c) = some r) : m.error = false := by
  unfold placed at h
  dsimp only at h
  split at h
  · cases h
  · rename_i hnot
    simpa using fun he => hnot (.inl he)

theorem output_store (hi : RingInv m) (he : m.error = false) (h : m.storeRtpPacket c t = .ok m') :
    m'.output cfg = m.shipped ++ m.pendingWith c t := by
  obtain ⟨hi', -, -, hqueue, herror⟩ := hi.store h
  rw [output_eq hi' (herror.trans he), shipped_congr hqueue, pending_store hi h]

/-- A chunk that is placed but neither stored nor opens a window is passed over, or dismissed. -/
theorem dismisses_of_idle {chunk : Option AudioChunk} (hstores : ¬ m.Stores cfg chunk c t)
    (hopens : ¬ m.Opens cfg chunk c t) (h : m.placed cfg chunk = some (c, t)) (hheard : m.hears c t) :
    m.writeTimestamp ≠ 0 ∧ m.fits c t ∧ m.dismisses c t := by
  have hwindow : m.writeTimestamp ≠ 0 ∧ m.fits c t := by
    by_contra hnot
    refine hopens ⟨h, hheard.resolve_left hnot, ?_⟩
    rwa [not_and_or, not_not] at hnot
  refine ⟨hwindow.1, hwindow.2, ?_⟩
  by_contra hnot
  exact hstores ⟨h, hwindow.1, hwindow.2, hnot⟩

/-- **What is shipped after a call with a placed chunk.** -/
theorem step_output (hi : RingInv m) (h : m.placed cfg (some c) = some (c₁, t)) :
    (m.step cfg (some c)).output cfg =
      if m.hears c₁ t then m.shippedBefore cfg c₁ t ++ (m.windowFor c₁ t).pendingWith c₁ t
      else m.output cfg := by
  have he := error_of_placed h
  unfold RtpMixer.step
  cases hc : m.audioChunkIn cfg (some c) with
  | error e =>
    rw [placed_of_error hc] at h
    cases h
  | ok m' =>
    show m'.output cfg = _
    cases audioChunkIn_cases hc with
    | idle hr hidle =>
      rw [hr.output hi]
      split
      · rename_i hheard
        obtain ⟨hw0, hf, hd⟩ := dismisses_of_idle (hidle c₁ t).1 (hidle c₁ t).2 h hheard
        rw [shippedBefore, if_pos (Or.inr hf), windowFor, if_neg hw0, if_pos hf, pendingWith, if_pos hd,
          output_eq hi he]
      · rfl
    | tooBig c hc hbig hp he =>
      rw [hp] at h
      cases h
    | flush _ hp hs =>
      rw [hp] at h
      cases h
    | first m₁ c' t' hr ho hw0 hstore =>
      cases h.symm.trans ho.1
      have hi₁ := (hi.of_sameRing hr).first (hr.writeTimestamp.trans hw0) t true
      have hheard : m.hears c₁ t := .inr ho.2.1
      rw [if_pos hheard, shippedBefore, if_pos (Or.inl hw0), windowFor, if_pos hw0,
        output_store hi₁ (hr.error.trans he) hstore]
      exact congrArg₂ _ (shipped_congr hr.outputQueue)
        (pendingWith_congr hr.buffer hr.writePtr rfl hr.readPtr rfl)
    | reset m₁ m₂ m₃ c' t' hr ho hw0 h₂ h₃ heq =>
      cases h.symm.trans ho.1
      have hi₁ := hi.of_sameRing hr
      have he₁ := hr.error.trans he
      obtain ⟨-, -, hi₂, -, -, -, -, hbuffer, herror⟩ := hi₁.ship (.inl rfl) h₂
      have hi₃ := ((hi₂.reset t).store h₃).1
      have hsame : SameRing m₃ m' := by
        rw [heq]
        exact ⟨rfl, rfl, rfl, rfl, rfl, rfl, rfl, rfl, rfl⟩
      have hheard : m.hears c₁ t := .inr ho.2.1
      have hf : ¬ m.fits c₁ t := ho.2.2.resolve_left hw0
      rw [if_pos hheard, shippedBefore, if_neg (not_or.2 ⟨hw0, hf⟩), windowFor, if_neg hw0, if_neg hf,
        hsame.output hi₃, output_store (hi₂.reset t) (herror.trans he₁) h₃, ← hr.output hi,
        ← hi₁.shipped_of_flush he₁ h₂]
      exact congrArg₂ _ rfl (pendingWith_congr (hbuffer.trans hr.buffer) rfl rfl rfl rfl)
    | store m₁ m₂ c' t' hr hp hlen hw0 hf h₂ hship =>
      cases h.symm.trans hp
      have hi₁ := hi.of_sameRing hr
      obtain ⟨hi₂, -, -, -, herror⟩ := hi₁.store h₂
      have he₁ := hr.error.trans he
      have hheard : m.hears c₁ t := .inl ⟨hw0, hf⟩
      have hout : m'.output cfg = m₂.output cfg := by
        rcases hship with ⟨-, rfl⟩ | ⟨htrigger, hship⟩
        · rfl
        · exact hi₂.output_of_ship (herror.trans he₁) (.inr htrigger) hship
      rw [if_pos hheard, shippedBefore, if_pos (Or.inr hf), windowFor, if_neg hw0, if_pos hf, hout,
        output_store hi₁ he₁ h₂]
      exact congrArg₂ _ (shipped_congr hr.outputQueue)
        (pendingWith_congr hr.buffer hr.writePtr hr.writeTimestamp hr.readPtr hr.readTimestamp)

/-! ## Which samples count -/

/-- Each sample of the chunk counts: with another one in its place, another mix is shipped. -/
def Contributes (m : RtpMixer) (cfg : MixerConfig) (c : AudioChunk) : Prop :=
  ∀ i < c.pcm.length, ∃ x,
    (m.step cfg (some (c.withPcm (c.pcm.set i x)))).output cfg ≠ (m.step cfg (some c)).output cfg

/-- The samples of a placed chunk are mixed in: it is not passed over, it is not dismissed, and its window
does not pass the end of the buffer between its start and the end of the window. -/
structure Mixes (m : RtpMixer) (c : AudioChunk) (t : UInt32) : Prop where
  heard : m.hears c t
  stored : ¬ (m.windowFor c t).dismisses c t
  unwrapped : (t.toNat - (m.windowFor c t).readTimestamp.toNat) / bufferEnd =
    ((m.windowFor c t).storedEnd c t - (m.windowFor c t).readTimestamp.toNat) / bufferEnd

/-- A chunk is placed on its own channel. -/
theorem placed_sameAudio (h : m.placed cfg (some c) = some (c₁, t)) : SameAudio c c₁ := by
  unfold placed at h
  dsimp only at h
  split at h
  · cases h
  · cases ha : m.accept cfg c with
    | error e =>
      rw [ha] at h
      cases h
    | ok mo =>
      obtain ⟨m', o⟩ := mo
      rw [ha] at h
      dsimp only at h
      rw [h] at ha
      exact (accept_some ha).2.1

/-- Every value of a slot can be changed by a sample. -/
theorem exists_saturate_ne (a y : Int) : ∃ x, saturate (a + x) ≠ saturate (a + y) := by
  by_cases h : saturate (a + y) = 0
  · refine ⟨1 - a, ?_⟩
    rw [h, add_sub_cancel]
    decide
  · refine ⟨-a, ?_⟩
    rw [add_neg_cancel]
    exact Ne.symm h

/-- The samples of a stored piece, in a window of which the buffer reaches over it. -/
theorem storeBuffer_eq_fold {w : RtpMixer} (hi : RingInv w) (samples : List Int)
    (hle : w.readTimestamp.toNat ≤ t.toNat) (hreach : w.storedEnd c t - t.toNat < bufferEnd) :
    w.storeBuffer samples (w.storedEnd c t) t.toNat =
      (Ring.fold bufferEnd (fun a x => saturate (a + x)) samples
        (Ring.fold bufferEnd (fun _ _ => 0)
          (List.replicate (w.storedEnd c t - w.writeTimestamp.toNat) ()) w.buffer w.writePtr).1
        ((w.readPtr + (t.toNat - w.readTimestamp.toNat)) % bufferEnd)).1 := by
  have hwrite : w.writeTimestamp.toNat ≤ w.storedEnd c t := le_max_left ..
  have hend : t.toNat ≤ w.storedEnd c t := (Nat.le_add_right ..).trans (le_max_right ..)
  rw [storeBuffer, if_pos hreach, hi.storePtr_eq hwrite hle hend hreach]

theorem storedEnd_withPcm {w : RtpMixer} {samples : List Int} (hlength : samples.length = c.pcm.length) :
    w.storedEnd (c.withPcm samples) t = w.storedEnd c t := by
  rw [storedEnd, storedEnd, AudioChunk.pcm_withPcm hlength, hlength]

theorem dismisses_withPcm {w : RtpMixer} {samples : List Int} (hlength : samples.length = c.pcm.length) :
    w.dismisses (c.withPcm samples) t ↔ w.dismisses c t := by
  unfold dismisses
  rw [AudioChunk.pcm_withPcm hlength, hlength]

/-- What is pending with other samples, of a chunk that is stored. -/
theorem pendingWith_withPcm {w : RtpMixer} {samples : List Int} (hlength : samples.length = c.pcm.length)
    (hd : ¬ w.dismisses c t) :
    w.pendingWith (c.withPcm samples) t =
      Ring.read bufferEnd (w.storeBuffer samples (w.storedEnd c t) t.toNat) w.readPtr
        ((w.storedEnd c t - w.readTimestamp.toNat) % bufferEnd) := by
  rw [pendingWith, if_neg (mt (dismisses_withPcm hlength).1 hd), storedEnd_withPcm hlength,
    AudioChunk.pcm_withPcm hlength]

/-- The slot of a sample in the buffer, from where it is among the pending ones. -/
theorem slot_eq (p d i : Nat) :
    (p + (d + i) % bufferEnd) % bufferEnd = ((p + d) % bufferEnd + i) % bufferEnd := by
  rw [Nat.add_mod_mod, Nat.mod_add_mod, Nat.add_assoc]

/-- A sample of a chunk that is mixed in can be replaced by one that counts. -/
theorem pendingWith_ne {w : RtpMixer} (hi : RingInv w) (hle : w.readTimestamp.toNat ≤ t.toNat)
    (hd : ¬ w.dismisses c t)
    (hunwrapped : (t.toNat - w.readTimestamp.toNat) / bufferEnd =
      (w.storedEnd c t - w.readTimestamp.toNat) / bufferEnd) {i : Nat} (hi' : i < c.pcm.length) :
    ∃ x, w.pendingWith (c.withPcm (c.pcm.set i x)) t ≠ w.pendingWith c t := by
  have hend : t.toNat + c.pcm.length ≤ w.storedEnd c t := le_max_right ..
  have hreach : w.storedEnd c t - t.toNat < bufferEnd := by
    simp only [bufferEnd, numSamplesCircularBuffer] at *
    omega
  have hn : c.pcm.length ≤ bufferEnd := by omega
  have hslot : (t.toNat - w.readTimestamp.toNat + i) % bufferEnd <
      (w.storedEnd c t - w.readTimestamp.toNat) % bufferEnd := by
    simp only [bufferEnd, numSamplesCircularBuffer] at *
    omega
  let z := (Ring.fold bufferEnd (fun _ _ => 0)
    (List.replicate (w.storedEnd c t - w.writeTimestamp.toNat) ()) w.buffer w.writePtr).1
  let p := (w.readPtr + (t.toNat - w.readTimestamp.toNat)) % bufferEnd
  have hp : p < bufferEnd := Nat.mod_lt _ (by decide)
  obtain ⟨x, hx⟩ := exists_saturate_ne (z ((p + i) % bufferEnd)) c.pcm[i]
  have hlength : (c.pcm.set i x).length = c.pcm.length := List.length_set
  refine ⟨x, fun heq => hx ?_⟩
  rw [pendingWith_withPcm hlength hd, pendingWith, if_neg hd, Ring.read_eq_iff] at heq
  have h := heq _ hslot
  rw [slot_eq, storeBuffer_eq_fold hi _ hle hreach, storeBuffer_eq_fold hi _ hle hreach,
    Ring.fold_hit _ hp (hlength ▸ hn) (hlength ▸ hi'), Ring.fold_hit _ hp hn hi', List.getElem_set_self] at h
  exact h

/-- The samples of a chunk that is not mixed in do not count: the first one does not. -/
theorem pendingWith_eq {w : RtpMixer} (hi : RingInv w) (hle : w.readTimestamp.toNat ≤ t.toNat)
    (hnot : ¬ (¬ w.dismisses c t ∧ (t.toNat - w.readTimestamp.toNat) / bufferEnd =
      (w.storedEnd c t - w.readTimestamp.toNat) / bufferEnd)) (x : Int) :
    w.pendingWith (c.withPcm (c.pcm.set 0 x)) t = w.pendingWith c t := by
  have hlength : (c.pcm.set 0 x).length = c.pcm.length := List.length_set
  by_cases hd : w.dismisses c t
  · rw [pendingWith, pendingWith, if_pos hd, if_pos ((dismisses_withPcm hlength).2 hd)]
  have hwrapped := not_and.1 hnot hd
  have hend : t.toNat + c.pcm.length ≤ w.storedEnd c t := le_max_right ..
  rw [pendingWith_withPcm hlength hd, pendingWith, if_neg hd, Ring.read_eq_iff]
  intro j hj
  by_cases hreach : w.storedEnd c t - t.toNat < bufferEnd
  · -- the slot of the first sample is past those that are pending
    have hslot : j < (t.toNat - w.readTimestamp.toNat + 0) % bufferEnd := by
      simp only [bufferEnd, numSamplesCircularBuffer] at *
      omega
    have hlt : (t.toNat - w.readTimestamp.toNat + 0) % bufferEnd < bufferEnd := Nat.mod_lt _ (by decide)
    rw [storeBuffer_eq_fold hi _ hle hreach, storeBuffer_eq_fold hi _ hle hreach]
    refine Ring.fold_set_ne _ (Nat.mod_lt _ (by decide)) (by omega) x fun heq => ?_
    rw [← slot_eq] at heq
    exact absurd (Ring.slot_inj (hslot.trans hlt) hlt heq) hslot.ne
  · rw [storeBuffer, storeBuffer, if_neg hreach, if_neg hreach]

/-- What is shipped after a call with other samples in a placed chunk. -/
theorem step_output_withPcm (hi : RingInv m) (h : m.placed cfg (some c) = some (c₁, t)) (samples : List Int) :
    (m.step cfg (some (c.withPcm samples))).output cfg =
      if m.hears c₁ t then m.shippedBefore cfg c₁ t ++ (m.windowFor c₁ t).pendingWith (c₁.withPcm samples) t
      else m.output cfg := by
  have h' : m.placed cfg (some (c.withPcm samples)) = some (c₁.withPcm samples, t) := by
    rw [placed_withPcm, h]
    rfl
  exact step_output hi h'

/-- **Which chunks contribute.** -/
theorem contributes_iff (hi : RingInv m) (hpos : 0 < c.pcm.length) :
    m.Contributes cfg c ↔ ∃ c₁ t, m.placed cfg (some c) = some (c₁, t) ∧ m.Mixes c₁ t := by
  cases hp : m.placed cfg (some c) with
  | none =>
    constructor
    · intro h
      obtain ⟨x, hx⟩ := h 0 hpos
      rw [step_withPcm_of_unplaced hp] at hx
      exact absurd rfl hx
    · rintro ⟨c₁, t, h, -⟩
      cases h
  | some r =>
    obtain ⟨c₁, t⟩ := r
    have hpcm := (placed_sameAudio hp).1
    have hwindow := ringInv_windowFor hi c₁ t
    constructor
    · intro h
      obtain ⟨x, hx⟩ := h 0 hpos
      rw [step_output_withPcm hi hp, step_output hi hp, ← hpcm] at hx
      by_cases hheard : m.hears c₁ t
      · rw [if_pos hheard, if_pos hheard] at hx
        have hne : (m.windowFor c₁ t).pendingWith (c₁.withPcm (c₁.pcm.set 0 x)) t ≠
            (m.windowFor c₁ t).pendingWith c₁ t := fun heq => hx (by rw [heq])
        have hmixed := not_imp_comm.1 (fun hnot => pendingWith_eq hwindow (m.windowFor_le c₁ t) hnot x) hne
        exact ⟨c₁, t, rfl, hheard, hmixed.1, hmixed.2⟩
      · rw [if_neg hheard, if_neg hheard] at hx
        exact absurd rfl hx
    · rintro ⟨c₂, t₂, hsome, hmixes⟩ i hi'
      cases hsome
      rw [← hpcm] at hi' ⊢
      obtain ⟨x, hx⟩ := pendingWith_ne hwindow (m.windowFor_le c₁ t) hmixes.stored hmixes.unwrapped hi'
      refine ⟨x, ?_⟩
      rw [step_output_withPcm hi hp, step_output hi hp, if_pos hmixes.heard, if_pos hmixes.heard]
      exact fun heq => hx (List.append_cancel_left heq)

/-! ## Before the mixer has begun -/

/-- Without a chunk on channel 1 the mixer does not begin. -/
theorem audioChunkIn_unbegun (hi : RingInv m) (hw : m.writeTimestamp = 0) {chunk : Option AudioChunk}
    (hchannel : ∀ c, chunk = some c → c.details.channel ≠ 1) (h : m.audioChunkIn cfg chunk = .ok m') :
    m'.writeTimestamp = 0 := by
  have hopens : ∀ c t, ¬ m.Opens cfg chunk c t := by
    intro c t ho
    cases chunk with
    | none => cases ho.1
    | some c₀ => exact hchannel c₀ rfl ((placed_sameAudio ho.1).2.symm.trans ho.2.1)
  cases audioChunkIn_cases h with
  | idle hr hidle => exact hr.writeTimestamp.trans hw
  | tooBig c hc hbig hp he =>
    rw [he]
    exact hw
  | flush he hp hs =>
    obtain ⟨n, -, -, -, -, -, hwrite, -⟩ := hi.ship (.inl rfl) hs
    exact hwrite.trans hw
  | first m₁ c t hr ho hw0 hs => exact absurd ho (hopens c t)
  | reset m₁ m₂ m₃ c t hr ho hw0 h₂ h₃ he => exact absurd ho (hopens c t)
  | store m₁ m₂ c t hr hp hlen hw0 hf h₂ hs => exact absurd hw hw0

/-- A mixer that has not begun passes over what is not on channel 1. -/
theorem not_contributes_of_unbegun (hi : RingInv m) (hw : m.writeTimestamp = 0) (hpos : 0 < c.pcm.length)
    (hchannel : c.details.channel ≠ 1) : ¬ m.Contributes cfg c := by
  intro h
  obtain ⟨c₁, t, hp, hmixes⟩ := (contributes_iff hi hpos).1 h
  rcases hmixes.heard with ⟨hbegun, -⟩ | hone
  · exact hbegun hw
  · exact hchannel ((placed_sameAudio hp).2.symm.trans hone)

end Mixer.RtpMixer

end Oreka
