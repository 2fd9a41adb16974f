import Oreka.Batch.Proof.SecondaryMixer
import Oreka.Mixer.Proof.Contribution

/-!
# The audio of the kept side

A chunk that is not skipped is decoded, amplified and given to the mixer (`audioOf`, `step_mixed`).
`keepsAll_iff` says when the mixer ships all of it. Chunks of side 2 are put on channel 1 only behind a
skipped chunk of side 1, and the mixer passes over every other channel until it has begun with a chunk on
channel 1: what the kept side 2 says before the first chunk of side 1 is lost (`lost_before_side1`).
-/

namespace Oreka

open Mixer

variable {cfg : BatchConfig} {io : Nat → Bool} {t : AudioTape}

/-- The mixer that the next decoded chunk is given to: the one there is, or a new one. -/
def Batch.mixerFor (cfg : BatchConfig) (b : Batch) : RtpMixer :=
  match b.rtpMixer with
  | some m => m.mixer
  | none => .fresh cfg.stale (if cfg.stereoRecording then 2 else 1)

/-- What the mixer is given for a chunk that is not skipped and has a decoder. -/
def Batch.audioOf (cfg : BatchConfig) (t : AudioTape) (b : Batch) (chunk : AudioChunk) : Option AudioChunk :=
  if Decodable cfg t chunk then
    (do
      let r ← (b.chooseDecoder (b.forced chunk)).decode cfg (b.forced chunk)
      audioGain cfg r.2).toOption.join
  else none

namespace Batch

variable {b b' : Batch} {chunk : AudioChunk}

/-! ## The mixer of a step -/

/-- The decoders are the same, and so is the mixer, which is there once the first chunk has been seen. -/
structure SameMixer (cfg : BatchConfig) (b b' : Batch) : Prop where
  forceChannel1 : b'.forceChannel1 = b.forceChannel1
  decoder1 : b'.decoder1 = b.decoder1
  decoder2 : b'.decoder2 = b.decoder2
  decoders1 : b'.decoders1 = b.decoders1
  decoders2 : b'.decoders2 = b.decoders2
  voIpSession : b'.voIpSession = b.voIpSession
  mixer : b'.mixerFor cfg = b.mixerFor cfg
  unopened : b'.firstChunk = true → b'.rtpMixer = none

theorem mixerFor_congr (h : b'.rtpMixer = b.rtpMixer) : b'.mixerFor cfg = b.mixerFor cfg := by
  unfold mixerFor
  rw [h]

/-- The file is opened, and a mixer is created that is as good as the one there was to be. -/
theorem sameMixer_openFirst (hu : b.firstChunk = true → b.rtpMixer = none) {hasDecoder : Bool}
    (h : b.openFirst cfg io hasDecoder = .ok b') : SameMixer cfg b b' := by
  unfold openFirst at h
  split at h
  · rename_i hopen
    obtain ⟨b₁, h₁, h⟩ := Except.bind_eq_ok.1 h
    obtain ⟨f, -, h⟩ := Except.bind_eq_ok.1 h
    obtain ⟨ops, outFileSecondary, rfl⟩ := openSecondary_eq_ok h
    have hclosed : false = true → b₁.rtpMixer = none := fun hfirst => by cases hfirst
    rcases createMixers_eq_ok h₁ with ⟨-, rfl⟩ | ⟨hvoip, _, _, rfl, -⟩
    · exact ⟨rfl, rfl, rfl, rfl, rfl, rfl, rfl, hclosed⟩
    · have hvoip' : b.voIpSession = true := hvoip
      rw [hvoip'] at hopen
      have hnone := hu (Bool.and_eq_true_iff.1 hopen).1
      refine ⟨rfl, rfl, rfl, rfl, rfl, rfl, ?_, hclosed⟩
      unfold mixerFor
      rw [hnone]
  · cases h
    exact ⟨rfl, rfl, rfl, rfl, rfl, rfl, rfl, hu⟩

/-- The decoders decide what is decoded. -/
theorem SameMixer.decode (hs : SameMixer cfg b b') {b₂ : Batch} {decoded : Option AudioChunk}
    (h : b'.decode cfg chunk = .ok (b₂, decoded)) : ∃ b₁, b.decode cfg chunk = .ok (b₁, decoded) := by
  unfold Batch.decode at h ⊢
  rw [hs.decoder1, hs.decoder2, hs.decoders1, hs.decoders2] at h
  split at h
  · rename_i hchannel
    rw [if_pos hchannel]
    split at h
    · cases h
    · obtain ⟨d, hd, h⟩ := Except.bind_eq_ok.1 h
      cases h
      exact ⟨_, Except.bind_eq_ok.2 ⟨_, hd, rfl⟩⟩
  · rename_i hchannel
    rw [if_neg hchannel]
    split at h
    · cases h
    · obtain ⟨d, hd, h⟩ := Except.bind_eq_ok.1 h
      cases h
      exact ⟨_, Except.bind_eq_ok.2 ⟨_, hd, rfl⟩⟩

/-- The mixer behind a step that gives it a chunk. -/
structure Mixed (cfg : BatchConfig) (m : RtpMixer) (amplified : Option AudioChunk) (b' : Batch) : Prop where
  mixes : ∃ m', m.audioChunkIn cfg.toMixerConfig amplified = .ok m' ∧
    ∃ fed, b'.rtpMixer = some fed ∧ fed.mixer = m'.audioChunkOut.1

theorem Mixed.of_same {m : RtpMixer} {amplified : Option AudioChunk} (h : Mixed cfg m amplified b)
    (hs : SameMixers b b') : Mixed cfg m amplified b' := by
  obtain ⟨m', hm', fed, hfed, hout⟩ := h.mixes
  exact ⟨m', hm', fed, hs.rtpMixer.trans hfed, hout⟩

theorem mixed_mix {decoded : Option AudioChunk} (h : b.mix cfg decoded = .ok b') :
    ∃ amplified, audioGain cfg decoded = .ok amplified ∧ Mixed cfg (b.mixerFor cfg) amplified b' ∧
      b.rtpMixer ≠ none ∧ b'.firstChunk = b.firstChunk ∧ b'.forceChannel1 = b.forceChannel1 := by
  obtain ⟨amplified, m, m', _, _, hgain, hm, hm', -, rfl⟩ := mix_eq_ok h
  obtain ⟨mixer, hmixer, hm'⟩ := Except.bind_eq_ok.1 hm'
  cases hm'
  rw [Except.mapError_eq_ok] at hmixer
  have hfor : b.mixerFor cfg = m.mixer := by
    unfold mixerFor
    rw [hm]
  have hthere : b.rtpMixer ≠ none := by
    rw [hm]
    exact Option.some_ne_none m
  rw [hfor]
  exact ⟨amplified, hgain, ⟨mixer, hmixer, _, rfl, rfl⟩, hthere, rfl, rfl⟩

theorem forceChannel1_written {b₁ b₂ : Batch} (h₁ : b.writeOutput io = .ok b₁) (h₂ : b₁.writeMixed io = .ok b₂)
    (h₃ : b₂.countSamples = .ok b') : b'.forceChannel1 = b.forceChannel1 := by
  obtain ⟨_, _, rfl⟩ := writeOutput_eq_ok h₁
  obtain ⟨_, _, rfl⟩ := writeMixed_eq_ok h₂
  obtain ⟨_, rfl⟩ := countSamples_eq_ok h₃
  rfl

/-- A chunk of a call is decoded, amplified, and given to the mixer. -/
theorem transcode_cases (hu : b.firstChunk = true → b.rtpMixer = none) {hasDecoder : Bool}
    (h : b.transcode cfg io chunk hasDecoder = .ok b') :
    b'.forceChannel1 = b.forceChannel1 ∧ (b.voIpSession = false ∧ b'.mixerFor cfg = b.mixerFor cfg ∧
        (b'.firstChunk = true → b'.rtpMixer = none) ∨
      ∃ b₀ decoded amplified, b.decode cfg chunk = .ok (b₀, decoded) ∧ audioGain cfg decoded = .ok amplified ∧
        Mixed cfg (b.mixerFor cfg) amplified b' ∧ b'.firstChunk = false) := by
  obtain ⟨b₁, h₁, h⟩ := Except.bind_eq_ok.1 h
  obtain ⟨b₂, h₂, h⟩ := Except.bind_eq_ok.1 h
  obtain ⟨b₃, h₃, h⟩ := Except.bind_eq_ok.1 h
  obtain ⟨b₄, h₄, h⟩ := Except.bind_eq_ok.1 h
  have hsame := sameMixer_openFirst hu h₁
  have hwritten := sameMixers_written h₃ h₄ h
  have hforced := forceChannel1_written h₃ h₄ h
  unfold convert at h₂
  split at h₂
  · obtain ⟨⟨b₀, decoded⟩, h₀, h₂⟩ := Except.bind_eq_ok.1 h₂
    obtain ⟨b₀', hdecode⟩ := hsame.decode h₀
    have hdecoded := sameMixers_decode h₀
    obtain ⟨⟨decoders1, decoders2, rfl⟩, -⟩ := decode_eq_ok h₀
    obtain ⟨amplified, hgain, hmixed, hthere, hfirst, hforced'⟩ := mixed_mix h₂
    refine ⟨hforced.trans (hforced'.trans hsame.forceChannel1),
      .inr ⟨b₀', decoded, amplified, hdecode, hgain, ?_, ?_⟩⟩
    · rw [mixerFor_congr hdecoded.rtpMixer, hsame.mixer] at hmixed
      exact hmixed.of_same hwritten
    · rw [hwritten.firstChunk, hfirst]
      exact Bool.eq_false_iff.2 fun hfirst => hthere (hsame.unopened hfirst)
  · rename_i hvoip
    obtain ⟨tmpChunk, -, h₂⟩ := Except.bind_eq_ok.1 h₂
    cases h₂
    refine ⟨hforced.trans hsame.forceChannel1,
      .inl ⟨?_, (mixerFor_congr hwritten.rtpMixer).trans hsame.mixer, ?_⟩⟩
    · rw [← hsame.voIpSession]
      exact Bool.eq_false_iff.2 hvoip
    · intro hfirst
      rw [hwritten.firstChunk] at hfirst
      exact hwritten.rtpMixer.trans (hsame.unopened hfirst)

/-- What a chunk comes to for the mixer. -/
inductive StepCases (cfg : BatchConfig) (t : AudioTape) (b : Batch) (chunk : AudioChunk) (b' : Batch) : Prop
  | skipped : keeps cfg t chunk = false →
      b' = { b with forceChannel1 := b.forceChannel1 || (t.skipChunk chunk).2 = 1 } → StepCases cfg t b chunk b'
  | passed : b'.forceChannel1 = b.forceChannel1 → b'.mixerFor cfg = b.mixerFor cfg →
      (b'.firstChunk = true → b'.rtpMixer = none) → StepCases cfg t b chunk b'
  | mixed (b₁ b₀ : Batch) (decoded amplified : Option AudioChunk) : b'.forceChannel1 = b.forceChannel1 →
      b₁.decode cfg (b.forced chunk) = .ok (b₀, decoded) → audioGain cfg decoded = .ok amplified →
      Mixed cfg (b.mixerFor cfg) amplified b' → b'.firstChunk = false → StepCases cfg t b chunk b'

theorem chooseDecoder_eq (b : Batch) (chunk : AudioChunk) : ∃ decoder1 decoder2,
    b.chooseDecoder chunk = { b with voIpSession := true, decoder1, decoder2 } := by
  unfold chooseDecoder
  split
  · exact ⟨_, _, rfl⟩
  · exact ⟨_, _, rfl⟩

/-- A chunk that is transcoded, with the decoder chosen for it or the one chosen before. -/
theorem stepCases_of_transcode {b₁ : Batch} {hasDecoder : Bool}
    (h : b₁.transcode cfg io (b.forced chunk) hasDecoder = .ok b')
    (hu : b₁.firstChunk = true → b₁.rtpMixer = none) (hforced : b₁.forceChannel1 = b.forceChannel1)
    (hmixer : b₁.mixerFor cfg = b.mixerFor cfg) : StepCases cfg t b chunk b' := by
  obtain ⟨hforced', ⟨-, hsame, hunopened⟩ | ⟨b₀, decoded, amplified, hdecode, hgain, hmixed, hfirst⟩⟩ :=
    transcode_cases hu h
  · exact .passed (hforced'.trans hforced) (hsame.trans hmixer) hunopened
  · exact .mixed b₁ b₀ decoded amplified (hforced'.trans hforced) hdecode hgain (hmixer ▸ hmixed) hfirst

/-- **The cases of a step.** -/
theorem processChunk_cases (hu : b.firstChunk = true → b.rtpMixer = none)
    (h : b.processChunk cfg io t chunk = .ok b') : StepCases cfg t b chunk b' := by
  by_cases hkept : keeps cfg t chunk = true
  · rw [processChunk_of_keeps hkept] at h
    obtain ⟨decoder1, decoder2, hchoose⟩ := b.chooseDecoder_eq (b.forced chunk)
    unfold acceptChunk at h
    split at h
    · cases h
      exact .passed rfl rfl hu
    · split at h
      · exact stepCases_of_transcode h hu rfl rfl
      · rw [hchoose] at h
        dsimp only at h
        split at h
        · exact stepCases_of_transcode h hu rfl rfl
        · cases h
          exact .passed rfl rfl hu
  · have hskipped : keeps cfg t chunk = false := by simpa using hkept
    rw [processChunk_skipped hskipped] at h
    cases h
    exact .skipped hskipped rfl

theorem processChunk_of_decodable (hd : Decodable cfg t chunk) : b.processChunk cfg io t chunk =
    (b.chooseDecoder (b.forced chunk)).transcode cfg io (b.forced chunk) true := by
  obtain ⟨hkept, h0, hmax, hdecoder⟩ := hd
  rw [processChunk_of_keeps hkept]
  unfold acceptChunk
  simp only [rtpPayloadType_forced]
  rw [if_neg (by omega), if_neg (by omega), if_pos hdecoder]

theorem audioOf_eq_some {c : AudioChunk} (h : b.audioOf cfg t chunk = some c) :
    Decodable cfg t chunk ∧ ∃ b₀ decoded,
      (b.chooseDecoder (b.forced chunk)).decode cfg (b.forced chunk) = .ok (b₀, some decoded) ∧
        audioGain cfg (some decoded) = .ok (some c) := by
  unfold audioOf at h
  split at h
  · rename_i hd
    refine ⟨hd, ?_⟩
    cases hdecode : (b.chooseDecoder (b.forced chunk)).decode cfg (b.forced chunk) with
    | error e =>
      rw [hdecode] at h
      cases h
    | ok r =>
      rw [hdecode, Except.ok_bind] at h
      cases hgain : audioGain cfg r.2 with
      | error e =>
        rw [hgain] at h
        cases h
      | ok amplified =>
        rw [hgain] at h
        obtain rfl : amplified = some c := h
        obtain ⟨b₀, _ | decoded⟩ := r
        · cases hgain
        · exact ⟨b₀, decoded, rfl, hgain⟩
  · cases h

/-- **A chunk that is kept and has a decoder goes to the mixer.** -/
theorem step_mixed (hu : b.firstChunk = true → b.rtpMixer = none) (hd : Decodable cfg t chunk)
    (h : b.processChunk cfg io t chunk = .ok b') :
    Mixed cfg (b.mixerFor cfg) (b.audioOf cfg t chunk) b' := by
  rw [processChunk_of_decodable hd] at h
  obtain ⟨decoder1, decoder2, hchoose⟩ := b.chooseDecoder_eq (b.forced chunk)
  have hu' : (b.chooseDecoder (b.forced chunk)).firstChunk = true →
      (b.chooseDecoder (b.forced chunk)).rtpMixer = none := by
    rw [hchoose]
    exact hu
  have hmixer : (b.chooseDecoder (b.forced chunk)).mixerFor cfg = b.mixerFor cfg := by
    rw [hchoose]
    rfl
  obtain ⟨-, ⟨hvoip, -⟩ | ⟨b₀, decoded, amplified, hdecode, hgain, hmixed, -⟩⟩ := transcode_cases hu' h
  · rw [voIpSession_chooseDecoder] at hvoip
    cases hvoip
  · have haudio : b.audioOf cfg t chunk = amplified := by
      unfold audioOf
      rw [if_pos hd, hdecode, Except.ok_bind, hgain]
      rfl
    rw [haudio, ← hmixer]
    exact hmixed

/-! ## Runs -/

/-- The mixer has its invariant, and is there once the first chunk has been seen. -/
structure Sound (cfg : BatchConfig) (b : Batch) : Prop where
  unopened : b.firstChunk = true → b.rtpMixer = none
  ring : (b.mixerFor cfg).RingInv

theorem Sound.initial (cfg : BatchConfig) : Sound cfg { ops := 1 } := ⟨fun _ => rfl, RtpMixer.fresh_ringInv ..⟩

/-- A chunk taken from the output queue leaves the ring as it is. -/
theorem ringInv_audioChunkOut {m : RtpMixer} (hi : m.RingInv) : m.audioChunkOut.1.RingInv := by
  unfold RtpMixer.audioChunkOut
  split
  · exact hi
  · exact ⟨hi.readPtr, hi.le, hi.writePtr, hi.trigger, hi.holdoff⟩

theorem Mixed.mixerFor_eq {m : RtpMixer} {amplified : Option AudioChunk} (h : Mixed cfg m amplified b') :
    ∃ m', m.audioChunkIn cfg.toMixerConfig amplified = .ok m' ∧ b'.mixerFor cfg = m'.audioChunkOut.1 := by
  obtain ⟨m', hm', fed, hfed, hout⟩ := h.mixes
  refine ⟨m', hm', ?_⟩
  unfold mixerFor
  rw [hfed]
  exact hout

theorem Sound.processChunk (h : Sound cfg b) (hb : b.processChunk cfg io t chunk = .ok b') : Sound cfg b' := by
  cases processChunk_cases h.unopened hb with
  | skipped _ heq =>
    rw [heq]
    exact ⟨h.unopened, h.ring⟩
  | passed _ hmixer hu =>
    exact ⟨hu, hmixer ▸ h.ring⟩
  | mixed b₁ b₀ decoded amplified _ _ _ hmixed hfirst =>
    obtain ⟨m', hm', hmixer⟩ := hmixed.mixerFor_eq
    refine ⟨fun htrue => ?_, ?_⟩
    · rw [hfirst] at htrue
      cases htrue
    · rw [hmixer]
      exact ringInv_audioChunkOut (RtpMixer.audioChunkIn_ringInv h.ring hm').1

theorem sound_of_run {chunks : List AudioChunk}
    (h : chunks.foldlM (Batch.processChunk cfg io t) { ops := 1 } = .ok b) : Sound cfg b :=
  Except.foldlM_induction (P := fun _ b => Sound cfg b) (fun _ _ _ _ h hb => h.processChunk hb) chunks (l := [])
    (.initial cfg) h

/-! ## Before side 1 -/

/-- What a decoder gives is on the channel of the chunk that it was given last. -/
def KeepsChannel (d : Decoder) : Prop :=
  ∀ given chunk decoded, d (given ++ [chunk]) = .ok (some decoded) →
    decoded.details.channel = chunk.details.channel

theorem channel_decode (hdecoders : ∀ n d, cfg.decoder n = some d → KeepsChannel d) {b₀ : Batch}
    {decoded : AudioChunk} (h : b.decode cfg chunk = .ok (b₀, some decoded)) :
    decoded.details.channel = chunk.details.channel := by
  obtain ⟨-, n, decoder, given, hdecoder, hdecoded⟩ := decode_eq_ok h
  exact hdecoders n decoder hdecoder given chunk decoded hdecoded

theorem channel_audioGain {decoded c : AudioChunk} (h : audioGain cfg (some decoded) = .ok (some c))
    (hchannel : decoded.details.channel ≠ 1) : c.details.channel ≠ 1 := by
  obtain ⟨n, -, h⟩ := Except.bind_eq_ok.1 h
  split at h
  · cases h
  · split at h
    · cases h
      unfold AudioChunk.setBuffer
      split
      · split
        · decide
        · decide
      · exact hchannel
    · cases h
      exact hchannel

/-- No chunk on channel 1 has been given to the mixer, or skipped. -/
structure Unheard (cfg : BatchConfig) (b : Batch) : Prop where
  unforced : b.forceChannel1 = false
  unbegun : (b.mixerFor cfg).writeTimestamp = 0

theorem forced_of_unforced (h : b.forceChannel1 = false) (chunk : AudioChunk) : b.forced chunk = chunk := by
  unfold forced
  rw [h]
  rfl

theorem Unheard.processChunk (h : Unheard cfg b) (hsound : Sound cfg b)
    (hdecoders : ∀ n d, cfg.decoder n = some d → KeepsChannel d) (hchannel : chunk.details.channel ≠ 1)
    (hb : b.processChunk cfg io t chunk = .ok b') : Unheard cfg b' := by
  cases processChunk_cases hsound.unopened hb with
  | skipped _ heq =>
    have hnot : (t.skipChunk chunk).2 ≠ 1 := by
      unfold AudioTape.skipChunk
      dsimp only
      split
      · exact hchannel
      · decide
    rw [heq]
    refine ⟨?_, h.unbegun⟩
    simp [h.unforced, hnot]
  | passed hforced hmixer _ => exact ⟨hforced.trans h.unforced, hmixer ▸ h.unbegun⟩
  | mixed b₁ b₀ decoded amplified hforced hdecode hgain hmixed _ =>
    obtain ⟨m', hm', hmixer⟩ := hmixed.mixerFor_eq
    refine ⟨hforced.trans h.unforced, ?_⟩
    rw [forced_of_unforced h.unforced] at hdecode
    have hamplified : ∀ c, amplified = some c → c.details.channel ≠ 1 := by
      rintro c rfl
      cases decoded with
      | none => cases hgain
      | some decoded =>
        refine channel_audioGain hgain ?_
        rw [channel_decode hdecoders hdecode]
        exact hchannel
    have hunbegun := RtpMixer.audioChunkIn_unbegun hsound.ring h.unbegun hamplified hm'
    rw [hmixer]
    unfold RtpMixer.audioChunkOut
    split
    · exact hunbegun
    · exact hunbegun

theorem unheard_of_run (hdecoders : ∀ n d, cfg.decoder n = some d → KeepsChannel d) {chunks : List AudioChunk}
    (hchannel : ∀ c ∈ chunks, c.details.channel ≠ 1)
    (h : chunks.foldlM (Batch.processChunk cfg io t) { ops := 1 } = .ok b) : Unheard cfg b := by
  have hrun := Except.foldlM_induction
    (P := fun l b => Sound cfg b ∧ ((∀ c ∈ l, c.details.channel ≠ 1) → Unheard cfg b))
    (fun l chunk b b' h hb => ⟨h.1.processChunk hb, fun hall => ?_⟩) chunks (l := [])
    ⟨.initial cfg, fun _ => ⟨rfl, rfl⟩⟩ h
  · exact hrun.2 hchannel
  · refine (h.2 fun c hc => hall c (List.mem_append_left _ hc)).processChunk h.1 hdecoders ?_ hb
    exact hall chunk (List.mem_append_right _ (.head []))

end Batch

/-! ## All that is kept -/

/-- A chunk of the tape, the thread before and after it. -/
def Step (cfg : BatchConfig) (io : Nat → Bool) (t : AudioTape) (chunks : List AudioChunk) (b : Batch)
    (chunk : AudioChunk) (b' : Batch) : Prop :=
  ∃ before after, chunks = before ++ chunk :: after ∧
    before.foldlM (Batch.processChunk cfg io t) { ops := 1 } = .ok b ∧ b.processChunk cfg io t chunk = .ok b'

/-- The mixer is given the samples, and ships them. -/
structure KeepsSamples (cfg : BatchConfig) (b : Batch) (c : AudioChunk) (b' : Batch) : Prop where
  given : b'.rtpMixer.map (·.mixer) =
    some ((b.mixerFor cfg).step cfg.toMixerConfig (some c)).audioChunkOut.1
  contributes : (b.mixerFor cfg).Contributes cfg.toMixerConfig c

/-- Every chunk that is not skipped and can be decoded contributes its samples. -/
def KeepsAll (cfg : BatchConfig) (io : Nat → Bool) (t : AudioTape) (chunks : List AudioChunk) : Prop :=
  ∀ b chunk b', Step cfg io t chunks b chunk b' →
    ∀ c, b.audioOf cfg t chunk = some c → c.pcm ≠ [] → KeepsSamples cfg b c b'

theorem Step.sound {chunks : List AudioChunk} {b b' : Batch} {chunk : AudioChunk}
    (h : Step cfg io t chunks b chunk b') : Batch.Sound cfg b := by
  obtain ⟨before, after, -, hrun, -⟩ := h
  exact Batch.sound_of_run hrun

theorem Step.given {chunks : List AudioChunk} {b b' : Batch} {chunk c : AudioChunk}
    (h : Step cfg io t chunks b chunk b') (haudio : b.audioOf cfg t chunk = some c) :
    b'.rtpMixer.map (·.mixer) =
      some ((b.mixerFor cfg).step cfg.toMixerConfig (some c)).audioChunkOut.1 := by
  have hunopened := h.sound.unopened
  obtain ⟨before, after, -, -, hstep⟩ := h
  have hd := (Batch.audioOf_eq_some haudio).1
  obtain ⟨m', hm', fed, hfed, hout⟩ := (Batch.step_mixed hunopened hd hstep).mixes
  rw [haudio] at hm'
  have hm : (b.mixerFor cfg).step cfg.toMixerConfig (some c) = m' := by
    unfold RtpMixer.step
    rw [hm']
  rw [hfed, hm]
  exact congrArg some hout

/-- **The kept side is complete exactly when the mixer hears every chunk of it.** -/
theorem keepsAll_iff (cfg : BatchConfig) (io : Nat → Bool) (t : AudioTape) (chunks : List AudioChunk) :
    KeepsAll cfg io t chunks ↔ ∀ b chunk b', Step cfg io t chunks b chunk b' →
      ∀ c, b.audioOf cfg t chunk = some c → c.pcm ≠ [] →
        ∃ c₁ τ, (b.mixerFor cfg).placed cfg.toMixerConfig (some c) = some (c₁, τ) ∧
          (b.mixerFor cfg).Mixes c₁ τ := by
  constructor
  · intro h b chunk b' hstep c haudio hpcm
    have hcontributes := (h b chunk b' hstep c haudio hpcm).contributes
    exact (RtpMixer.contributes_iff hstep.sound.ring (List.length_pos_iff.2 hpcm)).1 hcontributes
  · intro h b chunk b' hstep c haudio hpcm
    refine ⟨hstep.given haudio, ?_⟩
    exact (RtpMixer.contributes_iff hstep.sound.ring (List.length_pos_iff.2 hpcm)).2
      (h b chunk b' hstep c haudio hpcm)

/-- **What the kept side 2 says before the first chunk of side 1 is lost.** -/
theorem lost_before_side1 (hdecoders : ∀ n d, cfg.decoder n = some d → Batch.KeepsChannel d)
    {before : List AudioChunk} {b : Batch} {chunk c : AudioChunk}
    (hrun : before.foldlM (Batch.processChunk cfg io t) { ops := 1 } = .ok b)
    (hbefore : ∀ c ∈ before, c.details.channel ≠ 1) (hchannel : chunk.details.channel ≠ 1)
    (haudio : b.audioOf cfg t chunk = some c) (hpcm : c.pcm ≠ []) :
    ¬ (b.mixerFor cfg).Contributes cfg.toMixerConfig c := by
  have hunheard := Batch.unheard_of_run hdecoders hbefore hrun
  refine RtpMixer.not_contributes_of_unbegun (Batch.sound_of_run hrun).ring hunheard.unbegun
    (List.length_pos_iff.2 hpcm) ?_
  obtain ⟨-, b₀, decoded, hdecode, hgain⟩ := Batch.audioOf_eq_some haudio
  rw [Batch.forced_of_unforced hunheard.unforced] at hdecode
  refine Batch.channel_audioGain hgain ?_
  rw [Batch.channel_decode hdecoders hdecode]
  exact hchannel

/-- A decoder of payload type 0, which makes two samples of a chunk. -/
def pairDecoder : Nat → Option Decoder
  | 0 => some fun given => .ok (given.getLast?.map fun chunk =>
    { details := { chunk.details with encoding := .pcmAudio, numBytes := 4 }, buffer := [5, 6] })
  | _ => none

theorem keepsChannel_pairDecoder (n : Nat) (d : Decoder) (h : pairDecoder n = some d) :
    Batch.KeepsChannel d := by
  unfold pairDecoder at h
  split at h
  · cases h
    intro given chunk decoded hdecoded
    simp only [List.getLast?_concat, Option.map_some, Except.ok.injEq, Option.some.injEq] at hdecoded
    rw [← hdecoded]
  · cases h

/-- A chunk of a side. -/
def sideChunk (channel : UInt8) (timestamp : UInt32) : AudioChunk :=
  { details := { encoding := .ulawAudio, numBytes := 2, timestamp, rtpPayloadType := 0, channel }
    buffer := [0] }

/-- Only the local side of the tape is kept, and that is side 2. -/
def side2Tape : AudioTape :=
  { portId := "", trackingId := "", beginDate := 0, audioKeepDirection := .local, localSide := .side2 }

/-- Side 2 speaks before side 1. -/
theorem not_keepsAll_side2First : ¬ KeepsAll { decoder := pairDecoder } (fun _ => true) side2Tape
    [sideChunk 2 1000, sideChunk 1 500, sideChunk 2 1002] := by
  intro h
  have hrun : [].foldlM (Batch.processChunk { decoder := pairDecoder } (fun _ => true) side2Tape) { ops := 1 } =
      .ok { ops := 1 } := rfl
  have hkept := (h _ (sideChunk 2 1000) _ ⟨[], [sideChunk 1 500, sideChunk 2 1002], rfl, hrun, rfl⟩
    _ rfl (by decide)).contributes
  have hchannel : (sideChunk 2 1000).details.channel ≠ 1 := by decide
  exact lost_before_side1 keepsChannel_pairDecoder hrun (by simp) hchannel rfl (by decide) hkept

end Oreka
