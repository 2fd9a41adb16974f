import Mathlib.Data.List.Forall2
import Oreka.Batch.Proof.OutputFiles

/-!
# The secondary mixer

With a secondary output path both mixers exist from the first chunk on that has a decoder, and every
decoded chunk goes to both, amplified to the first one (`Fed`). At the end only the first one is given
the stop chunk (`Fed.flush`), so what the secondary one still holds back is never written: its output is
complete only of a tape of which nothing was decoded (`secondaryComplete_iff`).
-/

namespace Oreka

variable {cfg : BatchConfig} {io : Nat → Bool} {t : AudioTape} {file : CaptureFile}

namespace Batch

variable {b b' : Batch} {chunk : AudioChunk}

/-! ## The state of the mixers -/

/-- The mixers and what decides about them are the same. -/
structure SameMixers (b b' : Batch) : Prop where
  firstChunk : b'.firstChunk = b.firstChunk
  voIpSession : b'.voIpSession = b.voIpSession
  rtpMixer : b'.rtpMixer = b.rtpMixer
  rtpMixerSecondary : b'.rtpMixerSecondary = b.rtpMixerSecondary

theorem SameMixers.refl (b : Batch) : SameMixers b b := ⟨rfl, rfl, rfl, rfl⟩

theorem SameMixers.trans {b'' : Batch} (h : SameMixers b b') (h' : SameMixers b' b'') : SameMixers b b'' :=
  ⟨h'.firstChunk.trans h.firstChunk, h'.voIpSession.trans h.voIpSession, h'.rtpMixer.trans h.rtpMixer,
    h'.rtpMixerSecondary.trans h.rtpMixerSecondary⟩

theorem sameMixers_writeOutput (h : b.writeOutput io = .ok b') : SameMixers b b' := by
  obtain ⟨ops, outFile, rfl⟩ := writeOutput_eq_ok h
  exact ⟨rfl, rfl, rfl, rfl⟩

theorem sameMixers_countSamples (h : b.countSamples = .ok b') : SameMixers b b' := by
  obtain ⟨numSamplesOut, rfl⟩ := countSamples_eq_ok h
  exact ⟨rfl, rfl, rfl, rfl⟩

theorem sameMixers_decode {decoded : Option AudioChunk} (h : b.decode cfg chunk = .ok (b', decoded)) :
    SameMixers b b' := by
  obtain ⟨⟨decoders1, decoders2, rfl⟩, -⟩ := decode_eq_ok h
  exact ⟨rfl, rfl, rfl, rfl⟩

/-- The mixers outlive what is written. -/
theorem sameMixers_written {b₁ b₂ : Batch} (h₁ : b.writeOutput io = .ok b₁) (h₂ : b₁.writeMixed io = .ok b₂)
    (h₃ : b₂.countSamples = .ok b') : SameMixers b b' := by
  obtain ⟨ops, outFileSecondary, rfl⟩ := writeMixed_eq_ok h₂
  have hwritten : SameMixers b₁ { b₁ with ops, outFileSecondary } := ⟨rfl, rfl, rfl, rfl⟩
  exact (sameMixers_writeOutput h₁).trans (hwritten.trans (sameMixers_countSamples h₃))

/-- No chunk has been decoded yet. -/
structure Idle (b : Batch) : Prop where
  firstChunk : b.firstChunk = true
  rtpMixer : b.rtpMixer = none
  rtpMixerSecondary : b.rtpMixerSecondary = none
  outFileSecondary : b.outFileSecondary = none

/-- The mixers `m` and `s` are there, and have been given the same decoded chunks in the same order,
amplified the one and as they are the other. -/
structure Fed (cfg : BatchConfig) (m s : FedMixer) (b : Batch) : Prop where
  firstChunk : b.firstChunk = false
  voIpSession : b.voIpSession = true
  rtpMixer : b.rtpMixer = some m
  rtpMixerSecondary : b.rtpMixerSecondary = some s
  inputs : List.Forall₂ (fun decoded amplified => audioGain cfg decoded = .ok amplified) s.inputs m.inputs

theorem Fed.of_same {m s : FedMixer} (h : Fed cfg m s b) (hs : SameMixers b b') : Fed cfg m s b' :=
  ⟨hs.firstChunk.trans h.firstChunk, hs.voIpSession.trans h.voIpSession, hs.rtpMixer.trans h.rtpMixer,
    hs.rtpMixerSecondary.trans h.rtpMixerSecondary, h.inputs⟩

/-! ## A chunk -/

theorem FedMixer.inputs_audioChunkIn {m m' : FedMixer} {c : Option AudioChunk}
    (h : m.audioChunkIn cfg c = .ok m') : m'.inputs = m.inputs ++ [c] := by
  obtain ⟨mixer, -, h⟩ := Except.bind_eq_ok.1 h
  cases h
  rfl

theorem Fed.mix {m s : FedMixer} (h : Fed cfg m s b) {decoded : Option AudioChunk}
    (hb : b.mix cfg decoded = .ok b') : ∃ m' s', Fed cfg m' s' b' := by
  obtain ⟨amplified, m₀, m', _, tmpChunkSecondary, hgain, hm, hm', hsecondary, rfl⟩ := mix_eq_ok hb
  cases h.rtpMixer.symm.trans hm
  obtain ⟨s', hs', rfl⟩ := hsecondary s h.rtpMixerSecondary
  refine ⟨m'.audioChunkOut.1, s'.audioChunkOut.1, h.firstChunk, h.voIpSession, rfl, rfl, ?_⟩
  show List.Forall₂ _ s'.inputs m'.inputs
  rw [FedMixer.inputs_audioChunkIn hm', FedMixer.inputs_audioChunkIn hs']
  exact List.rel_append h.inputs (.cons hgain .nil)

theorem Fed.openFirst {m s : FedMixer} (h : Fed cfg m s b) {hasDecoder : Bool}
    (hb : b.openFirst cfg io hasDecoder = .ok b') : ∃ m s, Fed cfg m s b' := by
  unfold Batch.openFirst at hb
  rw [if_neg (by simp [h.voIpSession, h.firstChunk])] at hb
  cases hb
  exact ⟨m, s, h⟩

/-- A chunk that finds the mixers, once the file is open, goes to both of them. -/
theorem fed_transcode {hasDecoder : Bool}
    (hopen : ∀ b₁, b.openFirst cfg io hasDecoder = .ok b₁ → ∃ m s, Fed cfg m s b₁)
    (hb : b.transcode cfg io chunk hasDecoder = .ok b') : ∃ m s, Fed cfg m s b' := by
  obtain ⟨b₁, h₁, hb⟩ := Except.bind_eq_ok.1 hb
  obtain ⟨b₂, h₂, hb⟩ := Except.bind_eq_ok.1 hb
  obtain ⟨b₃, h₃, hb⟩ := Except.bind_eq_ok.1 hb
  obtain ⟨b₄, h₄, hb⟩ := Except.bind_eq_ok.1 hb
  obtain ⟨m, s, h⟩ := hopen b₁ h₁
  unfold convert at h₂
  rw [if_pos h.voIpSession] at h₂
  obtain ⟨⟨b₀, decoded⟩, h₀, h₂⟩ := Except.bind_eq_ok.1 h₂
  obtain ⟨m', s', hfed⟩ := (h.of_same (sameMixers_decode h₀)).mix h₂
  exact ⟨m', s', hfed.of_same (sameMixers_written h₃ h₄ hb)⟩

/-- The first chunk that has a decoder creates the mixers. -/
theorem Idle.openFirst (h : Idle b) (hvoip : b.voIpSession = true) (hsecondary : cfg.hasSecondary = true)
    (hb : b.openFirst cfg io true = .ok b') : ∃ m s, Fed cfg m s b' := by
  unfold Batch.openFirst at hb
  rw [if_pos (by simp [h.firstChunk])] at hb
  obtain ⟨b₁, h₁, hb⟩ := Except.bind_eq_ok.1 hb
  obtain ⟨f, -, hb⟩ := Except.bind_eq_ok.1 hb
  rcases createMixers_eq_ok h₁ with ⟨hplain, -⟩ | ⟨-, outFileSecondary, rtpMixerSecondary, rfl, hboth⟩
  · cases hvoip.symm.trans hplain
  · obtain ⟨-, rfl⟩ := hboth hsecondary
    obtain ⟨ops, outFileSecondary, rfl⟩ := openSecondary_eq_ok hb
    exact ⟨_, _, rfl, hvoip, rfl, rfl, .nil⟩

/-- A chunk without payload type does not get through before: either there is no secondary file, or no
mixer. -/
theorem Idle.transcode_plain (h : Idle b) (hsecondary : cfg.hasSecondary = true) :
    b.transcode cfg io chunk false ≠ .ok b' := by
  intro hb
  obtain ⟨b₁, h₁, hb⟩ := Except.bind_eq_ok.1 hb
  obtain ⟨b₂, h₂, -⟩ := Except.bind_eq_ok.1 hb
  unfold Batch.openFirst at h₁
  by_cases hvoip : b.voIpSession = true
  · rw [if_neg (by simp [hvoip])] at h₁
    cases h₁
    unfold convert at h₂
    rw [if_pos hvoip] at h₂
    obtain ⟨⟨b₀, decoded⟩, h₀, h₂⟩ := Except.bind_eq_ok.1 h₂
    obtain ⟨_, m, _, _, _, -, hm, -⟩ := mix_eq_ok h₂
    rw [(sameMixers_decode h₀).rtpMixer, h.rtpMixer] at hm
    cases hm
  · rw [if_pos (by simp [hvoip])] at h₁
    obtain ⟨b₀, h₀, h₁⟩ := Except.bind_eq_ok.1 h₁
    obtain ⟨f, -, h₁⟩ := Except.bind_eq_ok.1 h₁
    rcases createMixers_eq_ok h₀ with ⟨-, rfl⟩ | ⟨htrue, -⟩
    swap
    · exact absurd htrue hvoip
    unfold openSecondary at h₁
    dsimp only at h₁
    rw [if_pos hsecondary, h.outFileSecondary] at h₁
    cases h₁

/-! ## Runs -/

/-- The chunk is not skipped, and there is a decoder for its payload type. -/
def Decodable (cfg : BatchConfig) (t : AudioTape) (chunk : AudioChunk) : Prop :=
  keeps cfg t chunk = true ∧ 0 ≤ chunk.details.rtpPayloadType ∧
    chunk.details.rtpPayloadType < rtpPayloadTypeMax ∧ (cfg.decoder chunk.details.rtpPayloadType.toNat).isSome

instance (cfg : BatchConfig) (t : AudioTape) (chunk : AudioChunk) : Decidable (Decodable cfg t chunk) :=
  inferInstanceAs (Decidable (_ ∧ _ ∧ _ ∧ _))

/-- The mixers are there as soon as a chunk could be decoded. -/
def Driven (cfg : BatchConfig) (t : AudioTape) (chunks : List AudioChunk) (b : Batch) : Prop :=
  (Idle b ∧ ∀ c ∈ chunks, ¬ Decodable cfg t c) ∨ ((∃ m s, Fed cfg m s b) ∧ ∃ c ∈ chunks, Decodable cfg t c)

theorem Driven.initial : Driven cfg t [] { ops := 1 } := .inl ⟨⟨rfl, rfl, rfl, rfl⟩, fun _ h => by cases h⟩

/-- A chunk that is not decoded, and leaves the mixers as they are. -/
theorem Driven.unchanged {chunks : List AudioChunk} (h : Driven cfg t chunks b) (hnot : ¬ Decodable cfg t chunk)
    (hidle : Idle b → Idle b') (hfed : ∀ m s, Fed cfg m s b → Fed cfg m s b') :
    Driven cfg t (chunks ++ [chunk]) b' := by
  rcases h with ⟨hi, hnone⟩ | ⟨⟨m, s, hf⟩, c, hc, hdec⟩
  · refine .inl ⟨hidle hi, fun c hc => ?_⟩
    rcases List.mem_append.1 hc with hc | hc
    · exact hnone c hc
    · rwa [List.mem_singleton.1 hc]
  · exact .inr ⟨⟨m, s, hfed m s hf⟩, c, List.mem_append_left _ hc, hdec⟩

theorem Idle.chooseDecoder (h : Idle b) (chunk : AudioChunk) : Idle (b.chooseDecoder chunk) := by
  unfold Batch.chooseDecoder
  split
  · exact ⟨h.firstChunk, h.rtpMixer, h.rtpMixerSecondary, h.outFileSecondary⟩
  · exact ⟨h.firstChunk, h.rtpMixer, h.rtpMixerSecondary, h.outFileSecondary⟩

theorem Fed.chooseDecoder {m s : FedMixer} (h : Fed cfg m s b) (chunk : AudioChunk) :
    Fed cfg m s (b.chooseDecoder chunk) := by
  unfold Batch.chooseDecoder
  split
  · exact ⟨h.firstChunk, rfl, h.rtpMixer, h.rtpMixerSecondary, h.inputs⟩
  · exact ⟨h.firstChunk, rfl, h.rtpMixer, h.rtpMixerSecondary, h.inputs⟩

theorem voIpSession_chooseDecoder (b : Batch) (chunk : AudioChunk) :
    (b.chooseDecoder chunk).voIpSession = true := by
  unfold chooseDecoder
  split
  · rfl
  · rfl

/-- A chunk that has a decoder finds the mixers, or creates them. -/
theorem Driven.openFirst {chunks : List AudioChunk} (h : Driven cfg t chunks b)
    (hsecondary : cfg.hasSecondary = true) {c : AudioChunk}
    (hb : (b.chooseDecoder c).openFirst cfg io true = .ok b') : ∃ m s, Fed cfg m s b' := by
  rcases h with ⟨hidle, -⟩ | ⟨⟨m, s, hfed⟩, -⟩
  · exact (hidle.chooseDecoder c).openFirst (voIpSession_chooseDecoder b c) hsecondary hb
  · exact (hfed.chooseDecoder c).openFirst hb

theorem Driven.processChunk {chunks : List AudioChunk} (h : Driven cfg t chunks b)
    (hsecondary : cfg.hasSecondary = true) (hb : b.processChunk cfg io t chunk = .ok b') :
    Driven cfg t (chunks ++ [chunk]) b' := by
  by_cases hkept : keeps cfg t chunk = true
  · rw [processChunk_of_keeps hkept] at hb
    unfold acceptChunk at hb
    simp only [rtpPayloadType_forced] at hb
    split at hb
    · rename_i hrange
      cases hb
      refine h.unchanged (fun hdec => ?_) id fun _ _ => id
      obtain ⟨-, h0, hmax, -⟩ := hdec
      omega
    · rename_i hrange
      split at hb
      · rename_i hplain
        have hnot : ¬ Decodable cfg t chunk := fun hdec => by
          have h0 := hdec.2.1
          omega
        rcases h with ⟨hidle, -⟩ | ⟨⟨m, s, hfed⟩, c, hc, hdec⟩
        · exact absurd hb (hidle.transcode_plain hsecondary)
        · exact .inr ⟨fed_transcode (fun _ => hfed.openFirst) hb, c, List.mem_append_left _ hc, hdec⟩
      · rename_i hplain
        split at hb
        · rename_i hdecoder
          have hdec : Decodable cfg t chunk := ⟨hkept, by omega, by omega, hdecoder⟩
          exact .inr ⟨fed_transcode (fun _ => h.openFirst hsecondary) hb, chunk,
            List.mem_append_right _ (.head []), hdec⟩
        · rename_i hdecoder
          cases hb
          exact h.unchanged (fun hdec => hdecoder hdec.2.2.2) (fun hi => hi.chooseDecoder _)
            fun _ _ hf => hf.chooseDecoder _
  · rw [processChunk_skipped (by simpa using hkept)] at hb
    cases hb
    exact h.unchanged (fun hdec => hkept hdec.1)
      (fun hi => ⟨hi.firstChunk, hi.rtpMixer, hi.rtpMixerSecondary, hi.outFileSecondary⟩)
      fun _ _ hf => ⟨hf.firstChunk, hf.voIpSession, hf.rtpMixer, hf.rtpMixerSecondary, hf.inputs⟩

theorem driven_of_run {chunks : List AudioChunk} (hsecondary : cfg.hasSecondary = true)
    (hb : chunks.foldlM (processChunk cfg io t) { ops := 1 } = .ok b) : Driven cfg t chunks b :=
  Except.foldlM_induction (P := fun l b => Driven cfg t l b)
    (fun _ _ _ _ h hb => h.processChunk hsecondary hb) chunks (l := []) .initial hb

/-! ## The end of the tape -/

/-- The inputs of the two mixers. -/
def Inputs (primary secondary : List (Option AudioChunk)) (b : Batch) : Prop :=
  (∃ m, b.rtpMixer = some m ∧ m.inputs = primary) ∧ ∃ s, b.rtpMixerSecondary = some s ∧ s.inputs = secondary

theorem Inputs.of_same {primary secondary : List (Option AudioChunk)} (h : Inputs primary secondary b)
    (hs : SameMixers b b') : Inputs primary secondary b' := by
  obtain ⟨⟨m, hm, hmi⟩, s, hsec, hsi⟩ := h
  exact ⟨⟨m, hs.rtpMixer.trans hm, hmi⟩, s, hs.rtpMixerSecondary.trans hsec, hsi⟩

theorem Inputs.takeSecondary {primary secondary : List (Option AudioChunk)} (h : Inputs primary secondary b) :
    Inputs primary secondary b.takeSecondary := by
  obtain ⟨hprimary, s, hsec, hsi⟩ := h
  unfold Batch.takeSecondary
  rw [hsec]
  exact ⟨hprimary, s.audioChunkOut.1, rfl, hsi⟩

theorem Inputs.drainOutput {primary secondary : List (Option AudioChunk)} (h : Inputs primary secondary b)
    (hb : b.drainOutput io = .ok b') : Inputs primary secondary b' := by
  obtain ⟨⟨m, hm, hmi⟩, hsec⟩ := h
  unfold Batch.drainOutput at hb
  rw [hm] at hb
  refine Except.foldlM_induction (P := fun _ b => Inputs primary secondary b)
    (fun _ c b b' h hb => ?_) _ (l := []) ?_ hb
  · obtain ⟨b₁, h₁, h₂⟩ := Except.bind_eq_ok.1 hb
    have hset : Inputs primary secondary { b with tmpChunk := some c } := h
    exact hset.of_same ((sameMixers_writeOutput h₁).trans (sameMixers_countSamples h₂))
  · exact ⟨⟨_, rfl, hmi⟩, hsec⟩

theorem Inputs.drainSecondary {primary secondary : List (Option AudioChunk)} (h : Inputs primary secondary b)
    (hb : b.drainSecondary io = .ok b') : Inputs primary secondary b' := by
  obtain ⟨hprimary, s, hsec, hsi⟩ := h
  unfold Batch.drainSecondary at hb
  rw [hsec] at hb
  refine Except.foldlM_induction (P := fun _ b => Inputs primary secondary b)
    (fun _ c b b' h hb => ?_) _ (l := []) ?_ hb
  · obtain ⟨ops, outFileSecondary, rfl⟩ := writeSecondary_eq_ok hb
    exact h
  · exact ⟨hprimary, _, rfl, hsi⟩

/-- The stop chunk goes to the first mixer only. -/
theorem Fed.flush {m s : FedMixer} (h : Fed cfg m s b) (hb : b.flush cfg io = .ok b') :
    Inputs (m.inputs ++ [some stopChunk]) s.inputs b' := by
  unfold Batch.flush at hb
  rw [if_pos ⟨h.voIpSession, by simp [h.firstChunk]⟩] at hb
  obtain ⟨b₁, h₁, hb⟩ := Except.bind_eq_ok.1 hb
  obtain ⟨b₂, h₂, h₃⟩ := Except.bind_eq_ok.1 hb
  obtain ⟨m₀, m', tmpChunk, hm₀, hm', rfl⟩ := stopMixer_eq_ok h₁
  rw [h.rtpMixer] at hm₀
  cases hm₀
  have hin : m'.inputs = m.inputs ++ [some stopChunk] := FedMixer.inputs_audioChunkIn hm'
  have hstopped : Inputs (m.inputs ++ [some stopChunk]) s.inputs
      { b with rtpMixer := some m'.audioChunkOut.1, tmpChunk } :=
    ⟨⟨_, rfl, hin⟩, s, h.rtpMixerSecondary, rfl⟩
  exact (hstopped.takeSecondary.drainOutput h₂).drainSecondary h₃

theorem Idle.flush (h : Idle b) (hb : b.flush cfg io = .ok b') : b'.rtpMixer = none := by
  unfold Batch.flush at hb
  rw [if_neg fun hnot => hnot.2 h.firstChunk] at hb
  cases hb
  exact h.rtpMixer

end Batch

/-- The samples of a file, of one channel. -/
def OutFile.numSamples (f : OutFile) : Nat := (f.written.map fun chunk => chunk.pcm.length).sum

/-- The two mixers are given the same decoded chunks in the same order, the audio gain apart, and the
stop chunk, and as many samples are written of the secondary one as of the other. -/
def SecondaryComplete (cfg : BatchConfig) (b : Batch) : Prop :=
  ∀ m s, b.rtpMixer = some m → b.rtpMixerSecondary = some s →
    (∃ decoded amplified, List.Forall₂ (fun d a => audioGain cfg d = .ok a) decoded amplified ∧
      m.inputs = amplified ++ [some Batch.stopChunk] ∧ s.inputs = decoded ++ [some Batch.stopChunk]) ∧
    ∃ f, b.outFileSecondary = some f ∧ f.numSamples = b.numSamplesOut

/-- The secondary output is complete only of a tape without a chunk that is decoded, for which there is
none. -/
theorem secondaryComplete_iff (cfg : BatchConfig) (io : Nat → Bool) (t : AudioTape) (file : CaptureFile)
    {b : Batch} (hsecondary : cfg.hasSecondary = true) (h : Batch.transcodeTape cfg io t file = .ok b) :
    SecondaryComplete cfg b ↔ ∀ c ∈ file.chunks, ¬ Batch.Decodable cfg t c := by
  obtain ⟨-, -, b₁, hrun, hflush⟩ := Batch.transcodeTape_eq_ok h
  rcases Batch.driven_of_run hsecondary hrun with ⟨hidle, hnone⟩ | ⟨⟨m, s, hfed⟩, c, hc, hdec⟩
  · refine ⟨fun _ => hnone, fun _ m s hm => ?_⟩
    rw [hidle.flush hflush] at hm
    cases hm
  · refine ⟨fun hcomplete => ?_, fun hnone => absurd hdec (hnone c hc)⟩
    obtain ⟨⟨m', hm', hmi⟩, s', hs', hsi⟩ := hfed.flush hflush
    obtain ⟨⟨decoded, amplified, hgain, hm, hs⟩, -⟩ := hcomplete m' s' hm' hs'
    -- the primary mixer has had one chunk more
    have hfed : s.inputs.length = m.inputs.length := hfed.inputs.length_eq
    have hlen : decoded.length = amplified.length := hgain.length_eq
    have hprimary := congrArg List.length (hmi.symm.trans hm)
    have hsecond := congrArg List.length (hsi.symm.trans hs)
    simp only [List.length_append, List.length_singleton] at hprimary hsecond
    omega

/-- A tape whose only chunk has no decoder. -/
theorem secondaryComplete_undecoded : ∃ b, Batch.transcodeTape
    { audioOutputPathSecondary := "/var/log", decoder := fun _ => none } (fun _ => true) keptTape
      { chunks := [callChunk] } = .ok b ∧
    SecondaryComplete { audioOutputPathSecondary := "/var/log", decoder := fun _ => none } b :=
  ⟨_, rfl, (secondaryComplete_iff _ (fun _ => true) keptTape { chunks := [callChunk] } (by decide) rfl).2
    (by decide)⟩

/-- The two samples of a call are written to the output file only. -/
theorem not_secondaryComplete :
    ¬ ∀ (cfg : BatchConfig) (io : Nat → Bool) (t : AudioTape) (file : CaptureFile) (b : Batch),
      cfg.hasSecondary = true → Batch.transcodeTape cfg io t file = .ok b → SecondaryComplete cfg b := by
  intro h
  obtain ⟨-, f, hf, hsamples⟩ := h { audioOutputPathSecondary := "/var/log", decoder := twoSamples }
    (fun _ => true) keptTape { chunks := [callChunk] } _ (by decide) rfl _ _ rfl rfl
  cases hf
  exact absurd hsamples (by decide)

end Oreka
