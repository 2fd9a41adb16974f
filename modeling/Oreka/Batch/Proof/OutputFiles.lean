import Oreka.Batch.BatchProcessing

/-!
# The output file of a tape

Samples are only counted once the output file is open (`opened_of_samples`), so the file of a tape that
gave some is there until the capture file is deleted: it goes with it exactly if only the files of
failed captures are to be deleted (`keepsAudio_iff`).
-/

namespace Oreka

variable {cfg : BatchConfig} {io : Nat → Bool} {t : AudioTape} {file : CaptureFile}

theorem OutFile.writeChunk_opened {ops : Nat} {f f' : OutFile} {chunk : Option AudioChunk}
    (h : f.writeChunk io ops chunk = .ok f') : f'.opened = f.opened ∧
      ∀ c, chunk = some c → c.details.numBytes ≠ 0 → f.opened ≠ 0 := by
  cases chunk with
  | none =>
    cases h
    exact ⟨rfl, fun _ hc => by cases hc⟩
  | some c =>
    unfold OutFile.writeChunk at h
    dsimp only at h
    split at h
    · rename_i hempty
      cases h
      refine ⟨rfl, fun c' hc hne => ?_⟩
      cases hc
      exact absurd hempty hne
    · split at h
      · cases h
      · rename_i hopen
        split at h
        · cases h
          exact ⟨rfl, fun _ _ _ => hopen⟩
        · cases h

/-- An empty chunk has no samples. -/
theorem AudioChunk.getNumSamples_of_empty {c : AudioChunk} {n : Int} (h0 : c.details.numBytes = 0)
    (h : c.getNumSamples = .ok n) : n = 0 := by
  unfold AudioChunk.getNumSamples at h
  rw [h0] at h
  split at h
  · cases h
    rfl
  · cases h
    rfl
  · cases h
    rfl
  · cases h

/-- The chunk is not skipped. -/
def keeps (cfg : BatchConfig) (t : AudioTape) (chunk : AudioChunk) : Bool :=
  !(cfg.directionLookBack && (t.skipChunk chunk).1)

namespace Batch

variable {b b' : Batch} {chunk : AudioChunk}

/-! ## What the steps do -/

theorem processChunk_skipped (h : keeps cfg t chunk = false) : b.processChunk cfg io t chunk =
    .ok { b with forceChannel1 := b.forceChannel1 || (t.skipChunk chunk).2 = 1 } := by
  have hskip : cfg.directionLookBack ∧ (t.skipChunk chunk).1 := by
    simpa [keeps] using h
  exact if_pos hskip

theorem processChunk_of_keeps (h : keeps cfg t chunk = true) :
    b.processChunk cfg io t chunk = b.acceptChunk cfg io (b.forced chunk) := by
  have hnot : ¬ (cfg.directionLookBack ∧ (t.skipChunk chunk).1) := fun hskip => by
    simp [keeps, hskip.1, hskip.2] at h
  exact if_neg hnot

theorem rtpPayloadType_forced (b : Batch) (chunk : AudioChunk) :
    (b.forced chunk).details.rtpPayloadType = chunk.details.rtpPayloadType := by
  unfold forced
  split
  · rfl
  · rfl

theorem decode_eq_ok {decoded : Option AudioChunk} (h : b.decode cfg chunk = .ok (b', decoded)) :
    (∃ decoders1 decoders2, b' = { b with decoders1, decoders2 }) ∧
      ∃ n decoder given, cfg.decoder n = some decoder ∧ decoder (given ++ [chunk]) = .ok decoded := by
  unfold decode at h
  split at h
  · split at h
    · cases h
    · rename_i decoder hdecoder
      obtain ⟨d, hd, h⟩ := Except.bind_eq_ok.1 h
      cases h
      exact ⟨⟨_, _, rfl⟩, _, decoder, _, hdecoder, Except.mapError_eq_ok.1 hd⟩
  · split at h
    · cases h
    · rename_i decoder hdecoder
      obtain ⟨d, hd, h⟩ := Except.bind_eq_ok.1 h
      cases h
      exact ⟨⟨_, _, rfl⟩, _, decoder, _, hdecoder, Except.mapError_eq_ok.1 hd⟩

theorem writeSecondary_eq_ok (h : b.writeSecondary io = .ok b') :
    ∃ ops outFileSecondary, b' = { b with ops, outFileSecondary } := by
  unfold writeSecondary at h
  split at h
  · cases h
  · obtain ⟨f, -, h⟩ := Except.bind_eq_ok.1 h
    cases h
    exact ⟨_, _, rfl⟩

theorem writeMixed_eq_ok (h : b.writeMixed io = .ok b') :
    ∃ ops outFileSecondary, b' = { b with ops, outFileSecondary } := by
  unfold writeMixed at h
  split at h
  · exact writeSecondary_eq_ok h
  · cases h
    exact ⟨_, _, rfl⟩

theorem writeOutput_eq_ok (h : b.writeOutput io = .ok b') : ∃ ops outFile, b' = { b with ops, outFile } := by
  obtain ⟨f, -, h⟩ := Except.bind_eq_ok.1 h
  cases h
  exact ⟨_, _, rfl⟩

theorem countSamples_eq_ok (h : b.countSamples = .ok b') : ∃ numSamplesOut, b' = { b with numSamplesOut } := by
  unfold countSamples at h
  split at h
  · cases h
    exact ⟨_, rfl⟩
  · obtain ⟨n, -, h⟩ := Except.bind_eq_ok.1 h
    cases h
    exact ⟨_, rfl⟩

/-- The mixers of a call are new. -/
theorem createMixers_eq_ok (h : b.createMixers cfg = .ok b') : b.voIpSession = false ∧ b' = b ∨
    b.voIpSession = true ∧ ∃ outFileSecondary rtpMixerSecondary, b' = { b with
      rtpMixer := some { mixer := .fresh cfg.stale (if cfg.stereoRecording then 2 else 1) }
      outFileSecondary, rtpMixerSecondary } ∧
      (cfg.hasSecondary = true → outFileSecondary.isSome ∧
        rtpMixerSecondary = some { mixer := .fresh cfg.staleSecondary 2 }) := by
  unfold createMixers at h
  split at h
  · rename_i hvoip
    split at h
    · dsimp only at h
      split at h
      · cases h
        exact .inr ⟨hvoip, _, _, rfl, fun _ => ⟨rfl, rfl⟩⟩
      · rename_i hnone
        cases h
        exact .inr ⟨hvoip, _, _, rfl, fun hsome => absurd hsome hnone⟩
    · cases h
  · rename_i hplain
    cases h
    exact .inl ⟨by simpa using hplain, rfl⟩

theorem openSecondary_eq_ok (h : b.openSecondary cfg io = .ok b') :
    ∃ ops outFileSecondary, b' = { b with ops, outFileSecondary } := by
  unfold openSecondary at h
  split at h
  · split at h
    · cases h
    · obtain ⟨g, -, h⟩ := Except.bind_eq_ok.1 h
      cases h
      exact ⟨_, _, rfl⟩
  · cases h
    exact ⟨_, _, rfl⟩

/-- The chunk goes to the one mixer amplified, and to the other one, if it is there, as it is. -/
theorem mix_eq_ok {decoded : Option AudioChunk} (h : b.mix cfg decoded = .ok b') :
    ∃ amplified m m' rtpMixerSecondary tmpChunkSecondary, audioGain cfg decoded = .ok amplified ∧
      b.rtpMixer = some m ∧ m.audioChunkIn cfg amplified = .ok m' ∧
      (∀ s, b.rtpMixerSecondary = some s → ∃ s', s.audioChunkIn cfg decoded = .ok s' ∧
        rtpMixerSecondary = some s'.audioChunkOut.1) ∧
      b' = { b with
        rtpMixer := some m'.audioChunkOut.1, tmpChunk := m'.audioChunkOut.2
        rtpMixerSecondary, tmpChunkSecondary } := by
  obtain ⟨amplified, hgain, h⟩ := Except.bind_eq_ok.1 h
  obtain ⟨b₁, h₁, h₂⟩ := Except.bind_eq_ok.1 h
  unfold mixPrimary at h₁
  split at h₁
  · cases h₁
  · rename_i m hm
    obtain ⟨m', hm', h₁⟩ := Except.bind_eq_ok.1 h₁
    cases h₁
    unfold mixSecondary at h₂
    split at h₂
    · rename_i hnone
      cases h₂
      refine ⟨amplified, m, m', _, _, hgain, hm, hm', fun s hs => ?_, rfl⟩
      cases hnone.symm.trans hs
    · rename_i s hsome
      obtain ⟨s', hs', h₂⟩ := Except.bind_eq_ok.1 h₂
      cases h₂
      refine ⟨amplified, m, m', _, _, hgain, hm, hm', fun s₀ hs₀ => ?_, rfl⟩
      cases hsome.symm.trans hs₀
      exact ⟨s', hs', rfl⟩

theorem stopMixer_eq_ok (h : b.stopMixer cfg = .ok b') : ∃ m m' tmpChunk, b.rtpMixer = some m ∧
    m.audioChunkIn cfg (some stopChunk) = .ok m' ∧
      b' = { b with rtpMixer := some m'.audioChunkOut.1, tmpChunk } := by
  unfold stopMixer at h
  split at h
  · cases h
  · rename_i m hm
    obtain ⟨m', hm', h⟩ := Except.bind_eq_ok.1 h
    cases h
    exact ⟨m, m', _, hm, hm', rfl⟩

/-- The output file and the count of its samples are the same. -/
structure SameOutput (b b' : Batch) : Prop where
  outFile : b'.outFile = b.outFile
  numSamplesOut : b'.numSamplesOut = b.numSamplesOut

theorem SameOutput.refl (b : Batch) : SameOutput b b := ⟨rfl, rfl⟩

theorem SameOutput.trans {b'' : Batch} (h : SameOutput b b') (h' : SameOutput b' b'') : SameOutput b b'' :=
  ⟨h'.outFile.trans h.outFile, h'.numSamplesOut.trans h.numSamplesOut⟩

theorem sameOutput_decode {decoded : Option AudioChunk} (h : b.decode cfg chunk = .ok (b', decoded)) :
    SameOutput b b' := by
  obtain ⟨⟨decoders1, decoders2, rfl⟩, -⟩ := decode_eq_ok h
  exact ⟨rfl, rfl⟩

theorem sameOutput_mix {decoded : Option AudioChunk} (h : b.mix cfg decoded = .ok b') : SameOutput b b' := by
  obtain ⟨_, _, _, _, _, -, -, -, -, rfl⟩ := mix_eq_ok h
  exact ⟨rfl, rfl⟩

theorem sameOutput_convert (h : b.convert cfg chunk = .ok b') : SameOutput b b' := by
  unfold convert at h
  split at h
  · obtain ⟨⟨b₁, decoded⟩, h₁, h₂⟩ := Except.bind_eq_ok.1 h
    exact (sameOutput_decode h₁).trans (sameOutput_mix h₂)
  · obtain ⟨tmpChunk, -, h⟩ := Except.bind_eq_ok.1 h
    cases h
    exact ⟨rfl, rfl⟩

theorem openOutput_output (h : b.openOutput cfg io = .ok b') :
    b'.outFile.opened = b.outFile.opened + 1 ∧ b'.numSamplesOut = b.numSamplesOut := by
  obtain ⟨b₁, h₁, h⟩ := Except.bind_eq_ok.1 h
  have hmixers : SameOutput b b₁ := by
    rcases createMixers_eq_ok h₁ with ⟨-, rfl⟩ | ⟨-, _, _, rfl, -⟩
    · exact ⟨rfl, rfl⟩
    · exact ⟨rfl, rfl⟩
  obtain ⟨f, hf, h⟩ := Except.bind_eq_ok.1 h
  have hopened : f.opened = b.outFile.opened + 1 := by
    unfold OutFile.open at hf
    split at hf
    · cases hf
      rw [← hmixers.outFile]
    · cases hf
  obtain ⟨ops, outFileSecondary, rfl⟩ := openSecondary_eq_ok h
  exact ⟨hopened, hmixers.numSamplesOut⟩

/-! ## Samples are counted of an open file -/

/-- The output file is open where samples have been counted. -/
def CountsOpen (b : Batch) : Prop := b.numSamplesOut ≠ 0 → b.outFile.opened ≠ 0

theorem CountsOpen.of_same (h : CountsOpen b) (hs : SameOutput b b') : CountsOpen b' := by
  unfold CountsOpen
  rw [hs.outFile, hs.numSamplesOut]
  exact h

/-- A chunk is written and counted. -/
theorem CountsOpen.write (h : CountsOpen b) {b₁ b₂ : Batch} (h₁ : b.writeOutput io = .ok b₁)
    (hs : SameOutput b₁ b₂ ∧ b₂.tmpChunk = b₁.tmpChunk) (h₂ : b₂.countSamples = .ok b') : CountsOpen b' := by
  obtain ⟨f, hf, h₁⟩ := Except.bind_eq_ok.1 h₁
  cases h₁
  obtain ⟨hopened, hwritten⟩ := OutFile.writeChunk_opened hf
  have hsame : b₂.outFile.opened = b.outFile.opened := (congrArg OutFile.opened hs.1.outFile).trans hopened
  have hcount : b₂.numSamplesOut = b.numSamplesOut := hs.1.numSamplesOut
  have htmp : b₂.tmpChunk = b.tmpChunk := hs.2
  unfold countSamples at h₂
  split at h₂
  · cases h₂
    unfold CountsOpen
    rw [hsame, hcount]
    exact h
  · rename_i chunk hchunk
    obtain ⟨n, hn, h₂⟩ := Except.bind_eq_ok.1 h₂
    cases h₂
    intro hne
    show b₂.outFile.opened ≠ 0
    rw [hsame]
    by_cases hempty : chunk.details.numBytes = 0
    · have hzero : n = 0 := chunk.getNumSamples_of_empty hempty (Except.mapError_eq_ok.1 hn)
      refine h ?_
      rw [← hcount]
      simpa [hzero] using hne
    · exact hwritten chunk (htmp ▸ hchunk) hempty

theorem CountsOpen.transcode (h : CountsOpen b) {hasDecoder : Bool}
    (hb : b.transcode cfg io chunk hasDecoder = .ok b') : CountsOpen b' := by
  obtain ⟨b₁, h₁, hb⟩ := Except.bind_eq_ok.1 hb
  obtain ⟨b₂, h₂, hb⟩ := Except.bind_eq_ok.1 hb
  obtain ⟨b₃, h₃, hb⟩ := Except.bind_eq_ok.1 hb
  obtain ⟨b₄, h₄, hb⟩ := Except.bind_eq_ok.1 hb
  have hopen : CountsOpen b₁ := by
    unfold openFirst at h₁
    split at h₁
    · intro _
      rw [(openOutput_output h₁).1]
      omega
    · cases h₁
      exact h
  have hsecondary : SameOutput b₃ b₄ ∧ b₄.tmpChunk = b₃.tmpChunk := by
    obtain ⟨ops, outFileSecondary, rfl⟩ := writeMixed_eq_ok h₄
    exact ⟨⟨rfl, rfl⟩, rfl⟩
  exact (hopen.of_same (sameOutput_convert h₂)).write h₃ hsecondary hb

theorem CountsOpen.processChunk (h : CountsOpen b) (hb : b.processChunk cfg io t chunk = .ok b') :
    CountsOpen b' := by
  unfold Batch.processChunk at hb
  dsimp only at hb
  split at hb
  · cases hb
    exact h
  · unfold acceptChunk at hb
    split at hb
    · cases hb
      exact h
    · split at hb
      · exact h.transcode hb
      · dsimp only at hb
        have hchosen : CountsOpen (b.chooseDecoder (b.forced chunk)) := by
          unfold chooseDecoder
          split
          · exact h
          · exact h
        split at hb
        · exact hchosen.transcode hb
        · cases hb
          exact hchosen

theorem sameOutput_stopMixer (h : b.stopMixer cfg = .ok b') : SameOutput b b' := by
  obtain ⟨m, m', tmpChunk, -, -, rfl⟩ := stopMixer_eq_ok h
  exact ⟨rfl, rfl⟩

theorem sameOutput_takeSecondary (b : Batch) : SameOutput b b.takeSecondary := by
  unfold takeSecondary
  split
  · exact .refl b
  · exact ⟨rfl, rfl⟩

theorem CountsOpen.drainOutput (h : CountsOpen b) (hb : b.drainOutput io = .ok b') : CountsOpen b' := by
  unfold Batch.drainOutput at hb
  split at hb
  · cases hb
  · refine Except.foldlM_induction (P := fun _ b => CountsOpen b) (fun _ c b b' h hb => ?_) _ (l := []) ?_ hb
    · obtain ⟨b₁, h₁, h₂⟩ := Except.bind_eq_ok.1 hb
      have hset : CountsOpen { b with tmpChunk := some c } := h
      exact hset.write h₁ ⟨.refl b₁, rfl⟩ h₂
    · exact h

theorem sameOutput_drainSecondary (hb : b.drainSecondary io = .ok b') : SameOutput b b' := by
  unfold drainSecondary at hb
  split at hb
  · cases hb
    exact .refl b
  · refine Except.foldlM_induction (P := fun _ b' => SameOutput b b') (fun _ c b₁ b₂ h hb => ?_) _
      (l := []) ?_ hb
    · obtain ⟨ops, outFileSecondary, rfl⟩ := writeSecondary_eq_ok hb
      exact h.trans ⟨rfl, rfl⟩
    · exact ⟨rfl, rfl⟩

theorem CountsOpen.flush (h : CountsOpen b) (hb : b.flush cfg io = .ok b') : CountsOpen b' := by
  unfold Batch.flush at hb
  split at hb
  · obtain ⟨b₁, h₁, hb⟩ := Except.bind_eq_ok.1 hb
    obtain ⟨b₂, h₂, hb⟩ := Except.bind_eq_ok.1 hb
    have htaken : CountsOpen b₁.takeSecondary :=
      (h.of_same (sameOutput_stopMixer h₁)).of_same (sameOutput_takeSecondary b₁)
    exact (htaken.drainOutput h₂).of_same (sameOutput_drainSecondary hb)
  · cases hb
    exact h

theorem transcodeTape_eq_ok (h : transcodeTape cfg io t file = .ok b') : io 0 = true ∧ file.broken = false ∧
    ∃ b, file.chunks.foldlM (processChunk cfg io t) { ops := 1 } = .ok b ∧ b.flush cfg io = .ok b' := by
  unfold transcodeTape at h
  split at h
  · rename_i hio
    obtain ⟨b, hb, h⟩ := Except.bind_eq_ok.1 h
    split at h
    · cases h
    · rename_i hbroken
      exact ⟨hio, by simpa using hbroken, b, hb, h⟩
  · cases h

/-- A tape of which samples were counted has an open output file. -/
theorem opened_of_samples (h : transcodeTape cfg io t file = .ok b) : CountsOpen b := by
  obtain ⟨-, -, b₁, h₁, hflush⟩ := transcodeTape_eq_ok h
  have hchunks : CountsOpen b₁ :=
    Except.foldlM_induction (P := fun _ b => CountsOpen b) (fun _ _ _ _ h hb => h.processChunk hb) file.chunks
      (l := []) (fun hne => absurd rfl hne) h₁
  exact hchunks.flush hflush

end Batch

/-! ## What is left of the audio -/

namespace BatchOutcome

/-- At least one sample was written, and no exception. -/
def Wrote : BatchOutcome → Prop
  | .done b _ _ _ => b.numSamplesOut ≠ 0
  | _ => False

/-- The output file is there when the next processor is run, and the native file of a tape that gave no
samples is there unless failed captures are to be deleted. -/
def KeepsAudio (cfg : BatchConfig) : BatchOutcome → Prop
  | .done b native output _ =>
    (b.numSamplesOut ≠ 0 → output = true) ∧
      (b.numSamplesOut = 0 → cfg.deleteFailedCaptureFile = false → native = true)
  | .failed native => cfg.deleteFailedCaptureFile = false → native = true
  | .crashed => True

instance (cfg : BatchConfig) : (o : BatchOutcome) → Decidable (o.KeepsAudio cfg)
  | .done _ _ _ _ => inferInstanceAs (Decidable (_ ∧ _))
  | .failed _ => inferInstanceAs (Decidable (_ → _))
  | .crashed => inferInstanceAs (Decidable True)

end BatchOutcome

/-- The files of a tape that was transcoded. -/
theorem Batch.keepsAudio_finish {b : Batch} (hopen : b.CountsOpen) :
    (b.finish cfg).KeepsAudio cfg ↔
      (b.numSamplesOut ≠ 0 → cfg.deleteNativeFile = true ∨ cfg.deleteFailedCaptureFile = false) := by
  unfold Batch.finish
  split
  · rename_i hdelete
    have hwritten : decide (b.outFile.opened ≠ 0) = true := by simpa using hopen hdelete.2
    refine ⟨fun _ _ => .inl hdelete.1, fun _ => ⟨fun _ => hwritten, fun h0 => absurd h0 hdelete.2⟩⟩
  · rename_i hkept
    split
    · rename_i hfailed
      refine ⟨fun h hne => absurd (h.1 hne) Bool.false_ne_true, fun h => ⟨fun hne => ?_, fun _ hoff => ?_⟩⟩
      · rcases h hne with hnative | hoff
        · exact absurd ⟨hnative, hne⟩ hkept
        · exact absurd hfailed (by simp [hoff])
      · exact absurd hfailed (by simp [hoff])
    · rename_i hoff
      refine ⟨fun _ _ => .inr (by simpa using hoff), fun _ => ⟨fun hne => ?_, fun _ _ => rfl⟩⟩
      simpa using hopen hne

/-- Transcoded audio is thrown away exactly where the native file is to stay and failed captures are to
be deleted. -/
theorem keepsAudio_iff (cfg : BatchConfig) (io : Nat → Bool) (t : AudioTape) (file : CaptureFile) :
    (processTape cfg io t file).KeepsAudio cfg ↔
      ((processTape cfg io t file).Wrote →
        cfg.deleteNativeFile = true ∨ cfg.deleteFailedCaptureFile = false) := by
  unfold processTape
  split
  · rename_i b hb
    have hwrote : (b.finish cfg).Wrote ↔ b.numSamplesOut ≠ 0 := by
      unfold Batch.finish
      split
      · exact Iff.rfl
      · split
        · exact Iff.rfl
        · exact Iff.rfl
    rw [hwrote]
    exact Batch.keepsAudio_finish (Batch.opened_of_samples hb)
  · refine ⟨fun _ h => h.elim, fun _ hoff => ?_⟩
    rw [hoff]
    rfl
  · exact ⟨fun _ h => h.elim, fun _ => trivial⟩

/-- Payload type 0 gives two samples for a chunk. -/
def twoSamples : Nat → Option Decoder
  | 0 => some fun _ => .ok (some
    { details := { encoding := .pcmAudio, numBytes := 4, timestamp := 160, rtpPayloadType := 0, channel := 1 }
      buffer := [5, 6] })
  | _ => none

/-- A chunk of a call, of two samples. -/
def callChunk : AudioChunk :=
  { details := { encoding := .ulawAudio, numBytes := 2, timestamp := 160, rtpPayloadType := 0, channel := 1 }
    buffer := [0] }

/-- A tape that is kept in both directions. -/
def keptTape : AudioTape := { portId := "", trackingId := "", beginDate := 0, audioKeepDirection := .both }

/-- The call was transcoded, its native file was to stay, and both files are gone. -/
theorem not_keepsAudio :
    ¬ ∀ (cfg : BatchConfig) (io : Nat → Bool) (t : AudioTape) (file : CaptureFile),
      (processTape cfg io t file).KeepsAudio cfg := by
  intro h
  have hcall := h { deleteNativeFile := false, deleteFailedCaptureFile := true, decoder := twoSamples }
    (fun _ => true) keptTape { chunks := [callChunk] }
  exact absurd hcall (by decide)

end Oreka
