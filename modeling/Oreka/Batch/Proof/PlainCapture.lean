import Oreka.Batch.Proof.OutputFiles

/-!
# Plain PCM tapes

A tape all of whose chunks have payload type -1. No branch of the loop body gives such a chunk to
`tmpChunkRef`, which is what is written, and `firstChunk` does not keep the file from being opened
again: of a chunk that is kept, the output file has nothing but another `Open` (`processChunk_kept`).
The tape is copied in full only when there is nothing to copy (`copiedInFull_iff`).
-/

namespace Oreka

variable {cfg : BatchConfig} {io : Nat → Bool} {t : AudioTape} {file : CaptureFile}

namespace Batch

variable {b b' : Batch} {chunk : AudioChunk}

/-- The run has seen no VoIP chunk, and there is nothing to write. -/
structure Plain (b : Batch) : Prop where
  voIpSession : b.voIpSession = false
  tmpChunk : b.tmpChunk = none
  rtpMixerSecondary : b.rtpMixerSecondary = none
  outFileSecondary : b.outFileSecondary = none
  written : b.outFile.written = []

/-- A file operation without effect. -/
def tick (b : Batch) : Batch := { b with ops := b.ops + 1 }

/-- The output file has been opened. -/
def reopened (b : Batch) : Batch :=
  { b.tick with firstChunk := false, outFile := { opened := b.outFile.opened + 1 } }

theorem Plain.tick (h : Plain b) : Plain b.tick :=
  ⟨h.voIpSession, h.tmpChunk, h.rtpMixerSecondary, h.outFileSecondary, h.written⟩

theorem Plain.reopened (h : Plain b) : Plain b.reopened :=
  ⟨h.voIpSession, h.tmpChunk, h.rtpMixerSecondary, h.outFileSecondary, rfl⟩

theorem openOutput_plain (h : Plain b) : b.openOutput cfg io =
    if io b.ops then if cfg.hasSecondary then .error .crash else .ok b.reopened
    else .error .exception := by
  have hmixers : { b with firstChunk := false }.createMixers cfg = .ok { b with firstChunk := false } :=
    if_neg (by simp [h.voIpSession])
  unfold openOutput
  rw [hmixers, Except.ok_bind]
  unfold OutFile.open openSecondary
  dsimp only
  split
  · rw [Except.ok_bind]
    split
    · rw [h.outFileSecondary]
    · rfl
  · rfl

/-- Without a chunk there is nothing to convert, to write or to count. -/
theorem convert_plain (h : Plain b) : b.convert cfg chunk = .ok b := by
  have htmp : { b with tmpChunk := none } = b := by
    rw [← h.tmpChunk]
  unfold convert
  rw [if_neg (by simp [h.voIpSession]), h.tmpChunk]
  exact congrArg Except.ok htmp

theorem writeOutput_plain (h : Plain b) : b.writeOutput io = .ok b.tick := by
  have hnone : b.outFile.writeChunk io b.ops b.tmpChunk = .ok b.outFile := by
    rw [h.tmpChunk]
    rfl
  unfold writeOutput
  rw [hnone]
  rfl

theorem writeMixed_plain (h : Plain b) : b.writeMixed io = .ok b := if_neg (by simp [h.rtpMixerSecondary])

theorem countSamples_plain (h : Plain b) : b.countSamples = .ok b := by
  unfold countSamples
  rw [h.tmpChunk]

/-- A plain chunk that is kept only opens the output file. -/
theorem processChunk_kept (h : Plain b) (hkept : keeps cfg t chunk = true)
    (hplain : chunk.details.rtpPayloadType = -1) : b.processChunk cfg io t chunk =
    if io b.ops then if cfg.hasSecondary then .error .crash else .ok b.reopened.tick
    else .error .exception := by
  have hforced : (b.forced chunk).details.rtpPayloadType = -1 := (b.rtpPayloadType_forced chunk).trans hplain
  have haccept : b.processChunk cfg io t chunk = b.transcode cfg io (b.forced chunk) false := by
    rw [processChunk_of_keeps hkept]
    unfold acceptChunk
    rw [if_neg (by rw [hforced]; decide), if_pos hforced]
  have hopen : b.openFirst cfg io false = b.openOutput cfg io := if_pos (by simp [h.voIpSession])
  rw [haccept]
  unfold transcode
  rw [hopen, openOutput_plain h]
  split
  · split
    · rfl
    · rw [Except.ok_bind, convert_plain h.reopened, Except.ok_bind, writeOutput_plain h.reopened,
        Except.ok_bind, writeMixed_plain h.reopened.tick, Except.ok_bind]
      exact countSamples_plain h.reopened.tick
  · rfl

/-! ## Runs -/

theorem Plain.forced (h : Plain b) (f : Bool) : Plain { b with forceChannel1 := f } :=
  ⟨h.voIpSession, h.tmpChunk, h.rtpMixerSecondary, h.outFileSecondary, h.written⟩

/-- Chunks that are skipped leave the rest of the run as it is. -/
theorem foldlM_skipped : ∀ (chunks : List AudioChunk) (b : Batch), (∀ c ∈ chunks, keeps cfg t c = false) →
    ∃ f, chunks.foldlM (processChunk cfg io t) b = .ok { b with forceChannel1 := f }
  | [], b, _ => ⟨b.forceChannel1, rfl⟩
  | c :: chunks, b, h => by
    obtain ⟨f, hf⟩ := foldlM_skipped chunks { b with forceChannel1 := b.forceChannel1 || (t.skipChunk c).2 = 1 }
      fun c' hc' => h c' (.tail c hc')
    refine ⟨f, ?_⟩
    rw [List.foldlM_cons, processChunk_skipped (h c (.head chunks))]
    exact hf

/-- What a run over plain chunks has come to: the file is opened for each chunk that is kept. -/
structure Reopened (cfg : BatchConfig) (io : Nat → Bool) (t : AudioTape) (chunks : List AudioChunk)
    (b : Batch) : Prop where
  plain : Plain b
  opened : b.outFile.opened = (chunks.filter (keeps cfg t)).length
  fresh : chunks.filter (keeps cfg t) = [] → b.ops = 1
  first : chunks.filter (keeps cfg t) ≠ [] → io 1 = true ∧ cfg.hasSecondary = false

theorem Reopened.step {chunks : List AudioChunk} (h : Reopened cfg io t chunks b)
    (hplain : chunk.details.rtpPayloadType = -1) (hb : b.processChunk cfg io t chunk = .ok b') :
    Reopened cfg io t (chunks ++ [chunk]) b' := by
  by_cases hkept : keeps cfg t chunk = true
  · have hfilter : (chunks ++ [chunk]).filter (keeps cfg t) = chunks.filter (keeps cfg t) ++ [chunk] := by
      simp [List.filter_append, hkept]
    rw [processChunk_kept h.plain hkept hplain] at hb
    split at hb
    · rename_i hio
      split at hb
      · cases hb
      · rename_i hsecondary
        cases hb
        refine ⟨h.plain.reopened.tick, ?_, fun h0 => ?_, fun _ => ?_⟩
        · rw [hfilter, List.length_append]
          exact congrArg (· + 1) h.opened
        · rw [hfilter] at h0
          exact absurd h0 (List.append_ne_nil_of_right_ne_nil _ (List.cons_ne_nil chunk []))
        · by_cases hnone : chunks.filter (keeps cfg t) = []
          · rw [h.fresh hnone] at hio
            exact ⟨hio, by simpa using hsecondary⟩
          · exact h.first hnone
    · cases hb
  · have hfilter : (chunks ++ [chunk]).filter (keeps cfg t) = chunks.filter (keeps cfg t) := by
      simp [List.filter_append, hkept]
    rw [processChunk_skipped (by simpa using hkept)] at hb
    cases hb
    refine ⟨h.plain.forced _, ?_, ?_, ?_⟩
    · rw [hfilter]
      exact h.opened
    · rw [hfilter]
      exact h.fresh
    · rw [hfilter]
      exact h.first

theorem Reopened.initial : Reopened cfg io t [] { ops := 1 } :=
  ⟨⟨rfl, rfl, rfl, rfl, rfl⟩, rfl, fun _ => rfl, fun h => absurd rfl h⟩

theorem reopened_of_run {chunks : List AudioChunk} (hplain : ∀ c ∈ chunks, c.details.rtpPayloadType = -1)
    (hb : chunks.foldlM (processChunk cfg io t) { ops := 1 } = .ok b) : Reopened cfg io t chunks b := by
  refine Except.foldlM_induction
    (P := fun (l : List AudioChunk) b => (∀ c ∈ l, c.details.rtpPayloadType = -1) → Reopened cfg io t l b)
    (fun l c b b' h hstep hall => ?_) chunks (l := []) (fun _ => .initial) hb hplain
  exact (h fun c' hc' => hall c' (List.mem_append_left _ hc')).step
    (hall c (List.mem_append_right l (.head []))) hstep

theorem flush_plain (h : Plain b) : b.flush cfg io = .ok b := if_neg (by simp [h.voIpSession])

end Batch

/-- The samples of all chunks are written in their order, to an output file that is opened once. -/
def CopiedInFull (cfg : BatchConfig) (io : Nat → Bool) (t : AudioTape) (file : CaptureFile) : Prop :=
  ∃ b, Batch.transcodeTape cfg io t file = .ok b ∧ b.outFile.opened = 1 ∧
    b.outFile.written.flatMap AudioChunk.pcm = file.chunks.flatMap AudioChunk.pcm

/-- Of a plain PCM tape only a single chunk that has no samples is copied in full. -/
theorem copiedInFull_iff (cfg : BatchConfig) (io : Nat → Bool) (t : AudioTape) (file : CaptureFile)
    (hplain : ∀ c ∈ file.chunks, c.details.rtpPayloadType = -1) : CopiedInFull cfg io t file ↔
      (file.chunks.filter (keeps cfg t)).length = 1 ∧ (∀ c ∈ file.chunks, c.pcm = []) ∧
        cfg.hasSecondary = false ∧ io 0 = true ∧ io 1 = true ∧ file.broken = false := by
  refine ⟨fun ⟨b', hb', hopened, hwritten⟩ => ?_, fun ⟨hone, hempty, hsecondary, hio0, hio1, hbroken⟩ => ?_⟩
  · obtain ⟨hio, hbroken, b, hb, hflush⟩ := Batch.transcodeTape_eq_ok hb'
    have hrun := Batch.reopened_of_run hplain hb
    rw [Batch.flush_plain hrun.plain] at hflush
    cases hflush
    have hone : (file.chunks.filter (keeps cfg t)).length = 1 := hrun.opened.symm.trans hopened
    have hfirst := hrun.first (fun h => by simp [h] at hone)
    rw [hrun.plain.written] at hwritten
    exact ⟨hone, List.flatMap_eq_nil_iff.1 hwritten.symm, hfirst.2, hio, hfirst.1, hbroken⟩
  · obtain ⟨c, hc⟩ := List.length_eq_one_iff.1 hone
    obtain ⟨before, behind, hsplit, hbefore, hkept, hbehind⟩ := List.filter_eq_cons_iff.1 hc
    obtain ⟨f, hf⟩ := Batch.foldlM_skipped before { ops := 1 } fun c hc => by simpa using hbefore c hc
    let start : Batch := { ops := 1, forceChannel1 := f }
    have hopen : Batch.processChunk cfg io t start c = .ok start.reopened.tick := by
      rw [Batch.processChunk_kept ⟨rfl, rfl, rfl, rfl, rfl⟩ hkept (hplain c (by simp [hsplit])), hsecondary]
      exact if_pos hio1
    obtain ⟨f', hf'⟩ := Batch.foldlM_skipped behind start.reopened.tick
      fun c hc => by simpa using List.filter_eq_nil_iff.1 hbehind c hc
    refine ⟨{ start.reopened.tick with forceChannel1 := f' }, ?_, rfl, ?_⟩
    · unfold Batch.transcodeTape
      rw [if_pos hio0, hsplit, List.foldlM_append, hf, Except.ok_bind, List.foldlM_cons, hopen, Except.ok_bind,
        hf', Except.ok_bind, hbroken, if_neg (by decide)]
      exact Batch.flush_plain ⟨rfl, rfl, rfl, rfl, rfl⟩
    · exact (List.flatMap_eq_nil_iff.2 hempty).symm

/-- A plain PCM chunk. -/
def plainChunk (samples : List Int) : AudioChunk :=
  { details := { encoding := .pcmAudio, numBytes := UInt32.ofNat (2 * samples.length) }, buffer := samples }

/-- A single empty chunk is copied. -/
theorem copiedInFull_emptyChunk :
    CopiedInFull { decoder := fun _ => none } (fun _ => true) keptTape { chunks := [plainChunk []] } :=
  (copiedInFull_iff _ _ _ { chunks := [plainChunk []] } (by decide)).2 (by decide)

/-- Two samples of plain PCM are not written. -/
theorem not_copiedInFull :
    ¬ ∀ (cfg : BatchConfig) (io : Nat → Bool) (t : AudioTape) (file : CaptureFile),
      (∀ c ∈ file.chunks, c.details.rtpPayloadType = -1) → CopiedInFull cfg io t file := by
  intro h
  obtain ⟨b, hb, -, hwritten⟩ := h { decoder := fun _ => none } (fun _ => true) keptTape
    { chunks := [plainChunk [5, 6]] } (by decide)
  cases hb
  exact absurd hwritten (by decide)

end Oreka
