import Oreka.Tape.Proof.TapeEvents

/-!
# What `Write` makes of a tape

`Ok` holds of every tape between two steps. `Write` stops a tape that is told to stop and has a file,
and the tape is ready to be passed on in the round that stops it (`Written`).
-/

namespace Oreka

namespace AudioTape

variable {cfg : TapeConfig} {t t' : AudioTape}

/-- What holds of every tape between two steps. -/
structure Ok (cfg : TapeConfig) (t : AudioTape) : Prop where
  state : t.state ≠ .error
  created : t.state = .created → t.audioFile = none
  noFile : t.audioFile = none → t.bytesWritten = 0
  closed : t.state = .stopped → ∀ file, t.audioFile = some file → file.closed = true
  ready : t.readyForBatchProcessing = false
  filter : t.written ≠ [] → t.isFiltered cfg = false
  keep : t.KeepOk
  duration : t.DurationOk

theorem Ok.quiet (h : t.Ok cfg) (hq : Quiet t t') : t'.Ok cfg where
  state := by rw [hq.state]; exact h.state
  created := by rw [hq.state, hq.audioFile]; exact h.created
  noFile := by rw [hq.audioFile, hq.bytesWritten]; exact h.noFile
  closed := by rw [hq.state, hq.audioFile]; exact h.closed
  ready := by rw [hq.ready]; exact h.ready
  filter := fun hw => hq.isFiltered (h.filter (by rwa [← hq.written]))
  keep := hq.keep h.keep
  duration := hq.duration h.duration

/-- The flag is not set between two steps. -/
theorem Ok.unready (h : t.Ok cfg) : Quiet t { t with readyForBatchProcessing := false } :=
  { Quiet.refl t with ready := h.ready.symm }

/-- What `Write` leaves alone before it stops a tape. -/
structure WriteFrame (t t' : AudioTape) : Prop where
  state : t'.state = t.state ∨ t.state = .created ∧ t'.state = .active
  shouldStop : t'.shouldStop = t.shouldStop
  isQueued : t'.isQueued = t.isQueued
  passed : t'.passedPartyFilterTest = t.passedPartyFilterTest
  events : t'.eventQueue = t.eventQueue
  beginDate : t'.beginDate = t.beginDate
  duration : t'.duration = t.duration

theorem WriteFrame.refl (t : AudioTape) : WriteFrame t t := ⟨.inl rfl, rfl, rfl, rfl, rfl, rfl, rfl⟩

theorem WriteFrame.trans {t'' : AudioTape} (h : WriteFrame t t') (h' : WriteFrame t' t'') :
    WriteFrame t t'' where
  state := by
    rcases h.state with hs | ⟨hs, hs'⟩ <;> rcases h'.state with hs'' | ⟨hs'', hs'''⟩ <;> simp_all
  shouldStop := h'.shouldStop.trans h.shouldStop
  isQueued := h'.isQueued.trans h.isQueued
  passed := h'.passed.trans h.passed
  events := h'.events.trans h.events
  beginDate := h'.beginDate.trans h.beginDate
  duration := h'.duration.trans h.duration

theorem Ok.popped (h : t.Ok cfg) (chunk : AudioChunk) (rest : List AudioChunk) :
    (t.popped chunk rest).Ok cfg :=
  ⟨h.state, h.created, h.noFile, h.closed, h.ready, h.filter, h.keep, h.duration⟩

theorem writeFrame_popped (t : AudioTape) (chunk : AudioChunk) (rest : List AudioChunk) :
    WriteFrame t (t.popped chunk rest) := ⟨.inl rfl, rfl, rfl, rfl, rfl, rfl, rfl⟩

theorem Ok.discardChunks : ∀ (chunks : List AudioChunk) {t : AudioTape}, t.Ok cfg →
    (discardChunks chunks t).Ok cfg ∧ WriteFrame t (discardChunks chunks t) ∧
      (discardChunks chunks t).state = t.state ∧ (discardChunks chunks t).audioFile = t.audioFile ∧
      (discardChunks chunks t).bytesWritten = t.bytesWritten
  | [], t, h => ⟨h, .refl t, rfl, rfl, rfl⟩
  | chunk :: rest, t, h => by
    obtain ⟨hok, hframe, hs, hf, hb⟩ := Ok.discardChunks rest (h.popped chunk rest)
    exact ⟨hok, (writeFrame_popped t chunk rest).trans hframe, hs, hf, hb⟩

theorem Ok.createFile (h : t.Ok cfg) (hf : t.isFiltered cfg = false) (chunk : AudioChunk) :
    (t.createFile chunk).Ok cfg ∧ WriteFrame t (t.createFile chunk) ∧
      (t.createFile chunk).bytesWritten = t.bytesWritten := by
  unfold AudioTape.createFile
  split
  · rename_i hs
    refine ⟨⟨?_, ?_, ?_, ?_, h.ready, fun _ => hf, h.keep, h.duration⟩, ⟨.inr ⟨hs, rfl⟩, rfl, rfl, rfl, rfl, rfl, rfl⟩, rfl⟩
    · simp
    · simp
    · simp
    · simp
  · exact ⟨h, .refl t, rfl⟩

theorem Ok.writeChunk (h : t.Ok cfg) (hf : t.isFiltered cfg = false) {io : Bool} {chunk : AudioChunk}
    (hw : t.writeChunk cfg io chunk = .ok t') : t'.Ok cfg ∧ WriteFrame t t' := by
  obtain ⟨hok, hframe, -⟩ := h.createFile hf chunk
  have hf' : (t.createFile chunk).isFiltered cfg = false := by
    rw [← hf, isFiltered, isFiltered, hframe.passed]
  unfold AudioTape.writeChunk at hw
  generalize t.createFile chunk = c at hok hframe hf' hw
  dsimp only at hw
  split at hw
  · rename_i hactive
    split at hw
    · cases hw
      exact ⟨hok, hframe⟩
    · split at hw
      · cases hw
      · rename_i file hfile
        cases hw
        cases io with
        | false => exact ⟨hok, hframe⟩
        | true =>
          refine ⟨⟨?_, ?_, ?_, ?_, hok.ready, fun _ => hf', hok.keep, hok.duration⟩,
            hframe.trans ⟨.inl rfl, rfl, rfl, rfl, rfl, rfl, rfl⟩⟩
          · simp [hactive]
          · simp [hactive]
          · simp
          · simp [hactive]
  · cases hw
    exact ⟨hok, hframe⟩

theorem Ok.writeChunks : ∀ (chunks : List AudioChunk) {t t' : AudioTape} {io : Nat → Bool},
    t.Ok cfg → t.isFiltered cfg = false → writeChunks cfg io chunks t = .ok t' →
    t'.Ok cfg ∧ WriteFrame t t'
  | [], t, t', io, h, hf, hw => by
    cases hw
    exact ⟨h, .refl t⟩
  | chunk :: rest, t, t', io, h, hf, hw => by
    obtain ⟨t₁, h₁, h₂⟩ := Except.bind_eq_ok.1 hw
    obtain ⟨hok, hframe⟩ := (h.popped chunk rest).writeChunk hf h₁
    have hf₁ : t₁.isFiltered cfg = false := by
      rw [← hf, isFiltered, isFiltered, hframe.passed]
      rfl
    obtain ⟨hok', hframe'⟩ := Ok.writeChunks rest hok hf₁ h₂
    exact ⟨hok', ((writeFrame_popped t chunk rest).trans hframe).trans hframe'⟩

/-- What `Write` makes of a tape. -/
structure Written (cfg : TapeConfig) (t t' : AudioTape) : Prop where
  /-- But for the flag, which is to be taken back. -/
  ok : { t' with readyForBatchProcessing := false }.Ok cfg
  shouldStop : t'.shouldStop = t.shouldStop
  isQueued : t'.isQueued = t.isQueued
  events : t'.eventQueue = t.eventQueue
  beginDate : t'.beginDate = t.beginDate
  duration : t'.duration = t.duration
  stays : t.state = .stopped → t'.state = .stopped ∧ t'.bytesWritten = t.bytesWritten
  ready : t'.readyForBatchProcessing = true ↔
    t.state ≠ .stopped ∧ t'.state = .stopped ∧ 0 < t'.bytesWritten
  stops : t'.shouldStop = true → t'.written ≠ [] → t'.state = .stopped
  onlyStop : t.state ≠ .stopped → t'.state = .stopped → t'.shouldStop = true

theorem Written.of_frame (hok : t'.Ok cfg) (hframe : WriteFrame t t') (hs : t'.state ≠ .stopped)
    (hstops : t'.shouldStop = true → t'.written = []) : Written cfg t t' where
  ok := hok.quiet hok.unready
  shouldStop := hframe.shouldStop
  isQueued := hframe.isQueued
  events := hframe.events
  beginDate := hframe.beginDate
  duration := hframe.duration
  stays := by
    intro h
    rcases hframe.state with h' | ⟨h', -⟩
    · exact absurd (h'.trans h) hs
    · rw [h] at h'
      cases h'
  ready := by simp [hok.ready, hs]
  stops := fun h hw => absurd (hstops h) hw
  onlyStop := fun _ h => absurd h hs

theorem Ok.discarded (h : t.Ok cfg) (hf : t.isFiltered cfg = true) (chunks : List AudioChunk) :
    Written cfg t
      (AudioTape.discardChunks chunks (if t.state = .created then { t with state := .active } else t)) := by
  have hw : t.written = [] := by
    by_contra hw
    rw [h.filter hw] at hf
    cases hf
  by_cases hs : t.state = .created
  · rw [if_pos hs]
    have hactive : ({ t with state := .active } : AudioTape).Ok cfg :=
      ⟨by simp, by simp, h.noFile, by simp, h.ready, fun hw' => absurd hw hw', h.keep, h.duration⟩
    have hopened : WriteFrame t { t with state := .active } :=
      ⟨.inr ⟨hs, rfl⟩, rfl, rfl, rfl, rfl, rfl, rfl⟩
    obtain ⟨hok, hframe, hstate, hfile, -⟩ := Ok.discardChunks chunks hactive
    refine .of_frame hok (hopened.trans hframe) ?_ fun _ => ?_
    · rw [hstate]
      simp
    · rw [← hw, written, written, hfile]
  · rw [if_neg hs]
    obtain ⟨hok, hframe, hstate, hfile, hbytes⟩ := Ok.discardChunks chunks h
    have hw' : (AudioTape.discardChunks chunks t).written = [] := by
      rw [← hw, written, written, hfile]
    exact {
      ok := hok.quiet hok.unready
      shouldStop := hframe.shouldStop
      isQueued := hframe.isQueued
      events := hframe.events
      beginDate := hframe.beginDate
      duration := hframe.duration
      stays := fun h => ⟨hstate.trans h, hbytes⟩
      ready := by
        simp only [hok.ready, hstate, Bool.false_eq_true, false_iff]
        exact fun h => absurd h.2.1 h.1
      stops := fun _ hne => absurd hw' hne
      onlyStop := fun h h' => absurd (hstate.symm.trans h') h }

/-- Closing a tape that is told to stop. -/
theorem Written.of_close (hok : t'.Ok cfg) (hframe : WriteFrame t t') (hs : t.state ≠ .stopped)
    (hstop : t'.shouldStop = true) : Written cfg t t'.close where
  ok := by
    refine ⟨by simp [close], by simp [close], ?_, ?_, rfl, ?_, hok.keep, hok.duration⟩
    · intro hf
      exact hok.noFile (by simpa [close] using hf)
    · intro _ file hf
      simp only [close, Option.map_eq_some_iff] at hf
      obtain ⟨f, -, rfl⟩ := hf
      rfl
    · intro hw
      refine hok.filter fun hw' => hw ?_
      unfold written close at *
      cases hf : t'.audioFile <;> simp_all
  shouldStop := hframe.shouldStop
  isQueued := hframe.isQueued
  events := hframe.events
  beginDate := hframe.beginDate
  duration := hframe.duration
  stays := fun h => absurd h hs
  ready := by
    have hfile : 0 < t'.bytesWritten → t'.audioFile.isSome = true := by
      intro hb
      cases hf : t'.audioFile with
      | some f => rfl
      | none =>
        rw [hok.noFile hf] at hb
        cases hb
    simp only [close, hok.ready, Bool.false_or, Bool.and_eq_true, decide_eq_true_eq]
    exact ⟨fun h => ⟨hs, trivial, h.2⟩, fun h => ⟨hfile h.2.2, h.2.2⟩⟩
  stops := fun _ _ => rfl
  onlyStop := fun _ _ => hstop

theorem Ok.write (h : t.Ok cfg) {io : Nat → Bool} (hw : t.write cfg io = .ok t') :
    Written cfg t t' := by
  unfold AudioTape.write at hw
  split at hw
  · rename_i hf
    cases hw
    exact h.discarded hf _
  · rename_i hf
    have hf : t.isFiltered cfg = false := by simpa using hf
    obtain ⟨t₁, h₁, h₂⟩ := Except.bind_eq_ok.1 hw
    cases h₂
    unfold writeLoop at h₁
    unfold stopIfTold
    split at h₁
    · rename_i hs
      have hs : t.state = .stopped := hs.resolve_right h.state
      cases h₁
      rw [if_neg (by simp [isToStop, hs])]
      exact {
        ok := h.quiet h.unready
        shouldStop := rfl
        isQueued := rfl
        events := rfl
        beginDate := rfl
        duration := rfl
        stays := fun h => ⟨h, rfl⟩
        ready := by simp [h.ready, hs]
        stops := fun _ _ => hs
        onlyStop := fun h => absurd hs h }
    · rename_i hs
      simp only [not_or] at hs
      obtain ⟨hok, hframe⟩ := Ok.writeChunks _ h hf h₁
      have hs₁ : t₁.state ≠ .stopped := by
        rcases hframe.state with h' | ⟨-, h'⟩ <;> rw [h']
        · exact hs.1
        · decide
      split
      · rename_i hstop
        exact .of_close hok hframe hs.1 (by simpa [isToStop, hs₁, hok.state] using hstop)
      · rename_i hstop
        refine .of_frame hok hframe hs₁ fun h' => absurd ?_ hstop
        simp [isToStop, h', hs₁]

end AudioTape

end Oreka
