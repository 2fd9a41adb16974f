import Oreka.Tape.CapturePort

/-!
# What events leave alone

An event changes the metadata of a tape and may set its stop flag; what has been written, the state and
the place on the queue stay (`Quiet`). `process` is the only thing that changes those.
-/

namespace Oreka

namespace AudioTape

/-- The event says that the tape is not to be kept. -/
def SaysNotKept (event : CaptureEvent) : Prop :=
  event.type = .keyValue ∧ compareNoCase event.key "Keep" = true ∧ compareNoCase event.value "1" = false

/-- Only an event makes a tape one that is not kept. -/
def KeepOk (t : AudioTape) : Prop := t.keep = false → ∃ event ∈ t.eventQueue, SaysNotKept event

def HasStop (t : AudioTape) : Prop := ∃ event ∈ t.eventQueue, event.type = .stop

/-- The duration is counted up to an `EtStop`. -/
def DurationOk (t : AudioTape) : Prop :=
  t.duration = 0 ∧ ¬ t.HasStop ∨
    ∃ event ∈ t.eventQueue, event.type = .stop ∧ t.duration = event.timestamp - t.beginDate

structure Quiet (t t' : AudioTape) : Prop where
  state : t'.state = t.state
  audioFile : t'.audioFile = t.audioFile
  bytesWritten : t'.bytesWritten = t.bytesWritten
  isQueued : t'.isQueued = t.isQueued
  beginDate : t'.beginDate = t.beginDate
  ready : t'.readyForBatchProcessing = t.readyForBatchProcessing
  passed : t.passedPartyFilterTest = true → t'.passedPartyFilterTest = true
  events : ∀ event ∈ t.eventQueue, event ∈ t'.eventQueue
  keep : t.KeepOk → t'.KeepOk
  duration : t.DurationOk → t'.DurationOk

variable {cfg : TapeConfig} {t t' t'' : AudioTape}

theorem Quiet.refl (t : AudioTape) : Quiet t t :=
  ⟨rfl, rfl, rfl, rfl, rfl, rfl, id, fun _ => id, id, id⟩

theorem Quiet.trans (h : Quiet t t') (h' : Quiet t' t'') : Quiet t t'' where
  state := h'.state.trans h.state
  audioFile := h'.audioFile.trans h.audioFile
  bytesWritten := h'.bytesWritten.trans h.bytesWritten
  isQueued := h'.isQueued.trans h.isQueued
  beginDate := h'.beginDate.trans h.beginDate
  ready := h'.ready.trans h.ready
  passed := h'.passed ∘ h.passed
  events := fun event he => h'.events event (h.events event he)
  keep := h'.keep ∘ h.keep
  duration := h'.duration ∘ h.duration

theorem Quiet.written (h : Quiet t t') : t'.written = t.written := by
  unfold AudioTape.written
  rw [h.audioFile]

theorem Quiet.isFiltered (h : Quiet t t') (hf : t.isFiltered cfg = false) :
    t'.isFiltered cfg = false := by
  unfold AudioTape.isFiltered at *
  cases hp : t.passedPartyFilterTest with
  | true => simp [h.passed hp]
  | false => simp_all

/-! ## One event -/

section
variable (cfg) (t) (now : Int) (event : CaptureEvent) (send : Bool)

theorem extractInfo_fields :
    (t.extractInfo cfg now event).state = t.state ∧
      (t.extractInfo cfg now event).audioFile = t.audioFile ∧
      (t.extractInfo cfg now event).bytesWritten = t.bytesWritten ∧
      (t.extractInfo cfg now event).isQueued = t.isQueued ∧
      (t.extractInfo cfg now event).readyForBatchProcessing = t.readyForBatchProcessing ∧
      (t.extractInfo cfg now event).eventQueue = t.eventQueue ∧
      (t.extractInfo cfg now event).toSendEventQueue = t.toSendEventQueue ∧
      (t.extractInfo cfg now event).lastHoldTs = t.lastHoldTs ∧
      (t.passedPartyFilterTest = true →
        (t.extractInfo cfg now event).passedPartyFilterTest = true) := by
  cases h : event.type with
  | start =>
    simp only [extractInfo, h]
    split <;> simp
  | keyValue =>
    simp only [extractInfo, h]
    repeat' split
    all_goals simp
  | remoteParty | localParty =>
    simp only [extractInfo, h, testParty]
    split
    · rename_i hf
      simp [isFiltered] at hf
      simp [hf]
    · simp
  | _ => simp [extractInfo, h, addDirectionMark]

theorem extractInfo_beginDate (h : event.type ≠ .start) :
    (t.extractInfo cfg now event).beginDate = t.beginDate := by
  cases he : event.type with
  | start => exact absurd he h
  | keyValue =>
    simp only [extractInfo, he]
    repeat' split
    all_goals rfl
  | remoteParty | localParty =>
    simp only [extractInfo, he, testParty]
    split <;> rfl
  | _ => simp [extractInfo, he, addDirectionMark]

theorem extractInfo_duration (h : event.type ≠ .stop) :
    (t.extractInfo cfg now event).duration = t.duration := by
  cases he : event.type with
  | stop => exact absurd he h
  | start =>
    simp only [extractInfo, he]
    split <;> rfl
  | keyValue =>
    simp only [extractInfo, he]
    repeat' split
    all_goals rfl
  | remoteParty | localParty =>
    simp only [extractInfo, he, testParty]
    split <;> rfl
  | _ => simp [extractInfo, he, addDirectionMark]

theorem extractInfo_shouldStop (h : event.type ≠ .stop) :
    (t.extractInfo cfg now event).shouldStop = t.shouldStop := by
  cases he : event.type with
  | stop => exact absurd he h
  | start =>
    simp only [extractInfo, he]
    split <;> rfl
  | keyValue =>
    simp only [extractInfo, he]
    repeat' split
    all_goals rfl
  | remoteParty | localParty =>
    simp only [extractInfo, he, testParty]
    split <;> rfl
  | _ => simp [extractInfo, he, addDirectionMark]

theorem extractInfo_keep (h : (t.extractInfo cfg now event).keep = false) :
    t.keep = false ∨ SaysNotKept event := by
  cases he : event.type with
  | start =>
    simp only [extractInfo, he] at h
    split at h <;> exact .inl h
  | keyValue =>
    simp only [extractInfo, he] at h
    split at h
    · repeat' split at h
      all_goals exact .inl h
    · split at h
      · rename_i hkey
        exact .inr ⟨he, hkey, h⟩
      · exact .inl h
  | remoteParty | localParty =>
    simp only [extractInfo, he, testParty] at h
    split at h <;> exact .inl h
  | _ =>
    simp only [extractInfo, he, addDirectionMark] at h
    exact .inl h

/-- Storing a tag changes the tags only. -/
theorem storeTag_eq : ∃ tags, t.storeTag cfg event = { t with tags } := by
  unfold storeTag
  repeat' split
  all_goals exact ⟨_, rfl⟩

theorem addCaptureEvent_eventQueue :
    (t.addCaptureEvent cfg now event send).eventQueue = t.eventQueue ++ [event] := by
  obtain ⟨tags, htags⟩ := storeTag_eq cfg ((t.extractInfo cfg now event).storeEvent event send) event
  rw [addCaptureEvent, htags]
  simp [storeEvent, (extractInfo_fields cfg t now event).2.2.2.2.2.1]

theorem addCaptureEvent_toSendEventQueue :
    (t.addCaptureEvent cfg now event send).toSendEventQueue =
      if send then t.toSendEventQueue ++ [event] else t.toSendEventQueue := by
  obtain ⟨tags, htags⟩ := storeTag_eq cfg ((t.extractInfo cfg now event).storeEvent event send) event
  rw [addCaptureEvent, htags]
  simp [storeEvent, (extractInfo_fields cfg t now event).2.2.2.2.2.2.1]

theorem addCaptureEvent_shouldStop (h : event.type ≠ .stop) :
    (t.addCaptureEvent cfg now event send).shouldStop = t.shouldStop := by
  obtain ⟨tags, htags⟩ := storeTag_eq cfg ((t.extractInfo cfg now event).storeEvent event send) event
  rw [addCaptureEvent, htags]
  exact extractInfo_shouldStop cfg t now event h

theorem addCaptureEvent_stop (h : event.type = .stop) :
    (t.addCaptureEvent cfg now event send).shouldStop = true := by
  obtain ⟨tags, htags⟩ := storeTag_eq cfg ((t.extractInfo cfg now event).storeEvent event send) event
  rw [addCaptureEvent, htags]
  simp [storeEvent, extractInfo, h]

theorem addCaptureEvent_fields :
    (t.addCaptureEvent cfg now event send).state = t.state ∧
      (t.addCaptureEvent cfg now event send).audioFile = t.audioFile ∧
      (t.addCaptureEvent cfg now event send).bytesWritten = t.bytesWritten ∧
      (t.addCaptureEvent cfg now event send).isQueued = t.isQueued ∧
      (t.addCaptureEvent cfg now event send).readyForBatchProcessing =
        t.readyForBatchProcessing ∧
      (t.passedPartyFilterTest = true →
        (t.addCaptureEvent cfg now event send).passedPartyFilterTest = true) := by
  obtain ⟨tags, htags⟩ := storeTag_eq cfg ((t.extractInfo cfg now event).storeEvent event send) event
  obtain ⟨hs, hf, hb, hi, hr, -, -, -, hp⟩ := extractInfo_fields cfg t now event
  have ht : t.addCaptureEvent cfg now event send = _ := htags
  rw [ht]
  exact ⟨hs, hf, hb, hi, hr, hp⟩

theorem KeepOk.addCaptureEvent (hk : t.KeepOk) : (t.addCaptureEvent cfg now event send).KeepOk := by
  intro hkeep
  obtain ⟨tags, htags⟩ := storeTag_eq cfg ((t.extractInfo cfg now event).storeEvent event send) event
  rw [AudioTape.addCaptureEvent, htags] at hkeep
  rw [addCaptureEvent_eventQueue]
  rcases extractInfo_keep cfg t now event hkeep with h | h
  · obtain ⟨e, he, hsays⟩ := hk h
    exact ⟨e, List.mem_append_left _ he, hsays⟩
  · exact ⟨event, by simp, h⟩

theorem HasStop.addCaptureEvent (h : t.HasStop ∨ event.type = .stop) :
    (t.addCaptureEvent cfg now event send).HasStop := by
  unfold HasStop
  rw [addCaptureEvent_eventQueue]
  rcases h with ⟨e, he, hs⟩ | h
  · exact ⟨e, List.mem_append_left _ he, hs⟩
  · exact ⟨event, by simp, h⟩

/-- An event that starts a tape is its first. -/
theorem DurationOk.addCaptureEvent (hd : t.DurationOk)
    (hstart : event.type = .start → t.duration = 0 ∧ ¬ t.HasStop) :
    (t.addCaptureEvent cfg now event send).DurationOk := by
  have hq := addCaptureEvent_eventQueue cfg t now event send
  obtain ⟨tags, htags⟩ := storeTag_eq cfg ((t.extractInfo cfg now event).storeEvent event send) event
  have hduration : (t.addCaptureEvent cfg now event send).duration =
      (t.extractInfo cfg now event).duration := by rw [AudioTape.addCaptureEvent, htags]; rfl
  have hbegin : (t.addCaptureEvent cfg now event send).beginDate =
      (t.extractInfo cfg now event).beginDate := by rw [AudioTape.addCaptureEvent, htags]; rfl
  unfold DurationOk HasStop
  rw [hq, hduration, hbegin]
  by_cases hstop : event.type = .stop
  · refine .inr ⟨event, by simp, hstop, ?_⟩
    rw [extractInfo_beginDate cfg t now event (by simp [hstop])]
    simp [extractInfo, hstop]
  · rw [extractInfo_duration cfg t now event hstop]
    have hnone (h : ¬ t.HasStop) : ¬ ∃ e ∈ t.eventQueue ++ [event], e.type = .stop := by
      rintro ⟨e, he, hs⟩
      rcases List.mem_append.1 he with he | he
      · exact h ⟨e, he, hs⟩
      · rw [List.mem_singleton.1 he] at hs
        exact hstop hs
    by_cases hs : event.type = .start
    · exact .inl ⟨(hstart hs).1, hnone (hstart hs).2⟩
    · rw [extractInfo_beginDate cfg t now event hs]
      rcases hd with ⟨h0, hno⟩ | ⟨e, he, h⟩
      · exact .inl ⟨h0, hnone hno⟩
      · exact .inr ⟨e, List.mem_append_left _ he, h⟩

theorem quiet_addCaptureEvent (h : event.type ≠ .start) :
    Quiet t (t.addCaptureEvent cfg now event send) := by
  obtain ⟨hs, hf, hb, hi, hr, hp⟩ := addCaptureEvent_fields cfg t now event send
  obtain ⟨tags, htags⟩ := storeTag_eq cfg ((t.extractInfo cfg now event).storeEvent event send) event
  exact {
    state := hs
    audioFile := hf
    bytesWritten := hb
    isQueued := hi
    beginDate := by
      rw [addCaptureEvent, htags]
      exact extractInfo_beginDate cfg t now event h
    ready := hr
    passed := hp
    events := fun e he => by
      rw [addCaptureEvent_eventQueue]
      exact List.mem_append_left _ he
    keep := KeepOk.addCaptureEvent cfg t now event send
    duration := fun hd => hd.addCaptureEvent cfg t now event send fun hs => absurd hs h }

end

/-! ## Messages -/

theorem getMessage_eq (cfg : TapeConfig) (t : AudioTape) : (t.getMessage cfg).1 = t ∨
    (t.getMessage cfg).1 = { t with toSendEventQueue := t.toSendEventQueue.tail } := by
  unfold getMessage
  split
  · exact .inl rfl
  · split
    · exact .inl rfl
    · rename_i h
      rw [h]
      exact .inr rfl

theorem quiet_getMessage (cfg : TapeConfig) (t : AudioTape) : Quiet t (t.getMessage cfg).1 := by
  rcases getMessage_eq cfg t with h | h
  · rw [h]
    exact .refl t
  · rw [h]
    exact { Quiet.refl t with }

theorem getMessage_shouldStop (cfg : TapeConfig) (t : AudioTape) :
    (t.getMessage cfg).1.shouldStop = t.shouldStop := by
  rcases getMessage_eq cfg t with h | h <;> rw [h]

/-- A chunk that is queued is an event of this kind too. -/
theorem quiet_addAudioChunk (cfg : TapeConfig) (t : AudioTape) (chunk : AudioChunk) :
    Quiet t (t.addAudioChunk cfg chunk) ∧ (t.addAudioChunk cfg chunk).shouldStop = t.shouldStop := by
  unfold addAudioChunk queueChunk
  split
  · split
    · exact ⟨.refl t, rfl⟩
    · exact ⟨{ Quiet.refl t with }, rfl⟩
  · exact ⟨.refl t, rfl⟩

end AudioTape

end Oreka
