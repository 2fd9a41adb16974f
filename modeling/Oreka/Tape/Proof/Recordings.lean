import Oreka.Tape.CapturePort
import Oreka.Tape.Proof.MessageStages

/-!
# What is recorded on the tapes of a port

A tape is its audio and its `metadata`, which only events change. A `Recording` is the list of the
events that were delivered to a tape, each with its time; its metadata is that of the tape that
receives them in order (`Recording.tape`). `Logs` says that the tapes of a port are these recordings, and
the lemmas say what each part of `AddAudioChunk` and `AddCaptureEvent` adds to them.
-/

namespace Oreka

namespace AudioTape

/-- The tape without its audio. -/
def metadata (t : AudioTape) : AudioTape :=
  { t with
    state := .created, bytesWritten := 0, audioFile := none, chunkQueue := []
    chunkQueueDataSize := 0, isQueued := false, readyForBatchProcessing := false }

/-- The state of the tape, what waits to be written, and the file. -/
def audio (t : AudioTape) : TapeState × List AudioChunk × UInt32 × Option TapeFile :=
  (t.state, t.chunkQueue, t.chunkQueueDataSize, t.audioFile)

variable (cfg : PortConfig)

/-- A message is taken from the tape. -/
def sent (t : AudioTape) : AudioTape := (t.getMessage cfg.toTapeConfig).1

/-- The hold duration is tagged. -/
def tagHold (t : AudioTape) : AudioTape :=
  if cfg.holdResumeReportDuration then t.populateTag "holdduration" (toString t.holdDuration) else t

/-- The time on hold is counted. -/
def endHold (t : AudioTape) (now : Int) : AudioTape :=
  if t.lastHoldTs > 0 then { t with holdDuration := (t.holdDuration + (now - t.lastHoldTs)).bmod (2 ^ 32) } else t

def offHold (t : AudioTape) : AudioTape := { t with lastHoldTs := 0 }

/-- What an event does to the port's tape. -/
def receive (t : AudioTape) (now : Int) (event : CaptureEvent) : AudioTape :=
  let store (t : AudioTape) (send : Bool) := t.addCaptureEvent cfg.toTapeConfig now event send
  match event.type with
  | .start => t
  | .stop => (store (t.tagHold cfg) true).sent cfg
  | .hold =>
    if t.lastHoldTs = 0 then
      if cfg.holdResumeReportEvents then (store { t with lastHoldTs := now.bmod (2 ^ 32) } true).sent cfg
      else { t with lastHoldTs := now.bmod (2 ^ 32) }
    else t
  | .resume =>
    if cfg.holdResumeReportEvents ∧ t.lastHoldTs > 0 then
      ((store (t.endHold now) true).sent cfg).offHold
    else (t.endHold now).offHold
  | .endMetadata => t.sent cfg
  | .update => (store t true).sent cfg
  | _ => store t false

variable (t : AudioTape) (now : Int) (event : CaptureEvent)

/-! ## Events and audio do not meet -/

theorem metadata_extractInfo (c : TapeConfig) (h : event.type ≠ .start) :
    (t.extractInfo c now event).metadata = t.metadata.extractInfo c now event := by
  cases he : event.type with
  | start => exact absurd he h
  | keyValue =>
    simp only [extractInfo, he]
    repeat' split
    all_goals rfl
  | remoteParty | localParty =>
    simp only [extractInfo, he, testParty]
    change _ = if t.isFiltered c then _ else _
    split <;> rfl
  | _ => simp [extractInfo, he, metadata, addDirectionMark]

theorem metadata_storeTag (c : TapeConfig) :
    (t.storeTag c event).metadata = t.metadata.storeTag c event := by
  unfold storeTag
  change _ = if _ then _ else t.metadata
  repeat' split
  all_goals first | rfl | simp_all [metadata]

theorem metadata_addCaptureEvent (c : TapeConfig) (send : Bool) (h : event.type ≠ .start) :
    (t.addCaptureEvent c now event send).metadata = t.metadata.addCaptureEvent c now event send := by
  unfold addCaptureEvent
  rw [metadata_storeTag, ← metadata_extractInfo t now event c h]
  rfl

/-- A message takes the oldest event that waits for one. -/
theorem sent_eq : t.sent cfg = { t with
    toSendEventQueue :=
      if t.isFiltered cfg.toTapeConfig then t.toSendEventQueue else t.toSendEventQueue.tail } := by
  unfold sent getMessage
  split
  · rfl
  · cases h : t.toSendEventQueue with
    | nil =>
      change t = _
      rw [List.tail_nil, ← h]
    | cons => rfl

theorem metadata_sent : (t.sent cfg).metadata = t.metadata.sent cfg := by
  rw [sent_eq, sent_eq]
  rfl

theorem metadata_tagHold : (t.tagHold cfg).metadata = t.metadata.tagHold cfg := by
  unfold tagHold
  split <;> rfl

theorem metadata_endHold : (t.endHold now).metadata = t.metadata.endHold now := by
  unfold endHold
  change _ = if t.lastHoldTs > 0 then _ else _
  split <;> rfl

theorem metadata_receive : (t.receive cfg now event).metadata = t.metadata.receive cfg now event := by
  unfold receive
  cases he : event.type with
  | start => rfl
  | stop =>
    dsimp only
    rw [metadata_sent, metadata_addCaptureEvent _ _ _ _ _ (by simp [he]), metadata_tagHold]
  | hold =>
    dsimp only
    change _ = if t.lastHoldTs = 0 then _ else _
    split
    · split
      · rw [metadata_sent, metadata_addCaptureEvent _ _ _ _ _ (by simp [he])]
        rfl
      · rfl
    · rfl
  | resume =>
    have hset (u : AudioTape) : u.offHold.metadata = u.metadata.offHold := rfl
    dsimp only
    change _ = if cfg.holdResumeReportEvents ∧ t.lastHoldTs > 0 then _ else _
    split
    · rw [hset, metadata_sent, metadata_addCaptureEvent _ _ _ _ _ (by simp [he]), metadata_endHold]
    · rw [hset, metadata_endHold]
  | endMetadata => exact metadata_sent cfg t
  | update =>
    dsimp only
    rw [metadata_sent, metadata_addCaptureEvent _ _ _ _ _ (by simp [he])]
  | _ => exact metadata_addCaptureEvent _ _ _ _ _ (by simp [he])

theorem audio_addCaptureEvent (c : TapeConfig) (send : Bool) :
    (t.addCaptureEvent c now event send).audio = t.audio := by
  obtain ⟨tags, htags⟩ := storeTag_eq c ((t.extractInfo c now event).storeEvent event send) event
  rw [addCaptureEvent, htags]
  change (t.extractInfo c now event).audio = t.audio
  cases he : event.type with
  | start =>
    simp only [extractInfo, he]
    split <;> rfl
  | keyValue =>
    simp only [extractInfo, he]
    repeat' split
    all_goals rfl
  | remoteParty | localParty =>
    simp only [extractInfo, he, testParty]
    split <;> rfl
  | _ => simp [extractInfo, he, audio, addDirectionMark]

theorem audio_sent : (t.sent cfg).audio = t.audio := by
  rw [sent_eq]
  rfl

/-- Events leave the audio alone. -/
theorem audio_receive : (t.receive cfg now event).audio = t.audio := by
  have hend (t : AudioTape) : (t.endHold now).audio = t.audio := by
    unfold endHold
    split <;> rfl
  have hoff (t : AudioTape) : t.offHold.audio = t.audio := rfl
  unfold receive
  cases event.type with
  | stop =>
    have htag : (t.tagHold cfg).audio = t.audio := by
      unfold tagHold
      split <;> rfl
    dsimp only
    rw [audio_sent, audio_addCaptureEvent, htag]
  | hold =>
    dsimp only
    split
    · split
      · rw [audio_sent, audio_addCaptureEvent]
        rfl
      · rfl
    · rfl
  | resume =>
    dsimp only
    split
    · rw [hoff, audio_sent, audio_addCaptureEvent, hend]
    · rw [hoff, hend]
  | start => rfl
  | endMetadata => exact audio_sent cfg t
  | update =>
    dsimp only
    rw [audio_sent, audio_addCaptureEvent]
  | _ => exact audio_addCaptureEvent t now event cfg.toTapeConfig false

/-! ## What the metadata tells -/

/-- The number of the stops that a tape was given. -/
def numStops (t : AudioTape) : Nat := t.eventQueue.countP (·.type = .stop)

/-- The events of two tapes, as far as they identify and stop them. -/
structure SameEvents (t u : AudioTape) : Prop where
  eventQueue : u.eventQueue = t.eventQueue
  orkUid : u.orkUid = t.orkUid
  shouldStop : u.shouldStop = t.shouldStop

variable {t} in
theorem SameEvents.trans {u v : AudioTape} (h : SameEvents t u) (h' : SameEvents u v) :
    SameEvents t v :=
  ⟨h'.eventQueue.trans h.eventQueue, h'.orkUid.trans h.orkUid, h'.shouldStop.trans h.shouldStop⟩

theorem sameEvents_sent : SameEvents t (t.sent cfg) := by
  rw [sent_eq]
  exact ⟨rfl, rfl, rfl⟩

theorem sameEvents_tagHold : SameEvents t (t.tagHold cfg) := by
  unfold tagHold
  split <;> exact ⟨rfl, rfl, rfl⟩

theorem sameEvents_endHold : SameEvents t (t.endHold now) := by
  unfold endHold
  split <;> exact ⟨rfl, rfl, rfl⟩

/-- The event is stored, or it is one that need not be. -/
theorem receive_cases :
    SameEvents t (t.receive cfg now event) ∧ event.type ≠ .stop ∧ event.type ≠ .orkUid ∨
      ∃ u send, SameEvents t u ∧
        SameEvents (u.addCaptureEvent cfg.toTapeConfig now event send) (t.receive cfg now event) := by
  have hrefl (t : AudioTape) : SameEvents t t := ⟨rfl, rfl, rfl⟩
  have hoff (t : AudioTape) : SameEvents t t.offHold := ⟨rfl, rfl, rfl⟩
  unfold receive
  cases he : event.type with
  | start => exact .inl ⟨hrefl t, by simp, by simp⟩
  | stop => exact .inr ⟨_, true, sameEvents_tagHold cfg t, sameEvents_sent cfg _⟩
  | hold =>
    dsimp only
    split
    · split
      · exact .inr ⟨{ t with lastHoldTs := now.bmod (2 ^ 32) }, true, ⟨rfl, rfl, rfl⟩, sameEvents_sent cfg _⟩
      · exact .inl ⟨⟨rfl, rfl, rfl⟩, by simp, by simp⟩
    · exact .inl ⟨hrefl t, by simp, by simp⟩
  | resume =>
    dsimp only
    split
    · exact .inr ⟨_, true, sameEvents_endHold t now, (sameEvents_sent cfg _).trans (hoff _)⟩
    · exact .inl ⟨(sameEvents_endHold t now).trans (hoff _), by simp, by simp⟩
  | endMetadata => exact .inl ⟨sameEvents_sent cfg t, by simp, by simp⟩
  | update => exact .inr ⟨t, true, hrefl t, sameEvents_sent cfg _⟩
  | _ => exact .inr ⟨t, false, hrefl t, hrefl _⟩

theorem addCaptureEvent_orkUid (c : TapeConfig) (send : Bool) :
    (t.addCaptureEvent c now event send).orkUid =
      if event.type = .orkUid then event.value else t.orkUid := by
  obtain ⟨tags, htags⟩ := storeTag_eq c ((t.extractInfo c now event).storeEvent event send) event
  rw [addCaptureEvent, htags]
  change (t.extractInfo c now event).orkUid = _
  cases he : event.type with
  | start =>
    simp only [extractInfo, he]
    split <;> rfl
  | keyValue =>
    simp only [extractInfo, he]
    repeat' split
    all_goals first | rfl | contradiction
  | remoteParty | localParty =>
    simp only [extractInfo, he, testParty]
    split <;> rfl
  | _ => simp [extractInfo, he, addDirectionMark]

theorem receive_orkUid : (t.receive cfg now event).orkUid =
    if event.type = .orkUid then event.value else t.orkUid := by
  rcases receive_cases cfg t now event with ⟨h, -, hne⟩ | ⟨u, send, hu, h⟩
  · rw [h.orkUid, if_neg hne]
  · rw [h.orkUid, addCaptureEvent_orkUid, hu.orkUid]

theorem receive_numStops :
    (t.receive cfg now event).numStops = t.numStops + if event.type = .stop then 1 else 0 := by
  unfold numStops
  rcases receive_cases cfg t now event with ⟨h, hne, -⟩ | ⟨u, send, hu, h⟩
  · rw [h.eventQueue, if_neg hne]
    rfl
  · rw [h.eventQueue, addCaptureEvent_eventQueue, hu.eventQueue]
    simp [List.countP_append, List.countP_singleton]

theorem receive_shouldStop :
    (t.receive cfg now event).shouldStop = (t.shouldStop || decide (event.type = .stop)) := by
  rcases receive_cases cfg t now event with ⟨h, hne, -⟩ | ⟨u, send, hu, h⟩
  · rw [h.shouldStop]
    simp [hne]
  · rw [h.shouldStop]
    by_cases hs : event.type = .stop
    · rw [addCaptureEvent_stop _ _ _ _ _ hs]
      simp [hs]
    · rw [addCaptureEvent_shouldStop _ _ _ _ _ hs, hu.shouldStop]
      simp [hs]

/-! ## `Write` leaves the metadata alone -/

theorem metadata_discardChunks : ∀ (chunks : List AudioChunk) (t : AudioTape),
    (discardChunks chunks t).metadata = t.metadata
  | [], _ => rfl
  | chunk :: rest, t => metadata_discardChunks rest (t.popped chunk rest)

variable {t}

theorem metadata_writeChunk {c : TapeConfig} {io : Bool} {chunk : AudioChunk} {t' : AudioTape}
    (h : t.writeChunk c io chunk = .ok t') : t'.metadata = t.metadata := by
  have hcreate : (t.createFile chunk).metadata = t.metadata := by
    unfold createFile
    split <;> rfl
  unfold writeChunk at h
  rw [← hcreate]
  dsimp only at h
  split at h
  · split at h
    · cases h
      rfl
    · split at h
      · cases h
      · cases h
        cases io <;> rfl
  · cases h
    rfl

theorem metadata_writeChunks {c : TapeConfig} : ∀ (chunks : List AudioChunk) {io : Nat → Bool}
    {t t' : AudioTape}, writeChunks c io chunks t = .ok t' → t'.metadata = t.metadata
  | [], _, _, _, h => by
    cases h
    rfl
  | chunk :: rest, _, t, _, h => by
    obtain ⟨t₁, h₁, h₂⟩ := Except.bind_eq_ok.1 h
    have hpopped : (t.popped chunk rest).metadata = t.metadata := rfl
    exact (metadata_writeChunks rest h₂).trans ((metadata_writeChunk h₁).trans hpopped)

theorem metadata_write {c : TapeConfig} {io : Nat → Bool} {t' : AudioTape}
    (h : t.write c io = .ok t') : t'.metadata = t.metadata := by
  unfold write at h
  split at h
  · cases h
    rw [metadata_discardChunks]
    split <;> rfl
  · obtain ⟨t₁, h₁, h₂⟩ := Except.bind_eq_ok.1 h
    cases h₂
    have hloop : t₁.metadata = t.metadata := by
      unfold writeLoop at h₁
      split at h₁
      · cases h₁
        rfl
      · exact metadata_writeChunks _ h₁
    rw [← hloop]
    unfold stopIfTold
    split <;> rfl

end AudioTape

namespace Recorder

variable {cfg : PortConfig} {w w' : Recorder} {t u : Nat} {now : Int} {event : CaptureEvent}

/-! ## One event -/

@[simp] theorem setTape_setTape (w : Recorder) (t : Nat) (tape tape' : AudioTape) :
    (w.setTape t tape).setTape t tape' = w.setTape t tape' := by
  simp [setTape, ImmediateProcessing.setTape]

theorem setTape_tape (w : Recorder) (t : Nat) : w.setTape t (w.tape t) = w := by
  simp [setTape, ImmediateProcessing.setTape, tape]

/-- Whether a stop is still to be sent after an event. -/
def needSendStopAfter (needSendStop : Bool) : EventType → Bool
  | .stop => false
  | .endMetadata => true
  | _ => needSendStop

/-- What an event leaves of the port, and the tape that receives it. -/
def received (cfg : PortConfig) (w : Recorder) (t : Nat) (now : Int) (event : CaptureEvent)
    (needSendStop : Bool) (reports : List Report) : Recorder :=
  { w.setTape t ((w.tape t).receive cfg now event) with
    port := { w.port with
      capturing := if event.type = .stop then false else w.port.capturing, needSendStop }
    reports }

theorem report_eq (h : w.report cfg t cause = .ok w') :
    ∃ reports, w' = { w.setTape t ((w.tape t).sent cfg) with reports } := by
  obtain ⟨message, -, rfl⟩ := report_eq_ok h
  exact ⟨_, rfl⟩

theorem store_report (h : (w.store cfg t now event true).report cfg t cause = .ok w') :
    ∃ reports, w' = { w.setTape t
      (((w.tape t).addCaptureEvent cfg.toTapeConfig now event true).sent cfg) with reports } := by
  obtain ⟨reports, rfl⟩ := report_eq h
  refine ⟨reports, ?_⟩
  rw [store, setTape_tape_self, setTape_setTape]

theorem stopTape_eq (he : event.type = .stop) (h : w.stopTape cfg t now event = .ok w') :
    ∃ reports, w' = (w.received cfg t now event false reports).push t := by
  obtain ⟨w₁, h₁, h₂⟩ := Except.bind_eq_ok.1 h
  cases h₂
  obtain ⟨reports, rfl⟩ := store_report h₁
  refine ⟨reports, congrArg (Recorder.push · t) ?_⟩
  unfold received AudioTape.receive
  simp only [he, if_true]
  unfold tagHoldDuration AudioTape.tagHold
  split <;> simp [setTape, ImmediateProcessing.setTape, tape]

theorem holdTape_eq (he : event.type = .hold) (h : w.holdTape cfg t now event = .ok w') :
    ∃ reports, w' = w.received cfg t now event w.port.needSendStop reports := by
  unfold holdTape at h
  unfold received AudioTape.receive
  simp only [he, reduceCtorEq, if_false]
  split at h
  · rename_i hts
    dsimp only at h
    split at h
    · rename_i hreport
      obtain ⟨reports, rfl⟩ := store_report h
      refine ⟨reports, ?_⟩
      rw [if_pos hts, if_pos hreport, setTape_tape_self, setTape_setTape]
      rfl
    · rename_i hreport
      cases h
      refine ⟨w.reports, ?_⟩
      rw [if_pos hts, if_neg hreport]
      rfl
  · rename_i hts
    cases h
    refine ⟨w.reports, ?_⟩
    rw [if_neg hts, setTape_tape]

theorem resumeTape_eq (he : event.type = .resume) (h : w.resumeTape cfg t now event = .ok w') :
    ∃ reports, w' = w.received cfg t now event w.port.needSendStop reports := by
  obtain ⟨w₁, h₁, h₂⟩ := Except.bind_eq_ok.1 h
  cases h₂
  have hcount : w.countHold t now = w.setTape t ((w.tape t).endHold now) := by
    unfold countHold AudioTape.endHold
    split
    · rfl
    · exact (setTape_tape w t).symm
  rw [hcount] at h₁
  have hts : ((w.tape t).endHold now).lastHoldTs = (w.tape t).lastHoldTs := by
    unfold AudioTape.endHold
    split <;> rfl
  unfold reportResume at h₁
  rw [setTape_tape_self, hts] at h₁
  unfold received AudioTape.receive
  simp only [he, reduceCtorEq, if_false]
  split at h₁
  · rename_i hreport
    obtain ⟨reports, rfl⟩ := store_report h₁
    refine ⟨reports, ?_⟩
    rw [if_pos hreport]
    simp [setTape, ImmediateProcessing.setTape, tape, AudioTape.offHold]
  · rename_i hreport
    cases h₁
    refine ⟨w.reports, ?_⟩
    rw [if_neg hreport]
    simp [setTape, ImmediateProcessing.setTape, tape, AudioTape.offHold]

theorem handleEvent_eq (h : w.handleEvent cfg t now event = .ok w') :
    ∃ reports, w' =
      if event.type = .stop then
        (w.received cfg t now event (needSendStopAfter w.port.needSendStop event.type) reports).push t
      else w.received cfg t now event (needSendStopAfter w.port.needSendStop event.type) reports := by
  unfold handleEvent at h
  cases he : event.type with
  | start =>
    simp only [he] at h
    cases h
    refine ⟨w.reports, ?_⟩
    simp [received, AudioTape.receive, he, setTape_tape, needSendStopAfter]
  | stop =>
    simp only [he] at h
    exact stopTape_eq he h
  | hold =>
    simp only [he] at h
    exact holdTape_eq he h
  | resume =>
    simp only [he] at h
    exact resumeTape_eq he h
  | endMetadata =>
    simp only [he] at h
    obtain ⟨w₁, h₁, h₂⟩ := Except.bind_eq_ok.1 h
    cases h₂
    obtain ⟨reports, rfl⟩ := report_eq h₁
    exact ⟨reports, by simp [received, AudioTape.receive, he, setTape, needSendStopAfter]⟩
  | update =>
    simp only [he] at h
    obtain ⟨reports, rfl⟩ := store_report h
    exact ⟨reports, by simp [received, AudioTape.receive, he, setTape, needSendStopAfter]⟩
  | _ =>
    simp only [he] at h
    cases h
    exact ⟨w.reports, by simp [received, AudioTape.receive, he, setTape, store, needSendStopAfter]⟩

end Recorder

/-- What the steps below leave open of a port is when it was updated and whether a stop is to be sent. -/
def CapturePort.core (port : CapturePort) : CapturePort :=
  { port with lastUpdated := 0, needSendStop := false }

structure CapturePort.SameCore (p q : CapturePort) : Prop where
  id : p.id = q.id
  audioTape : p.audioTape = q.audioTape
  capturing : p.capturing = q.capturing
  vadBelowThresholdSec : p.vadBelowThresholdSec = q.vadBelowThresholdSec
  vadUp : p.vadUp = q.vadUp
  captureEvents : p.captureEvents = q.captureEvents
  segmentNumber : p.segmentNumber = q.segmentNumber

theorem CapturePort.sameCore {p q : CapturePort} (h : p.core = q.core) : SameCore p q := by
  unfold core at h
  simp only [CapturePort.mk.injEq] at h
  obtain ⟨h₁, h₂, h₃, h₄, h₅, -, h₆, -, h₇⟩ := h
  exact ⟨h₁, h₂, h₃, h₄, h₅, h₆, h₇⟩

namespace Recorder

variable {cfg : PortConfig} {w w' w'' : Recorder} {t u : Nat} {now : Int} {event : CaptureEvent}

/-- An event was delivered to the port's tape, if it has one. -/
structure Delivered (cfg : PortConfig) (now : Int) (event : CaptureEvent) (w w' : Recorder) :
    Prop where
  port : w'.port.core = CapturePort.core { w.port with
    capturing := if event.type = .stop ∧ w.port.audioTape.isSome then false else w.port.capturing }
  numTapes : w'.numTapes = w.numTapes
  self : ∀ t, w.port.audioTape = some t →
    (w'.tape t).metadata = ((w.tape t).receive cfg now event).metadata
  other : ∀ u, w.port.audioTape ≠ some u → w'.tape u = w.tape u
  audio : ∀ u, (w'.tape u).audio = (w.tape u).audio

theorem delivered_received (ht : w.port.audioTape = some t) (needSendStop : Bool)
    (reports : List Report) :
    Delivered cfg now event w (w.received cfg t now event needSendStop reports) := by
  have hself : (w.received cfg t now event needSendStop reports).tape t =
      (w.tape t).receive cfg now event := setTape_tape_self ..
  have hother (u : Nat) (hu : u ≠ t) :
      (w.received cfg t now event needSendStop reports).tape u = w.tape u :=
    setTape_tape_of_ne w hu _
  refine ⟨?_, rfl, fun u hu => ?_, fun u hu => ?_, fun u => ?_⟩
  · simp [received, CapturePort.core, ht]
  · cases ht.symm.trans hu
    rw [hself]
  · exact hother u fun h => hu (h ▸ ht)
  · by_cases hu : u = t
    · rw [hu, hself, AudioTape.audio_receive]
    · rw [hother u hu]

theorem Delivered.push (h : Delivered cfg now event w w') (ht : w.port.audioTape = some t) :
    Delivered cfg now event w (w'.push t) := by
  refine ⟨h.port, h.numTapes, fun u hu => ?_, fun u hu => ?_, fun u => ?_⟩
  · cases ht.symm.trans hu
    rw [push_tape_self]
    exact h.self t ht
  · have hne : u ≠ t := by
      rintro rfl
      exact hu ht
    rw [push_tape_of_ne w' hne]
    exact h.other u hu
  · by_cases hu : u = t
    · rw [hu, push_tape_self]
      exact h.audio t
    · rw [push_tape_of_ne w' hu]
      exact h.audio u

/-- `AddCaptureEvent`, of an event that does not start a tape. -/
theorem delivered_addCaptureEvent (hs : event.type ≠ .start)
    (h : w.addCaptureEvent cfg now event = .ok w') : Delivered cfg now event w w' := by
  unfold addCaptureEvent at h
  dsimp only at h
  rw [if_neg hs] at h
  split at h
  · rename_i ht
    have ht : w.port.audioTape = none := ht
    cases h
    exact ⟨by simp [CapturePort.core, ht], rfl, by simp [ht], fun _ _ => rfl, fun _ => rfl⟩
  · rename_i t ht
    have ht : w.port.audioTape = some t := ht
    obtain ⟨reports, rfl⟩ := handleEvent_eq h
    have hd : Delivered cfg now event w
        (received cfg { w with port := { w.port with lastUpdated := now } } t now event
          (needSendStopAfter w.port.needSendStop event.type) reports) :=
      { delivered_received ht (needSendStopAfter w.port.needSendStop event.type) reports with }
    split
    · exact hd.push ht
    · exact hd

/-! ## The backlog -/

/-- The events of a backlog, the identifiers numbered from `n + 1` on. -/
def renumber : Nat → List CaptureEvent → List CaptureEvent
  | _, [] => []
  | n, event :: events =>
    if event.type = .orkUid then
      { type := .orkUid, value := event.value ++ "_" ++ toString (n + 1) } :: renumber (n + 1) events
    else event :: renumber n events

/-- The identifiers of a backlog. -/
def numUids (events : List CaptureEvent) : Nat := events.countP (·.type = .orkUid)

end Recorder

/-- The tape receives these events in order. -/
def AudioTape.receiveAll (cfg : PortConfig) (t : AudioTape) (deliveries : List (Int × CaptureEvent)) :
    AudioTape :=
  deliveries.foldl (fun t d => t.receive cfg d.1 d.2) t

theorem AudioTape.metadata_receiveAll (cfg : PortConfig) {t u : AudioTape}
    (h : t.metadata = u.metadata) (deliveries : List (Int × CaptureEvent)) :
    (t.receiveAll cfg deliveries).metadata = (u.receiveAll cfg deliveries).metadata := by
  induction deliveries generalizing t u with
  | nil => exact h
  | cons d deliveries ih =>
    exact ih (by rw [metadata_receive, metadata_receive, h])

namespace Recorder

variable {cfg : PortConfig} {w w' w'' : Recorder} {t u : Nat} {now : Int} {event : CaptureEvent}

/-- Events without a stop were delivered to the port's tape `t`, of which `n` took a number. -/
structure DeliveredAll (cfg : PortConfig) (t : Nat) (deliveries : List (Int × CaptureEvent)) (n : Nat)
    (w w' : Recorder) : Prop where
  port : w'.port.core = CapturePort.core { w.port with
    segmentNumber := w.port.segmentNumber + n }
  numTapes : w'.numTapes = w.numTapes
  self : (w'.tape t).metadata = ((w.tape t).receiveAll cfg deliveries).metadata
  other : ∀ u, u ≠ t → w'.tape u = w.tape u
  audio : ∀ u, (w'.tape u).audio = (w.tape u).audio

theorem deliveredAll_backlog (events : List CaptureEvent)
    (hq : ∀ event ∈ events, event.type ≠ .start ∧ event.type ≠ .stop)
    (ht : w.port.audioTape = some t)
    (h : events.foldlM (fun w event => reportBacklogged cfg w now event) w = .ok w') :
    DeliveredAll cfg t ((renumber w.port.segmentNumber events).map (now, ·)) (numUids events) w w' := by
  induction events generalizing w with
  | nil =>
    cases h
    exact ⟨rfl, rfl, rfl, fun _ _ => rfl, fun _ => rfl⟩
  | cons event events ih =>
    obtain ⟨w₁, h₁, h₂⟩ := Except.bind_eq_ok.1 h
    obtain ⟨⟨hstart, hstop⟩, hq⟩ := List.forall_mem_cons.1 hq
    -- the event as it is delivered, and the number it takes
    obtain ⟨event', n, hd, hne, hrenumber, hnum⟩ : ∃ event' n,
        Delivered cfg now event' { w with port := { w.port with
          segmentNumber := w.port.segmentNumber + n } } w₁ ∧ event'.type ≠ .stop ∧
        renumber w.port.segmentNumber (event :: events) =
          event' :: renumber (w.port.segmentNumber + n) events ∧
        numUids (event :: events) = n + numUids events := by
      have h₁ : w.reportBacklogged cfg now event = .ok w₁ := h₁
      unfold reportBacklogged at h₁
      unfold numUids
      split at h₁
      · rename_i hu
        exact ⟨_, 1, delivered_addCaptureEvent (by simp) h₁, by simp, by rw [renumber, if_pos hu],
          by rw [List.countP_cons_of_pos (by simpa using hu), Nat.add_comm]⟩
      · rename_i hu
        exact ⟨event, 0, delivered_addCaptureEvent hstart h₁, hstop, by rw [renumber, if_neg hu]; rfl,
          by rw [List.countP_cons_of_neg (by simpa using hu), Nat.zero_add]⟩
    have hport := hd.port
    rw [if_neg fun h => hne h.1] at hport
    have ht₁ : w₁.port.audioTape = some t := (CapturePort.sameCore hport).audioTape.trans ht
    have hn₁ : w₁.port.segmentNumber = w.port.segmentNumber + n :=
      (CapturePort.sameCore hport).segmentNumber
    have hrest := ih hq ht₁ h₂
    rw [hn₁] at hrest
    refine ⟨?_, hrest.numTapes.trans hd.numTapes, ?_, fun u hu => ?_, fun u =>
      (hrest.audio u).trans (hd.audio u)⟩
    · rw [hrest.port, hn₁, hnum, ← Nat.add_assoc]
      exact congrArg (fun p : CapturePort =>
        { p with segmentNumber := w.port.segmentNumber + n + numUids events }) hport
    · rw [hrest.self, hrenumber]
      exact AudioTape.metadata_receiveAll cfg (hd.self t ht) _
    · exact (hrest.other u hu).trans (hd.other u fun h => hu (Option.some.inj (h.symm.trans ht)))

end Recorder

/-! ## A tape is opened -/

/-- The events that were delivered to a tape after the `EtStart` at `start`. -/
structure Recording where
  start : Int
  deliveries : List (Int × CaptureEvent)

namespace Recording

/-- The tape of a recording, by its metadata. -/
def tape (cfg : PortConfig) (id : String) (r : Recording) : AudioTape :=
  AudioTape.receiveAll cfg ((AudioTape.new cfg.toTapeConfig r.start id).addCaptureEvent
    cfg.toTapeConfig r.start { type := .start, timestamp := r.start, value := id } true) r.deliveries

def deliver (r : Recording) (now : Int) (event : CaptureEvent) : Recording :=
  { r with deliveries := r.deliveries ++ [(now, event)] }

theorem tape_deliver (cfg : PortConfig) (id : String) (r : Recording) (now : Int)
    (event : CaptureEvent) :
    (r.deliver now event).tape cfg id = (r.tape cfg id).receive cfg now event := by
  simp [tape, deliver, AudioTape.receiveAll]

/-- The last identifier that was delivered. -/
def orkUid (r : Recording) : String :=
  r.deliveries.foldl (fun uid d => if d.2.type = .orkUid then d.2.value else uid) ""

/-- How often the recording was stopped. -/
def numStops (r : Recording) : Nat := r.deliveries.countP (·.2.type = .stop)

theorem orkUid_deliver (r : Recording) (now : Int) (event : CaptureEvent) :
    (r.deliver now event).orkUid = if event.type = .orkUid then event.value else r.orkUid := by
  simp [orkUid, deliver]

theorem numStops_deliver (r : Recording) (now : Int) (event : CaptureEvent) :
    (r.deliver now event).numStops = r.numStops + if event.type = .stop then 1 else 0 := by
  simp [numStops, deliver, List.countP_append, List.countP_singleton]

/-- What the tape of a recording knows of it. -/
theorem tape_facts (cfg : PortConfig) (id : String) (r : Recording) :
    (r.tape cfg id).orkUid = r.orkUid ∧ (r.tape cfg id).numStops = r.numStops ∧
      (r.tape cfg id).shouldStop = decide (0 < r.numStops) ∧
      ∃ event ∈ (r.tape cfg id).eventQueue, event.type = .start := by
  obtain ⟨start, deliveries⟩ := r
  induction deliveries using List.reverseRecOn with
  | nil =>
    let event : CaptureEvent := { type := .start, timestamp := start, value := id }
    let new := AudioTape.new cfg.toTapeConfig start id
    have hevents := AudioTape.addCaptureEvent_eventQueue cfg.toTapeConfig new start event true
    refine ⟨?_, ?_, ?_, event, ?_, rfl⟩
    · exact AudioTape.addCaptureEvent_orkUid new start event cfg.toTapeConfig true
    · unfold AudioTape.numStops
      rw [show (tape cfg id ⟨start, []⟩).eventQueue = new.eventQueue ++ [event] from hevents]
      rfl
    · have hne : event.type ≠ .stop := by simp [event]
      exact AudioTape.addCaptureEvent_shouldStop cfg.toTapeConfig new start event true hne
    · rw [show (tape cfg id ⟨start, []⟩).eventQueue = new.eventQueue ++ [event] from hevents]
      exact List.mem_append_right _ List.mem_cons_self
  | append_singleton deliveries d ih =>
    obtain ⟨huid, hstops, hshould, event, he, hstart⟩ := ih
    have hd : (⟨start, deliveries ++ [d]⟩ : Recording) = deliver ⟨start, deliveries⟩ d.1 d.2 := rfl
    rw [hd, tape_deliver]
    refine ⟨?_, ?_, ?_, event, ?_, hstart⟩
    · rw [AudioTape.receive_orkUid, orkUid_deliver, huid]
    · rw [AudioTape.receive_numStops, numStops_deliver, hstops]
    · rw [AudioTape.receive_shouldStop, numStops_deliver, hshould]
      by_cases hs : d.2.type = .stop <;> simp [hs]
    · rcases AudioTape.receive_cases cfg (tape cfg id ⟨start, deliveries⟩) d.1 d.2 with
        ⟨h, -⟩ | ⟨u, send, hu, h⟩
      · rwa [h.eventQueue]
      · rw [h.eventQueue, AudioTape.addCaptureEvent_eventQueue, hu.eventQueue]
        exact List.mem_append_left _ he

end Recording

namespace Recorder

variable {cfg : PortConfig} {w w' w'' : Recorder} {t u : Nat} {now : Int} {event : CaptureEvent}

/-- A tape was opened and given the backlog, behind one that was given up at once. -/
structure Opened (cfg : PortConfig) (now : Int) (w w' : Recorder) : Prop where
  port : w'.port.core = CapturePort.core { w.port with
    audioTape := some (w.numTapes + 1), capturing := true
    segmentNumber := w.port.segmentNumber + numUids w.port.captureEvents }
  numTapes : w'.numTapes = w.numTapes + 2
  self : (w'.tape (w.numTapes + 1)).metadata = (Recording.tape cfg w.port.id
    ⟨now, (renumber w.port.segmentNumber w.port.captureEvents).map (now, ·)⟩).metadata
  dummy : (w'.tape w.numTapes).eventQueue = []
  other : ∀ u, u ≠ w.numTapes → u ≠ w.numTapes + 1 → w'.tape u = w.tape u
  audio : ∀ u, w.numTapes ≤ u → u ≤ w.numTapes + 1 →
    (w'.tape u).audio = (AudioTape.new cfg.toTapeConfig now w.port.id).audio

theorem opened_openTape
    (hq : ∀ event ∈ w.port.captureEvents, event.type ≠ .start ∧ event.type ≠ .stop)
    (h : w.openTape cfg now = .ok w') : Opened cfg now w w' := by
  obtain ⟨w₁, h₁, h₂⟩ := Except.bind_eq_ok.1 h
  -- the first tape is told to stop when the `EtStart` makes the second one
  let started : AudioTape := (AudioTape.new cfg.toTapeConfig now w.port.id).addCaptureEvent
    cfg.toTapeConfig now { type := .start, timestamp := now, value := w.port.id } true
  have hw₁ : w₁ = { ((w.setTape w.numTapes { AudioTape.new cfg.toTapeConfig now w.port.id with
      shouldStop := true }).setTape (w.numTapes + 1) started) with
      numTapes := w.numTapes + 2
      port := { w.port with
        audioTape := some (w.numTapes + 1), capturing := true, lastUpdated := now } } := by
    unfold addCaptureEvent at h₁
    simp [startTape, resetTape, store, setTape, ImmediateProcessing.setTape, tape, handleEvent] at h₁
    cases h₁
    simp [started, setTape, ImmediateProcessing.setTape]
  have hself : w₁.tape (w.numTapes + 1) = started := by
    rw [hw₁]
    exact setTape_tape_self ..
  have hdummy : w₁.tape w.numTapes =
      { AudioTape.new cfg.toTapeConfig now w.port.id with shouldStop := true } := by
    rw [hw₁]
    exact (setTape_tape_of_ne _ (by omega) _).trans (setTape_tape_self ..)
  have hother (u : Nat) (h₀ : u ≠ w.numTapes) (h₁ : u ≠ w.numTapes + 1) : w₁.tape u = w.tape u := by
    rw [hw₁]
    exact (setTape_tape_of_ne _ h₁ _).trans (setTape_tape_of_ne _ h₀ _)
  have hport : w₁.port = { w.port with
      audioTape := some (w.numTapes + 1), capturing := true, lastUpdated := now } := by rw [hw₁]
  have hnum : w₁.numTapes = w.numTapes + 2 := by rw [hw₁]
  have hevents : w₁.port.captureEvents = w.port.captureEvents := by rw [hport]
  have hn : w₁.port.segmentNumber = w.port.segmentNumber := by rw [hport]
  unfold reportEventBacklog at h₂
  rw [hevents] at h₂
  have hall := deliveredAll_backlog w.port.captureEvents hq (by rw [hport]) h₂
  have hne : w.numTapes ≠ w.numTapes + 1 := by omega
  refine ⟨?_, hall.numTapes.trans hnum, ?_, ?_, fun u h₀ h₁ => ?_, fun u h₀ h₁ => ?_⟩
  · rw [hall.port, hport]
    rfl
  · rw [hall.self, hn, hself]
    rfl
  · rw [hall.other _ hne, hdummy]
    rfl
  · rw [hall.other u h₁, hother u h₀ h₁]
  · rw [hall.audio]
    obtain rfl | rfl : u = w.numTapes ∨ u = w.numTapes + 1 := by omega
    · rw [hdummy]
      rfl
    · rw [hself]
      exact AudioTape.audio_addCaptureEvent ..

/-! ## The tapes of a port -/

/-- The tapes of the port are these recordings, the last of them the one under way or the last one that
was. Every second tape is one that was given up at once. -/
structure Logs (cfg : PortConfig) (id : String) (w : Recorder) (recordings : List Recording) : Prop where
  portId : w.port.id = id
  numTapes : w.numTapes = 2 * recordings.length
  tape : ∀ k r, recordings[k]? = some r →
    (w.tape (2 * k + 1)).metadata = (r.tape cfg id).metadata
  dummy : ∀ k, k < recordings.length → (w.tape (2 * k)).eventQueue = []
  fresh : ∀ u, w.numTapes ≤ u → (w.tape u).audio = (.created, [], 0, none)
  current : ∀ t, w.port.audioTape = some t → t + 1 = 2 * recordings.length
  queue : ∀ event ∈ w.port.captureEvents, event.type ≠ .start ∧ event.type ≠ .stop

variable {id : String} {recordings : List Recording} {r : Recording}

theorem logs_new (cfg : PortConfig) (id : String) : Logs cfg id (new cfg id) [] where
  portId := rfl
  numTapes := rfl
  tape := by simp
  dummy := by simp
  fresh := fun _ _ => rfl
  current := by simp [new]
  queue := by simp [new]

/-- What leaves the metadata alone leaves the recordings alone. -/
theorem Logs.frame (h : Logs cfg id w recordings) (hid : w'.port.id = w.port.id)
    (hnum : w'.numTapes = w.numTapes) (htape : ∀ u, (w'.tape u).metadata = (w.tape u).metadata)
    (hfresh : ∀ u, w.numTapes ≤ u → (w'.tape u).audio = (w.tape u).audio)
    (hcurrent : ∀ t, w'.port.audioTape = some t → w.port.audioTape = some t)
    (hqueue : ∀ event ∈ w'.port.captureEvents, event.type ≠ .start ∧ event.type ≠ .stop) :
    Logs cfg id w' recordings where
  portId := hid.trans h.portId
  numTapes := hnum.trans h.numTapes
  tape := fun k r hr => (htape _).trans (h.tape k r hr)
  dummy := fun k hk => (congrArg AudioTape.eventQueue (htape (2 * k))).trans (h.dummy k hk)
  fresh := fun u hu => (hfresh u (hnum ▸ hu)).trans (h.fresh u (hnum ▸ hu))
  current := fun t ht => h.current t (hcurrent t ht)
  queue := hqueue

/-- An event is one more in the recording under way. -/
theorem Logs.deliver (h : Logs cfg id w (recordings ++ [r])) (ht : w.port.audioTape = some t)
    (hd : Delivered cfg now event w w') :
    Logs cfg id w' (recordings ++ [r.deliver now event]) := by
  have hlen (r : Recording) : (recordings ++ [r]).length = recordings.length + 1 := by simp
  have htape : t = 2 * recordings.length + 1 := by
    have := h.current t ht
    rw [hlen] at this
    omega
  have hother (k : Nat) (hk : k ≠ t) : w'.tape k = w.tape k :=
    hd.other k fun h' => hk (Option.some.inj (h'.symm.trans ht))
  have hcurrent : w'.port.audioTape = w.port.audioTape := (CapturePort.sameCore hd.port).audioTape
  refine ⟨(CapturePort.sameCore hd.port).id.trans h.portId, ?_, fun k r' hr' => ?_, fun k hk => ?_,
    fun u hu => (hd.audio u).trans (h.fresh u (hd.numTapes ▸ hu)), fun u hu => ?_, ?_⟩
  · rw [hd.numTapes, h.numTapes, hlen, hlen]
  · by_cases hk : k = recordings.length
    · subst hk
      rw [List.getElem?_concat_length] at hr'
      cases hr'
      have hself := hd.self t ht
      have hr := h.tape recordings.length r List.getElem?_concat_length
      rw [htape] at hself
      rw [hself, Recording.tape_deliver, AudioTape.metadata_receive, AudioTape.metadata_receive, hr]
    · have hlt : k < recordings.length := by
        have := (List.getElem?_eq_some_iff.1 hr').1
        rw [hlen] at this
        omega
      rw [hother _ (by omega)]
      rw [List.getElem?_append_left hlt] at hr'
      exact h.tape k r' (by rw [List.getElem?_append_left hlt, hr'])
  · rw [hlen] at hk
    rw [hother _ (by omega)]
    exact h.dummy k (by rwa [hlen])
  · rw [hlen, ← hlen r]
    exact h.current u (hcurrent ▸ hu)
  · rw [show w'.port.captureEvents = w.port.captureEvents from
      (CapturePort.sameCore hd.port).captureEvents]
    exact h.queue

/-- An event that finds no tape is not recorded. -/
theorem Logs.dropped (h : Logs cfg id w recordings) (ht : w.port.audioTape = none)
    (hd : Delivered cfg now event w w') : Logs cfg id w' recordings :=
  h.frame (CapturePort.sameCore hd.port).id hd.numTapes
    (fun u => congrArg _ (hd.other u (by simp [ht]))) (fun u _ => hd.audio u)
    (fun _ hu => (CapturePort.sameCore hd.port).audioTape.symm.trans hu)
    (by
      rw [show w'.port.captureEvents = w.port.captureEvents from
        (CapturePort.sameCore hd.port).captureEvents]
      exact h.queue)

/-- A tape that is opened is another recording, which begins with the backlog. -/
theorem Logs.opened (h : Logs cfg id w recordings) (ho : Opened cfg now w w') :
    Logs cfg id w' (recordings ++
      [⟨now, (renumber w.port.segmentNumber w.port.captureEvents).map (now, ·)⟩]) := by
  have hlen (r : Recording) : (recordings ++ [r]).length = recordings.length + 1 := by simp
  have hnum := h.numTapes
  refine ⟨(CapturePort.sameCore ho.port).id.trans h.portId, ?_, fun k r hr => ?_, fun k hk => ?_,
    fun u hu => ?_, fun u hu => ?_, ?_⟩
  · rw [ho.numTapes, hnum, hlen]
    omega
  · by_cases hk : k = recordings.length
    · subst hk
      rw [List.getElem?_concat_length] at hr
      cases hr
      rw [← hnum, ho.self, h.portId]
    · have hlt : k < recordings.length := by
        have := (List.getElem?_eq_some_iff.1 hr).1
        rw [hlen] at this
        omega
      rw [ho.other _ (by omega) (by omega)]
      rw [List.getElem?_append_left hlt] at hr
      exact h.tape k r hr
  · rw [hlen] at hk
    by_cases hkl : k = recordings.length
    · rw [hkl, ← hnum]
      exact ho.dummy
    · rw [ho.other _ (by omega) (by omega)]
      exact h.dummy k (by omega)
  · rw [ho.numTapes] at hu
    rw [ho.other u (by omega) (by omega)]
    exact h.fresh u (by omega)
  · have hcurrent : w'.port.audioTape = some (w.numTapes + 1) :=
      (CapturePort.sameCore ho.port).audioTape
    rw [hcurrent] at hu
    cases hu
    rw [hlen]
    omega
  · rw [show w'.port.captureEvents = w.port.captureEvents from
      (CapturePort.sameCore ho.port).captureEvents]
    exact h.queue

theorem Opened.audio_eq (h : Logs cfg id w recordings) (ho : Opened cfg now w w') (u : Nat) :
    (w'.tape u).audio = (w.tape u).audio := by
  by_cases hu : w.numTapes ≤ u ∧ u ≤ w.numTapes + 1
  · rw [ho.audio u hu.1 hu.2, h.fresh u hu.1]
    rfl
  · rw [ho.other u (by omega) (by omega)]

theorem Logs.process (h : Logs cfg id w recordings) {io : Nat → Bool}
    (hinv : Inv cfg none w) (hw : w.process cfg io = .ok w') :
    Logs cfg id w' recordings ∧ w'.port = w.port := by
  have hqueue (u : Nat) (hu : w.numTapes ≤ u) : u ∉ w.imm.audioTapeQueue := by
    intro hm
    have hfresh := ((hinv.tapes u).fresh hu).2
    rw [(hinv.tapes u).queue.2 hm] at hfresh
    cases hfresh
  rcases process_cases hw with ⟨count, rfl⟩ | ⟨t, tape, hwrite, hp⟩
  · exact ⟨h.frame rfl rfl (fun _ => rfl) (fun _ _ => rfl) (fun _ h => h) h.queue, rfl⟩
  · refine ⟨h.frame (by rw [hp.port]) hp.numTapes (fun u => ?_) (fun u hu => ?_)
      (fun _ => by rw [hp.port]; exact fun h => h) (by rw [hp.port]; exact h.queue), hp.port⟩
    · by_cases hu : u = t
      · rw [hu, hp.self]
        have hwritten := AudioTape.metadata_write hwrite
        exact hwritten
      · rw [hp.other u hu]
    · have hne : u ≠ t := by
        rintro rfl
        exact hqueue u hu (by rw [hp.queue]; exact List.mem_cons_self)
      rw [hp.other u hne]

/-! ## The chunk -/

/-- The chunk goes to the queue of one tape, if that has room, and to no other. -/
def AddedOnce (cfg : PortConfig) (w w' : Recorder) (chunk : AudioChunk) : Prop :=
  ∃ t, w'.port.audioTape = some t ∧
    (w'.tape t).chunkQueue = (if (w.tape t).isFull cfg.toTapeConfig then (w.tape t).chunkQueue
      else (w.tape t).chunkQueue ++ [chunk]) ∧
    ∀ u, u ≠ t → (w'.tape u).chunkQueue = (w.tape u).chunkQueue

theorem addToTape_tape (w : Recorder) (chunk : AudioChunk) (u : Nat) :
    ((w.addToTape cfg chunk).tape u).metadata = (w.tape u).metadata ∧
      (w.port.audioTape ≠ some u → (w.addToTape cfg chunk).tape u = w.tape u) := by
  have hadd (t : AudioTape) : (t.addAudioChunk cfg.toTapeConfig chunk).metadata = t.metadata := by
    unfold AudioTape.addAudioChunk AudioTape.queueChunk
    repeat' split
    all_goals rfl
  unfold Recorder.addToTape
  cases ht : w.port.audioTape with
  | none => exact ⟨rfl, fun _ => rfl⟩
  | some t =>
    dsimp only
    split
    · by_cases hu : u = t
      · rw [hu, push_tape_self]
        refine ⟨?_, fun h => absurd rfl h⟩
        rw [setTape_tape_self]
        exact hadd _
      · rw [push_tape_of_ne _ hu, setTape_tape_of_ne _ hu]
        exact ⟨rfl, fun _ => rfl⟩
    · exact ⟨rfl, fun _ => rfl⟩

theorem addToTape_port (cfg : PortConfig) (w : Recorder) (chunk : AudioChunk) :
    (w.addToTape cfg chunk).port = w.port ∧ (w.addToTape cfg chunk).numTapes = w.numTapes := by
  unfold Recorder.addToTape
  split
  · split <;> exact ⟨rfl, rfl⟩
  · exact ⟨rfl, rfl⟩

theorem Logs.addToTape (h : Logs cfg id w recordings) (chunk : AudioChunk) :
    Logs cfg id (w.addToTape cfg chunk) recordings := by
  obtain ⟨hport, hnum⟩ := addToTape_port cfg w chunk
  refine h.frame (by rw [hport]) hnum (fun u => (addToTape_tape w chunk u).1) (fun u hu => ?_)
    (fun _ => by rw [hport]; exact fun h => h) (by rw [hport]; exact h.queue)
  refine congrArg _ ((addToTape_tape w chunk u).2 fun ht => ?_)
  have := h.current u ht
  have := h.numTapes
  omega

/-- A capturing port, its tape not yet stopped, adds the chunk to this tape. -/
theorem addToTape_addedOnce {w₀ : Recorder} (chunk : AudioChunk) (ht : w.port.audioTape = some t)
    (hc : w.port.capturing = true) (hs : (w.tape t).acceptsChunks = true)
    (haudio : ∀ u, (w.tape u).audio = (w₀.tape u).audio) :
    AddedOnce cfg w₀ (w.addToTape cfg chunk) chunk := by
  have hqueue (u : Nat) : (w.tape u).chunkQueue = (w₀.tape u).chunkQueue :=
    congrArg (fun a => a.2.1) (haudio u)
  have hsize (u : Nat) : (w.tape u).chunkQueueDataSize = (w₀.tape u).chunkQueueDataSize :=
    congrArg (fun a => a.2.2.1) (haudio u)
  have hfull : (w.tape t).isFull cfg.toTapeConfig = (w₀.tape t).isFull cfg.toTapeConfig := by
    unfold AudioTape.isFull
    rw [hsize]
  refine ⟨t, (congrArg CapturePort.audioTape (addToTape_port _ w chunk).1).trans ht, ?_, fun u hu => ?_⟩
  · unfold Recorder.addToTape
    simp only [ht, hc, if_true]
    rw [push_tape_self, setTape_tape_self]
    unfold AudioTape.addAudioChunk AudioTape.queueChunk
    rw [if_pos hs, hfull, ← hqueue]
    split <;> rfl
  · rw [← hqueue]
    exact congrArg _ ((addToTape_tape w chunk u).2 fun h => hu (Option.some.inj (h.symm.trans ht)))

/-- A tape that was started: one of those the events of a call go to. -/
def IsSegment (w : Recorder) (t : Nat) : Prop :=
  t < w.numTapes ∧ ∃ event ∈ (w.tape t).eventQueue, event.type = .start

theorem Logs.isSegment_iff (h : Logs cfg id w recordings) :
    w.IsSegment t ↔ ∃ k, k < recordings.length ∧ t = 2 * k + 1 := by
  constructor
  · rintro ⟨ht, event, he, -⟩
    rw [h.numTapes] at ht
    obtain ⟨k, rfl | rfl⟩ : ∃ k, t = 2 * k ∨ t = 2 * k + 1 := ⟨t / 2, by omega⟩
    · rw [h.dummy k (by omega)] at he
      cases he
    · exact ⟨k, by omega, rfl⟩
  · rintro ⟨k, hk, rfl⟩
    refine ⟨by rw [h.numTapes]; omega, ?_⟩
    have hevents := congrArg AudioTape.eventQueue (h.tape k _ (List.getElem?_eq_getElem hk))
    rw [show (w.tape (2 * k + 1)).eventQueue = (recordings[k].tape cfg id).eventQueue from hevents]
    exact (Recording.tape_facts cfg id _).2.2.2

theorem Logs.facts (h : Logs cfg id w recordings) {k : Nat} (hk : recordings[k]? = some r) :
    (w.tape (2 * k + 1)).orkUid = r.orkUid ∧ (w.tape (2 * k + 1)).numStops = r.numStops ∧
      (w.tape (2 * k + 1)).shouldStop = decide (0 < r.numStops) := by
  have htape := h.tape k r hk
  obtain ⟨huid, hstops, hshould, -⟩ := Recording.tape_facts cfg id r
  rw [← hshould, ← huid, ← hstops]
  have huid' := congrArg AudioTape.orkUid htape
  have hstops' := congrArg AudioTape.numStops htape
  have hshould' := congrArg AudioTape.shouldStop htape
  exact ⟨huid', hstops', hshould'⟩

/-! ## Stops -/

/-- All recordings but the one under way were stopped, and each once. -/
structure StoppedOnce (recordings : List Recording) (capturing : Bool) : Prop where
  idle : recordings = [] → capturing = false
  stops : ∀ k r, recordings[k]? = some r →
    r.numStops = if k + 1 = recordings.length ∧ capturing = true then 0 else 1

variable {capturing : Bool}

/-- The last recording is another one. -/
theorem StoppedOnce.replace (h : StoppedOnce (recordings ++ [r]) capturing) {r' : Recording}
    {capturing' : Bool} (hstops : r'.numStops = if capturing' = true then 0 else 1) :
    StoppedOnce (recordings ++ [r']) capturing' where
  idle := by simp
  stops := fun k s hs => by
    have hlen : (recordings ++ [r']).length = recordings.length + 1 := by simp
    rw [hlen]
    by_cases hk : k = recordings.length
    · subst hk
      rw [List.getElem?_concat_length] at hs
      cases hs
      simp [hstops]
    · have hlt : k < recordings.length := by
        have := (List.getElem?_eq_some_iff.1 hs).1
        omega
      rw [List.getElem?_append_left hlt] at hs
      have hold := h.stops k s (by rw [List.getElem?_append_left hlt, hs])
      rw [if_neg (by simp; omega)] at hold
      rw [hold, if_neg (by omega)]

/-- An event comes in the recording under way. -/
theorem StoppedOnce.deliver (h : StoppedOnce (recordings ++ [r]) capturing)
    (hs : event.type = .stop → capturing = true) (now : Int) :
    StoppedOnce (recordings ++ [r.deliver now event])
      (if event.type = .stop then false else capturing) := by
  refine h.replace ?_
  rw [Recording.numStops_deliver, h.stops recordings.length r List.getElem?_concat_length]
  by_cases he : event.type = .stop
  · simp [he, hs he]
  · simp [he]

theorem StoppedOnce.opened (h : StoppedOnce recordings false) (hr : r.numStops = 0) :
    StoppedOnce (recordings ++ [r]) true where
  idle := by simp
  stops := fun k s hs => by
    have hlen : (recordings ++ [r]).length = recordings.length + 1 := by simp
    rw [hlen]
    by_cases hk : k = recordings.length
    · subst hk
      rw [List.getElem?_concat_length] at hs
      cases hs
      rw [hr, if_pos ⟨rfl, rfl⟩]
    · have hlt : k < recordings.length := by
        have := (List.getElem?_eq_some_iff.1 hs).1
        omega
      rw [List.getElem?_append_left hlt] at hs
      rw [h.stops k s hs, if_neg (by simp), if_neg (by omega)]

/-- There is no stop in a backlog. -/
theorem numStops_backlog {events : List CaptureEvent}
    (hq : ∀ event ∈ events, event.type ≠ .start ∧ event.type ≠ .stop) (start : Int) (n : Nat) :
    (⟨start, (renumber n events).map (now, ·)⟩ : Recording).numStops = 0 := by
  unfold Recording.numStops
  induction events generalizing n with
  | nil => rfl
  | cons event events ih =>
    obtain ⟨⟨-, hstop⟩, hq⟩ := List.forall_mem_cons.1 hq
    rw [renumber]
    split
    · rw [List.map_cons, List.countP_cons_of_neg (by simp)]
      exact ih hq (n + 1)
    · rw [List.map_cons, List.countP_cons_of_neg (by simpa using hstop)]
      exact ih hq n

/-- The recording of the port's tape. -/
theorem Logs.last (h : Logs cfg id w recordings) (ht : w.port.audioTape = some t) :
    ∃ before r, recordings = before ++ [r] ∧ t = 2 * before.length + 1 := by
  have hcurrent := h.current t ht
  have hne : recordings ≠ [] := by
    rintro rfl
    simp at hcurrent
  refine ⟨recordings.dropLast, recordings.getLast hne, (List.dropLast_concat_getLast hne).symm, ?_⟩
  rw [List.length_dropLast]
  have := List.length_pos_of_ne_nil hne
  omega

/-- The tape of a capturing port takes chunks. -/
theorem StoppedOnce.acceptsChunks (h : StoppedOnce recordings w.port.capturing)
    (hlogs : Logs cfg id w recordings) (hinv : Inv cfg none w) (ht : w.port.audioTape = some t)
    (hc : w.port.capturing = true) : (w.tape t).acceptsChunks = true := by
  obtain ⟨before, r, rfl, rfl⟩ := hlogs.last ht
  have hget : (before ++ [r])[before.length]? = some r := List.getElem?_concat_length
  have hstops := h.stops _ r hget
  rw [if_pos ⟨by simp, hc⟩] at hstops
  have hshould := (hlogs.facts hget).2.2
  rw [hstops] at hshould
  have htape := hinv.tapes (2 * before.length + 1)
  unfold AudioTape.acceptsChunks
  cases hs : (w.tape (2 * before.length + 1)).state with
  | created => rfl
  | active => rfl
  | stopped =>
    rw [htape.onlyTold hs] at hshould
    cases hshould
  | error => exact absurd hs htape.ok.state

theorem StoppedOnce.numStops_tape (h : StoppedOnce recordings w.port.capturing)
    (hlogs : Logs cfg id w recordings) (hnone : w.port.audioTape = none → w.port.capturing = false)
    (ht : w.IsSegment t) : (w.tape t).numStops =
      if w.port.audioTape = some t ∧ w.port.capturing = true then 0 else 1 := by
  obtain ⟨k, hk, rfl⟩ := hlogs.isSegment_iff.1 ht
  rw [(hlogs.facts (List.getElem?_eq_getElem hk)).2.1, h.stops k _ (List.getElem?_eq_getElem hk)]
  cases hp : w.port.audioTape with
  | none => simp [hnone hp]
  | some t =>
    have hcurrent := hlogs.current t hp
    have hiff : (k + 1 = recordings.length) ↔ some t = some (2 * k + 1) := by
      rw [Option.some_inj]
      omega
    simp only [hiff]

end Recorder

end Oreka
