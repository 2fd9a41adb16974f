import Oreka.Tape.Proof.FinishedOnce

/-!
# The stages of a tape's messages

A message takes the first event that waits to be sent, whatever it was asked for. After `EtStart` one
event waits, `EtEndMetadata` takes it, and from then on each event finds itself; so the stages are right
exactly when `EtEndMetadata` comes first and once, one `EtStop` follows and `Finalize` has no stop to
force (`InTurn`).
-/

namespace Oreka

/-- The stage that the message is to have. -/
def Cause.stage : Cause → Stage
  | .event .endMetadata => .event .start
  | .event type => .event type
  | .finalize => .event .stop
  | .arrival => .ready

theorem Cause.stage_event {type : EventType} (h : type ≠ .endMetadata) :
    (Cause.event type).stage = .event type := by
  cases type with
  | endMetadata => exact absurd rfl h
  | _ => rfl

/-- The message has the stage of its cause: a start comes before everything, a stop once, and the tape
is ready once and after the stop. -/
def Report.Follows (before : List Report) (r : Report) : Prop :=
  r.message.stage = some r.cause.stage ∧
    (r.message.stage = some (.event .start) → before = []) ∧
    (r.message.stage = some (.event .stop) →
      ∀ r' ∈ before, r'.message.stage ≠ some (.event .stop)) ∧
    (r.message.stage = some .ready →
      (∃ r' ∈ before, r'.message.stage = some (.event .stop)) ∧
        ∀ r' ∈ before, r'.message.stage ≠ some .ready)

def Protocol (reports : List Report) : Prop :=
  Run.Meets (fun before r => before ++ [r]) Report.Follows [] reports

theorem protocol_append (l l' : List Report) : Protocol (l ++ l') ↔
    Protocol l ∧ Run.Meets (fun before r => before ++ [r]) Report.Follows l l' := by
  have hl (before : List Report) : l.foldl (fun before r => before ++ [r]) before = before ++ l := by
    induction l generalizing before with
    | nil => simp
    | cons r l ih => simp [ih]
  unfold Protocol
  rw [Run.meets_append, hl, List.nil_append]

theorem protocol_concat (l : List Report) (r : Report) :
    Protocol (l ++ [r]) ↔ Protocol l ∧ r.Follows l := by
  rw [protocol_append]
  simp [Run.Meets]

/-- What happens to a tape: the segmentation and the voice detection of `AddAudioChunk` deliver events
of their own, and the voice detection lets the tape go. -/
inductive TapeCall
  | event (now : Int) (event : CaptureEvent)
  | finalize (now : Int)
  | chunk (chunk : AudioChunk)
  | endVoice (now : Int)
  | process (io : Nat → Bool)

namespace AudioTape

/-- An event of the type makes the port ask for a message. -/
def Asks (cfg : PortConfig) (t : AudioTape) (type : EventType) : Prop :=
  match type with
  | .stop | .endMetadata | .update => True
  | .hold => t.lastHoldTs = 0 ∧ cfg.holdResumeReportEvents = true
  | .resume => cfg.holdResumeReportEvents = true ∧ t.lastHoldTs > 0
  | _ => False

/-- What stage a message has that takes the first of `queue`. -/
def Takes (queue : List CaptureEvent) (stage : Option Stage) : Prop :=
  match queue with
  | [] => stage = some .ready ∨ stage = none
  | event :: _ => stage = if event.type.isReported then some (.event event.type) else none

theorem getMessage_some {cfg : TapeConfig} {t : AudioTape} {message : TapeMsg}
    (h : (t.getMessage cfg).2 = some message) : Takes t.toSendEventQueue message.stage ∧
      (t.getMessage cfg).1 = { t with toSendEventQueue := t.toSendEventQueue.tail } ∧
      (t.toSendEventQueue = [] → 0 < t.bytesWritten → message.stage = some .ready) := by
  unfold getMessage at *
  split at h
  · cases h
  · rename_i hf
    rw [if_neg hf]
    cases hq : t.toSendEventQueue with
    | nil =>
      simp only [hq, Option.some.injEq] at h ⊢
      subst h
      refine ⟨?_, ?_, fun _ hb => ?_⟩
      · split
        · exact .inl rfl
        · exact .inr rfl
      · rw [List.tail_nil, ← hq]
      · rw [if_pos hb]
        rfl
    | cons event rest =>
      simp only [hq, Option.some.injEq] at h ⊢
      subst h
      refine ⟨?_, rfl, by simp⟩
      dsimp only [Takes]
      split <;> rfl

/-! `Write` leaves what waits to be sent, and the stop flag. -/

theorem discardChunks_sends : ∀ (chunks : List AudioChunk) (t : AudioTape),
    (discardChunks chunks t).toSendEventQueue = t.toSendEventQueue ∧
      (discardChunks chunks t).shouldStop = t.shouldStop
  | [], _ => ⟨rfl, rfl⟩
  | chunk :: rest, t => discardChunks_sends rest (t.popped chunk rest)

theorem createFile_sends (t : AudioTape) (chunk : AudioChunk) :
    (t.createFile chunk).toSendEventQueue = t.toSendEventQueue ∧
      (t.createFile chunk).shouldStop = t.shouldStop := by
  unfold createFile
  split <;> exact ⟨rfl, rfl⟩

theorem writeChunk_sends {cfg : TapeConfig} {io : Bool} {t t' : AudioTape} {chunk : AudioChunk}
    (h : t.writeChunk cfg io chunk = .ok t') :
    t'.toSendEventQueue = t.toSendEventQueue ∧ t'.shouldStop = t.shouldStop := by
  rw [← (createFile_sends t chunk).1, ← (createFile_sends t chunk).2]
  unfold writeChunk at h
  generalize t.createFile chunk = c at h
  dsimp only at h
  split at h
  · split at h
    · cases h
      exact ⟨rfl, rfl⟩
    · split at h
      · cases h
      · cases h
        split <;> exact ⟨rfl, rfl⟩
  · cases h
    exact ⟨rfl, rfl⟩

theorem writeChunks_sends {cfg : TapeConfig} : ∀ {chunks : List AudioChunk} {io : Nat → Bool}
    {t t' : AudioTape}, writeChunks cfg io chunks t = .ok t' →
    t'.toSendEventQueue = t.toSendEventQueue ∧ t'.shouldStop = t.shouldStop
  | [], _, _, _, h => by
    cases h
    exact ⟨rfl, rfl⟩
  | chunk :: rest, io, t, t', h => by
    obtain ⟨t₁, h₁, h₂⟩ := Except.bind_eq_ok.1 h
    obtain ⟨hq, hs⟩ := writeChunk_sends h₁
    obtain ⟨hq', hs'⟩ := writeChunks_sends h₂
    exact ⟨hq'.trans hq, hs'.trans hs⟩

theorem write_sends {cfg : TapeConfig} {io : Nat → Bool} {t t' : AudioTape}
    (h : t.write cfg io = .ok t') :
    t'.toSendEventQueue = t.toSendEventQueue ∧ t'.shouldStop = t.shouldStop := by
  unfold write at h
  split at h
  · cases h
    obtain ⟨hq, hs⟩ := discardChunks_sends t.chunkQueue
      (if t.state = .created then { t with state := .active } else t)
    rw [hq, hs]
    split <;> exact ⟨rfl, rfl⟩
  · obtain ⟨t₁, h₁, h₂⟩ := Except.bind_eq_ok.1 h
    cases h₂
    have hloop : t₁.toSendEventQueue = t.toSendEventQueue ∧ t₁.shouldStop = t.shouldStop := by
      unfold writeLoop at h₁
      split at h₁
      · cases h₁
        exact ⟨rfl, rfl⟩
      · exact writeChunks_sends h₁
    unfold stopIfTold
    split
    · exact hloop
    · exact hloop

end AudioTape

namespace Recorder

/-- What the messages depend on stays, but the port may let the tape go. -/
structure Silent (w w' : Recorder) : Prop where
  reports : w'.reports = w.reports
  sends : ∀ t, (w'.tape t).toSendEventQueue = (w.tape t).toSendEventQueue
  shouldStop : ∀ t, (w'.tape t).shouldStop = (w.tape t).shouldStop
  current : ∀ t, w'.port.audioTape = some t → w.port.audioTape = some t
  needSendStop : w'.port.needSendStop = true → w.port.needSendStop = true

/-- A message is asked for tape `t` when `pushed` waits to be sent too. -/
structure Asked (t : Nat) (cause : Cause) (pushed : List CaptureEvent) (w w' : Recorder) : Prop where
  reports : ∃ message, w'.reports = w.reports ++ [⟨t, cause, message⟩] ∧
    AudioTape.Takes ((w.tape t).toSendEventQueue ++ pushed) message.stage
  sends : (w'.tape t).toSendEventQueue = ((w.tape t).toSendEventQueue ++ pushed).tail
  shouldStop : (w'.tape t).shouldStop = ((w.tape t).shouldStop || decide (cause = .event .stop))
  current : ∀ t, w'.port.audioTape = some t → w.port.audioTape = some t
  needSendStop : w'.port.needSendStop = true →
    w.port.needSendStop = true ∨ cause = .event .endMetadata

variable {cfg : PortConfig} {w w' w'' : Recorder} {t : Nat} {now : Int} {event : CaptureEvent}
  {cause : Cause} {pushed : List CaptureEvent}

theorem Silent.refl (w : Recorder) : Silent w w := ⟨rfl, fun _ => rfl, fun _ => rfl, fun _ => id, id⟩

theorem Silent.trans (h : Silent w w') (h' : Silent w' w'') : Silent w w'' where
  reports := h'.reports.trans h.reports
  sends := fun t => (h'.sends t).trans (h.sends t)
  shouldStop := fun t => (h'.shouldStop t).trans (h.shouldStop t)
  current := fun t => h.current t ∘ h'.current t
  needSendStop := h.needSendStop ∘ h'.needSendStop

theorem Silent.asked (h : Silent w w') (h' : Asked t cause pushed w' w'') :
    Asked t cause pushed w w'' where
  reports := by
    rw [← h.reports, ← h.sends]
    exact h'.reports
  sends := by
    rw [← h.sends]
    exact h'.sends
  shouldStop := by
    rw [← h.shouldStop]
    exact h'.shouldStop
  current := fun t => h.current t ∘ h'.current t
  needSendStop := fun hn => (h'.needSendStop hn).imp_left h.needSendStop

theorem Asked.silent (h : Asked t cause pushed w w') (h' : Silent w' w'') :
    Asked t cause pushed w w'' where
  reports := by
    rw [h'.reports]
    exact h.reports
  sends := (h'.sends t).trans h.sends
  shouldStop := (h'.shouldStop t).trans h.shouldStop
  current := fun t => h.current t ∘ h'.current t
  needSendStop := h.needSendStop ∘ h'.needSendStop

theorem silent_setTape {tape : AudioTape}
    (hsends : tape.toSendEventQueue = (w.tape t).toSendEventQueue)
    (hstop : tape.shouldStop = (w.tape t).shouldStop) : Silent w (w.setTape t tape) where
  reports := rfl
  sends := fun u => by
    by_cases hu : u = t
    · rw [hu, setTape_tape_self, hsends]
    · rw [setTape_tape_of_ne w hu]
  shouldStop := fun u => by
    by_cases hu : u = t
    · rw [hu, setTape_tape_self, hstop]
    · rw [setTape_tape_of_ne w hu]
  current := fun _ => id
  needSendStop := id

theorem silent_push (w : Recorder) (t : Nat) : Silent w (w.push t) where
  reports := rfl
  sends := fun u => by
    by_cases hu : u = t
    · rw [hu, push_tape_self]
    · rw [push_tape_of_ne w hu]
  shouldStop := fun u => by
    by_cases hu : u = t
    · rw [hu, push_tape_self]
    · rw [push_tape_of_ne w hu]
  current := fun _ => id
  needSendStop := id

theorem silent_port {port : CapturePort} (ht : ∀ t, port.audioTape = some t → w.port.audioTape = some t)
    (hn : port.needSendStop = true → w.port.needSendStop = true) : Silent w { w with port } :=
  ⟨rfl, fun _ => rfl, fun _ => rfl, ht, hn⟩

theorem report_eq_ok (h : w.report cfg t cause = .ok w') : ∃ message,
    ((w.tape t).getMessage cfg.toTapeConfig).2 = some message ∧
      w' = { w.setTape t ((w.tape t).getMessage cfg.toTapeConfig).1 with
        reports := w.reports ++ [⟨t, cause, message⟩] } := by
  unfold Recorder.report at h
  dsimp only at h
  split at h
  · cases h
  · rename_i message hm
    cases h
    exact ⟨message, hm, rfl⟩

/-- A message without an event of its own. -/
theorem asked_report (h : w.report cfg t cause = .ok w') (hc : cause ≠ .event .stop) :
    Asked t cause [] w w' := by
  obtain ⟨message, hm, rfl⟩ := report_eq_ok h
  obtain ⟨htakes, heq, -⟩ := AudioTape.getMessage_some hm
  have htape : Recorder.tape { w.setTape t ((w.tape t).getMessage cfg.toTapeConfig).1 with
      reports := w.reports ++ [⟨t, cause, message⟩] } t =
        { w.tape t with toSendEventQueue := (w.tape t).toSendEventQueue.tail } :=
    (setTape_tape_self w t _).trans heq
  exact {
    reports := ⟨message, rfl, by rwa [List.append_nil]⟩
    sends := by rw [htape, List.append_nil]
    shouldStop := by simp [htape, hc]
    current := fun _ => id
    needSendStop := .inl }

/-- A message for an event, which waits behind those there are. -/
theorem asked_store {type : EventType} (he : event.type = type)
    (h : (w.store cfg t now event true).report cfg t (.event type) = .ok w') :
    Asked t (.event type) [event] w w' := by
  obtain ⟨message, hm, rfl⟩ := report_eq_ok h
  obtain ⟨htakes, heq, -⟩ := AudioTape.getMessage_some hm
  have hstored : (w.store cfg t now event true).tape t =
      (w.tape t).addCaptureEvent cfg.toTapeConfig now event true := setTape_tape_self ..
  have hsends : ((w.store cfg t now event true).tape t).toSendEventQueue =
      (w.tape t).toSendEventQueue ++ [event] := by
    rw [hstored, AudioTape.addCaptureEvent_toSendEventQueue, if_pos rfl]
  have hstop : ((w.store cfg t now event true).tape t).shouldStop =
      ((w.tape t).shouldStop || decide (Cause.event type = .event .stop)) := by
    rw [hstored]
    by_cases hs : event.type = .stop
    · rw [AudioTape.addCaptureEvent_stop _ _ _ _ _ hs]
      simp [← he, hs]
    · rw [AudioTape.addCaptureEvent_shouldStop _ _ _ _ _ hs]
      simp [← he, hs]
  have htape := (setTape_tape_self (w.store cfg t now event true) t _).trans heq
  exact {
    reports := ⟨message, rfl, by rwa [← hsends]⟩
    sends := (congrArg AudioTape.toSendEventQueue htape).trans (by rw [hsends])
    shouldStop := (congrArg AudioTape.shouldStop htape).trans hstop
    current := fun _ => id
    needSendStop := .inl }

theorem silent_store (hstop : event.type ≠ .stop) : Silent w (w.store cfg t now event false) :=
  silent_setTape (AudioTape.addCaptureEvent_toSendEventQueue ..)
    (AudioTape.addCaptureEvent_shouldStop _ _ _ _ _ hstop)

/-! ## One event -/

/-- What waits to be sent because of the event. -/
def waiting (event : CaptureEvent) : List CaptureEvent :=
  if event.type = .endMetadata then [] else [event]

theorem stopTape_asked (hstop : event.type = .stop) (h : w.stopTape cfg t now event = .ok w') :
    Asked t (.event .stop) [event] w w' := by
  obtain ⟨w₂, h₂, h₃⟩ := Except.bind_eq_ok.1 h
  cases h₃
  have hcapturing : Silent w { w with port := { w.port with capturing := false } } :=
    silent_port (fun _ => id) id
  have htag (w : Recorder) : Silent w (w.tagHoldDuration cfg t) := by
    unfold tagHoldDuration
    split
    · exact silent_setTape rfl rfl
    · exact .refl w
  have hsent : Silent w₂ { w₂ with port := { w₂.port with needSendStop := false } } :=
    silent_port (fun _ => id) (by simp)
  exact (((hcapturing.trans (htag _)).asked (asked_store hstop h₂)).silent hsent).silent
    (silent_push _ t)

theorem handleEvent_cases (hstart : event.type ≠ .start)
    (h : w.handleEvent cfg t now event = .ok w') :
    ¬ (w.tape t).Asks cfg event.type ∧ Silent w w' ∨
      (w.tape t).Asks cfg event.type ∧ Asked t (.event event.type) (waiting event) w w' := by
  unfold handleEvent at h
  unfold AudioTape.Asks waiting
  cases he : event.type with
  | start => exact absurd he hstart
  | stop =>
    simp only [he] at h
    exact .inr ⟨trivial, stopTape_asked he h⟩
  | hold =>
    simp only [he] at h
    unfold holdTape at h
    split at h
    · rename_i hts
      have hset : Silent w (w.setTape t { w.tape t with lastHoldTs := now.bmod (2 ^ 32) }) :=
        silent_setTape rfl rfl
      dsimp only at h
      split at h
      · rename_i hreport
        exact .inr ⟨⟨hts, hreport⟩, hset.asked (asked_store he h)⟩
      · rename_i hreport
        cases h
        exact .inl ⟨fun ha => hreport ha.2, hset⟩
    · rename_i hts
      cases h
      exact .inl ⟨fun ha => hts ha.1, .refl w⟩
  | resume =>
    simp only [he] at h
    obtain ⟨w₂, h₂, h₃⟩ := Except.bind_eq_ok.1 h
    cases h₃
    have hcount : Silent w (w.countHold t now) ∧
        ((w.countHold t now).tape t).lastHoldTs = (w.tape t).lastHoldTs := by
      unfold countHold
      split
      · exact ⟨silent_setTape rfl rfl, by rw [setTape_tape_self]⟩
      · exact ⟨.refl w, rfl⟩
    have hset : Silent w₂ (w₂.setTape t { w₂.tape t with lastHoldTs := 0 }) :=
      silent_setTape rfl rfl
    unfold reportResume at h₂
    rw [hcount.2] at h₂
    split at h₂
    · rename_i hreport
      exact .inr ⟨hreport, (hcount.1.asked (asked_store he h₂)).silent hset⟩
    · rename_i hreport
      cases h₂
      exact .inl ⟨hreport, hcount.1.trans hset⟩
  | endMetadata =>
    simp only [he] at h
    obtain ⟨w₁, h₁, h₂⟩ := Except.bind_eq_ok.1 h
    cases h₂
    have ha := asked_report h₁ (by simp)
    exact .inr ⟨trivial, ha.reports, ha.sends, ha.shouldStop, ha.current, fun _ => .inr rfl⟩
  | update =>
    simp only [he] at h
    exact .inr ⟨trivial, asked_store he h⟩
  | _ =>
    simp only [he] at h
    cases h
    have hne : event.type ≠ .stop := by simp [he]
    exact .inl ⟨id, silent_store hne⟩

theorem addCaptureEvent_cases (hstart : event.type ≠ .start)
    (h : w.addCaptureEvent cfg now event = .ok w') :
    (∀ t, w.port.audioTape = some t → ¬ (w.tape t).Asks cfg event.type) ∧ Silent w w' ∨
      ∃ t, w.port.audioTape = some t ∧ (w.tape t).Asks cfg event.type ∧
        Asked t (.event event.type) (waiting event) w w' := by
  have hp : Silent w { w with port := { w.port with lastUpdated := now } } :=
    silent_port (fun _ => id) id
  unfold addCaptureEvent at h
  dsimp only at h
  rw [if_neg hstart] at h
  split at h
  · rename_i ht
    cases h
    exact .inl ⟨fun u hu => absurd (hu.symm.trans ht) (by simp), hp⟩
  · rename_i t ht
    rcases handleEvent_cases hstart h with ⟨hno, hs⟩ | ⟨ha, hs⟩
    · refine .inl ⟨fun u hu => ?_, hp.trans hs⟩
      rwa [← Option.some.inj (ht.symm.trans hu)]
    · exact .inr ⟨t, ht, ha, hp.asked hs⟩

/-! ## Calls -/

def call (cfg : PortConfig) (w : Recorder) : TapeCall → Except TapeFailure Recorder
  | .event now event => w.addCaptureEvent cfg now event
  | .finalize now => w.finalize cfg now
  | .chunk chunk => .ok (w.addToTape cfg chunk)
  | .endVoice now => w.endVoice cfg now
  | .process io => w.process cfg io

def callStep (cfg : PortConfig) (s : Except TapeFailure Recorder) (c : TapeCall) :
    Except TapeFailure Recorder := do
  let w ← s
  w.call cfg c

/-- An event that makes the port ask for a message does so in its turn: `EtEndMetadata` when none was
asked for, others later, and an `EtStop` when the tape was not told to stop. -/
def EventInTurn (cfg : PortConfig) (w : Recorder) (type : EventType) : Prop :=
  ∀ t, w.port.audioTape = some t → (w.tape t).Asks cfg type →
    (type = .endMetadata ↔ w.reports = []) ∧ (type = .stop → (w.tape t).shouldStop = false)

/-- No stop is outstanding when `Finalize` is called. -/
def InTurn (cfg : PortConfig) (s : Except TapeFailure Recorder) (c : TapeCall) : Prop :=
  match s, c with
  | .ok w, .event _ event => EventInTurn cfg w event.type
  | .ok w, .endVoice _ => EventInTurn cfg w .stop
  | .ok w, .finalize _ => w.port.needSendStop = false
  | _, _ => True

def Stopped (reports : List Report) : Prop :=
  ∃ r ∈ reports, r.message.stage = some (.event .stop)

/-- After calls in turn. -/
structure Turn (w : Recorder) : Prop where
  current : ∀ t, w.port.audioTape = some t → t = 0
  protocol : Protocol w.reports
  first : w.reports = [] → ∃ event, (w.tape 0).toSendEventQueue = [event] ∧ event.type = .start
  later : w.reports ≠ [] → (w.tape 0).toSendEventQueue = []
  stopped : (w.tape 0).shouldStop = true ↔ Stopped w.reports
  notReady : ∀ r ∈ w.reports, r.message.stage ≠ some .ready
  needSendStop : w.port.needSendStop = true → w.reports ≠ []

theorem Turn.silent (h : Turn w) (hs : Silent w w') : Turn w' where
  current := fun t ht => h.current t (hs.current t ht)
  protocol := by
    rw [hs.reports]
    exact h.protocol
  first := by
    rw [hs.reports, hs.sends]
    exact h.first
  later := by
    rw [hs.reports, hs.sends]
    exact h.later
  stopped := by
    rw [hs.reports, hs.shouldStop]
    exact h.stopped
  notReady := by
    rw [hs.reports]
    exact h.notReady
  needSendStop := by
    rw [hs.reports]
    exact fun hn => h.needSendStop (hs.needSendStop hn)

/-- The first message is a start. -/
theorem Turn.asked_first (h : Turn w) (hfirst : w.reports = []) {type : EventType}
    (hs : Asked 0 (.event type) (waiting event) w w') (he : event.type = type)
    (htype : type ≠ .start) :
    (Protocol w'.reports ↔ type = .endMetadata) ∧ (type = .endMetadata → Turn w') := by
  obtain ⟨message, hreports, htakes⟩ := hs.reports
  obtain ⟨first, hqueue, hstart⟩ := h.first hfirst
  have hstage : message.stage = some (.event .start) := by
    rw [hqueue] at htakes
    simpa [AudioTape.Takes, hstart, EventType.isReported] using htakes
  have hprotocol : Protocol w'.reports ↔ type = .endMetadata := by
    rw [hreports, protocol_concat, and_iff_right h.protocol]
    by_cases hend : type = .endMetadata
    · simp [Report.Follows, hstage, hend, Cause.stage, hfirst]
    · simp [Report.Follows, hstage, hend, Cause.stage_event hend, Ne.symm htype]
  refine ⟨hprotocol, fun hend => ?_⟩
  have hnotStopped : ¬ Stopped w.reports := by simp [Stopped, hfirst]
  exact {
    current := fun t ht => h.current t (hs.current t ht)
    protocol := hprotocol.2 hend
    first := by simp [hreports]
    later := by simp [hs.sends, hqueue, waiting, he, hend]
    stopped := by
      have hstop := h.stopped
      simp only [hnotStopped, iff_false, Bool.not_eq_true] at hstop
      simp [hs.shouldStop, hstop, hend, Stopped, hreports, hfirst, hstage]
    notReady := by simp [hreports, hfirst, hstage]
    needSendStop := by simp [hreports] }

/-- Then each event finds itself. -/
theorem Turn.asked_later (h : Turn w) (hlater : w.reports ≠ []) {type : EventType}
    (hs : Asked 0 (.event type) (waiting event) w w') (he : event.type = type)
    (htype : type ≠ .start) (hreported : type ≠ .endMetadata → type.isReported = true) :
    (Protocol w'.reports ↔ type ≠ .endMetadata ∧ (type = .stop → (w.tape 0).shouldStop = false)) ∧
      (Protocol w'.reports → Turn w') := by
  obtain ⟨message, hreports, htakes⟩ := hs.reports
  have hqueue := h.later hlater
  rw [hqueue, List.nil_append] at htakes
  by_cases hend : type = .endMetadata
  · have hnot : ¬ Protocol w'.reports := by
      rw [hreports, protocol_concat]
      rintro ⟨-, hstage, -⟩
      rw [waiting, if_pos (he.trans hend)] at htakes
      rcases htakes with hnext | hnext <;> rw [hnext, hend] at hstage <;> cases hstage
    exact ⟨by simp [hnot, hend], fun hp => absurd hp hnot⟩
  · have hstage : message.stage = some (.event type) := by
      rw [waiting, if_neg (he ▸ hend)] at htakes
      simpa [AudioTape.Takes, he, hreported hend] using htakes
    have hstopped : (∀ r ∈ w.reports, r.message.stage ≠ some (.event .stop)) ↔
        (w.tape 0).shouldStop = false := by
      rw [← Bool.not_eq_true, h.stopped, Stopped]
      simp
    have hprotocol : Protocol w'.reports ↔
        type ≠ .endMetadata ∧ (type = .stop → (w.tape 0).shouldStop = false) := by
      rw [hreports, protocol_concat, and_iff_right h.protocol, ← hstopped]
      simp [Report.Follows, hstage, Cause.stage_event hend, hend, htype]
    refine ⟨hprotocol, fun hp => ?_⟩
    exact {
      current := fun t ht => h.current t (hs.current t ht)
      protocol := hp
      first := by simp [hreports]
      later := by simp [hs.sends, hqueue, waiting, he, hend]
      stopped := by
        rw [hs.shouldStop, hreports, Bool.or_eq_true, h.stopped]
        simp [Stopped, or_and_right, exists_or, hstage]
      notReady := by
        intro r hr
        rw [hreports] at hr
        rcases List.mem_append.1 hr with hr | hr
        · exact h.notReady r hr
        · rw [List.mem_singleton.1 hr, hstage]
          simp
      needSendStop := by simp [hreports] }

theorem isReported_of_asks {tape : AudioTape} {type : EventType} (h : tape.Asks cfg type)
    (hend : type ≠ .endMetadata) : type.isReported = true := by
  cases type with
  | stop | hold | resume | update => rfl
  | endMetadata => exact absurd rfl hend
  | _ => exact h.elim

theorem Turn.addCaptureEvent (h : Turn w) (hstart : event.type ≠ .start)
    (hw : w.addCaptureEvent cfg now event = .ok w') :
    (Protocol w'.reports ↔ EventInTurn cfg w event.type) ∧ (Protocol w'.reports → Turn w') := by
  rcases addCaptureEvent_cases hstart hw with ⟨hno, hs⟩ | ⟨t, ht, hasks, hs⟩
  · have hturn := h.silent hs
    exact ⟨⟨fun _ t ht ha => absurd ha (hno t ht), fun _ => hturn.protocol⟩, fun _ => hturn⟩
  · obtain rfl := h.current t ht
    have hinTurn : EventInTurn cfg w event.type ↔ (event.type = .endMetadata ↔ w.reports = []) ∧
        (event.type = .stop → (w.tape 0).shouldStop = false) := by
      refine ⟨fun hi => hi 0 ht hasks, fun hi u hu _ => ?_⟩
      rwa [h.current u hu]
    rw [hinTurn]
    by_cases hfirst : w.reports = []
    · obtain ⟨hp, hturn⟩ := h.asked_first hfirst hs rfl hstart
      refine ⟨?_, fun hprotocol => hturn (hp.1 hprotocol)⟩
      rw [hp]
      simp +contextual [hfirst]
    · obtain ⟨hp, hturn⟩ := h.asked_later hfirst hs rfl hstart (isReported_of_asks hasks)
      refine ⟨?_, hturn⟩
      rw [hp]
      simp [hfirst]

theorem endVoice_cases (hw : w.endVoice cfg now = .ok w') : ∃ w₁ w₂, Silent w w₁ ∧
    w₁.port.audioTape = w.port.audioTape ∧ w₁.imm = w.imm ∧
    w₁.addCaptureEvent cfg now { type := .stop, timestamp := now } = .ok w₂ ∧ Silent w₂ w' := by
  obtain ⟨w₂, h₁, h₂⟩ := Except.bind_eq_ok.1 hw
  cases h₂
  exact ⟨{ w with port := { w.port with vadUp := false } }, w₂, silent_port (fun _ => id) id, rfl, rfl, h₁, silent_port (by simp) id⟩

theorem Turn.endVoice (h : Turn w) (hw : w.endVoice cfg now = .ok w') :
    (Protocol w'.reports ↔ EventInTurn cfg w .stop) ∧ (Protocol w'.reports → Turn w') := by
  obtain ⟨w₁, w₂, hs₁, htape, himm, h₂, hs₂⟩ := endVoice_cases hw
  obtain ⟨hp, hturn⟩ := (h.silent hs₁).addCaptureEvent (by simp) h₂
  have hsame : EventInTurn cfg w₁ .stop ↔ EventInTurn cfg w .stop := by
    unfold EventInTurn Recorder.tape
    rw [htape, himm, hs₁.reports]
  rw [hs₂.reports, ← hsame]
  exact ⟨hp, fun hprotocol => (hturn hprotocol).silent hs₂⟩

/-- The second message of `Finalize` has no event to take. -/
theorem Turn.finalize (h : Turn w) (hw : w.finalize cfg now = .ok w') :
    (Protocol w'.reports ↔ w.port.needSendStop = false) ∧ (Protocol w'.reports → Turn w') := by
  unfold Recorder.finalize at hw
  split at hw
  · rename_i hn
    obtain ⟨w₁, h₁, h₂⟩ := Except.bind_eq_ok.1 hw
    obtain ⟨hp, hturn⟩ := h.addCaptureEvent (by simp) h₁
    suffices hnot : ¬ Protocol w'.reports from ⟨by simp [hnot, hn], fun hp => absurd hp hnot⟩
    split at h₂
    · cases h₂
    · rename_i t ht
      obtain ⟨w₂, h₃, h₄⟩ := Except.bind_eq_ok.1 h₂
      cases h₄
      obtain ⟨message, hreports, htakes⟩ := (asked_report h₃ (by simp)).reports
      dsimp only
      rw [hreports, protocol_concat]
      rintro ⟨hprotocol, hstage, -⟩
      have hturn₁ := hturn hprotocol
      obtain rfl := hturn₁.current t ht
      have hsaid : w₁.reports ≠ [] := by
        rcases addCaptureEvent_cases (by simp) h₁ with ⟨-, hs⟩ | ⟨_, -, -, hs⟩
        · rw [hs.reports]
          exact h.needSendStop hn
        · obtain ⟨_, hs, -⟩ := hs.reports
          simp [hs]
      rw [hturn₁.later hsaid] at htakes
      rcases htakes with hnext | hnext <;> rw [hnext] at hstage <;> cases hstage
  · rename_i hn
    cases hw
    exact ⟨⟨fun _ => by simpa using hn, fun _ => h.protocol⟩, fun _ => h⟩

theorem silent_addToTape (chunk : AudioChunk) : Silent w (w.addToTape cfg chunk) := by
  unfold Recorder.addToTape
  split
  · rename_i t ht
    split
    · have hsends : ((w.tape t).addAudioChunk cfg.toTapeConfig chunk).toSendEventQueue =
          (w.tape t).toSendEventQueue := by
        unfold AudioTape.addAudioChunk AudioTape.queueChunk
        split
        · split <;> rfl
        · rfl
      exact (silent_setTape hsends (AudioTape.quiet_addAudioChunk _ _ chunk).2).trans (silent_push _ t)
    · exact .refl w
  · exact .refl w

theorem silent_process {io : Nat → Bool} (hw : w.process cfg io = .ok w') : Silent w w' := by
  rcases process_cases hw with ⟨count, rfl⟩ | ⟨t, tape, hwrite, hp⟩
  · exact ⟨rfl, fun _ => rfl, fun _ => rfl, fun _ => id, id⟩
  · obtain ⟨hsends, hstop⟩ := AudioTape.write_sends hwrite
    refine ⟨hp.reports, fun u => ?_, fun u => ?_, by simp [hp.port], by simp [hp.port]⟩
    all_goals by_cases hu : u = t
    · rw [hu, hp.self, hsends]
    · rw [hp.other u hu]
    · rw [hu, hp.self, hstop]
    · rw [hp.other u hu]

/-! ## Runs -/

/-- A call adds messages to those there are. -/
theorem call_reports {c : TapeCall} (hstart : ∀ now event, c = .event now event → event.type ≠ .start)
    (hw : w.call cfg c = .ok w') : ∃ more, w'.reports = w.reports ++ more := by
  have hevent {w w' : Recorder} {now : Int} {event : CaptureEvent} (hs : event.type ≠ .start)
      (hw : w.addCaptureEvent cfg now event = .ok w') : ∃ more, w'.reports = w.reports ++ more := by
    rcases addCaptureEvent_cases hs hw with ⟨-, hs⟩ | ⟨t, -, -, hs⟩
    · exact ⟨[], by rw [hs.reports, List.append_nil]⟩
    · obtain ⟨message, hreports, -⟩ := hs.reports
      exact ⟨_, hreports⟩
  cases c with
  | event now event => exact hevent (hstart now event rfl) hw
  | finalize now =>
    have hw : w.finalize cfg now = .ok w' := hw
    unfold Recorder.finalize at hw
    split at hw
    · obtain ⟨w₁, h₁, h₂⟩ := Except.bind_eq_ok.1 hw
      obtain ⟨more, hmore⟩ := hevent (by simp) h₁
      split at h₂
      · cases h₂
      · obtain ⟨w₂, h₃, h₄⟩ := Except.bind_eq_ok.1 h₂
        cases h₄
        obtain ⟨message, hreports, -⟩ := (asked_report h₃ (by simp)).reports
        exact ⟨more ++ _, by rw [hreports, hmore, List.append_assoc]⟩
    · cases hw
      exact ⟨[], by simp⟩
  | chunk chunk =>
    cases hw
    exact ⟨[], by rw [(silent_addToTape chunk).reports, List.append_nil]⟩
  | endVoice now =>
    obtain ⟨w₁, w₂, hs₁, -, -, h₂, hs₂⟩ := endVoice_cases hw
    rw [hs₂.reports, ← hs₁.reports]
    exact hevent (by simp) h₂
  | process io => exact ⟨[], by rw [(silent_process hw).reports, List.append_nil]⟩

theorem Turn.call (h : Turn w) {c : TapeCall}
    (hstart : ∀ now event, c = .event now event → event.type ≠ .start)
    (hw : w.call cfg c = .ok w') :
    (Protocol w'.reports ↔ InTurn cfg (.ok w) c) ∧ (Protocol w'.reports → Turn w') := by
  have hsilent (hs : Silent w w') : (Protocol w'.reports ↔ True) ∧ (Protocol w'.reports → Turn w') :=
    ⟨⟨fun _ => trivial, fun _ => (h.silent hs).protocol⟩, fun _ => h.silent hs⟩
  cases c with
  | event now event => exact h.addCaptureEvent (hstart now event rfl) hw
  | finalize now => exact h.finalize hw
  | chunk chunk =>
    cases hw
    exact hsilent (silent_addToTape chunk)
  | endVoice now => exact h.endVoice hw
  | process io => exact hsilent (silent_process hw)

/-- A failure ends the run. -/
theorem foldl_callStep_error (e : TapeFailure) : ∀ calls : List TapeCall,
    calls.foldl (callStep cfg) (.error e) = .error e
  | [] => rfl
  | _ :: calls => foldl_callStep_error e calls

theorem foldl_callStep_cons {c : TapeCall} {calls : List TapeCall}
    (h : (c :: calls).foldl (callStep cfg) (.ok w) = .ok w') :
    ∃ w₁, w.call cfg c = .ok w₁ ∧ calls.foldl (callStep cfg) (.ok w₁) = .ok w' := by
  rw [List.foldl_cons] at h
  cases hcall : w.call cfg c with
  | error e =>
    rw [show callStep cfg (.ok w) c = .error e from hcall, foldl_callStep_error] at h
    cases h
  | ok w₁ =>
    rw [show callStep cfg (.ok w) c = .ok w₁ from hcall] at h
    exact ⟨w₁, rfl, h⟩

theorem run_reports : ∀ {calls : List TapeCall} {w : Recorder},
    (∀ now event, .event now event ∈ calls → event.type ≠ .start) →
    calls.foldl (callStep cfg) (.ok w) = .ok w' → ∃ more, w'.reports = w.reports ++ more
  | [], w, _, hw => by
    cases hw
    exact ⟨[], by simp⟩
  | c :: calls, w, hone, hw => by
    obtain ⟨w₁, hcall, hw⟩ := foldl_callStep_cons hw
    obtain ⟨more, hmore⟩ := call_reports
      (fun now event heq => hone now event (heq ▸ List.mem_cons_self)) hcall
    obtain ⟨more', hmore'⟩ := run_reports
      (fun now event hm => hone now event (List.mem_cons_of_mem _ hm)) hw
    exact ⟨more ++ more', by rw [hmore', hmore, List.append_assoc]⟩

theorem Turn.run : ∀ {calls : List TapeCall} {w : Recorder}, Turn w →
    (∀ now event, .event now event ∈ calls → event.type ≠ .start) →
    calls.foldl (callStep cfg) (.ok w) = .ok w' →
    (Protocol w'.reports ↔ Run.Meets (callStep cfg) (InTurn cfg) (.ok w) calls) ∧
      (Protocol w'.reports → Turn w')
  | [], w, h, _, hw => by
    cases hw
    exact ⟨⟨fun _ => trivial, fun _ => h.protocol⟩, fun _ => h⟩
  | c :: calls, w, h, hone, hw => by
    obtain ⟨w₁, hcall, hw⟩ := foldl_callStep_cons hw
    have hcalls (now : Int) (event : CaptureEvent) (hm : .event now event ∈ calls) :
        event.type ≠ .start := hone now event (List.mem_cons_of_mem _ hm)
    obtain ⟨hp, hturn⟩ :=
      h.call (fun now event heq => hone now event (heq ▸ List.mem_cons_self)) hcall
    have hmeets : Run.Meets (callStep cfg) (InTurn cfg) (.ok w) (c :: calls) ↔
        InTurn cfg (.ok w) c ∧ Run.Meets (callStep cfg) (InTurn cfg) (.ok w₁) calls := by
      rw [Run.Meets, show callStep cfg (.ok w) c = .ok w₁ from hcall]
    rw [hmeets, ← hp]
    by_cases hprotocol : Protocol w₁.reports
    · obtain ⟨hp', hturn'⟩ := (hturn hprotocol).run hcalls hw
      exact ⟨hp'.trans (and_iff_right hprotocol).symm, hturn'⟩
    · -- What comes later does not mend the protocol.
      obtain ⟨more, hmore⟩ := run_reports hcalls hw
      have hnot : ¬ Protocol w'.reports := by
        rw [hmore, protocol_append]
        exact fun h' => hprotocol h'.1
      exact ⟨⟨fun h' => absurd h' hnot, fun h' => absurd h'.1 hprotocol⟩, fun h' => absurd h' hnot⟩

theorem turn_started (cfg : PortConfig) (id : String) (now : Int) (hstart : event.type = .start) :
    ∃ w, (new cfg id).addCaptureEvent cfg now event = .ok w ∧ Turn w := by
  have hw : (new cfg id).addCaptureEvent cfg now event =
      .ok (Recorder.startTape cfg { new cfg id with port := { id, lastUpdated := now } } now event) := by
    simp [Recorder.addCaptureEvent, hstart, Recorder.startTape, Recorder.new, store, resetTape,
      Recorder.setTape, Recorder.handleEvent]
  refine ⟨_, hw, ?_⟩
  have htape : (Recorder.startTape cfg { new cfg id with port := { id, lastUpdated := now } } now
      event).tape 0 = (AudioTape.new cfg.toTapeConfig now id).addCaptureEvent cfg.toTapeConfig now
        event true := by
    simp [Recorder.startTape, Recorder.new, store, resetTape, Recorder.setTape,
      ImmediateProcessing.setTape, Recorder.tape]
  exact {
    current := fun t ht => (Option.some.inj ht).symm
    protocol := trivial
    first := fun _ => by
      rw [htape, AudioTape.addCaptureEvent_toSendEventQueue, if_pos rfl]
      exact ⟨event, rfl, hstart⟩
    later := fun h => absurd rfl h
    stopped := by
      rw [htape, AudioTape.addCaptureEvent_shouldStop _ _ _ _ _ (by simp [hstart])]
      refine ⟨fun h => (by cases h), ?_⟩
      rintro ⟨_, hr, _⟩
      exact absurd hr List.not_mem_nil
    notReady := fun r hr => by cases hr
    needSendStop := fun h => by cases h }

/-- **The messages of a tape** have the stages of what caused them exactly when the calls come in turn:
`EtEndMetadata` once and before every other event a message is asked for, one `EtStop`, and no stop
outstanding at `Finalize`. When a tape with audio then arrives at the `Reporting` processor, it is ready
once and after the stop exactly when there was an `EtStop`, too. -/
theorem protocol_iff (cfg : PortConfig) (id : String) (now : Int) (start : CaptureEvent)
    (hstart : start.type = .start) (calls : List TapeCall)
    (hone : ∀ now event, .event now event ∈ calls → event.type ≠ .start) (w : Recorder)
    (hrun : calls.foldl (callStep cfg) ((new cfg id).addCaptureEvent cfg now start) = .ok w) :
    (Protocol w.reports ↔
      Run.Meets (callStep cfg) (InTurn cfg) ((new cfg id).addCaptureEvent cfg now start) calls) ∧
    ∀ w', w.arrive cfg 0 = .ok w' → 0 < (w.tape 0).bytesWritten →
      ((Protocol w'.reports ∧ ∃ r ∈ w'.reports, r.message.stage = some .ready) ↔
        Run.Meets (callStep cfg) (InTurn cfg) ((new cfg id).addCaptureEvent cfg now start) calls ∧
          (w.tape 0).shouldStop = true) := by
  obtain ⟨w₀, hw₀, hturn₀⟩ := turn_started cfg id now hstart
  rw [hw₀] at hrun ⊢
  obtain ⟨hp, hturn⟩ := hturn₀.run hone hrun
  refine ⟨hp, fun w' harrive haudio => ?_⟩
  obtain ⟨message, hm, rfl⟩ := report_eq_ok harrive
  obtain ⟨-, -, hready⟩ := AudioTape.getMessage_some hm
  rw [protocol_concat, ← hp]
  constructor
  · rintro ⟨⟨hprotocol, hstage, -, -, hafter⟩, -⟩
    exact ⟨hprotocol, (hturn hprotocol).stopped.2 (hafter hstage).1⟩
  · rintro ⟨hprotocol, hstop⟩
    have ht := hturn hprotocol
    obtain ⟨r, hr, hstopped⟩ := ht.stopped.1 hstop
    have hsaid : w.reports ≠ [] := List.ne_nil_of_mem hr
    have hstage := hready (ht.later hsaid) haudio
    refine ⟨⟨hprotocol, hstage, ?_, ?_, fun _ => ⟨⟨r, hr, hstopped⟩, ht.notReady⟩⟩, _,
      List.mem_append_right _ List.mem_cons_self, hstage⟩
    · simp [hstage]
    · simp [hstage]

/-- A tape with a packet of audio. -/
def recorded : List TapeCall := [.chunk spoken, .process fun _ => true]

def startOf : CaptureEvent := { type := .start, timestamp := 0, value := "A" }

/-- The call's metadata, a packet, and the stop. -/
def wholeCall : List TapeCall :=
  .event 0 { type := .endMetadata } :: recorded ++ [.event 60 { type := .stop, timestamp := 60 }]

/-- The capture ends before the call does. -/
def finalizedCall : List TapeCall := .event 0 { type := .endMetadata } :: recorded ++ [.finalize 60]

theorem protocol_wholeCall : ∃ w w',
    wholeCall.foldl (callStep {}) ((new {} "A").addCaptureEvent {} 0 startOf) = .ok w ∧
      w.arrive {} 0 = .ok w' ∧ Protocol w'.reports ∧ ∃ r ∈ w'.reports, r.message.stage = some .ready := by
  have hone (now : Int) (event : CaptureEvent) (h : .event now event ∈ wholeCall) :
      event.type ≠ .start := by
    rcases event with ⟨type⟩
    simp only [wholeCall, recorded, List.cons_append, List.nil_append, List.mem_cons] at h
    rcases h with h | h | h | h | h <;> cases h <;> decide
  refine ⟨_, _, rfl, rfl, ((protocol_iff {} "A" 0 startOf rfl wholeCall hone _ rfl).2 _ rfl
    (by decide)).2 ⟨⟨fun _ _ _ => ⟨⟨fun _ => rfl, fun _ => rfl⟩, nofun⟩, trivial, trivial,
    fun t ht _ => ⟨⟨nofun, fun h => ?_⟩, fun _ => ?_⟩, trivial⟩, rfl⟩⟩
  · exact absurd (congrArg List.length h) (by decide)
  · cases ht
    rfl

/-- `Finalize` gives a message of its own behind the stop, and the tape is ready twice. -/
theorem not_protocol_finalized : ∃ w w',
    finalizedCall.foldl (callStep {}) ((new {} "A").addCaptureEvent {} 0 startOf) = .ok w ∧
      w.arrive {} 0 = .ok w' ∧
      w'.reports.map (·.message.stage) =
        [some (.event .start), some (.event .stop), some .ready, some .ready] ∧
      ¬ Protocol w'.reports := by
  refine ⟨_, _, rfl, rfl, by decide, fun h => ?_⟩
  exact absurd h.2.2.1.1 (by decide)

end Recorder

end Oreka
