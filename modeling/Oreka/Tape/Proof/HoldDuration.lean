import Std.Data.String.ToInt
import Oreka.Lib.Stopwatch
import Oreka.Tape.Proof.StoppedTapes
import Oreka.Tape.Proof.Unfiltered

/-!
# Reported hold durations

The hold and resume events of a tape are the marks of a stopwatch, which is kept in two `int`s. The tag
of the stop message is what it shows, so it is the time on hold exactly if the call is not on hold any
more when it stops, and the times and their sum fit an `int` (`reportsHoldDuration_iff`).
-/

namespace Oreka

variable {cfg : PortConfig} {now : Int} {event : CaptureEvent}

/-- When a call goes on hold and off hold. -/
def holdMarks (events : List (Int × CaptureEvent)) : List (Int × Bool) :=
  events.map fun x => (x.1, decide (x.2.type = .hold))

namespace AudioTape

variable {t : AudioTape} {c : Stopwatch}

def stopwatch (t : AudioTape) : Stopwatch := ⟨t.lastHoldTs, t.holdDuration⟩

/-- A tape that has had nothing but a start and holds shows this. -/
structure Holding (t : AudioTape) (c : Stopwatch) : Prop where
  watch : t.stopwatch = c
  tags : t.tags = ∅
  passed : t.passedPartyFilterTest = false
  reported : ∀ event ∈ t.toSendEventQueue, event.type.isReported = true

/-- What an event that is not a tag and says nothing of the call does. -/
theorem addCaptureEvent_eq_storeEvent (c : TapeConfig) (t : AudioTape) (now : Int) (send : Bool)
    (he : event.type = .hold ∨ event.type = .resume) :
    t.addCaptureEvent c now event send = t.storeEvent event send := by
  have htag (u : AudioTape) : u.storeTag c event = u := by
    unfold storeTag
    rw [if_neg]
    rcases he with he | he
    · simp [he]
    · simp [he]
  have hinfo : t.extractInfo c now event = t := by
    unfold extractInfo
    rcases he with he | he
    · simp [he]
    · simp [he]
  rw [addCaptureEvent, htag, hinfo]

theorem Holding.sent (h : Holding t c) : Holding (t.sent cfg) c := by
  rw [sent_eq]
  refine ⟨h.watch, h.tags, h.passed, fun event he => ?_⟩
  dsimp only at he
  split at he
  · exact h.reported event he
  · exact h.reported event (List.mem_of_mem_tail he)

theorem Holding.storeEvent (h : Holding t c) (he : event.type.isReported = true) :
    Holding (t.storeEvent event true) c := by
  refine ⟨h.watch, h.tags, h.passed, fun e hmem => ?_⟩
  rcases List.mem_append.1 hmem with hmem | hmem
  · exact h.reported e hmem
  · rw [List.mem_singleton.1 hmem]
    exact he

theorem Holding.set (h : Holding t c) (lastHoldTs holdDuration : Int) :
    Holding { t with lastHoldTs, holdDuration } ⟨lastHoldTs, holdDuration⟩ :=
  ⟨rfl, h.tags, h.passed, h.reported⟩

/-- A hold or its end is a mark of the stopwatch. -/
theorem Holding.receive (h : Holding t c) (he : event.type = .hold ∨ event.type = .resume) :
    Holding (t.receive cfg now event) (c.mark (2 ^ 32) (now, decide (event.type = .hold))) := by
  have hreported : event.type.isReported = true := by
    rcases he with he | he
    · rw [he]
      rfl
    · rw [he]
      rfl
  have hstore {u : AudioTape} {c' : Stopwatch} (hu : Holding u c') :
      Holding ((u.addCaptureEvent cfg.toTapeConfig now event true).sent cfg) c' := by
    rw [addCaptureEvent_eq_storeEvent _ _ _ _ he]
    exact (hu.storeEvent hreported).sent
  have hwatch := h.watch
  subst hwatch
  rcases he with he | he
  · unfold AudioTape.receive Stopwatch.mark
    simp only [he, decide_true]
    by_cases hoff : t.lastHoldTs = 0
    · have hon := h.set (now.bmod (2 ^ 32)) t.holdDuration
      rw [if_pos hoff, if_pos (show t.stopwatch.lastOn = 0 from hoff)]
      split
      · exact hstore hon
      · exact hon
    · rw [if_neg hoff, if_neg (show t.stopwatch.lastOn ≠ 0 from hoff)]
      exact h
  · have hend : Holding (t.endHold now) ⟨t.lastHoldTs, (t.endHold now).holdDuration⟩ := by
      unfold endHold
      split
      · exact h.set t.lastHoldTs _
      · exact h
    have htotal : (t.endHold now).holdDuration = if t.stopwatch.lastOn > 0 then
        (t.stopwatch.total + (now - t.stopwatch.lastOn)).bmod (2 ^ 32) else t.stopwatch.total := by
      unfold endHold
      show _ = if t.lastHoldTs > 0 then _ else _
      split
      · rfl
      · rfl
    have hoff {u : AudioTape} {c' : Stopwatch} (hu : Holding u c') : Holding u.offHold ⟨0, c'.total⟩ := by
      have hwatch := hu.watch
      subst hwatch
      exact ⟨rfl, hu.tags, hu.passed, hu.reported⟩
    unfold AudioTape.receive Stopwatch.mark
    simp only [he, reduceCtorEq, decide_false]
    rw [← htotal]
    split
    · exact hoff (hstore hend)
    · exact hoff hend

/-! ## The stop -/

/-- The message of a stop has the tags of the tape. -/
theorem getMessage_tags {c : TapeConfig} {message : TapeMsg} (hne : t.toSendEventQueue ≠ [])
    (hreported : ∀ event ∈ t.toSendEventQueue, event.type.isReported = true)
    (h : (t.getMessage c).2 = some message) : t.isFiltered c = false ∧ message.tags = t.tags := by
  unfold getMessage at h
  split at h
  · cases h
  · rename_i hf
    cases hqueue : t.toSendEventQueue with
    | nil => exact absurd hqueue hne
    | cons event rest =>
      have hevent : event.type.isReported = true := hreported event (hqueue ▸ List.mem_cons_self)
      simp only [hqueue, hevent, if_true] at h
      cases h
      exact ⟨by simpa using hf, rfl⟩

/-- The tag is the total of the stopwatch. -/
theorem Holding.stopMessage (h : Holding t c) (he : event.type = .stop) {message : TapeMsg}
    (hm : (((t.tagHold cfg).addCaptureEvent cfg.toTapeConfig now event true).getMessage cfg.toTapeConfig).2 =
      some message) : cfg.partyFilterActive = false ∧ message.tags["holdduration"]? =
        if cfg.holdResumeReportDuration then some (toString c.total) else none := by
  have htagged : (t.tagHold cfg).toSendEventQueue = t.toSendEventQueue ∧
      (t.tagHold cfg).passedPartyFilterTest = t.passedPartyFilterTest := by
    unfold tagHold
    split
    · exact ⟨rfl, rfl⟩
    · exact ⟨rfl, rfl⟩
  have hstored : (t.tagHold cfg).addCaptureEvent cfg.toTapeConfig now event true =
      AudioTape.storeEvent { t.tagHold cfg with
        shouldStop := true, duration := event.timestamp - (t.tagHold cfg).beginDate } event true := by
    unfold AudioTape.addCaptureEvent AudioTape.storeTag AudioTape.extractInfo
    simp [he]
  rw [hstored] at hm
  have hreported (e : CaptureEvent) (hmem : e ∈ (t.tagHold cfg).toSendEventQueue ++ [event]) :
      e.type.isReported = true := by
    rcases List.mem_append.1 hmem with hmem | hmem
    · exact h.reported e (htagged.1 ▸ hmem)
    · rw [List.mem_singleton.1 hmem, he]
      rfl
  obtain ⟨hf, htags⟩ := getMessage_tags (by simp [AudioTape.storeEvent]) hreported hm
  have hsame : message.tags = (t.tagHold cfg).tags := htags
  have hpassed : (t.tagHold cfg).passedPartyFilterTest = false := htagged.2.trans h.passed
  have hduration : t.holdDuration = c.total := congrArg Stopwatch.total h.watch
  refine ⟨by simpa [isFiltered, AudioTape.storeEvent, hpassed] using hf, ?_⟩
  rw [hsame]
  unfold tagHold
  split
  · show (t.tags.insertIfNew "holdduration" (toString t.holdDuration))["holdduration"]? = _
    rw [Std.TreeMap.getElem?_insertIfNew, h.tags, hduration]
    simp
  · simp [h.tags]

end AudioTape

namespace Recorder

variable {w w' : Recorder} {t : Nat} {c : Stopwatch} {start stop : CaptureEvent} {began ended : Int}
  {events : List (Int × CaptureEvent)}

def addCaptureEvents (cfg : PortConfig) (w : Recorder) (events : List (Int × CaptureEvent)) :
    Except TapeFailure Recorder :=
  events.foldlM (fun w x => w.addCaptureEvent cfg x.1 x.2) w

/-- The tag that the last message has, if it has it, is this duration. -/
def ReportsHoldDuration (run : Except TapeFailure Recorder) (duration : Int) : Prop :=
  ∀ w, run = .ok w → ∀ report, w.reports.getLast? = some report →
    ∀ value, report.message.tags["holdduration"]? = some value → value = toString duration

/-- The tape of the port is one that has been started and held. -/
def HoldingTape (w : Recorder) (c : Stopwatch) : Prop := ∃ t, w.port.audioTape = some t ∧ (w.tape t).Holding c

/-- The tape receives an event that does not stop it. -/
theorem holdingTape_receiveEvent (ht : w.port.audioTape = some t) (hne : event.type ≠ .stop)
    (htape : ((w.tape t).receive cfg now event).Holding c) :
    HoldingTape (w.receiveEvent cfg t now event) c := by
  have hself := setTape_tape_self w t ((w.tape t).receive cfg now event)
  unfold receiveEvent
  rw [if_neg hne]
  exact ⟨t, ht, hself ▸ htape⟩

theorem holdingTape_start (hs : start.type = .start) (h : w.addCaptureEvent cfg began start = .ok w') :
    HoldingTape w' {} := by
  obtain ⟨reports, rfl⟩ := addCaptureEvent_eq_deliver h
  obtain ⟨port, -, heq⟩ := startTape_eq cfg { w with port := { w.port with lastUpdated := began } } began start
  have hne : start.type ≠ .stop := by simp [hs]
  have hstarted (id : String) : ((AudioTape.new cfg.toTapeConfig began id).addCaptureEvent cfg.toTapeConfig
      began start true).Holding {} := by
    unfold AudioTape.addCaptureEvent AudioTape.storeTag AudioTape.extractInfo
    simp only [hs, reduceCtorEq, false_and, if_false, AudioTape.storeEvent]
    split
    · exact ⟨rfl, rfl, rfl, by simp [AudioTape.new, hs, EventType.isReported]⟩
    · exact ⟨rfl, rfl, rfl, by simp [AudioTape.new, hs, EventType.isReported]⟩
  unfold deliver
  dsimp only
  rw [if_pos hs, heq]
  refine holdingTape_receiveEvent rfl hne ?_
  rw [opened_tape_self]
  unfold AudioTape.receive
  simp only [hs]
  exact hstarted w.port.id

theorem HoldingTape.addCaptureEvent (hw : HoldingTape w c) (he : event.type = .hold ∨ event.type = .resume)
    (h : w.addCaptureEvent cfg now event = .ok w') :
    HoldingTape w' (c.mark (2 ^ 32) (now, decide (event.type = .hold))) := by
  obtain ⟨t, ht, htape⟩ := hw
  obtain ⟨reports, rfl⟩ := addCaptureEvent_eq_deliver h
  have hne : event.type ≠ .start ∧ event.type ≠ .stop := by
    rcases he with he | he
    · simp [he]
    · simp [he]
  unfold deliver
  dsimp only
  rw [if_neg hne.1, ht]
  exact holdingTape_receiveEvent rfl hne.2 (htape.receive he)

theorem HoldingTape.addCaptureEvents : ∀ {events : List (Int × CaptureEvent)} {w w' : Recorder} {c : Stopwatch},
    HoldingTape w c → (∀ x ∈ events, x.2.type = .hold ∨ x.2.type = .resume) →
    w.addCaptureEvents cfg events = .ok w' → HoldingTape w' ((holdMarks events).foldl (Stopwatch.mark (2 ^ 32)) c)
  | [], _, _, _, hw, _, h => by
    cases h
    exact hw
  | x :: events, _, _, _, hw, hholds, h => by
    obtain ⟨w₁, h₁, h₂⟩ := Except.bind_eq_ok.1 h
    obtain ⟨hx, hrest⟩ := List.forall_mem_cons.1 hholds
    exact (hw.addCaptureEvent hx h₁).addCaptureEvents hrest h₂

theorem store_tagHoldDuration_tape (w : Recorder) (t : Nat) :
    ((w.tagHoldDuration cfg t).store cfg t now event true).tape t =
      ((w.tape t).tagHold cfg).addCaptureEvent cfg.toTapeConfig now event true := by
  rw [store, setTape_tape_self]
  refine congrArg (AudioTape.addCaptureEvent cfg.toTapeConfig · now event true) ?_
  unfold tagHoldDuration AudioTape.tagHold
  split
  · exact setTape_tape_self ..
  · rfl

/-- The message of the stop is the last. -/
theorem HoldingTape.stopped (hw : HoldingTape w c) (hs : stop.type = .stop)
    (h : w.addCaptureEvent cfg ended stop = .ok w') :
    cfg.partyFilterActive = false ∧ ∃ report, w'.reports.getLast? = some report ∧
      report.message.tags["holdduration"]? =
        if cfg.holdResumeReportDuration then some (toString c.total) else none := by
  obtain ⟨t, ht, htape⟩ := hw
  unfold Recorder.addCaptureEvent at h
  dsimp only at h
  rw [if_neg (by simp [hs]), ht] at h
  unfold handleEvent at h
  simp only [hs] at h
  obtain ⟨w₁, h₁, h₂⟩ := Except.bind_eq_ok.1 h
  obtain ⟨message, hm, rfl⟩ := report_eq_ok h₁
  cases h₂
  rw [store_tagHoldDuration_tape] at hm
  obtain ⟨hf, htag⟩ := htape.stopMessage hs hm
  exact ⟨hf, _, List.getLast?_concat .., htag⟩

theorem addCaptureEvents_ok (hf : cfg.partyFilterActive = false) :
    ∀ (events : List (Int × CaptureEvent)) (w : Recorder), ∃ w', w.addCaptureEvents cfg events = .ok w'
  | [], w => ⟨w, rfl⟩
  | x :: events, w => by
    obtain ⟨w₁, h₁⟩ := addCaptureEvent_ok hf w x.1 x.2
    obtain ⟨w₂, h₂⟩ := addCaptureEvents_ok hf events w₁
    exact ⟨w₂, Except.bind_eq_ok.2 ⟨w₁, h₁, h₂⟩⟩

/-- **The hold duration that a call reports when it stops is the time that it was on hold** exactly if,
where one is reported at all, no time passes between the last hold and the stop that no resume ends, the
time of each hold that lasts reads positive as an `int`, and the time on hold is less than 2^31 seconds.
-/
theorem reportsHoldDuration_iff (cfg : PortConfig) (w : Recorder) (hstart : start.type = .start)
    (hstop : stop.type = .stop) (hholds : ∀ x ∈ events, x.2.type = .hold ∨ x.2.type = .resume)
    (hsorted : (events.map (·.1) ++ [ended]).Pairwise (· ≤ ·)) :
    ReportsHoldDuration (w.addCaptureEvents cfg ((began, start) :: events ++ [(ended, stop)]))
        (Stopwatch.timeOn ended none (holdMarks events)) ↔
      (cfg.holdResumeReportDuration = true → cfg.partyFilterActive = false →
        Stopwatch.Counted (2 ^ 32) ended none (holdMarks events) ∧
          Stopwatch.timeOn ended none (holdMarks events) < 2 ^ 31) := by
  have hmarks : (holdMarks events).map (·.1) = events.map (·.1) := by simp [holdMarks]
  have hiff := Stopwatch.total_eq_iff (M := 2 ^ 32) (by decide) (holdMarks events) (hmarks ▸ hsorted)
  have hrun {w' : Recorder}
      (h : w.addCaptureEvents cfg ((began, start) :: events ++ [(ended, stop)]) = .ok w') :
      cfg.partyFilterActive = false ∧ ∃ report, w'.reports.getLast? = some report ∧
        report.message.tags["holdduration"]? = if cfg.holdResumeReportDuration then
          some (toString ((holdMarks events).foldl (Stopwatch.mark (2 ^ 32)) {}).total) else none := by
    obtain ⟨w₁, h₁, h₂⟩ := Except.bind_eq_ok.1 h
    have h₂ : w₁.addCaptureEvents cfg (events ++ [(ended, stop)]) = .ok w' := h₂
    unfold addCaptureEvents at h₂
    rw [List.foldlM_append] at h₂
    obtain ⟨w₂, h₂, h₃⟩ := Except.bind_eq_ok.1 h₂
    obtain ⟨w₃, h₃, h₄⟩ := Except.bind_eq_ok.1 h₃
    cases h₄
    exact ((holdingTape_start hstart h₁).addCaptureEvents hholds h₂).stopped hstop h₃
  have hfits : ((2 ^ 32 : Nat) + 1 : Int) / 2 = 2 ^ 31 := by decide
  rw [hfits] at hiff
  rw [← hiff]
  apply Iff.intro
  · intro h hreport hf
    obtain ⟨w', hw'⟩ := addCaptureEvents_ok hf ((began, start) :: events ++ [(ended, stop)]) w
    obtain ⟨-, report, hlast, htag⟩ := hrun hw'
    rw [if_pos hreport] at htag
    exact Int.repr_injective (h w' hw' report hlast _ htag)
  · intro h w' hw' report hlast value hvalue
    obtain ⟨hf, report', hlast', htag⟩ := hrun hw'
    cases hlast.symm.trans hlast'
    rw [hvalue] at htag
    split at htag
    · rename_i hreport
      rw [Option.some.inj htag, h hreport hf]
    · cases htag

/-- A hold of ten seconds, and one of twenty that another `EtHold` does not begin again. -/
def twoHolds : List (Int × CaptureEvent) :=
  [(10, { type := .hold }), (20, { type := .resume }), (30, { type := .resume }), (40, { type := .hold }),
    (50, { type := .hold }), (60, { type := .resume })]

def reportsDuration : PortConfig := { holdResumeReportDuration := true }

theorem reportsHoldDuration_twoHolds :
    ReportsHoldDuration ((new reportsDuration "A").addCaptureEvents reportsDuration
      ((1, { type := .start }) :: twoHolds ++ [(70, { type := .stop })])) 30 :=
  (reportsHoldDuration_iff reportsDuration (new reportsDuration "A") rfl rfl (by simp [twoHolds])
    (by simp [twoHolds])).2 fun _ _ => ⟨by simp [holdMarks, twoHolds, Stopwatch.Counted], by decide⟩

/-- The call stops while it is on hold. -/
theorem not_reportsHoldDuration :
    ¬ ReportsHoldDuration ((new reportsDuration "A").addCaptureEvents reportsDuration
        ((1, { type := .start }) :: [(10, { type := .hold })] ++ [(60, { type := .stop })]))
      (Stopwatch.timeOn 60 none (holdMarks [(10, { type := .hold })])) := by
  intro h
  have hvalue := h _ rfl _ rfl "0" (by decide)
  exact absurd hvalue (by decide)

end Recorder

end Oreka
