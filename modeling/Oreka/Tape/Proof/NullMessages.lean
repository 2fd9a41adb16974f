import Oreka.Tape.Proof.MessageStages

/-!
# Messages that are not there

`GetMessage` leaves the message unset where the party filter is active and no party of the tape has
passed it, and `Reporting::AddMessage` does not test it. The calls that ask for a message of such a tape
are the ones that end the program so (`neverNull_iff`).
-/

namespace Oreka

variable {cfg : PortConfig} {w w' : Recorder} {t : Nat} {now : Int} {event : CaptureEvent}

namespace AudioTape

theorem getMessage_eq_none_iff (c : TapeConfig) (t : AudioTape) :
    (t.getMessage c).2 = none ↔ t.isFiltered c = true := by
  unfold getMessage
  by_cases hf : t.isFiltered c = true
  · simp [hf]
  · rw [if_neg hf]
    cases t.toSendEventQueue with
    | nil => simp [hf]
    | cons event rest => simp [hf]

/-- Only a party is tried on the filter. -/
theorem isFiltered_addCaptureEvent (c : TapeConfig) (t : AudioTape) (now : Int) (send : Bool)
    (hlocal : event.type ≠ .localParty) (hremote : event.type ≠ .remoteParty) :
    (t.addCaptureEvent c now event send).isFiltered c = t.isFiltered c := by
  have hinfo : (t.extractInfo c now event).passedPartyFilterTest = t.passedPartyFilterTest := by
    cases he : event.type with
    | localParty => exact absurd he hlocal
    | remoteParty => exact absurd he hremote
    | start =>
      simp only [extractInfo, he]
      split <;> rfl
    | keyValue =>
      simp only [extractInfo, he]
      repeat' split
      all_goals rfl
    | _ => simp [extractInfo, he, addDirectionMark]
  have htag (t : AudioTape) : (t.storeTag c event).passedPartyFilterTest = t.passedPartyFilterTest := by
    obtain ⟨tags, htags⟩ := storeTag_eq c t event
    rw [htags]
  unfold addCaptureEvent isFiltered
  rw [htag]
  exact congrArg (fun passed => !passed && c.partyFilterActive) hinfo

end AudioTape

namespace Recorder

theorem report_eq_nullMessage_iff (w : Recorder) (t : Nat) (cause : Cause) :
    w.report cfg t cause = .error .nullMessage ↔ (w.tape t).isFiltered cfg.toTapeConfig = true := by
  rw [← AudioTape.getMessage_eq_none_iff]
  unfold report
  dsimp only
  cases ((w.tape t).getMessage cfg.toTapeConfig).2 with
  | none => simp
  | some message => simp

theorem isFiltered_store (w : Recorder) (t : Nat) (hlocal : event.type ≠ .localParty)
    (hremote : event.type ≠ .remoteParty) :
    ((w.store cfg t now event true).tape t).isFiltered cfg.toTapeConfig =
      (w.tape t).isFiltered cfg.toTapeConfig := by
  unfold store
  rw [setTape_tape_self]
  exact AudioTape.isFiltered_addCaptureEvent _ _ _ _ hlocal hremote

/-- What follows a call and does not fail changes nothing. -/
theorem bind_eq_nullMessage_iff {x : Except TapeFailure Recorder} {f : Recorder → Recorder} :
    (do let w ← x; return f w) = .error .nullMessage ↔ x = .error .nullMessage := by
  rw [Except.bind_eq_error]
  constructor
  · intro h
    rcases h with h | ⟨w, -, hw⟩
    · exact h
    · cases hw
  · exact .inl

/-- Storing an event that is no party, and asking for a message. -/
theorem storeReport_eq_nullMessage_iff (hlocal : event.type ≠ .localParty) (hremote : event.type ≠ .remoteParty)
    (cause : Cause) :
    (w.store cfg t now event true).report cfg t cause = .error .nullMessage ↔
      (w.tape t).isFiltered cfg.toTapeConfig = true := by
  rw [report_eq_nullMessage_iff, isFiltered_store w t hlocal hremote]

theorem tagHoldDuration_port (cfg : PortConfig) (w : Recorder) (t : Nat) :
    (w.tagHoldDuration cfg t).port = w.port := by
  unfold tagHoldDuration
  split
  · rfl
  · rfl

theorem isFiltered_tagHoldDuration (w : Recorder) (t : Nat) :
    ((w.tagHoldDuration cfg t).tape t).isFiltered cfg.toTapeConfig =
      (w.tape t).isFiltered cfg.toTapeConfig := by
  unfold tagHoldDuration
  split
  · rw [setTape_tape_self]
    rfl
  · rfl

theorem stopTape_eq_nullMessage_iff (hstop : event.type = .stop) :
    w.stopTape cfg t now event = .error .nullMessage ↔ (w.tape t).isFiltered cfg.toTapeConfig = true := by
  unfold stopTape
  rw [bind_eq_nullMessage_iff, storeReport_eq_nullMessage_iff (by simp [hstop]) (by simp [hstop]),
    isFiltered_tagHoldDuration]
  rfl

theorem holdTape_eq_nullMessage_iff (hhold : event.type = .hold) :
    w.holdTape cfg t now event = .error .nullMessage ↔
      ((w.tape t).lastHoldTs = 0 ∧ cfg.holdResumeReportEvents = true) ∧
        (w.tape t).isFiltered cfg.toTapeConfig = true := by
  unfold holdTape
  by_cases hts : (w.tape t).lastHoldTs = 0
  · rw [if_pos hts]
    by_cases hreport : cfg.holdResumeReportEvents = true
    · dsimp only
      rw [if_pos hreport, storeReport_eq_nullMessage_iff (by simp [hhold]) (by simp [hhold]), setTape_tape_self]
      simp only [hts, hreport, and_self, true_and]
      rfl
    · simp [hts, hreport]
  · simp [hts]

theorem resumeTape_eq_nullMessage_iff (hresume : event.type = .resume) :
    w.resumeTape cfg t now event = .error .nullMessage ↔
      (cfg.holdResumeReportEvents = true ∧ (w.tape t).lastHoldTs > 0) ∧
        (w.tape t).isFiltered cfg.toTapeConfig = true := by
  have hcount : ((w.countHold t now).tape t).isFiltered cfg.toTapeConfig =
        (w.tape t).isFiltered cfg.toTapeConfig ∧
      ((w.countHold t now).tape t).lastHoldTs = (w.tape t).lastHoldTs := by
    unfold countHold
    split
    · rw [setTape_tape_self]
      exact ⟨rfl, rfl⟩
    · exact ⟨rfl, rfl⟩
  unfold resumeTape
  rw [bind_eq_nullMessage_iff]
  unfold reportResume
  rw [hcount.2]
  by_cases hreport : cfg.holdResumeReportEvents ∧ (w.tape t).lastHoldTs > 0
  · rw [if_pos hreport, storeReport_eq_nullMessage_iff (by simp [hresume]) (by simp [hresume]), hcount.1]
    exact (and_iff_right hreport).symm
  · simp [hreport]

/-- **An event leads to a null message** where it asks for one of a tape that has not passed the filter. -/
theorem handleEvent_eq_nullMessage_iff : w.handleEvent cfg t now event = .error .nullMessage ↔
    (w.tape t).Asks cfg event.type ∧ (w.tape t).isFiltered cfg.toTapeConfig = true := by
  unfold handleEvent AudioTape.Asks
  cases he : event.type with
  | stop => simpa using stopTape_eq_nullMessage_iff he
  | hold => exact holdTape_eq_nullMessage_iff he
  | resume => exact resumeTape_eq_nullMessage_iff he
  | endMetadata =>
    dsimp only
    rw [bind_eq_nullMessage_iff, report_eq_nullMessage_iff, true_and]
  | update =>
    dsimp only
    rw [storeReport_eq_nullMessage_iff (by simp [he]) (by simp [he]), true_and]
  | _ => simp

theorem addCaptureEvent_eq_nullMessage_iff (hstart : event.type ≠ .start) :
    w.addCaptureEvent cfg now event = .error .nullMessage ↔ ∃ t, w.port.audioTape = some t ∧
      (w.tape t).Asks cfg event.type ∧ (w.tape t).isFiltered cfg.toTapeConfig = true := by
  unfold addCaptureEvent
  dsimp only
  rw [if_neg hstart]
  cases ht : w.port.audioTape with
  | none => simp
  | some t =>
    dsimp only
    rw [handleEvent_eq_nullMessage_iff]
    simp only [Option.some.injEq, exists_eq_left']
    rfl

theorem addCaptureEvent_start_ne_nullMessage (hstart : event.type = .start) :
    w.addCaptureEvent cfg now event ≠ .error .nullMessage := by
  unfold addCaptureEvent
  dsimp only
  rw [if_pos hstart]
  split
  · intro h
    cases h
  · unfold handleEvent
    rw [hstart]
    intro h
    cases h

theorem endVoice_eq_nullMessage_iff : w.endVoice cfg now = .error .nullMessage ↔
    ∃ t, w.port.audioTape = some t ∧ (w.tape t).isFiltered cfg.toTapeConfig = true := by
  unfold endVoice
  dsimp only
  rw [bind_eq_nullMessage_iff, addCaptureEvent_eq_nullMessage_iff (by simp)]
  simp [AudioTape.Asks, tape]

/-- A message leaves the port and what the filter has said. -/
theorem report_ok_keeps {cause : Cause} (h : w.report cfg t cause = .ok w') :
    w'.port = w.port ∧ (w'.tape t).isFiltered cfg.toTapeConfig = (w.tape t).isFiltered cfg.toTapeConfig := by
  obtain ⟨message, -, rfl⟩ := report_eq_ok h
  refine ⟨rfl, ?_⟩
  have htape : Recorder.tape { w.setTape t ((w.tape t).getMessage cfg.toTapeConfig).1 with
      reports := w.reports ++ [⟨t, cause, message⟩] } t = ((w.tape t).getMessage cfg.toTapeConfig).1 :=
    setTape_tape_self w t _
  rw [htape]
  rcases AudioTape.getMessage_eq cfg.toTapeConfig (w.tape t) with h | h
  · rw [h]
  · rw [h]
    rfl

theorem stopTape_ok_keeps (hstop : event.type = .stop) (h : w.stopTape cfg t now event = .ok w') :
    w'.port.audioTape = w.port.audioTape ∧
      (w'.tape t).isFiltered cfg.toTapeConfig = (w.tape t).isFiltered cfg.toTapeConfig := by
  obtain ⟨w₁, h₁, h₂⟩ := Except.bind_eq_ok.1 h
  cases h₂
  obtain ⟨hport, hfiltered⟩ := report_ok_keeps h₁
  rw [isFiltered_store _ _ (by simp [hstop]) (by simp [hstop]), isFiltered_tagHoldDuration] at hfiltered
  constructor
  · show w₁.port.audioTape = w.port.audioTape
    rw [hport]
    have hkept := congrArg CapturePort.audioTape
      (tagHoldDuration_port cfg { w with port := { w.port with capturing := false } } t)
    exact hkept
  · rw [push_tape_self]
    exact hfiltered

/-- `Finalize` asks once for its stop and once more, of the same tape. -/
theorem finalize_eq_nullMessage_iff : w.finalize cfg now = .error .nullMessage ↔
    w.port.needSendStop = true ∧
      ∃ t, w.port.audioTape = some t ∧ (w.tape t).isFiltered cfg.toTapeConfig = true := by
  unfold finalize
  by_cases hneed : w.port.needSendStop = true
  · rw [if_pos hneed, Except.bind_eq_error, addCaptureEvent_eq_nullMessage_iff (by simp)]
    simp only [AudioTape.Asks, true_and, hneed]
    apply or_iff_left
    rintro ⟨w₁, h₁, h₂⟩
    unfold addCaptureEvent at h₁
    dsimp only at h₁
    rw [if_neg (by simp)] at h₁
    split at h₁
    · rename_i ht
      cases h₁
      dsimp only at h₂
      rw [ht] at h₂
      cases h₂
    · rename_i t ht
      obtain ⟨hport, hfiltered⟩ := stopTape_ok_keeps rfl h₁
      dsimp only at hport h₂
      rw [hport, ht] at h₂
      dsimp only at h₂
      rw [bind_eq_nullMessage_iff, report_eq_nullMessage_iff, hfiltered] at h₂
      -- the stop would have had no message either
      have hnull := h₁.symm.trans (handleEvent_eq_nullMessage_iff.2 ⟨trivial, h₂⟩)
      cases hnull
  · simp [hneed]

end Recorder

namespace AudioTape

theorem writeChunk_ne_nullMessage (c : TapeConfig) (io : Bool) (t : AudioTape) (chunk : AudioChunk) :
    t.writeChunk c io chunk ≠ .error .nullMessage := by
  unfold writeChunk
  dsimp only
  repeat' split
  all_goals
    intro h
    cases h

theorem writeChunks_ne_nullMessage (c : TapeConfig) : ∀ (chunks : List AudioChunk) (io : Nat → Bool)
    (t : AudioTape), writeChunks c io chunks t ≠ .error .nullMessage
  | [], _, _, h => by cases h
  | chunk :: rest, io, t, h => by
    rcases Except.bind_eq_error.1 h with h | ⟨t', -, h⟩
    · exact writeChunk_ne_nullMessage c _ _ chunk h
    · exact writeChunks_ne_nullMessage c rest _ t' h

theorem write_ne_nullMessage (c : TapeConfig) (io : Nat → Bool) (t : AudioTape) :
    t.write c io ≠ .error .nullMessage := by
  unfold write
  split
  · intro h
    cases h
  · intro h
    rcases Except.bind_eq_error.1 h with h | ⟨t', -, h⟩
    · unfold writeLoop at h
      split at h
      · cases h
      · exact writeChunks_ne_nullMessage c _ io t h
    · cases h

end AudioTape

namespace Recorder

/-- The processing thread asks for no message. -/
theorem process_ne_nullMessage (w : Recorder) (io : Nat → Bool) : w.process cfg io ≠ .error .nullMessage := by
  unfold process
  split
  · intro h
    cases h
  · unfold processNext
    split
    · intro h
      cases h
    · unfold writeTape
      intro h
      rcases Except.bind_eq_error.1 h with h | ⟨tape, -, h⟩
      · exact AudioTape.write_ne_nullMessage _ io _ h
      · cases h

/-- The program has not ended for a null message. -/
def NeverNull (s : Except TapeFailure Recorder) : Prop := s ≠ .error .nullMessage

/-- The tape of which a message is asked has passed the filter, or the filter is inactive. -/
def PassedWhereAsked (cfg : PortConfig) (s : Except TapeFailure Recorder) (c : TapeCall) : Prop :=
  match s, c with
  | .ok w, .event _ event =>
    ∀ t, w.port.audioTape = some t → (w.tape t).Asks cfg event.type →
      (w.tape t).isFiltered cfg.toTapeConfig = false
  | .ok w, .finalize _ =>
    w.port.needSendStop = true → ∀ t, w.port.audioTape = some t → (w.tape t).isFiltered cfg.toTapeConfig = false
  | .ok w, .endVoice _ => ∀ t, w.port.audioTape = some t → (w.tape t).isFiltered cfg.toTapeConfig = false
  | _, _ => True

theorem neverNull_callStep_iff (w : Recorder) (c : TapeCall) :
    NeverNull (callStep cfg (.ok w) c) ↔ PassedWhereAsked cfg (.ok w) c := by
  show w.call cfg c ≠ .error .nullMessage ↔ _
  cases c with
  | event now event =>
    unfold call PassedWhereAsked
    by_cases hstart : event.type = .start
    · refine iff_of_true (addCaptureEvent_start_ne_nullMessage hstart) fun t _ hasks => ?_
      rw [hstart] at hasks
      exact hasks.elim
    · simp [addCaptureEvent_eq_nullMessage_iff hstart]
  | finalize now =>
    unfold call PassedWhereAsked
    simp [finalize_eq_nullMessage_iff]
  | chunk chunk => exact iff_of_true (by simp [call]) trivial
  | endVoice now =>
    unfold call PassedWhereAsked
    simp [endVoice_eq_nullMessage_iff]
  | process io => exact iff_of_true (process_ne_nullMessage w io) trivial

/-- **Reporting never receives a null message**, whatever happens on a port, exactly if every tape of
which a message is asked has passed the filter, or the filter is inactive. -/
theorem neverNull_iff (cfg : PortConfig) (w : Recorder) (calls : List TapeCall) :
    Run.Always (callStep cfg) NeverNull (.ok w) calls ↔
      Run.Meets (callStep cfg) (PassedWhereAsked cfg) (.ok w) calls := by
  refine Run.always_iff_meets (I := fun _ => True) (fun _ _ _ => trivial) (fun s c _ hs => ?_) trivial ?_
  · cases s with
    | ok w => exact neverNull_callStep_iff w c
    | error e => exact iff_of_true hs trivial
  · intro h
    cases h

/-- A call of which no party is on the filter ends. -/
theorem not_neverNull : ¬ Run.Always (callStep { partyFilterActive := true }) NeverNull
    (.ok (new { partyFilterActive := true } "A"))
    [.event 0 startOf, .event 1 { type := .localParty, value := "200" },
      .event 60 { type := .stop, timestamp := 60 }] := by
  intro h
  exact h.2.2.2 rfl

end Recorder

end Oreka
