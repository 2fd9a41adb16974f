import Oreka.Tape.Proof.NullMessages
import Oreka.Tape.Proof.Recordings

/-!
# Stopped tapes

Whether `Write` stops a tape that was told to stop depends on the party filter: of a tape that it
rejects, `Write` throws the chunks away and returns. `deliver` is `AddCaptureEvent` up to
`Reporting::AddMessage`, which is given the message or none. In a run of it every tape with an `EtStop`
is stopped by its last `Write` exactly if none is rejected there (`stopsInactive_iff`).
-/

namespace Oreka

namespace AudioTape

variable {cfg : PortConfig} {t t' : AudioTape} {now : Int} {event : CaptureEvent}

/-- What an event leaves alone of the tape that receives it. -/
theorem quiet_receive (cfg : PortConfig) (t : AudioTape) (now : Int) (event : CaptureEvent) :
    Quiet t (t.receive cfg now event) := by
  have hsent (t : AudioTape) : Quiet t (t.sent cfg) := quiet_getMessage cfg.toTapeConfig t
  have hend (t : AudioTape) : Quiet t (t.endHold now) := by
    unfold endHold
    split
    · exact { Quiet.refl t with }
    · exact .refl t
  have hoff (t : AudioTape) : Quiet t t.offHold := { Quiet.refl t with }
  unfold receive
  cases he : event.type with
  | start => exact .refl t
  | stop =>
    have htag : Quiet t (t.tagHold cfg) := by
      unfold tagHold
      split
      · exact { Quiet.refl t with }
      · exact .refl t
    exact (htag.trans (quiet_addCaptureEvent _ _ _ _ _ (by simp [he]))).trans (hsent _)
  | hold =>
    have hhold : Quiet t { t with lastHoldTs := now.bmod (2 ^ 32) } := { Quiet.refl t with }
    dsimp only
    split
    · split
      · exact (hhold.trans (quiet_addCaptureEvent _ _ _ _ _ (by simp [he]))).trans (hsent _)
      · exact hhold
    · exact .refl t
  | resume =>
    dsimp only
    split
    · exact (((hend t).trans (quiet_addCaptureEvent _ _ _ _ _ (by simp [he]))).trans (hsent _)).trans (hoff _)
    · exact (hend t).trans (hoff _)
  | endMetadata => exact hsent t
  | update => exact (quiet_addCaptureEvent _ t _ _ _ (by simp [he])).trans (hsent _)
  | _ => exact quiet_addCaptureEvent _ t _ _ _ (by simp [he])

theorem hasStop_iff : t.HasStop ↔ 0 < t.numStops := by
  unfold HasStop numStops
  rw [List.countP_pos_iff]
  simp

theorem hasStop_receive_iff : (t.receive cfg now event).HasStop ↔ t.HasStop ∨ event.type = .stop := by
  rw [hasStop_iff, hasStop_iff, receive_numStops]
  by_cases hs : event.type = .stop
  · simp [hs]
  · simp [hs]

/-! ## `Write` -/

theorem discardChunks_keeps : ∀ (chunks : List AudioChunk) (t : AudioTape),
    (discardChunks chunks t).state = t.state ∧ (discardChunks chunks t).isQueued = t.isQueued
  | [], _ => ⟨rfl, rfl⟩
  | chunk :: rest, t => discardChunks_keeps rest (t.popped chunk rest)

theorem isQueued_writeChunk {c : TapeConfig} {io : Bool} {chunk : AudioChunk}
    (h : t.writeChunk c io chunk = .ok t') : t'.isQueued = t.isQueued := by
  have hcreate : (t.createFile chunk).isQueued = t.isQueued := by
    unfold createFile
    split
    · rfl
    · rfl
  unfold writeChunk at h
  rw [← hcreate]
  dsimp only at h
  split at h
  · split at h
    · cases h
      rfl
    · split at h
      · cases h
      · cases h
        cases io <;> rfl
  · cases h
    rfl

theorem isQueued_writeChunks {c : TapeConfig} : ∀ (chunks : List AudioChunk) {io : Nat → Bool}
    {t t' : AudioTape}, writeChunks c io chunks t = .ok t' → t'.isQueued = t.isQueued
  | [], _, _, _, h => by
    cases h
    rfl
  | chunk :: rest, _, t, _, h => by
    obtain ⟨t₁, h₁, h₂⟩ := Except.bind_eq_ok.1 h
    have hpopped : (t.popped chunk rest).isQueued = t.isQueued := rfl
    exact (isQueued_writeChunks rest h₂).trans ((isQueued_writeChunk h₁).trans hpopped)

theorem isQueued_write {c : TapeConfig} {io : Nat → Bool} (h : t.write c io = .ok t') :
    t'.isQueued = t.isQueued := by
  unfold write at h
  split at h
  · cases h
    rw [(discardChunks_keeps _ _).2]
    split
    · rfl
    · rfl
  · obtain ⟨t₁, h₁, h₂⟩ := Except.bind_eq_ok.1 h
    cases h₂
    have hloop : t₁.isQueued = t.isQueued := by
      unfold writeLoop at h₁
      split at h₁
      · cases h₁
        rfl
      · exact isQueued_writeChunks _ h₁
    rw [← hloop]
    unfold stopIfTold
    split
    · rfl
    · rfl

/-- A tape that the filter rejects is not stopped by `Write`. -/
theorem write_of_isFiltered {c : TapeConfig} (io : Nat → Bool) (hf : t.isFiltered c = true)
    (hs : t.state ≠ .stopped) : ∃ t', t.write c io = .ok t' ∧ t'.state ≠ .stopped := by
  unfold write
  rw [if_pos hf]
  refine ⟨_, rfl, ?_⟩
  rw [(discardChunks_keeps _ _).1]
  split
  · simp
  · exact hs

/-- One that it does not reject is, if it was told to stop. -/
theorem state_write {c : TapeConfig} {io : Nat → Bool} (hf : t.isFiltered c = false)
    (hstop : t.shouldStop = true) (h : t.write c io = .ok t') : t'.state = .stopped := by
  have hshould : t'.shouldStop = true := (write_sends h).2.trans hstop
  unfold write at h
  rw [if_neg (by simp [hf])] at h
  obtain ⟨t₁, h₁, h₂⟩ := Except.bind_eq_ok.1 h
  cases h₂
  unfold stopIfTold at hshould ⊢
  by_cases hto : t₁.isToStop = true
  · rw [if_pos hto]
    rfl
  · rw [if_neg hto] at hshould ⊢
    unfold isToStop at hto
    have hstopped : t₁.state = .stopped ∧ t₁.state ≠ .error := by simpa [hshould] using hto
    exact hstopped.1

end AudioTape

namespace Recorder

variable {cfg : PortConfig} {w w' : Recorder} {t u : Nat} {now : Int} {event : CaptureEvent} {tape : AudioTape}

/-! ## Events up to their messages -/

/-- What an event does to the tape of the port, and `AddAudioTape` for a stop. -/
def receiveEvent (cfg : PortConfig) (w : Recorder) (t : Nat) (now : Int) (event : CaptureEvent) : Recorder :=
  let w' := w.received cfg t now event (needSendStopAfter w.port.needSendStop event.type) w.reports
  if event.type = .stop then w'.push t else w'

/-- `AddCaptureEvent`, up to what `Reporting::AddMessage` does with a message. -/
def deliver (cfg : PortConfig) (w : Recorder) (now : Int) (event : CaptureEvent) : Recorder :=
  let w := { w with port := { w.port with lastUpdated := now } }
  let w := if event.type = .start then w.startTape cfg now event else w
  match w.port.audioTape with
  | none => w
  | some t => w.receiveEvent cfg t now event

/-- `Finalize` up to its messages. -/
def deliverFinalize (cfg : PortConfig) (w : Recorder) (now : Int) : Except TapeFailure Recorder :=
  if w.port.needSendStop then
    let w := w.deliver cfg now { type := .stop, timestamp := now }
    match w.port.audioTape with
    | none => .error .nullAudioTape
    | some t => .ok { w.setTape t ((w.tape t).sent cfg) with port := { w.port with needSendStop := false } }
  else .ok w

def deliverCall (cfg : PortConfig) (w : Recorder) : TapeCall → Except TapeFailure Recorder
  | .event now event => .ok (w.deliver cfg now event)
  | .finalize now => w.deliverFinalize cfg now
  | .chunk chunk => .ok (w.addToTape cfg chunk)
  | .endVoice now =>
    let w := { w with port := { w.port with vadUp := false } }
    let w := w.deliver cfg now { type := .stop, timestamp := now }
    .ok { w with port := { w.port with audioTape := none } }
  | .process io => w.process cfg io

def deliverStep (cfg : PortConfig) (s : Except TapeFailure Recorder) (c : TapeCall) :
    Except TapeFailure Recorder := do
  let w ← s
  w.deliverCall cfg c

/-- Where `AddCaptureEvent` returns, it is `deliver`, and its messages. -/
theorem addCaptureEvent_eq_deliver (h : w.addCaptureEvent cfg now event = .ok w') :
    ∃ reports, w' = { w.deliver cfg now event with reports } := by
  unfold addCaptureEvent at h
  unfold deliver
  dsimp only at h ⊢
  generalize (if event.type = .start then
    startTape cfg { w with port := { w.port with lastUpdated := now } } now event
    else { w with port := { w.port with lastUpdated := now } }) = d at h ⊢
  cases ht : d.port.audioTape with
  | none =>
    rw [ht] at h
    cases h
    exact ⟨_, rfl⟩
  | some t =>
    rw [ht] at h
    obtain ⟨reports, rfl⟩ := handleEvent_eq h
    refine ⟨reports, ?_⟩
    dsimp only
    unfold receiveEvent
    split
    · rfl
    · rfl

theorem deliverFinalize_eq {t : Nat} (hneed : w.port.needSendStop = true)
    (ht : (w.deliver cfg now { type := .stop, timestamp := now }).port.audioTape = some t) :
    w.deliverFinalize cfg now =
      let d := w.deliver cfg now { type := .stop, timestamp := now }
      .ok { d.setTape t ((d.tape t).sent cfg) with port := { d.port with needSendStop := false } } := by
  unfold deliverFinalize
  rw [if_pos hneed]
  dsimp only
  split
  · rename_i hnone
    cases ht.symm.trans hnone
  · rename_i u hu
    cases ht.symm.trans hu
    rfl

theorem call_eq_deliver {c : TapeCall} (h : w.call cfg c = .ok w') :
    ∃ w'' reports, w.deliverCall cfg c = .ok w'' ∧ w' = { w'' with reports } := by
  cases c with
  | event now event =>
    obtain ⟨reports, heq⟩ := addCaptureEvent_eq_deliver h
    exact ⟨_, reports, rfl, heq⟩
  | finalize now =>
    show ∃ w'' reports, w.deliverFinalize cfg now = .ok w'' ∧ _
    have h : w.finalize cfg now = .ok w' := h
    unfold finalize at h
    split at h
    · rename_i hneed
      obtain ⟨w₁, h₁, h₂⟩ := Except.bind_eq_ok.1 h
      obtain ⟨reports, rfl⟩ := addCaptureEvent_eq_deliver h₁
      dsimp only at h₂
      cases ht : (w.deliver cfg now { type := .stop, timestamp := now }).port.audioTape with
      | none =>
        rw [ht] at h₂
        cases h₂
      | some t =>
        rw [ht] at h₂
        obtain ⟨w₂, h₂, h₃⟩ := Except.bind_eq_ok.1 h₂
        obtain ⟨reports', rfl⟩ := report_eq h₂
        cases h₃
        exact ⟨_, reports', deliverFinalize_eq hneed ht, rfl⟩
    · rename_i hneed
      cases h
      exact ⟨w, w.reports, if_neg hneed, rfl⟩
  | chunk chunk =>
    cases h
    exact ⟨_, _, rfl, rfl⟩
  | endVoice now =>
    obtain ⟨w₁, h₁, h₂⟩ := Except.bind_eq_ok.1 h
    obtain ⟨reports, rfl⟩ := addCaptureEvent_eq_deliver h₁
    cases h₂
    exact ⟨_, reports, rfl, rfl⟩
  | process io => exact ⟨w', w'.reports, h, rfl⟩

/-! ## The invariant -/

/-- The queue has each tape once that is marked as queued, of those that were made; a tape with an
`EtStop` was told to stop, and a tape that is stopped was not rejected. -/
structure StopInv (cfg : PortConfig) (w : Recorder) : Prop where
  nodup : w.imm.audioTapeQueue.Nodup
  queued : ∀ t, (w.tape t).isQueued = true ↔ t ∈ w.imm.audioTapeQueue
  made : ∀ t ∈ w.imm.audioTapeQueue, t < w.numTapes
  current : ∀ t, w.port.audioTape = some t → t < w.numTapes
  told : ∀ t, (w.tape t).HasStop → (w.tape t).shouldStop = true
  passed : ∀ t, (w.tape t).state = .stopped → (w.tape t).isFiltered cfg.toTapeConfig = false

theorem StopInv.setTape (h : StopInv cfg w) (hq : AudioTape.Quiet (w.tape t) tape)
    (htold : tape.HasStop → tape.shouldStop = true) : StopInv cfg (w.setTape t tape) := by
  refine ⟨h.nodup, fun u => ?_, h.made, h.current, fun u => ?_, fun u => ?_⟩
  all_goals by_cases hu : u = t
  · subst hu
    rw [setTape_tape_self, hq.isQueued]
    exact h.queued u
  · rw [setTape_tape_of_ne w hu]
    exact h.queued u
  · subst hu
    rw [setTape_tape_self]
    exact htold
  · rw [setTape_tape_of_ne w hu]
    exact h.told u
  · subst hu
    rw [setTape_tape_self, hq.state]
    exact fun hs => hq.isFiltered (h.passed u hs)
  · rw [setTape_tape_of_ne w hu]
    exact h.passed u

theorem StopInv.port (h : StopInv cfg w) {port : CapturePort}
    (hport : ∀ t, port.audioTape = some t → t < w.numTapes) : StopInv cfg { w with port } :=
  ⟨h.nodup, h.queued, h.made, hport, h.told, h.passed⟩

theorem StopInv.push (h : StopInv cfg w) (ht : t < w.numTapes) : StopInv cfg (w.push t) := by
  have hsame (u : Nat) : (w.push t).tape u = { w.tape u with isQueued := ((w.push t).tape u).isQueued } := by
    by_cases hu : u = t
    · rw [hu, push_tape_self]
    · rw [push_tape_of_ne w hu]
  refine ⟨nodup_push (h.queued t) h.nodup, fun u => ?_, fun u hu => ?_, h.current, fun u => ?_, fun u => ?_⟩
  · rw [mem_push (h.queued t)]
    by_cases hu : u = t
    · rw [hu, push_tape_self]
      simp
    · rw [push_tape_of_ne w hu, h.queued u]
      simp [hu]
  · rcases (mem_push (h.queued t)).1 hu with hu | rfl
    · exact h.made u hu
    · exact ht
  · rw [hsame]
    exact h.told u
  · rw [hsame]
    exact h.passed u

theorem StopInv.opened (h : StopInv cfg w) (hqueued : tape.isQueued = false) (hstop : ¬ tape.HasStop)
    (hstate : tape.state ≠ .stopped) : StopInv cfg (w.opened tape) := by
  have hnot : w.numTapes ∉ w.imm.audioTapeQueue := fun hm => Nat.lt_irrefl _ (h.made _ hm)
  refine ⟨h.nodup, fun u => ?_, fun u hu => Nat.lt_succ_of_lt (h.made u hu), fun u hu => ?_, fun u => ?_,
    fun u => ?_⟩
  · by_cases hu : u = w.numTapes
    · subst hu
      rw [opened_tape_self, hqueued]
      exact iff_of_false Bool.false_ne_true hnot
    · rw [opened_tape_of_ne w tape hu]
      exact h.queued u
  · rw [← Option.some.inj hu]
    exact Nat.lt_succ_self _
  · by_cases hu : u = w.numTapes
    · subst hu
      rw [opened_tape_self]
      exact fun hs => absurd hs hstop
    · rw [opened_tape_of_ne w tape hu]
      exact h.told u
  · by_cases hu : u = w.numTapes
    · subst hu
      rw [opened_tape_self]
      exact fun hs => absurd hs hstate
    · rw [opened_tape_of_ne w tape hu]
      exact h.passed u

/-! ## What a call adds -/

/-- A tape of the new state with an `EtStop` waits for `Write`, or had one before and its state is the
same. -/
structure StopsQueued (w w' : Recorder) : Prop where
  queue : ∀ u ∈ w.imm.audioTapeQueue, u ∈ w'.imm.audioTapeQueue
  stop : ∀ u, (w'.tape u).HasStop →
    u ∈ w'.imm.audioTapeQueue ∨ (w.tape u).HasStop ∧ (w'.tape u).state = (w.tape u).state

theorem StopsQueued.refl (w : Recorder) : StopsQueued w w := ⟨fun _ => id, fun _ h => .inr ⟨h, rfl⟩⟩

theorem StopsQueued.trans {w'' : Recorder} (h : StopsQueued w w') (h' : StopsQueued w' w'') :
    StopsQueued w w'' := by
  refine ⟨fun u hu => h'.queue u (h.queue u hu), fun u hu => ?_⟩
  rcases h'.stop u hu with hq | ⟨hstop, hstate⟩
  · exact .inl hq
  · rcases h.stop u hstop with hq | ⟨hstop', hstate'⟩
    · exact .inl (h'.queue u hq)
    · exact .inr ⟨hstop', hstate.trans hstate'⟩

theorem StopsQueued.setTape (hstop : tape.HasStop → (w.tape t).HasStop)
    (hstate : tape.state = (w.tape t).state) : StopsQueued w (w.setTape t tape) := by
  refine ⟨fun _ => id, fun u hu => .inr ?_⟩
  by_cases hut : u = t
  · subst hut
    rw [setTape_tape_self] at hu ⊢
    exact ⟨hstop hu, hstate⟩
  · rw [setTape_tape_of_ne w hut] at hu ⊢
    exact ⟨hu, rfl⟩

theorem StopsQueued.port (w : Recorder) (port : CapturePort) : StopsQueued w { w with port } :=
  ⟨fun _ => id, fun _ h => .inr ⟨h, rfl⟩⟩

theorem StopsQueued.push (h : StopInv cfg w) : StopsQueued w (w.push t) := by
  refine ⟨fun u hu => (mem_push (h.queued t)).2 (.inl hu), fun u hu => .inr ?_⟩
  by_cases hut : u = t
  · subst hut
    rw [push_tape_self] at hu ⊢
    exact ⟨hu, rfl⟩
  · rw [push_tape_of_ne w hut] at hu ⊢
    exact ⟨hu, rfl⟩

theorem StopsQueued.opened (hstop : ¬ tape.HasStop) : StopsQueued w (w.opened tape) := by
  refine ⟨fun _ => id, fun u hu => .inr ?_⟩
  by_cases hut : u = w.numTapes
  · subst hut
    rw [opened_tape_self] at hu
    exact absurd hu hstop
  · rw [opened_tape_of_ne w tape hut] at hu ⊢
    exact ⟨hu, rfl⟩

/-! ## The calls of the port -/

/-- The invariant is kept, and tapes with an `EtStop` are queued. -/
def StopsKept (cfg : PortConfig) (w w' : Recorder) : Prop := StopInv cfg w → StopInv cfg w' ∧ StopsQueued w w'

theorem StopsKept.trans {w'' : Recorder} (h : StopsKept cfg w w') (h' : StopsKept cfg w' w'') :
    StopsKept cfg w w'' := by
  intro hi
  obtain ⟨hi', hq⟩ := h hi
  obtain ⟨hi'', hq'⟩ := h' hi'
  exact ⟨hi'', hq.trans hq'⟩

theorem stopsKept_port {port : CapturePort}
    (hport : port.audioTape = w.port.audioTape ∨ port.audioTape = none) : StopsKept cfg w { w with port } := by
  intro h
  refine ⟨h.port fun t ht => ?_, .port w port⟩
  rcases hport with hsame | hnone
  · exact h.current t (hsame ▸ ht)
  · rw [hnone] at ht
    cases ht

theorem stopsKept_setTape (hq : AudioTape.Quiet (w.tape t) tape) (hevents : tape.HasStop → (w.tape t).HasStop)
    (hshould : (w.tape t).shouldStop = true → tape.shouldStop = true) : StopsKept cfg w (w.setTape t tape) :=
  fun h => ⟨h.setTape hq fun hs => hshould (h.told t (hevents hs)), .setTape hevents hq.state⟩

/-- The tape that an `EtStop` goes to is queued. -/
theorem stopsKept_receiveEvent (ht : w.port.audioTape = some t) :
    StopsKept cfg w (w.receiveEvent cfg t now event) := by
  intro h
  have hq := AudioTape.quiet_receive cfg (w.tape t) now event
  have hset : StopInv cfg (w.setTape t ((w.tape t).receive cfg now event)) := by
    refine h.setTape hq fun hs => ?_
    rw [AudioTape.receive_shouldStop]
    rcases AudioTape.hasStop_receive_iff.1 hs with hs | hs
    · simp [h.told t hs]
    · simp [hs]
  have hreceived : StopInv cfg (w.received cfg t now event
      (needSendStopAfter w.port.needSendStop event.type) w.reports) := hset.port h.current
  unfold receiveEvent
  dsimp only
  split
  · rename_i hstop
    have hqueue := hreceived.queued t
    refine ⟨hreceived.push (h.current t ht), fun u hu => (mem_push hqueue).2 (.inl hu), fun u hu => ?_⟩
    by_cases hut : u = t
    · exact .inl ((mem_push hqueue).2 (.inr hut))
    · rw [push_tape_of_ne _ hut] at hu ⊢
      have hsame := setTape_tape_of_ne w hut ((w.tape t).receive cfg now event)
      exact .inr ⟨hsame ▸ hu, congrArg AudioTape.state hsame⟩
  · rename_i hstop
    have hsame : StopsQueued w (w.setTape t ((w.tape t).receive cfg now event)) :=
      .setTape (fun hs => (AudioTape.hasStop_receive_iff.1 hs).resolve_right hstop) hq.state
    exact ⟨hreceived, hsame.queue, hsame.stop⟩

theorem stopsKept_retired : StopsKept cfg w w.retired := by
  unfold retired
  cases ht : w.port.audioTape with
  | none => exact fun h => ⟨h, .refl w⟩
  | some t =>
    have htold : StopsKept cfg w (w.setTape t { w.tape t with shouldStop := true }) :=
      stopsKept_setTape { AudioTape.Quiet.refl (w.tape t) with } id fun _ => rfl
    exact htold.trans (stopsKept_port (.inr rfl))

theorem stopsKept_startTape (hstart : event.type = .start) : StopsKept cfg w (w.startTape cfg now event) := by
  obtain ⟨port, hport, heq⟩ := startTape_eq cfg w now event
  obtain ⟨hstate, -, -, hqueued, -, -⟩ := AudioTape.addCaptureEvent_fields cfg.toTapeConfig
    (.new cfg.toTapeConfig now w.port.id) now event true
  have hstop : ¬ ((AudioTape.new cfg.toTapeConfig now w.port.id).addCaptureEvent cfg.toTapeConfig now event
      true).HasStop := by
    unfold AudioTape.HasStop
    rw [AudioTape.addCaptureEvent_eventQueue]
    simp [AudioTape.new, hstart]
  rw [heq]
  refine stopsKept_retired.trans ((stopsKept_port (.inl hport)).trans fun h => ?_)
  refine ⟨h.opened hqueued hstop ?_, .opened hstop⟩
  rw [hstate]
  simp [AudioTape.new]

theorem stopsKept_deliver (w : Recorder) (now : Int) (event : CaptureEvent) :
    StopsKept cfg w (w.deliver cfg now event) := by
  unfold deliver
  dsimp only
  have hupdated : StopsKept cfg w { w with port := { w.port with lastUpdated := now } } :=
    stopsKept_port (.inl rfl)
  have hstarted : StopsKept cfg w (if event.type = .start then
      startTape cfg { w with port := { w.port with lastUpdated := now } } now event
      else { w with port := { w.port with lastUpdated := now } }) := by
    split
    · rename_i hstart
      exact hupdated.trans (stopsKept_startTape hstart)
    · exact hupdated
  split
  · exact hstarted
  · rename_i t ht
    exact hstarted.trans (stopsKept_receiveEvent ht)

theorem stopsKept_sent (t : Nat) : StopsKept cfg w (w.setTape t ((w.tape t).sent cfg)) := by
  refine stopsKept_setTape (AudioTape.quiet_getMessage cfg.toTapeConfig _) ?_ ?_
  · unfold AudioTape.HasStop
    rw [AudioTape.sent_eq]
    exact id
  · rw [AudioTape.sent_eq]
    exact id

theorem stopsKept_deliverFinalize (hw : w.deliverFinalize cfg now = .ok w') : StopsKept cfg w w' := by
  unfold deliverFinalize at hw
  split at hw
  · dsimp only at hw
    split at hw
    · cases hw
    · rename_i t ht
      cases hw
      exact (stopsKept_deliver w now _).trans ((stopsKept_sent t).trans (stopsKept_port (.inl rfl)))
  · cases hw
    exact fun h => ⟨h, .refl w⟩

theorem stopsKept_addToTape (w : Recorder) (chunk : AudioChunk) : StopsKept cfg w (w.addToTape cfg chunk) := by
  unfold addToTape
  split
  · rename_i t ht
    split
    · obtain ⟨hq, hshould⟩ := AudioTape.quiet_addAudioChunk cfg.toTapeConfig (w.tape t) chunk
      refine StopsKept.trans (stopsKept_setTape hq ?_ (by rw [hshould]; exact id)) fun h =>
        ⟨h.push (h.current t ht), .push h⟩
      unfold AudioTape.HasStop AudioTape.addAudioChunk AudioTape.queueChunk
      repeat' split
      all_goals exact id
    · exact fun h => ⟨h, .refl w⟩
  · exact fun h => ⟨h, .refl w⟩

/-- Every call but a round of the processing thread. -/
theorem stopsKept_deliverCall {c : TapeCall} (hc : ∀ io, c ≠ .process io) (hw : w.deliverCall cfg c = .ok w') :
    StopsKept cfg w w' := by
  cases c with
  | event now event =>
    cases hw
    exact stopsKept_deliver w now event
  | finalize now => exact stopsKept_deliverFinalize hw
  | chunk chunk =>
    cases hw
    exact stopsKept_addToTape w chunk
  | endVoice now =>
    cases hw
    have hdown : StopsKept cfg w { w with port := { w.port with vadUp := false } } := stopsKept_port (.inl rfl)
    exact (hdown.trans (stopsKept_deliver _ now _)).trans (stopsKept_port (.inr rfl))
  | process io => exact absurd rfl (hc io)

/-! ## The processing thread -/

theorem Processed.hasStop_iff {io : Nat → Bool}
    (hwrite : AudioTape.write cfg.toTapeConfig io { w.tape t with isQueued := false } = .ok tape)
    (hp : Processed cfg w w' t tape) (u : Nat) : (w'.tape u).HasStop ↔ (w.tape u).HasStop := by
  by_cases hut : u = t
  · subst hut
    have hmeta := congrArg AudioTape.eventQueue (AudioTape.metadata_write hwrite)
    have hevents : tape.eventQueue = (w.tape u).eventQueue := hmeta
    rw [hp.self]
    unfold AudioTape.HasStop
    rw [← hevents]
  · rw [hp.other u hut]

theorem StopInv.processed (h : StopInv cfg w) {io : Nat → Bool}
    (hwrite : AudioTape.write cfg.toTapeConfig io { w.tape t with isQueued := false } = .ok tape)
    (hp : Processed cfg w w' t tape) : StopInv cfg w' := by
  have hnodup : t ∉ w'.imm.audioTapeQueue ∧ w'.imm.audioTapeQueue.Nodup :=
    List.nodup_cons.1 (hp.queue ▸ h.nodup)
  refine ⟨hnodup.2, fun u => ?_, fun u hu => ?_, fun u hu => ?_, fun u hu => ?_, fun u hs => ?_⟩
  · by_cases hut : u = t
    · subst hut
      have hqueued : tape.isQueued = false := AudioTape.isQueued_write hwrite
      rw [hp.self]
      simp [hqueued, hnodup.1]
    · rw [hp.other u hut, h.queued u, hp.queue]
      simp [hut]
  · rw [hp.numTapes]
    exact h.made u (hp.queue ▸ List.mem_cons_of_mem t hu)
  · rw [hp.numTapes]
    exact h.current u (hp.port ▸ hu)
  · have hold := h.told u ((hp.hasStop_iff hwrite u).1 hu)
    by_cases hut : u = t
    · subst hut
      rw [hp.self]
      exact (AudioTape.write_sends hwrite).2.trans hold
    · rw [hp.other u hut]
      exact hold
  · by_cases hut : u = t
    · subst hut
      rw [hp.self] at hs ⊢
      have hmeta := congrArg (AudioTape.isFiltered cfg.toTapeConfig) (AudioTape.metadata_write hwrite)
      have hsame : tape.isFiltered cfg.toTapeConfig = (w.tape u).isFiltered cfg.toTapeConfig := hmeta
      show tape.isFiltered cfg.toTapeConfig = false
      rw [hsame]
      by_contra hf
      have hfiltered : (w.tape u).isFiltered cfg.toTapeConfig = true := by simpa using hf
      have hnot : (w.tape u).state ≠ .stopped := fun hstopped => hf (h.passed u hstopped)
      obtain ⟨tape', hwrite', hstate⟩ := AudioTape.write_of_isFiltered io
        (t := { w.tape u with isQueued := false }) hfiltered hnot
      cases hwrite.symm.trans hwrite'
      exact hstate hs
    · rw [hp.other u hut] at hs ⊢
      exact h.passed u hs

/-! ## Runs -/

/-- A tape with an `EtStop` that does not wait for `Write` any more is stopped, and its port can expire. -/
def StopsInactive (s : Except TapeFailure Recorder) : Prop :=
  ∀ w, s = .ok w → ∀ t, (w.tape t).HasStop → t ∉ w.imm.audioTapeQueue →
    (w.tape t).state = .stopped ∧
      (w.port.audioTape = some t → ∀ now, now - w.port.lastUpdated > 600 → w.isExpired now = true)

/-- `Write` does not reject the tape, if it has an `EtStop`. -/
def PassedWhereWritten (cfg : PortConfig) (s : Except TapeFailure Recorder) (c : TapeCall) : Prop :=
  match s, c with
  | .ok w, .process _ => w.imm.count ≠ 0 → ∀ t, w.imm.audioTapeQueue.head? = some t →
      (w.tape t).HasStop → (w.tape t).isFiltered cfg.toTapeConfig = false
  | _, _ => True

theorem isExpired_of_stopped (ht : w.port.audioTape = some t) (hs : (w.tape t).state = .stopped)
    (hnow : now - w.port.lastUpdated > 600) : w.isExpired now = true := by
  simp [isExpired, ht, hs, hnow]

theorem stopsInactive_iff_state : StopsInactive (.ok w) ↔
    ∀ t, (w.tape t).HasStop → t ∉ w.imm.audioTapeQueue → (w.tape t).state = .stopped := by
  apply Iff.intro
  · intro h t hstop hq
    exact (h w rfl t hstop hq).1
  · intro h w' hw' t hstop hq
    cases hw'
    have hs := h t hstop hq
    exact ⟨hs, fun ht now hnow => isExpired_of_stopped ht hs hnow⟩

theorem StopsInactive.grow (h : StopsInactive (.ok w)) (hq : StopsQueued w w') : StopsInactive (.ok w') := by
  rw [stopsInactive_iff_state] at h ⊢
  intro t hstop hnot
  rcases hq.stop t hstop with hmem | ⟨hstop', hstate⟩
  · exact absurd hmem hnot
  · rw [hstate]
    exact h t hstop' fun hm => hnot (hq.queue t hm)

/-- A round of the processing thread whose `Write` does not fail. -/
theorem processed_of_write {io : Nat → Bool} {rest : List Nat} (hcount : w.imm.count ≠ 0)
    (hqueue : w.imm.audioTapeQueue = t :: rest)
    (hwrite : AudioTape.write cfg.toTapeConfig io { w.tape t with isQueued := false } = .ok tape) :
    ∃ w', w.process cfg io = .ok w' ∧ Processed cfg w w' t tape := by
  have hpopped := setTape_tape_self w t { w.tape t with isQueued := false }
  have hpop := ImmediateProcessing.pop_cons (p := { w.imm with count := w.imm.count - 1 }) hqueue
  unfold process
  rw [if_neg hcount]
  unfold processNext
  rw [hpop]
  refine ⟨_, Except.bind_eq_ok.2 ⟨tape, ?_, rfl⟩, .passOn rfl rfl rfl hqueue (setTape_tape_self ..)
    (fun u hu => ?_) rfl rfl⟩
  · exact (congrArg (AudioTape.write _ io) hpopped).trans hwrite
  · rw [setTape_tape_of_ne _ hu]
    exact setTape_tape_of_ne w hu _

theorem stopsInactive_process_iff (h : StopInv cfg w) (hw : StopsInactive (.ok w)) (io : Nat → Bool) :
    StopsInactive (w.process cfg io) ↔ PassedWhereWritten cfg (.ok w) (.process io) := by
  apply Iff.intro
  · intro hp hcount t hhead hstop
    by_contra hf
    have hfiltered : (w.tape t).isFiltered cfg.toTapeConfig = true := by simpa using hf
    obtain ⟨rest, hqueue⟩ := List.head?_eq_some_iff.1 hhead
    have hnot : (w.tape t).state ≠ .stopped := fun hs => hf (h.passed t hs)
    obtain ⟨tape, hwrite, hstate⟩ := AudioTape.write_of_isFiltered io
      (t := { w.tape t with isQueued := false }) hfiltered hnot
    obtain ⟨w', hw', hdone⟩ := processed_of_write hcount hqueue hwrite
    rw [hw', stopsInactive_iff_state] at hp
    have hleft : t ∉ w'.imm.audioTapeQueue := (List.nodup_cons.1 (hdone.queue ▸ h.nodup)).1
    have hs := hp t ((hdone.hasStop_iff hwrite t).2 hstop) hleft
    rw [hdone.self] at hs
    exact hstate hs
  · intro hc
    by_cases hcount : w.imm.count = 0
    · unfold process
      rw [if_pos hcount]
      exact hw
    cases hw' : w.process cfg io with
    | error e =>
      intro _ he
      cases he
    | ok w' =>
      rcases process_cases hw' with ⟨count, rfl⟩ | ⟨t, tape, hwrite, hdone⟩
      · rw [stopsInactive_iff_state] at hw ⊢
        exact hw
      · rw [stopsInactive_iff_state] at hw ⊢
        intro u hstop hnot
        have hstop' := (hdone.hasStop_iff hwrite u).1 hstop
        by_cases hut : u = t
        · subst hut
          have hhead : w.imm.audioTapeQueue.head? = some u := by rw [hdone.queue]; rfl
          have hstopped : tape.state = .stopped :=
            AudioTape.state_write (t := { w.tape u with isQueued := false })
              (hc hcount u hhead hstop') (h.told u hstop') hwrite
          rw [hdone.self]
          exact hstopped
        · rw [hdone.other u hut]
          refine hw u hstop' fun hm => hnot ?_
          rw [hdone.queue] at hm
          exact (List.mem_cons.1 hm).resolve_left hut

theorem stopsInactive_step_iff (h : StopInv cfg w) (hw : StopsInactive (.ok w)) (c : TapeCall) :
    StopsInactive (deliverStep cfg (.ok w) c) ↔ PassedWhereWritten cfg (.ok w) c := by
  show StopsInactive (w.deliverCall cfg c) ↔ _
  by_cases hc : ∃ io, c = .process io
  · obtain ⟨io, rfl⟩ := hc
    exact stopsInactive_process_iff h hw io
  · have hnot (io : Nat → Bool) : c ≠ .process io := fun he => hc ⟨io, he⟩
    apply iff_of_true
    · cases hw' : w.deliverCall cfg c with
      | error e =>
        intro _ he
        cases he
      | ok w' => exact hw.grow (stopsKept_deliverCall hnot hw' h).2
    · cases c with
      | process io => exact absurd rfl (hnot io)
      | _ => trivial

theorem StopInv.deliverCall (h : StopInv cfg w) {c : TapeCall} (hw : w.deliverCall cfg c = .ok w') :
    StopInv cfg w' := by
  by_cases hc : ∃ io, c = .process io
  · obtain ⟨io, rfl⟩ := hc
    rcases process_cases hw with ⟨count, rfl⟩ | ⟨t, tape, hwrite, hdone⟩
    · exact ⟨h.nodup, h.queued, h.made, h.current, h.told, h.passed⟩
    · exact h.processed hwrite hdone
  · exact (stopsKept_deliverCall (fun io he => hc ⟨io, he⟩) hw h).1

theorem stopInv_new (cfg : PortConfig) (id : String) : StopInv cfg (new cfg id) := by
  refine ⟨List.nodup_nil, fun t => ?_, fun t ht => ?_, fun t ht => ?_, fun t ht => ?_, fun t ht => ?_⟩
  · simp [new, tape, AudioTape.new]
  · simp [new] at ht
  · simp [new] at ht
  · simp [new, tape, AudioTape.new, AudioTape.HasStop] at ht
  · simp [new, tape, AudioTape.new] at ht

end Recorder

end Oreka
