import Oreka.Tape.Proof.Written

/-!
# Every recording is finished once

`Inv` holds on every run whose starts find no recording under way that is off the queue: a tape that is
not the port's is told to stop; a tape told to stop that has chunks in its file is stopped or will be
processed; and a stopped tape has been passed on or deleted once.
-/

namespace Oreka

namespace AudioTape

/-- The recording was too short to be kept, or no `EtStop` came for it. -/
def IsShort (min : Int) (t : AudioTape) : Prop :=
  0 < min ∧ (¬ t.HasStop ∨
    ∃ event ∈ t.eventQueue, event.type = .stop ∧ event.timestamp - t.beginDate < min)

/-- Why the file of a recording may be deleted. -/
def IsDeletable (min : Int) (t : AudioTape) : Prop :=
  t.IsShort min ∨ ∃ event ∈ t.eventQueue, SaysNotKept event

theorem isShort_of_duration {min : Int} {t : AudioTape} (hd : t.DurationOk) (hmin : 0 < min)
    (h : t.duration < min) : t.IsShort min := by
  rcases hd with ⟨-, hno⟩ | ⟨event, he, hs, hduration⟩
  · exact ⟨hmin, .inl hno⟩
  · exact ⟨hmin, .inr ⟨event, he, hs, hduration ▸ h⟩⟩

/-- More events leave the reason there is, unless an `EtStop` comes where none did. -/
theorem IsDeletable.mono {min : Int} {t t' : AudioTape} (h : t.IsDeletable min)
    (hstop : t'.HasStop → t.HasStop) (hbegin : t'.beginDate = t.beginDate)
    (hevents : ∀ event ∈ t.eventQueue, event ∈ t'.eventQueue) : t'.IsDeletable min := by
  rcases h with ⟨hmin, hno | ⟨event, he, hs, hlt⟩⟩ | ⟨event, he, hs⟩
  · exact .inl ⟨hmin, .inl fun h => hno (hstop h)⟩
  · exact .inl ⟨hmin, .inr ⟨event, hevents _ he, hs, by rwa [hbegin]⟩⟩
  · exact .inr ⟨event, hevents _ he, hs⟩

theorem HasStop.quiet {t t' : AudioTape} (h : t.HasStop) (hq : Quiet t t') : t'.HasStop := by
  obtain ⟨event, he, hs⟩ := h
  exact ⟨event, hq.events _ he, hs⟩

end AudioTape

namespace Recorder

variable (cfg : PortConfig)

/-- What holds of the tape `t`; the tape `p` has just been told to stop and is still to be pushed. -/
structure TapeInv (p : Option Nat) (w : Recorder) (t : Nat) : Prop where
  ok : (w.tape t).Ok cfg.toTapeConfig
  queue : (w.tape t).isQueued = true ↔ t ∈ w.imm.audioTapeQueue
  current : w.port.audioTape = some t → t < w.numTapes
  others : t < w.numTapes → w.port.audioTape ≠ some t → (w.tape t).shouldStop = true
  told : w.port.audioTape = some t → (w.tape t).shouldStop = true → (w.tape t).HasStop
  stops : p ≠ some t → (w.tape t).shouldStop = true → (w.tape t).written ≠ [] →
    (w.tape t).state = .stopped ∨ (w.tape t).isQueued = true
  onlyTold : (w.tape t).state = .stopped → (w.tape t).shouldStop = true
  finished : (w.processed ++ w.deleted).count t =
    if (w.tape t).state = .stopped ∧ 0 < (w.tape t).bytesWritten then 1 else 0
  fresh : w.numTapes ≤ t → (w.tape t).state = .created ∧ (w.tape t).isQueued = false
  deleted : t ∈ w.deleted → (w.tape t).IsDeletable cfg.tapeDurationMinimumSec

structure Inv (p : Option Nat) (w : Recorder) : Prop where
  tapes : ∀ t, TapeInv cfg p w t
  nodup : w.imm.audioTapeQueue.Nodup

/-- Nothing of the port's tape is in a file. -/
def Blank (w : Recorder) : Prop := ∀ t, w.port.audioTape = some t → (w.tape t).written = []

variable {cfg} {w w' : Recorder} {p q : Option Nat} {t u : Nat} {now : Int} {event : CaptureEvent}

@[simp] theorem setTape_tape_self (w : Recorder) (t : Nat) (tape : AudioTape) :
    (w.setTape t tape).tape t = tape := w.imm.setTape_self t tape

theorem setTape_tape_of_ne (w : Recorder) (h : u ≠ t) (tape : AudioTape) :
    (w.setTape t tape).tape u = w.tape u := w.imm.setTape_of_ne h tape

/-- A step leaves a tape and its place alone. -/
theorem TapeInv.frame (h : TapeInv cfg p w t) (htape : w'.tape t = w.tape t)
    (hcurrent : w'.port.audioTape = some t ↔ w.port.audioTape = some t)
    (hnum : w'.numTapes = w.numTapes)
    (hqueue : t ∈ w'.imm.audioTapeQueue ↔ t ∈ w.imm.audioTapeQueue)
    (hprocessed : w'.processed.count t = w.processed.count t)
    (hdeleted : w'.deleted.count t = w.deleted.count t) (hp : q ≠ some t → p ≠ some t) :
    TapeInv cfg q w' t where
  ok := by rw [htape]; exact h.ok
  queue := by rw [htape, hqueue]; exact h.queue
  current := by rw [hcurrent, hnum]; exact h.current
  others := by rw [htape, hnum, ne_eq, hcurrent]; exact h.others
  told := by rw [htape, hcurrent]; exact h.told
  stops := by rw [htape]; exact fun hq => h.stops (hp hq)
  onlyTold := by rw [htape]; exact h.onlyTold
  finished := by
    rw [htape, List.count_append, hprocessed, hdeleted, ← List.count_append]
    exact h.finished
  fresh := by rw [htape, hnum]; exact h.fresh
  deleted := by
    rw [htape, ← List.count_pos_iff, hdeleted, List.count_pos_iff]
    exact h.deleted

/-- What `Inv` reads of the port is the tape it has. -/
theorem Inv.port (h : Inv cfg p w) {port : CapturePort} (hp : port.audioTape = w.port.audioTape) :
    Inv cfg p { w with port } :=
  ⟨fun t => (h.tapes t).frame rfl (by rw [hp]) rfl .rfl rfl rfl id, h.nodup⟩

theorem Inv.reports (h : Inv cfg p w) (reports : List Report) : Inv cfg p { w with reports } :=
  ⟨fun t => (h.tapes t).frame rfl .rfl rfl .rfl rfl rfl id, h.nodup⟩

theorem Inv.count (h : Inv cfg p w) (count : Nat) :
    Inv cfg p { w with imm := { w.imm with count } } :=
  ⟨fun t => (h.tapes t).frame rfl .rfl rfl .rfl rfl rfl id, h.nodup⟩

/-- A deleted tape that is the port's has been told to stop. -/
theorem Inv.hasStop_of_deleted (h : Inv cfg p w) (ht : w.port.audioTape = some t)
    (hd : t ∈ w.deleted) : (w.tape t).HasStop := by
  have hcount := (h.tapes t).finished
  have hpos : 0 < (w.processed ++ w.deleted).count t :=
    List.count_pos_iff.2 (List.mem_append_right _ hd)
  split at hcount
  · rename_i hs
    exact (h.tapes t).told ht ((h.tapes t).onlyTold hs.1)
  · omega

/-! ## Changes of one tape -/

/-- The port's tape is changed by an event. -/
theorem Inv.setTape (h : Inv cfg p w) (ht : w.port.audioTape = some t) {tape : AudioTape}
    (hq : AudioTape.Quiet (w.tape t) tape)
    (hmono : (w.tape t).shouldStop = true → tape.shouldStop = true)
    (htold : tape.shouldStop = true → tape.HasStop)
    (hstops : q ≠ some t → tape.shouldStop = true → (w.tape t).shouldStop = true ∧ p ≠ some t)
    (hother : ∀ u, u ≠ t → q ≠ some u → p ≠ some u) : Inv cfg q (w.setTape t tape) := by
  refine ⟨fun u => ?_, h.nodup⟩
  by_cases hut : u = t
  · subst hut
    have hu := h.tapes u
    refine ⟨?_, ?_, hu.current, fun _ hc => absurd ht hc, ?_, ?_, ?_, ?_, ?_, ?_⟩ <;>
      rw [setTape_tape_self]
    · exact hu.ok.quiet hq
    · rw [hq.isQueued]
      exact hu.queue
    · exact fun _ => htold
    · intro hp hs
      rw [hq.written, hq.state, hq.isQueued]
      exact hu.stops (hstops hp hs).2 (hstops hp hs).1
    · rw [hq.state]
      exact fun hs => hmono (hu.onlyTold hs)
    · rw [hq.state, hq.bytesWritten]
      exact hu.finished
    · rw [hq.state, hq.isQueued]
      exact hu.fresh
    · intro hd
      exact (hu.deleted hd).mono (fun _ => h.hasStop_of_deleted ht hd) hq.beginDate hq.events
  · exact (h.tapes u).frame (setTape_tape_of_ne w hut tape) .rfl rfl .rfl rfl rfl (hother u hut)

/-- An event that does not stop the tape. -/
theorem Inv.quiet (h : Inv cfg p w) (ht : w.port.audioTape = some t) {tape : AudioTape}
    (hq : AudioTape.Quiet (w.tape t) tape) (hs : tape.shouldStop = (w.tape t).shouldStop) :
    Inv cfg p (w.setTape t tape) :=
  h.setTape ht hq (fun h' => hs.trans h') (fun h' => ((h.tapes t).told ht (hs ▸ h')).quiet hq)
    (fun hp h' => ⟨hs ▸ h', hp⟩) fun _ _ => id

/-- An event that stops the tape, which is then to be pushed. -/
theorem Inv.stopping (h : Inv cfg none w) (ht : w.port.audioTape = some t) {tape : AudioTape}
    (hq : AudioTape.Quiet (w.tape t) tape) (hs : tape.shouldStop = true) (hstop : tape.HasStop) :
    Inv cfg (some t) (w.setTape t tape) :=
  h.setTape ht hq (fun _ => hs) (fun _ => hstop) (fun h => absurd rfl h) fun _ _ _ => by simp

theorem push_tape_self (w : Recorder) (t : Nat) :
    (w.push t).tape t = { w.tape t with isQueued := true } := w.imm.push_tapes_self t

theorem push_tape_of_ne (w : Recorder) (h : u ≠ t) : (w.push t).tape u = w.tape u :=
  w.imm.push_tapes_of_ne h

/-- A push of a tape that is known to be queued or not. -/
theorem mem_push (h : (w.tape t).isQueued = true ↔ t ∈ w.imm.audioTapeQueue) :
    u ∈ (w.push t).imm.audioTapeQueue ↔ u ∈ w.imm.audioTapeQueue ∨ u = t := by
  rw [Recorder.push, ImmediateProcessing.push_audioTapeQueue]
  split
  · rename_i hqueued
    have ht : t ∈ w.imm.audioTapeQueue := h.1 hqueued
    exact ⟨.inl, fun hu => hu.elim id fun hu => hu ▸ ht⟩
  · simp

theorem nodup_push (h : (w.tape t).isQueued = true ↔ t ∈ w.imm.audioTapeQueue)
    (hnodup : w.imm.audioTapeQueue.Nodup) : (w.push t).imm.audioTapeQueue.Nodup := by
  rw [Recorder.push, ImmediateProcessing.push_audioTapeQueue]
  split
  · exact hnodup
  · rename_i hqueued
    have ht : t ∉ w.imm.audioTapeQueue := fun hm => hqueued (h.2 hm)
    simpa [List.nodup_append] using ⟨hnodup, fun a ha hat => ht (hat ▸ ha)⟩

/-- The tape is pushed. -/
theorem Inv.push (h : Inv cfg p w) (ht : w.port.audioTape = some t) (hp : p = none ∨ p = some t) :
    Inv cfg none (w.push t) := by
  have hqueue := (h.tapes t).queue
  refine ⟨fun u => ?_, nodup_push hqueue h.nodup⟩
  have hu := h.tapes u
  by_cases hut : u = t
  · subst hut
    refine ⟨?_, ?_, hu.current, fun _ hc => absurd ht hc, ?_, ?_, ?_, ?_, ?_, ?_⟩ <;>
      rw [push_tape_self]
    · have hok := hu.ok
      exact ⟨hok.state, hok.created, hok.noFile, hok.closed, hok.ready, hok.filter, hok.keep,
        hok.duration⟩
    · simp [mem_push hqueue]
    · exact hu.told
    · exact fun _ _ _ => .inr rfl
    · exact hu.onlyTold
    · exact hu.finished
    · exact fun hn => absurd (hu.current ht) (Nat.not_lt.2 hn)
    · exact fun hd => (hu.deleted hd).mono id rfl fun _ => id
  · refine hu.frame (push_tape_of_ne w hut) .rfl rfl ?_ rfl rfl fun _ => ?_
    · simp [mem_push hqueue, hut]
    · rcases hp with rfl | rfl
      · simp
      · simpa using Ne.symm hut

/-- The port is given another tape. -/
def opened (w : Recorder) (tape : AudioTape) : Recorder :=
  { w.setTape w.numTapes tape with
    numTapes := w.numTapes + 1
    port := { w.port with audioTape := some w.numTapes } }

@[simp] theorem opened_tape_self (w : Recorder) (tape : AudioTape) :
    (w.opened tape).tape w.numTapes = tape := setTape_tape_self w w.numTapes tape

theorem opened_tape_of_ne (w : Recorder) (tape : AudioTape) (h : u ≠ w.numTapes) :
    (w.opened tape).tape u = w.tape u := setTape_tape_of_ne w h tape

theorem resetTape_eq (w : Recorder) (now : Int) :
    w.resetTape cfg now = w.opened (.new cfg.toTapeConfig now w.port.id) := rfl

/-- The tape that there was is told to stop. -/
theorem Inv.opened (h : Inv cfg none w)
    (hstop : ∀ t, w.port.audioTape = some t → (w.tape t).shouldStop = true) {tape : AudioTape}
    (hok : tape.Ok cfg.toTapeConfig) (hcreated : tape.state = .created)
    (hqueued : tape.isQueued = false) (hs : tape.shouldStop = false) :
    Inv cfg none (w.opened tape) := by
  refine ⟨fun u => ?_, h.nodup⟩
  have hu := h.tapes u
  by_cases hut : u = w.numTapes
  · subst hut
    obtain ⟨hstate, hq⟩ := hu.fresh le_rfl
    refine ⟨?_, ?_, fun _ => Nat.lt_succ_self _, fun _ hc => absurd rfl hc, ?_, ?_, ?_, ?_,
      fun hn => absurd hn (Nat.not_succ_le_self _), ?_⟩ <;> rw [opened_tape_self]
    · exact hok
    · rw [hqueued, ← hq]
      exact hu.queue
    · rw [hs]
      simp
    · rw [hs]
      simp
    · rw [hcreated]
      simp
    · have hcount := hu.finished
      rw [if_neg (by simp [hstate])] at hcount
      rw [if_neg (by simp [hcreated])]
      exact hcount
    · intro hd
      have hcount := hu.finished
      rw [if_neg (by simp [hstate])] at hcount
      exact absurd (List.mem_append_right _ hd) (List.count_eq_zero.1 hcount)
  · have htape := opened_tape_of_ne w tape hut
    have hcurrent : (w.opened tape).port.audioTape ≠ some u := by
      simpa [Recorder.opened] using Ne.symm hut
    refine ⟨?_, ?_, fun hc => absurd hc hcurrent, fun hn _ => ?_, fun hc => absurd hc hcurrent,
      ?_, ?_, ?_, fun hn => ?_, ?_⟩ <;> rw [htape]
    · exact hu.ok
    · exact hu.queue
    · have hn : u < w.numTapes + 1 := hn
      by_cases hc : w.port.audioTape = some u
      · exact hstop u hc
      · exact hu.others (by omega) hc
    · exact hu.stops
    · exact hu.onlyTold
    · exact hu.finished
    · have hn : w.numTapes + 1 ≤ u := hn
      exact hu.fresh (by omega)
    · exact hu.deleted

/-! ## Events -/

theorem ok_new (cfg : PortConfig) (now : Int) (id : String) :
    (AudioTape.new cfg.toTapeConfig now id).Ok cfg.toTapeConfig where
  state := by simp [AudioTape.new]
  created := fun _ => rfl
  noFile := fun _ => rfl
  closed := by simp [AudioTape.new]
  ready := rfl
  filter := fun h => absurd rfl h
  keep := by simp [AudioTape.KeepOk, AudioTape.new]
  duration := .inl ⟨rfl, by simp [AudioTape.HasStop, AudioTape.new]⟩

/-- A tape with its first event. -/
theorem ok_started (now : Int) (event : CaptureEvent) (id : String) :
    ((AudioTape.new cfg.toTapeConfig now id).addCaptureEvent cfg.toTapeConfig now event true).Ok
      cfg.toTapeConfig := by
  have hnew := ok_new cfg now id
  obtain ⟨hs, hf, hb, -, hr, -⟩ := AudioTape.addCaptureEvent_fields cfg.toTapeConfig
    (.new cfg.toTapeConfig now id) now event true
  exact {
    state := by rw [hs]; exact hnew.state
    created := by rw [hf]; exact fun _ => rfl
    noFile := by rw [hb]; exact fun _ => rfl
    closed := by rw [hf, hs]; exact hnew.closed
    ready := hr
    filter := fun h => absurd (by rw [AudioTape.written, hf]; rfl) h
    keep := AudioTape.KeepOk.addCaptureEvent _ _ _ _ _ hnew.keep
    duration := hnew.duration.addCaptureEvent _ _ _ _ _ fun _ =>
      ⟨rfl, by simp [AudioTape.HasStop, AudioTape.new]⟩ }

theorem Inv.resetTape (h : Inv cfg none w)
    (hstop : ∀ t, w.port.audioTape = some t → (w.tape t).shouldStop = true) (now : Int) :
    Inv cfg none (w.resetTape cfg now) := h.opened hstop (ok_new cfg now _) rfl rfl rfl

/-- The tape that is there is told to stop, and the port has none. -/
def retired (w : Recorder) : Recorder :=
  match w.port.audioTape with
  | none => w
  | some t =>
    { w.setTape t { w.tape t with shouldStop := true } with
      port := { w.port with audioTape := none } }

/-- What an `EtStart` may find: the port's tape, if chunks of it were written, has been told to stop or
will be processed. -/
def StartOk (w : Recorder) : Prop :=
  ∀ t, w.port.audioTape = some t →
    (w.tape t).written = [] ∨ (w.tape t).shouldStop = true ∨ (w.tape t).isQueued = true

theorem Blank.startOk (h : Blank w) : StartOk w := fun t ht => .inl (h t ht)

theorem Inv.retired (h : Inv cfg none w) (hs : StartOk w) :
    Inv cfg none w.retired ∧ w.retired.port.audioTape = none := by
  unfold Recorder.retired
  cases ht : w.port.audioTape with
  | none => exact ⟨h, ht⟩
  | some t =>
    refine ⟨⟨fun u => ?_, h.nodup⟩, rfl⟩
    have hu := h.tapes u
    by_cases hut : u = t
    · subst hut
      have htape : Recorder.tape { w.setTape u { w.tape u with shouldStop := true } with
          port := { w.port with audioTape := none } } u = { w.tape u with shouldStop := true } :=
        setTape_tape_self ..
      refine ⟨?_, ?_, nofun, ?_, nofun, ?_, ?_, ?_, fun hn => ?_, fun hd => ?_⟩
      all_goals simp only [htape]
      · have hok := hu.ok
        exact ⟨hok.state, hok.created, hok.noFile, hok.closed, hok.ready, hok.filter, hok.keep,
          hok.duration⟩
      · exact hu.queue
      · simp
      · intro _ _ hw
        rcases hs u ht with h' | h' | h'
        · exact absurd h' hw
        · exact hu.stops (by simp) h' hw
        · exact .inr h'
      · simp
      · exact hu.finished
      · exact absurd (hu.current ht) (Nat.not_lt.2 hn)
      · exact (hu.deleted hd).mono id rfl fun _ => id
    · have htape : Recorder.tape { w.setTape t { w.tape t with shouldStop := true } with
          port := { w.port with audioTape := none } } u = w.tape u := setTape_tape_of_ne w hut _
      have hc : w.port.audioTape ≠ some u := by simpa [ht] using Ne.symm hut
      refine ⟨?_, ?_, nofun, fun hn _ => ?_, nofun, ?_, ?_, ?_, fun hn => ?_, fun hd => ?_⟩
      all_goals simp only [htape]
      · exact hu.ok
      · exact hu.queue
      · exact hu.others hn hc
      · exact hu.stops
      · exact hu.onlyTold
      · exact hu.finished
      · exact hu.fresh hn
      · exact hu.deleted hd

theorem startTape_eq (cfg : PortConfig) (w : Recorder) (now : Int) (event : CaptureEvent) :
    ∃ port : CapturePort, port.audioTape = w.retired.port.audioTape ∧
      w.startTape cfg now event = { w.retired with port }.opened
        ((AudioTape.new cfg.toTapeConfig now w.port.id).addCaptureEvent cfg.toTapeConfig now event
          true) := by
  cases ht : w.port.audioTape with
  | none =>
    refine ⟨{ w.port with capturing := true }, by simp [Recorder.retired, ht], ?_⟩
    simp [startTape, Recorder.retired, ht, store, resetTape, Recorder.opened, setTape,
      ImmediateProcessing.setTape, tape]
  | some t =>
    refine ⟨{ w.port with capturing := true, audioTape := none }, by simp [Recorder.retired, ht], ?_⟩
    simp [startTape, Recorder.retired, ht, store, resetTape, Recorder.opened, setTape,
      ImmediateProcessing.setTape, tape]

theorem Inv.startTape (h : Inv cfg none w) (hs : StartOk w) (now : Int)
    (hstart : event.type = .start) :
    Inv cfg none (w.startTape cfg now event) ∧ Blank (w.startTape cfg now event) := by
  obtain ⟨port, hport, heq⟩ := startTape_eq cfg w now event
  obtain ⟨hr, hnone⟩ := h.retired hs
  obtain ⟨hstate, hfile, -, hqueued, -, -⟩ := AudioTape.addCaptureEvent_fields cfg.toTapeConfig
    (.new cfg.toTapeConfig now w.port.id) now event true
  rw [heq]
  refine ⟨(hr.port hport).opened ?_ (ok_started ..) hstate hqueued ?_, ?_⟩
  · simp [hport, hnone]
  · rw [AudioTape.addCaptureEvent_shouldStop _ _ _ _ _ (by simp [hstart])]
    rfl
  · intro t ht
    cases ht
    rw [opened_tape_self, AudioTape.written, hfile]
    rfl

/-- What events other than an `EtStart` keep. -/
structure Kept (w w' : Recorder) : Prop where
  audioTape : w'.port.audioTape = w.port.audioTape
  written : ∀ t, (w'.tape t).written = (w.tape t).written
  told : ∀ t, (w.tape t).shouldStop = true → (w'.tape t).shouldStop = true

theorem Kept.refl (w : Recorder) : Kept w w := ⟨rfl, fun _ => rfl, fun _ => id⟩

theorem Kept.trans {w'' : Recorder} (h : Kept w w') (h' : Kept w' w'') : Kept w w'' where
  audioTape := h'.audioTape.trans h.audioTape
  written := fun t => (h'.written t).trans (h.written t)
  told := fun t => h'.told t ∘ h.told t

theorem Kept.blank (h : Kept w w') (hb : Blank w) : Blank w' := fun t ht =>
  (h.written t).trans (hb t (h.audioTape ▸ ht))

theorem kept_port {port : CapturePort} (hp : port.audioTape = w.port.audioTape) :
    Kept w { w with port } := ⟨hp, fun _ => rfl, fun _ => id⟩

theorem kept_setTape {tape : AudioTape} (hw : tape.written = (w.tape t).written)
    (hs : (w.tape t).shouldStop = true → tape.shouldStop = true) : Kept w (w.setTape t tape) where
  audioTape := rfl
  written := fun u => by
    by_cases hu : u = t
    · rw [hu, setTape_tape_self, hw]
    · rw [setTape_tape_of_ne w hu]
  told := fun u => by
    by_cases hu : u = t
    · rw [hu, setTape_tape_self]
      exact hs
    · rw [setTape_tape_of_ne w hu]
      exact id

theorem kept_push (w : Recorder) (t : Nat) : Kept w (w.push t) where
  audioTape := rfl
  written := fun u => by
    by_cases hu : u = t
    · rw [hu, push_tape_self]
      rfl
    · rw [push_tape_of_ne w hu]
  told := fun u => by
    by_cases hu : u = t
    · rw [hu, push_tape_self]
      exact id
    · rw [push_tape_of_ne w hu]
      exact id

/-- A change of the port's tape that does not stop it. -/
theorem Inv.quiet_kept (h : Inv cfg p w) (ht : w.port.audioTape = some t) (tape : AudioTape)
    (hq : AudioTape.Quiet (w.tape t) tape) (hs : tape.shouldStop = (w.tape t).shouldStop) :
    Inv cfg p (w.setTape t tape) ∧ Kept w (w.setTape t tape) :=
  ⟨h.quiet ht hq hs, kept_setTape hq.written fun h' => hs.trans h'⟩

theorem Inv.report (h : Inv cfg p w) (ht : w.port.audioTape = some t) {cause : Cause}
    (hw : w.report cfg t cause = .ok w') : Inv cfg p w' ∧ Kept w w' := by
  unfold Recorder.report at hw
  dsimp only at hw
  split at hw
  · cases hw
  · cases hw
    obtain ⟨hi, hk⟩ := h.quiet_kept ht _ (AudioTape.quiet_getMessage ..)
      (AudioTape.getMessage_shouldStop ..)
    exact ⟨hi.reports _, hk.audioTape, hk.written, hk.told⟩

theorem Inv.store (h : Inv cfg p w) (ht : w.port.audioTape = some t) (now : Int)
    (hstart : event.type ≠ .start) (hstop : event.type ≠ .stop) (send : Bool) :
    Inv cfg p (w.store cfg t now event send) ∧ Kept w (w.store cfg t now event send) :=
  h.quiet_kept ht _ (AudioTape.quiet_addCaptureEvent _ _ _ _ _ hstart)
    (AudioTape.addCaptureEvent_shouldStop _ _ _ _ _ hstop)

theorem Inv.storeReport (h : Inv cfg p w) (ht : w.port.audioTape = some t)
    (hstart : event.type ≠ .start) (hstop : event.type ≠ .stop) {cause : Cause}
    (hw : (w.store cfg t now event true).report cfg t cause = .ok w') :
    Inv cfg p w' ∧ Kept w w' := by
  obtain ⟨h₁, k₁⟩ := h.store ht now hstart hstop true
  obtain ⟨h₂, k₂⟩ := h₁.report (k₁.audioTape.trans ht) hw
  exact ⟨h₂, k₁.trans k₂⟩

theorem Inv.tagHoldDuration (h : Inv cfg none w) (ht : w.port.audioTape = some t) :
    Inv cfg none (w.tagHoldDuration cfg t) ∧ Kept w (w.tagHoldDuration cfg t) := by
  unfold Recorder.tagHoldDuration
  split
  · exact h.quiet_kept ht _ { AudioTape.Quiet.refl (w.tape t) with } rfl
  · exact ⟨h, .refl w⟩

theorem Inv.stopTape (h : Inv cfg none w) (ht : w.port.audioTape = some t)
    (hstop : event.type = .stop) (hw : w.stopTape cfg t now event = .ok w') :
    Inv cfg none w' ∧ Kept w w' ∧ (w'.tape t).shouldStop = true := by
  obtain ⟨w₂, h₂, h₃⟩ := Except.bind_eq_ok.1 hw
  cases h₃
  have hp : Inv cfg none { w with port := { w.port with capturing := false } } := h.port rfl
  have kp : Kept w { w with port := { w.port with capturing := false } } := kept_port rfl
  obtain ⟨h₁, k₁⟩ := hp.tagHoldDuration ht
  generalize Recorder.tagHoldDuration cfg _ t = w₁ at h₁ k₁ h₂
  have ht₁ : w₁.port.audioTape = some t := k₁.audioTape.trans ht
  -- Between the event and the push, the tape is told to stop and may be off the queue.
  have hq := AudioTape.quiet_addCaptureEvent cfg.toTapeConfig (w₁.tape t) now event true
    (by simp [hstop])
  have hs := AudioTape.addCaptureEvent_stop cfg.toTapeConfig (w₁.tape t) now event true hstop
  have hstored : Inv cfg (some t) (w₁.store cfg t now event true) :=
    h₁.stopping ht₁ hq hs (AudioTape.HasStop.addCaptureEvent _ _ _ _ _ (.inr hstop))
  have kstored : Kept w₁ (w₁.store cfg t now event true) := kept_setTape hq.written fun _ => hs
  obtain ⟨hr, kr⟩ := hstored.report ht₁ h₂
  have hs₂ : (w₂.tape t).shouldStop = true := kr.told t (by
    rw [Recorder.store, setTape_tape_self]
    exact hs)
  have hp₂ : Inv cfg (some t) { w₂ with port := { w₂.port with needSendStop := false } } :=
    hr.port rfl
  have kp₂ : Kept w₂ { w₂ with port := { w₂.port with needSendStop := false } } := kept_port rfl
  have kpush := kp₂.trans (kept_push _ t)
  exact ⟨hp₂.push (kr.audioTape.trans ht₁) (.inr rfl),
    (((kp.trans k₁).trans kstored).trans kr).trans kpush, kpush.told t hs₂⟩

theorem Inv.holdTape (h : Inv cfg none w) (ht : w.port.audioTape = some t)
    (hhold : event.type = .hold) (hw : w.holdTape cfg t now event = .ok w') :
    Inv cfg none w' ∧ Kept w w' := by
  unfold Recorder.holdTape at hw
  split at hw
  · obtain ⟨h₁, k₁⟩ := h.quiet_kept ht { w.tape t with lastHoldTs := now.bmod (2 ^ 32) }
      { AudioTape.Quiet.refl (w.tape t) with } rfl
    dsimp only at hw
    split at hw
    · obtain ⟨h₂, k₂⟩ := h₁.storeReport ht (by simp [hhold]) (by simp [hhold]) hw
      exact ⟨h₂, k₁.trans k₂⟩
    · cases hw
      exact ⟨h₁, k₁⟩
  · cases hw
    exact ⟨h, .refl w⟩

theorem Inv.countHold (h : Inv cfg none w) (ht : w.port.audioTape = some t) (now : Int) :
    Inv cfg none (w.countHold t now) ∧ Kept w (w.countHold t now) := by
  unfold Recorder.countHold
  split
  · exact h.quiet_kept ht _ { AudioTape.Quiet.refl (w.tape t) with } rfl
  · exact ⟨h, .refl w⟩

theorem Inv.reportResume (h : Inv cfg none w) (ht : w.port.audioTape = some t)
    (hresume : event.type = .resume) (hw : w.reportResume cfg t now event = .ok w') :
    Inv cfg none w' ∧ Kept w w' := by
  unfold Recorder.reportResume at hw
  split at hw
  · exact h.storeReport ht (by simp [hresume]) (by simp [hresume]) hw
  · cases hw
    exact ⟨h, .refl w⟩

theorem Inv.resumeTape (h : Inv cfg none w) (ht : w.port.audioTape = some t)
    (hresume : event.type = .resume) (hw : w.resumeTape cfg t now event = .ok w') :
    Inv cfg none w' ∧ Kept w w' := by
  obtain ⟨w₂, h₂, h₃⟩ := Except.bind_eq_ok.1 hw
  cases h₃
  obtain ⟨h₁, k₁⟩ := h.countHold ht now
  obtain ⟨hr, kr⟩ := h₁.reportResume (k₁.audioTape.trans ht) hresume h₂
  obtain ⟨h₃, k₃⟩ := hr.quiet_kept ((kr.audioTape.trans k₁.audioTape).trans ht)
    { w₂.tape t with lastHoldTs := 0 } { AudioTape.Quiet.refl (w₂.tape t) with } rfl
  exact ⟨h₃, (k₁.trans kr).trans k₃⟩

theorem Inv.handleEvent (h : Inv cfg none w) (ht : w.port.audioTape = some t)
    (hw : w.handleEvent cfg t now event = .ok w') :
    Inv cfg none w' ∧ Kept w w' ∧ (event.type = .stop → (w'.tape t).shouldStop = true) := by
  unfold Recorder.handleEvent at hw
  cases he : event.type with
  | start =>
    simp only [he] at hw
    cases hw
    exact ⟨h, .refl w, by simp⟩
  | stop =>
    simp only [he] at hw
    obtain ⟨h', k', hs⟩ := h.stopTape ht he hw
    exact ⟨h', k', fun _ => hs⟩
  | hold =>
    simp only [he] at hw
    obtain ⟨h', k'⟩ := h.holdTape ht he hw
    exact ⟨h', k', by simp⟩
  | resume =>
    simp only [he] at hw
    obtain ⟨h', k'⟩ := h.resumeTape ht he hw
    exact ⟨h', k', by simp⟩
  | endMetadata =>
    simp only [he] at hw
    obtain ⟨w₁, h₁, h₂⟩ := Except.bind_eq_ok.1 hw
    cases h₂
    obtain ⟨h', k'⟩ := h.report ht h₁
    exact ⟨h'.port rfl, k'.trans (kept_port rfl), by simp⟩
  | update =>
    simp only [he] at hw
    obtain ⟨h', k'⟩ := h.storeReport ht (by simp [he]) (by simp [he]) hw
    exact ⟨h', k', by simp⟩
  | _ =>
    simp only [he] at hw
    cases hw
    have he₁ : event.type ≠ .start := by simp [he]
    have he₂ : event.type ≠ .stop := by simp [he]
    obtain ⟨h', k'⟩ := h.store ht now he₁ he₂ false
    exact ⟨h', k', by simp⟩

theorem Inv.addCaptureEvent (h : Inv cfg none w) (hs : event.type = .start → StartOk w)
    (hw : w.addCaptureEvent cfg now event = .ok w') :
    Inv cfg none w' ∧ (Blank w → Blank w') ∧
      (event.type = .stop → w'.port.audioTape = w.port.audioTape ∧
        ∀ t, w'.port.audioTape = some t → (w'.tape t).shouldStop = true) := by
  have hp : Inv cfg none { w with port := { w.port with lastUpdated := now } } := h.port rfl
  have kp : Kept w { w with port := { w.port with lastUpdated := now } } := kept_port rfl
  have hsp (he : event.type = .start) :
      StartOk { w with port := { w.port with lastUpdated := now } } := hs he
  unfold Recorder.addCaptureEvent at hw
  generalize ({ w with port := { w.port with lastUpdated := now } } : Recorder) = w₁ at hp kp hsp hw
  dsimp only at hw
  by_cases he : event.type = .start
  · rw [if_pos he] at hw
    obtain ⟨h₁, hb⟩ := hp.startTape (hsp he) now he
    split at hw
    · cases hw
      exact ⟨h₁, fun _ => hb, by simp [he]⟩
    · rename_i t ht
      obtain ⟨h', k', -⟩ := h₁.handleEvent ht hw
      exact ⟨h', fun _ => k'.blank hb, by simp [he]⟩
  · rw [if_neg he] at hw
    split at hw
    · rename_i ht
      cases hw
      exact ⟨hp, kp.blank, fun _ => ⟨kp.audioTape, by simp [ht]⟩⟩
    · rename_i t ht
      obtain ⟨h', k', hstop⟩ := hp.handleEvent ht hw
      refine ⟨h', (kp.trans k').blank, fun hst => ⟨(kp.trans k').audioTape, fun u hu => ?_⟩⟩
      have hu' : t = u := Option.some.inj (ht.symm.trans (k'.audioTape.symm.trans hu))
      exact hu' ▸ hstop hst

/-! ## Audio chunks -/

theorem Inv.reportBacklogged (h : Inv cfg none w) (hb : Blank w)
    (hw : w.reportBacklogged cfg now event = .ok w') : Inv cfg none w' ∧ Blank w' := by
  unfold Recorder.reportBacklogged at hw
  split at hw
  · have hp : Inv cfg none { w with port := { w.port with segmentNumber := w.port.segmentNumber + 1 } } :=
      h.port rfl
    obtain ⟨h', hb', -⟩ := hp.addCaptureEvent (by simp) hw
    exact ⟨h', hb' hb⟩
  · obtain ⟨h', hb', -⟩ := h.addCaptureEvent (fun _ => hb.startOk) hw
    exact ⟨h', hb' hb⟩

theorem Inv.reportEventBacklog (h : Inv cfg none w) (hb : Blank w)
    (hw : w.reportEventBacklog cfg now = .ok w') : Inv cfg none w' ∧ Blank w' := by
  unfold Recorder.reportEventBacklog at hw
  generalize w.port.captureEvents = events at hw
  induction events generalizing w with
  | nil =>
    cases hw
    exact ⟨h, hb⟩
  | cons event events ih =>
    obtain ⟨w₁, h₁, h₂⟩ := Except.bind_eq_ok.1 hw
    obtain ⟨h', hb'⟩ := h.reportBacklogged hb h₁
    exact ih h' hb' h₂

theorem Inv.openTape (h : Inv cfg none w)
    (hstop : ∀ t, w.port.audioTape = some t → (w.tape t).shouldStop = true)
    (hw : w.openTape cfg now = .ok w') : Inv cfg none w' := by
  obtain ⟨w₁, h₁, h₂⟩ := Except.bind_eq_ok.1 hw
  have hb : Blank (w.resetTape cfg now) := by
    intro t ht
    cases ht
    rw [resetTape_eq, opened_tape_self]
    rfl
  obtain ⟨h', hb', -⟩ := (h.resetTape hstop now).addCaptureEvent (fun _ => hb.startOk) h₁
  exact (h'.reportEventBacklog (hb' hb) h₂).1

theorem Inv.segment (h : Inv cfg none w) (hw : w.segment cfg now = .ok w') : Inv cfg none w' := by
  unfold Recorder.segment at hw
  split at hw
  · rename_i hnone
    exact h.openTape (by simp [hnone]) hw
  · split at hw
    · obtain ⟨w₁, h₁, h₂⟩ := Except.bind_eq_ok.1 hw
      obtain ⟨h', -, hstop⟩ := h.addCaptureEvent (by simp) h₁
      exact h'.openTape (hstop rfl).2 h₂
    · cases hw
      exact h

/-- The port has no tape any more, the one it had being told to stop. -/
theorem Inv.released (h : Inv cfg none w)
    (hstop : ∀ t, w.port.audioTape = some t → (w.tape t).shouldStop = true) :
    Inv cfg none { w with port := { w.port with audioTape := none } } := by
  refine ⟨fun t => ?_, h.nodup⟩
  have ht := h.tapes t
  refine ⟨ht.ok, ht.queue, nofun, fun hn _ => ?_, nofun, ht.stops, ht.onlyTold, ht.finished,
    ht.fresh, ht.deleted⟩
  by_cases hc : w.port.audioTape = some t
  · exact hstop t hc
  · exact ht.others hn hc

theorem Inv.endVoice (h : Inv cfg none w) (hw : w.endVoice cfg now = .ok w') :
    Inv cfg none w' := by
  have hp : Inv cfg none { w with port := { w.port with vadUp := false } } := h.port rfl
  obtain ⟨w₁, h₁, h₂⟩ := Except.bind_eq_ok.1 hw
  cases h₂
  obtain ⟨h', -, hstop⟩ := hp.addCaptureEvent (by simp) h₁
  exact h'.released (hstop rfl).2

theorem Inv.detectVoice (h : Inv cfg none w) {chunk : AudioChunk}
    (hw : w.detectVoice cfg now chunk = .ok w') : Inv cfg none w' := by
  unfold Recorder.detectVoice at hw
  split at hw
  · have hp : Inv cfg none { w with port :=
        { w.port with vadBelowThresholdSec := w.belowThreshold cfg chunk } } := h.port rfl
    unfold followVoice at hw
    dsimp only at hw
    split at hw
    · exact hp.endVoice hw
    · cases hw
      exact hp
  · split at hw
    · have hp : Inv cfg none { w with port :=
          { w.port with vadBelowThresholdSec := 0, vadUp := true } } := h.port rfl
      unfold startVoice at hw
      dsimp only at hw
      split at hw
      · rename_i hnone
        exact hp.openTape (by simp [hnone]) hw
      · cases hw
        exact hp
    · cases hw
      exact h

theorem Inv.beforeChunk (h : Inv cfg none w) {chunk : AudioChunk}
    (hw : w.beforeChunk cfg now chunk = .ok w') : Inv cfg none w' := by
  unfold Recorder.beforeChunk at hw
  split at hw
  · exact h.segment hw
  · split at hw
    · split at hw
      · cases hw
        exact h
      · exact h.detectVoice hw
    · cases hw
      exact h

theorem Inv.addToTape (h : Inv cfg none w) (chunk : AudioChunk) :
    Inv cfg none (w.addToTape cfg chunk) := by
  unfold Recorder.addToTape
  split
  · rename_i t ht
    split
    · obtain ⟨hq, hs⟩ := AudioTape.quiet_addAudioChunk cfg.toTapeConfig (w.tape t) chunk
      exact (h.quiet ht hq hs).push ht (.inl rfl)
    · exact h
  · exact h

theorem Inv.addAudioChunk (h : Inv cfg none w) {chunk : AudioChunk}
    (hw : w.addAudioChunk cfg now chunk = .ok w') : Inv cfg none w' := by
  have hp : Inv cfg none { w with port := { w.port with lastUpdated := now } } := h.port rfl
  unfold Recorder.addAudioChunk at hw
  dsimp only at hw
  split at hw
  · obtain ⟨w₁, h₁, h₂⟩ := Except.bind_eq_ok.1 hw
    cases h₂
    exact (hp.beforeChunk h₁).addToTape chunk
  · cases hw
    exact hp

theorem Inv.finalize (h : Inv cfg none w) (hw : w.finalize cfg now = .ok w') :
    Inv cfg none w' := by
  unfold Recorder.finalize at hw
  split at hw
  · obtain ⟨w₁, h₁, h₂⟩ := Except.bind_eq_ok.1 hw
    obtain ⟨h', -, -⟩ := h.addCaptureEvent (by simp) h₁
    split at h₂
    · cases h₂
    · rename_i t ht
      obtain ⟨w₂, h₃, h₄⟩ := Except.bind_eq_ok.1 h₂
      cases h₄
      exact (h'.report ht h₃).1.port rfl
  · cases hw
    exact h

/-! ## The processing thread -/

/-- A round with the tape `t`, of which `Write` made `tape`. -/
structure Processed (cfg : PortConfig) (w w' : Recorder) (t : Nat) (tape : AudioTape) : Prop where
  port : w'.port = w.port
  numTapes : w'.numTapes = w.numTapes
  reports : w'.reports = w.reports
  queue : w.imm.audioTapeQueue = t :: w'.imm.audioTapeQueue
  self : w'.tape t = { tape with readyForBatchProcessing := false }
  other : ∀ u, u ≠ t → w'.tape u = w.tape u
  passedOn :
    tape.readyForBatchProcessing = false ∧ w'.processed = w.processed ∧ w'.deleted = w.deleted ∨
    tape.readyForBatchProcessing = true ∧ w'.processed = w.processed ++ [t] ∧ w'.deleted = w.deleted ∨
    tape.readyForBatchProcessing = true ∧ w'.processed = w.processed ∧ w'.deleted = w.deleted ++ [t] ∧
      (0 < cfg.tapeDurationMinimumSec ∧ tape.duration < cfg.tapeDurationMinimumSec ∨ tape.keep = false)

theorem Processed.passOn {tape : AudioTape} (hport : w'.port = w.port)
    (hnum : w'.numTapes = w.numTapes) (hreports : w'.reports = w.reports)
    (hqueue : w.imm.audioTapeQueue = t :: w'.imm.audioTapeQueue) (hself : w'.tape t = tape)
    (hother : ∀ u, u ≠ t → w'.tape u = w.tape u) (hprocessed : w'.processed = w.processed)
    (hdeleted : w'.deleted = w.deleted) : Processed cfg w (w'.passOn cfg t) t tape := by
  have hself' : (w'.setTape t (w'.tape t).takeReady.2).tape t =
      { tape with readyForBatchProcessing := false } := by
    rw [setTape_tape_self, hself]
    rfl
  have hother' (u : Nat) (hu : u ≠ t) : (w'.setTape t (w'.tape t).takeReady.2).tape u = w.tape u := by
    rw [setTape_tape_of_ne w' hu, hother u hu]
  have hready : (w'.tape t).takeReady.1 = tape.readyForBatchProcessing := by rw [hself]; rfl
  unfold Recorder.passOn
  dsimp only
  rw [hready, hself']
  cases hr : tape.readyForBatchProcessing with
  | false => exact ⟨hport, hnum, hreports, hqueue, hself', hother', .inl ⟨hr, hprocessed, hdeleted⟩⟩
  | true =>
    rw [if_pos rfl]
    split
    · rename_i hshort
      exact ⟨hport, hnum, hreports, hqueue, hself', hother',
        .inr (.inr ⟨hr, hprocessed, congrArg (· ++ [t]) hdeleted, .inl hshort⟩)⟩
    · split
      · rename_i hkeep
        exact ⟨hport, hnum, hreports, hqueue, hself', hother',
          .inr (.inr ⟨hr, hprocessed, congrArg (· ++ [t]) hdeleted, .inr hkeep⟩)⟩
      · exact ⟨hport, hnum, hreports, hqueue, hself', hother',
          .inr (.inl ⟨hr, congrArg (· ++ [t]) hprocessed, hdeleted⟩)⟩

theorem processNext_cases {io : Nat → Bool} (hw : w.processNext cfg io = .ok w') :
    w' = w ∨ ∃ t tape,
      AudioTape.write cfg.toTapeConfig io { w.tape t with isQueued := false } = .ok tape ∧
        Processed cfg w w' t tape := by
  unfold Recorder.processNext at hw
  cases hqueue : w.imm.audioTapeQueue with
  | nil =>
    rw [ImmediateProcessing.pop_nil hqueue] at hw
    cases hw
    exact .inl rfl
  | cons t rest =>
    rw [ImmediateProcessing.pop_cons hqueue] at hw
    obtain ⟨tape, h₁, h₂⟩ := Except.bind_eq_ok.1 hw
    cases h₂
    have hpopped := setTape_tape_self w t { w.tape t with isQueued := false }
    refine .inr ⟨t, tape, (congrArg (AudioTape.write _ io) hpopped).symm.trans h₁,
      .passOn rfl rfl rfl hqueue (setTape_tape_self ..) (fun u hu => ?_) rfl rfl⟩
    rw [setTape_tape_of_ne _ hu]
    exact setTape_tape_of_ne w hu _

theorem process_cases {io : Nat → Bool} (hw : w.process cfg io = .ok w') :
    (∃ count, w' = { w with imm := { w.imm with count } }) ∨ ∃ t tape,
      AudioTape.write cfg.toTapeConfig io { w.tape t with isQueued := false } = .ok tape ∧
        Processed cfg w w' t tape := by
  unfold Recorder.process at hw
  split at hw
  · cases hw
    exact .inl ⟨_, rfl⟩
  · rcases processNext_cases hw with rfl | ⟨t, tape, hwrite, hp⟩
    · exact .inl ⟨_, rfl⟩
    · exact .inr ⟨t, tape, hwrite, hp.port, hp.numTapes, hp.reports, hp.queue, hp.self, hp.other,
        hp.passedOn⟩

theorem Inv.processed (h : Inv cfg none w) {tape : AudioTape}
    (hwritten : AudioTape.Written cfg.toTapeConfig { w.tape t with isQueued := false } tape)
    (hp : Processed cfg w w' t tape) : Inv cfg none w' := by
  have ht := h.tapes t
  have hnodup : t ∉ w'.imm.audioTapeQueue ∧ w'.imm.audioTapeQueue.Nodup :=
    List.nodup_cons.1 (hp.queue ▸ h.nodup)
  have hmade : t < w.numTapes := by
    by_contra hn
    have hqueued := ht.queue.2 (hp.queue ▸ List.mem_cons_self)
    rw [(ht.fresh (Nat.not_lt.1 hn)).2] at hqueued
    cases hqueued
  have hshould : tape.shouldStop = (w.tape t).shouldStop := hwritten.shouldStop
  have hstays : (w.tape t).state = .stopped → tape.state = .stopped ∧
      tape.bytesWritten = (w.tape t).bytesWritten := hwritten.stays
  have hready : tape.readyForBatchProcessing = true ↔ (w.tape t).state ≠ .stopped ∧
      tape.state = .stopped ∧ 0 < tape.bytesWritten := hwritten.ready
  have hevents : tape.eventQueue = (w.tape t).eventQueue := hwritten.events
  have hstop : tape.HasStop ↔ (w.tape t).HasStop := by rw [AudioTape.HasStop, hevents]; rfl
  refine ⟨fun u => ?_, hnodup.2⟩
  have hu := h.tapes u
  by_cases hut : u = t
  · subst hut
    exact {
      ok := by
        rw [hp.self]
        exact hwritten.ok
      queue := by
        have hqueued : tape.isQueued = false := hwritten.isQueued
        rw [hp.self]
        simp [hqueued, hnodup.1]
      current := fun _ => by
        rw [hp.numTapes]
        exact hmade
      others := by
        rw [hp.self, hp.numTapes, hp.port]
        exact fun hn hc => hshould.trans (hu.others hn hc)
      told := by
        rw [hp.self, hp.port]
        exact fun hc hs => hstop.2 (hu.told hc (hshould ▸ hs))
      stops := by
        rw [hp.self]
        exact fun _ hs hw => .inl (hwritten.stops hs hw)
      onlyTold := by
        rw [hp.self]
        intro hs
        by_cases hstopped : (w.tape u).state = .stopped
        · exact hshould.trans (hu.onlyTold hstopped)
        · exact hwritten.onlyStop hstopped hs
      finished := by
        have hcount := hu.finished
        rw [hp.self]
        by_cases hstopped : (w.tape u).state = .stopped
        · obtain ⟨hs, hb⟩ := hstays hstopped
          have hnot : tape.readyForBatchProcessing ≠ true := fun hr => (hready.1 hr).1 hstopped
          rcases hp.passedOn with ⟨-, h₁, h₂⟩ | ⟨hr, -⟩ | ⟨hr, -⟩
          · simpa [h₁, h₂, hs, hb, hstopped] using hcount
          · exact absurd hr hnot
          · exact absurd hr hnot
        · rw [if_neg fun h' => hstopped h'.1] at hcount
          have hready' : tape.readyForBatchProcessing = true ↔
              tape.state = .stopped ∧ 0 < tape.bytesWritten :=
            hready.trans (and_iff_right hstopped)
          rcases hp.passedOn with ⟨hr, h₁, h₂⟩ | ⟨hr, h₁, h₂⟩ | ⟨hr, h₁, h₂, -⟩ <;> rw [h₁, h₂]
          · rw [hcount, if_neg fun h' => by simp [hready'.2 h'] at hr]
          · rw [if_pos (hready'.1 hr)]
            simp only [List.count_append, List.count_singleton_self] at hcount ⊢
            omega
          · rw [if_pos (hready'.1 hr)]
            simp only [List.count_append, List.count_singleton_self] at hcount ⊢
            omega
      fresh := fun hn => absurd hmade (Nat.not_lt.2 (hp.numTapes ▸ hn))
      deleted := fun hd => by
        rw [hp.self]
        have hkept (hd : u ∈ w.deleted) : ({ tape with readyForBatchProcessing := false } :
            AudioTape).IsDeletable cfg.tapeDurationMinimumSec :=
          (hu.deleted hd).mono hstop.1 hwritten.beginDate (by simp [hevents])
        rcases hp.passedOn with ⟨-, -, h'⟩ | ⟨-, -, h'⟩ | ⟨-, -, h', hshort | hkeep⟩ <;>
          rw [h'] at hd
        · exact hkept hd
        · exact hkept hd
        · exact .inl (AudioTape.isShort_of_duration hwritten.ok.duration hshort.1 hshort.2)
        · exact .inr (hwritten.ok.keep hkeep) }
  · refine hu.frame (hp.other u hut) (by rw [hp.port]) hp.numTapes ?_ ?_ ?_ id
    · rw [hp.queue]
      simp [hut]
    · rcases hp.passedOn with ⟨-, h', -⟩ | ⟨-, h', -⟩ | ⟨-, h', -⟩ <;> simp [h', Ne.symm hut]
    · rcases hp.passedOn with ⟨-, -, h'⟩ | ⟨-, -, h'⟩ | ⟨-, -, h', -⟩ <;> simp [h', Ne.symm hut]

theorem Inv.process (h : Inv cfg none w) {io : Nat → Bool} (hw : w.process cfg io = .ok w') :
    Inv cfg none w' := by
  rcases process_cases hw with ⟨count, rfl⟩ | ⟨t, tape, hwrite, hp⟩
  · exact h.count count
  · have hok : ({ w.tape t with isQueued := false } : AudioTape).Ok cfg.toTapeConfig := by
      have h := (h.tapes t).ok
      exact ⟨h.state, h.created, h.noFile, h.closed, h.ready, h.filter, h.keep, h.duration⟩
    exact h.processed (hok.write hwrite) hp

/-! ## Runs -/

theorem inv_new (cfg : PortConfig) (id : String) : Inv cfg none (new cfg id) where
  tapes := fun t => {
    ok := ok_new cfg 0 id
    queue := by simp [new, tape, AudioTape.new]
    current := by simp [new]
    others := by simp [new]
    told := by simp [new]
    stops := fun _ h => by cases h
    onlyTold := fun h => by cases h
    finished := by simp [new, tape, AudioTape.new]
    fresh := fun _ => ⟨rfl, rfl⟩
    deleted := by simp [new] }
  nodup := List.nodup_nil

/-- An `EtStart` finds no recording under way that is off the queue. -/
def StartsOk (s : Except TapeFailure Recorder) (a : RecorderAction) : Prop :=
  match s, a with
  | .ok w, .addCaptureEvent _ event => event.type = .start → StartOk w
  | _, _ => True

theorem Inv.act (h : Inv cfg none w) {a : RecorderAction} (hs : StartsOk (.ok w) a)
    (hw : w.act cfg a = .ok w') : Inv cfg none w' := by
  cases a with
  | addAudioChunk now chunk => exact h.addAudioChunk hw
  | addCaptureEvent now event => exact (h.addCaptureEvent hs hw).1
  | queueCaptureEvent event =>
    cases hw
    exact h.port rfl
  | clearEventQueue =>
    cases hw
    exact h.port rfl
  | finalize now => exact h.finalize hw
  | process io => exact h.process hw

theorem inv_run {actions : List RecorderAction} {id : String}
    (hm : Run.Meets (step cfg) StartsOk (.ok (new cfg id)) actions)
    (hw : actions.foldl (step cfg) (.ok (new cfg id)) = .ok w) : Inv cfg none w := by
  have hstep (s : Except TapeFailure Recorder) (a : RecorderAction)
      (h : ∀ w, s = .ok w → Inv cfg none w) (hs : StartsOk s a) :
      ∀ w', step cfg s a = .ok w' → Inv cfg none w' := by
    intro w' hw'
    obtain ⟨w, rfl, hact⟩ := Except.bind_eq_ok.1 hw'
    exact (h w rfl).act hs hact
  refine (Run.always_of_inv hstep ?_ hm).last w hw
  intro w hw
  cases hw
  exact inv_new cfg id

/-- **Every recording is finished once**: when the queue is drained and the port's last tape was told to
stop, a tape that wrote a chunk is stopped and its file closed; and if there are bytes in the file, it
was passed to the tape processors or deleted, one of the two and once. Only a recording that was too
short, or that an event says is not to be kept, is deleted. -/
theorem finishedOnce (cfg : PortConfig) (id : String) (actions : List RecorderAction)
    (hstarts : Run.Meets (step cfg) StartsOk (.ok (new cfg id)) actions) (w : Recorder)
    (hrun : actions.foldl (step cfg) (.ok (new cfg id)) = .ok w)
    (hdrained : w.imm.audioTapeQueue = [])
    (hstopped : ∀ t, w.port.audioTape = some t → (w.tape t).shouldStop = true) (t : Nat)
    (hwritten : (w.tape t).written ≠ []) :
    (w.tape t).state = .stopped ∧
      (∀ file, (w.tape t).audioFile = some file → file.closed = true) ∧
      (0 < (w.tape t).bytesWritten → (w.processed ++ w.deleted).count t = 1) ∧
      (t ∈ w.deleted → (w.tape t).IsDeletable cfg.tapeDurationMinimumSec) := by
  have ht := (inv_run hstarts hrun).tapes t
  have hmade : t < w.numTapes := by
    by_contra hn
    have hnone := ht.ok.created (ht.fresh (Nat.not_lt.1 hn)).1
    exact hwritten (by rw [AudioTape.written, hnone]; rfl)
  have hshould : (w.tape t).shouldStop = true := by
    by_cases hc : w.port.audioTape = some t
    · exact hstopped t hc
    · exact ht.others hmade hc
  have hstate : (w.tape t).state = .stopped := by
    rcases ht.stops (by simp) hshould hwritten with h | h
    · exact h
    · have hmem := ht.queue.1 h
      rw [hdrained] at hmem
      cases hmem
  refine ⟨hstate, ht.ok.closed hstate, fun hb => ?_, ht.deleted⟩
  rw [ht.finished, if_pos ⟨hstate, hb⟩]

def spoken : AudioChunk := { details := { encoding := .pcmAudio, numBytes := 320 } }

/-- A call of `seconds`, of which one packet is recorded. -/
def callOf (seconds : Int) : List RecorderAction :=
  [.addCaptureEvent 0 { type := .start }, .addAudioChunk 0 spoken, .process fun _ => true,
    .addCaptureEvent seconds { type := .stop, timestamp := seconds }, .process fun _ => true]

theorem finishedOnce_call : ∃ w, (callOf 60).foldl (step {}) (.ok (new {} "A")) = .ok w ∧
    (w.processed ++ w.deleted).count 0 = 1 := by
  have hstarts : Run.Meets (step {}) StartsOk (.ok (new {} "A")) (callOf 60) :=
    ⟨fun _ _ => nofun, trivial, trivial, nofun, trivial, trivial⟩
  refine ⟨_, rfl, (finishedOnce {} "A" (callOf 60) hstarts _ rfl rfl ?_ 0 ?_).2.2.1 ?_⟩
  · intro t ht
    cases ht
    rfl
  · exact List.ne_nil_of_length_pos (by decide)
  · decide

/-- The file of a call of one second is deleted. -/
theorem not_passedOn_short : ∃ w,
    (callOf 1).foldl (step {}) (.ok (new {} "A")) = .ok w ∧ w.imm.audioTapeQueue = [] ∧
      (∀ t, w.port.audioTape = some t → (w.tape t).shouldStop = true) ∧
      (w.tape 0).written.length = 1 ∧ w.processed = [] := by
  refine ⟨_, rfl, rfl, ?_, ?_, ?_⟩
  · intro t ht
    cases ht
    rfl
  · decide
  · decide

end Recorder

end Oreka
