import Oreka.Tape.TapeThreads

/-!
# The last chunk of a call

Seen from one tape (`View`), an action of the threads is one of a few moves (`Move`), whatever happens
to the other tapes. `Base` holds on every run: what was queued is in the file, in the hands of the
writing thread, or in the queue, in this order. A stopped tape has lost nothing when its queue was
empty (`Drained`), which a stop keeps unless it comes between the two tests of `Write`.
-/

namespace Oreka

namespace AudioTape

/-- A created tape has no file, an active one has. -/
structure FileOk (t : AudioTape) : Prop where
  created : t.state = .created → t.audioFile = none
  active : t.state = .active → t.audioFile.isSome

theorem writeChunk_ok {cfg : TapeConfig} {t : AudioTape} {chunk : AudioChunk} (hf : t.FileOk)
    (hs : t.state = .created ∨ t.state = .active) (hlimit : t.isOverSizeLimit cfg = false) :
    ∃ t', t.writeChunk cfg true chunk = .ok t' ∧ t'.written = t.written ++ [chunk] ∧
      t'.state = .active ∧ t'.audioFile.isSome ∧ t'.chunkQueue = t.chunkQueue ∧
      t'.shouldStop = t.shouldStop := by
  unfold isOverSizeLimit at hlimit
  rcases hs with hs | hs
  · simp [writeChunk, createFile, hs, isOverSizeLimit, hlimit, written, hf.created hs]
  · obtain ⟨file, hfile⟩ := Option.isSome_iff_exists.1 (hf.active hs)
    simp [writeChunk, createFile, hs, isOverSizeLimit, hlimit, written, hfile]

end AudioTape

variable {τ : Type*} [DecidableEq τ] {cfg : TapeConfig}

/-- Where the writing thread is with respect to one tape. -/
inductive Place
  | elsewhere
  | writing
  | popped (chunk : AudioChunk)
  | emptied
  | closing

/-- The chunk that the writing thread has taken from the queue of the tape. -/
def Place.inHand : Place → List AudioChunk
  | .popped chunk => [chunk]
  | _ => []

def ProcessCall.place (p : ProcessCall τ) (t : τ) : Place :=
  match p with
  | .idle | .acquired => .elsewhere
  | .writing u => if t = u then .writing else .elsewhere
  | .popped u chunk => if t = u then .popped chunk else .elsewhere
  | .emptied u => if t = u then .emptied else .elsewhere
  | .closing u => if t = u then .closing else .elsewhere

namespace TapeThreads

/-- What concerns one tape. -/
structure View where
  tape : AudioTape
  capture : CaptureCall
  place : Place
  queued : List AudioChunk

def view (s : TapeThreads τ) (t : τ) : View :=
  ⟨s.tape t, s.capture t, s.process.place t, s.queued t⟩

/-- What an action can change of a view, when the chunks that are written are `Writable`; a stop between
the two tests of `Write` finds the queue empty when `ok`. -/
inductive Move (cfg : TapeConfig) (ok : Prop) (v : View) : View → Prop
  | none : Move cfg ok v v
  | accept (chunk : AudioChunk) : v.capture = .idle → v.tape.acceptsChunks = true →
      Move cfg ok v { v with capture := .accepted chunk }
  | ignore : v.capture = .idle → Move cfg ok v { v with capture := .added }
  | reject (chunk : AudioChunk) : v.capture = .accepted chunk → Move cfg ok v { v with capture := .added }
  | queue (chunk : AudioChunk) (size : UInt32) : v.capture = .accepted chunk →
      Move cfg ok v { v with
        tape := { v.tape with
          chunkQueue := v.tape.chunkQueue ++ [chunk], chunkQueueDataSize := size }
        capture := .added, queued := v.queued ++ [chunk] }
  | push (b : Bool) : v.capture = .added →
      Move cfg ok v { v with tape := { v.tape with isQueued := b }, capture := .idle }
  | pushStopped (b : Bool) : v.capture = .stopping →
      Move cfg ok v { v with tape := { v.tape with isQueued := b }, capture := .stopped }
  | stop : v.capture = .idle → (ok → v.place = .emptied → v.tape.chunkQueue = []) →
      Move cfg ok v { v with tape := { v.tape with shouldStop := true }, capture := .stopping }
  | start : v.place = .elsewhere →
      Move cfg ok v { v with tape := { v.tape with isQueued := false }, place := .writing }
  | skip : v.place = .writing → v.tape.state = .stopped ∨ v.tape.state = .error →
      Move cfg ok v { v with place := .emptied }
  | empty : v.place = .writing → v.tape.chunkQueue = [] → Move cfg ok v { v with place := .emptied }
  | pop (chunk : AudioChunk) (rest : List AudioChunk) : v.place = .writing →
      v.tape.state ≠ .stopped → v.tape.state ≠ .error → v.tape.chunkQueue = chunk :: rest →
      Move cfg ok v { v with tape := v.tape.popped chunk rest, place := .popped chunk }
  | write (chunk : AudioChunk) (tape : AudioTape) : v.place = .popped chunk →
      v.tape.isOverSizeLimit cfg = false → v.tape.writeChunk cfg true chunk = .ok tape →
      Move cfg ok v { v with tape, place := .writing }
  | toClose : v.place = .emptied → v.tape.isToStop = true → Move cfg ok v { v with place := .closing }
  | leave : v.place = .emptied → v.tape.isToStop = false → Move cfg ok v { v with place := .elsewhere }
  | close : v.place = .closing → Move cfg ok v { v with tape := v.tape.close, place := .elsewhere }

section
variable (s : TapeThreads τ) (t u : τ)

theorem view_setTape (tape : AudioTape) :
    (s.setTape t tape).view u = if u = t then { s.view u with tape } else s.view u := by
  by_cases hu : u = t
  · subst hu
    simp [view, setTape, TapeThreads.tape]
  · simp [view, setTape, TapeThreads.tape, hu, ImmediateProcessing.setTape_of_ne _ hu]

theorem view_setCapture (c : CaptureCall) :
    (s.setCapture t c).view u = if u = t then { s.view u with capture := c } else s.view u := by
  by_cases hu : u = t
  · subst hu
    simp [view, setCapture, TapeThreads.tape]
  · simp [view, setCapture, TapeThreads.tape, hu]

theorem view_addQueued (chunk : AudioChunk) :
    (s.addQueued t chunk).view u =
      if u = t then { s.view u with queued := s.queued u ++ [chunk] } else s.view u := by
  by_cases hu : u = t
  · subst hu
    simp [view, addQueued, TapeThreads.tape]
  · simp [view, addQueued, TapeThreads.tape, hu]

theorem view_setProcess (p : ProcessCall τ) :
    (s.setProcess p).view u = { s.view u with place := p.place u } := rfl

/-- A push marks its tape. -/
theorem view_push : (s.push t).view u =
    if u = t then { s.view u with tape := { s.tape u with isQueued := true } } else s.view u := by
  by_cases hu : u = t
  · subst hu
    cases h : (s.imm.tapes u).isQueued with
    | false => simp [view, push, TapeThreads.tape, ImmediateProcessing.push, h]
    | true =>
      have ht : s.imm.tapes u = { s.imm.tapes u with isQueued := true } := by rw [← h]
      simp only [view, push, TapeThreads.tape, ImmediateProcessing.push, h, if_true]
      rw [← ht]
  · cases h : (s.imm.tapes t).isQueued <;>
      simp [view, push, TapeThreads.tape, ImmediateProcessing.push, h, hu,
        ImmediateProcessing.setTape]

end

theorem place_of_eq {s : TapeThreads τ} {p : ProcessCall τ} (hp : s.process = p) (u : τ) :
    (s.view u).place = p.place u := by rw [← hp]; rfl

theorem place_emptied {s : TapeThreads τ} {u : τ} :
    (s.view u).place = .emptied ↔ s.process = .emptied u := by
  cases hp : s.process with
  | idle => simp [view, hp, ProcessCall.place]
  | acquired => simp [view, hp, ProcessCall.place]
  | writing t => by_cases ht : u = t <;> simp [view, hp, ProcessCall.place, ht]
  | popped t chunk => by_cases ht : u = t <;> simp [view, hp, ProcessCall.place, ht]
  | emptied t => by_cases ht : u = t <;> simp [view, hp, ProcessCall.place, ht, Ne.symm]
  | closing t => by_cases ht : u = t <;> simp [view, hp, ProcessCall.place, ht]

/-- A view that only an equal place was written into. -/
theorem Move.same {ok : Prop} {v : View} {p : Place} (h : v.place = p) :
    Move cfg ok v { v with place := p } := by
  subst h
  exact .none

/-- **What an action changes of a view.** -/
theorem view_step {s : TapeThreads τ} {a : TapeAction τ} (hw : Writable cfg s a) (u : τ) :
    Move cfg (NotBetween s a) (s.view u) ((step cfg s a).view u) := by
  cases a with
  | addAudioChunk t chunk =>
    cases hc : s.capture t with
    | idle =>
      simp only [step, hc, view_setCapture]
      by_cases hu : u = t
      · subst hu
        rw [if_pos rfl]
        by_cases h : (s.tape u).acceptsChunks = true
        · rw [if_pos h]
          exact .accept chunk hc h
        · rw [if_neg h]
          exact .ignore hc
      · rw [if_neg hu]
        exact .none
    | _ =>
      simp only [step, hc]
      exact .none
  | queueChunk t =>
    cases hc : s.capture t with
    | accepted chunk =>
      simp only [step, hc]
      by_cases hu : u = t
      · subst hu
        by_cases hfull : (s.tape u).isFull cfg = true
        · rw [if_pos hfull, view_setCapture, if_pos rfl]
          exact .reject chunk hc
        · rw [if_neg hfull]
          simp only [view_addQueued, view_setTape, view_setCapture, AudioTape.queueChunk, if_neg hfull,
            if_true]
          exact .queue chunk _ hc
      · split <;> simp only [view_addQueued, view_setTape, view_setCapture, if_neg hu] <;> exact .none
    | _ =>
      simp only [step, hc]
      exact .none
  | addAudioTape t =>
    cases hc : s.capture t with
    | added =>
      simp only [step, hc, view_push, view_setCapture]
      by_cases hu : u = t
      · subst hu
        simp only [if_true]
        exact .push true hc
      · simp only [if_neg hu]
        exact .none
    | stopping =>
      simp only [step, hc, view_push, view_setCapture]
      by_cases hu : u = t
      · subst hu
        simp only [if_true]
        exact .pushStopped true hc
      · simp only [if_neg hu]
        exact .none
    | _ =>
      simp only [step, hc]
      exact .none
  | stop t =>
    cases hc : s.capture t with
    | idle =>
      simp only [step, hc, view_setTape, view_setCapture]
      by_cases hu : u = t
      · subst hu
        simp only [if_true]
        refine .stop hc fun hok hp => ?_
        rw [place_emptied] at hp
        simp only [NotBetween, hc, hp] at hok
        exact List.isEmpty_iff.1 (hok trivial)
      · simp only [if_neg hu]
        exact .none
    | _ =>
      simp only [step, hc]
      exact .none
  | acquire =>
    cases hp : s.process with
    | idle =>
      have hpl := place_of_eq hp u
      simp only [step, hp]
      split
      · rw [view_setProcess]
        exact .same hpl
      · exact .none
    | _ =>
      simp only [step, hp]
      exact .none
  | pop =>
    cases hp : s.process with
    | acquired =>
      have hpl := place_of_eq hp u
      simp only [step, hp, view_setProcess]
      cases hq : s.imm.audioTapeQueue with
      | nil =>
        simp only [ImmediateProcessing.pop, hq]
        exact .same hpl
      | cons t rest =>
        by_cases hu : u = t
        · subst hu
          simp only [ImmediateProcessing.pop, hq, Option.elim, ProcessCall.place, if_true]
          simp only [view, TapeThreads.tape, ImmediateProcessing.setTape_self]
          exact .start hpl
        · simp only [ImmediateProcessing.pop, hq, Option.elim, ProcessCall.place, if_neg hu]
          simp only [view, TapeThreads.tape, ImmediateProcessing.setTape_of_ne _ hu]
          exact .same hpl
    | _ =>
      simp only [step, hp]
      exact .none
  | popChunk =>
    cases hp : s.process with
    | writing t =>
      have hpl := place_of_eq hp u
      simp only [step, hp]
      by_cases hu : u = t
      · subst hu
        simp only [ProcessCall.place, if_true] at hpl
        by_cases hs : (s.tape u).state = .stopped ∨ (s.tape u).state = .error
        · simp only [if_pos hs, view_setProcess, ProcessCall.place, if_true]
          exact .skip hpl hs
        · rw [if_neg hs]
          simp only [not_or] at hs
          cases hq : (s.tape u).chunkQueue with
          | nil =>
            simp only [view_setProcess, ProcessCall.place, if_true]
            exact .empty hpl hq
          | cons chunk rest =>
            simp only [view_setProcess, view_setTape, ProcessCall.place, if_true]
            exact .pop chunk rest hpl hs.1 hs.2 hq
      · simp only [ProcessCall.place, if_neg hu] at hpl
        split
        · simp only [view_setProcess, ProcessCall.place, if_neg hu]
          exact .same hpl
        · split <;> simp only [view_setProcess, view_setTape, ProcessCall.place, if_neg hu] <;>
            exact .same hpl
    | _ =>
      simp only [step, hp]
      exact .none
  | writeChunk io =>
    cases hp : s.process with
    | popped t chunk =>
      have hpl := place_of_eq hp u
      simp only [Writable, hp] at hw
      obtain ⟨rfl, hlimit⟩ := hw
      simp only [step, hp]
      cases hwr : (s.tape t).writeChunk cfg true chunk with
      | error e => exact .none
      | ok tape =>
        simp only [view_setProcess, view_setTape, ProcessCall.place]
        by_cases hu : u = t
        · subst hu
          simp only [ProcessCall.place, if_true] at hpl ⊢
          exact .write chunk tape hpl hlimit hwr
        · simp only [ProcessCall.place, if_neg hu] at hpl ⊢
          exact .same hpl
    | _ =>
      simp only [step, hp]
      exact .none
  | testStop =>
    cases hp : s.process with
    | emptied t =>
      have hpl := place_of_eq hp u
      simp only [step, hp, view_setProcess]
      by_cases hu : u = t
      · subst hu
        simp only [ProcessCall.place, if_true] at hpl
        by_cases hstop : (s.tape u).isToStop = true
        · rw [if_pos hstop]
          simp only [ProcessCall.place, if_true]
          exact .toClose hpl hstop
        · rw [if_neg hstop]
          exact .leave hpl (Bool.eq_false_iff.2 hstop)
      · simp only [ProcessCall.place, if_neg hu] at hpl
        split <;> simp only [ProcessCall.place, if_neg hu] <;> exact .same hpl
    | _ =>
      simp only [step, hp]
      exact .none
  | close =>
    cases hp : s.process with
    | closing t =>
      have hpl := place_of_eq hp u
      simp only [step, hp, view_setProcess, view_setTape]
      by_cases hu : u = t
      · subst hu
        simp only [ProcessCall.place, if_true] at hpl ⊢
        exact .close hpl
      · simp only [ProcessCall.place, if_neg hu] at hpl ⊢
        exact .same hpl
    | _ =>
      simp only [step, hp]
      exact .none

/-! ## What holds on every run -/

/-- Nothing is lost while the tape is not stopped, and only the stop of the call stops it. -/
structure Base (v : View) : Prop where
  queued : v.queued = v.tape.written ++ (v.place.inHand ++ v.tape.chunkQueue)
  state : v.tape.state ≠ .error
  file : v.tape.FileOk
  shouldStop : v.tape.shouldStop = v.capture.hasStopped
  stopped : v.tape.state = .stopped → v.tape.shouldStop = true
  popped : ∀ chunk, v.place = .popped chunk → v.tape.state ≠ .stopped
  closing : v.place = .closing → v.tape.shouldStop = true ∧ v.tape.state ≠ .stopped

theorem Base.written {v : View} (h : Base v) {chunk : AudioChunk} {tape : AudioTape}
    (hp : v.place = .popped chunk) (hlimit : v.tape.isOverSizeLimit cfg = false)
    (hw : v.tape.writeChunk cfg true chunk = .ok tape) :
    tape.written = v.tape.written ++ [chunk] ∧ tape.state = .active ∧ tape.audioFile.isSome ∧
      tape.chunkQueue = v.tape.chunkQueue ∧ tape.shouldStop = v.tape.shouldStop := by
  have hs : v.tape.state = .created ∨ v.tape.state = .active := by
    have h1 := h.popped chunk hp
    have h2 := h.state
    cases hv : v.tape.state <;> simp_all
  obtain ⟨tape', hw', hwritten⟩ := AudioTape.writeChunk_ok h.file hs hlimit
  rw [hw] at hw'
  cases hw'
  exact hwritten

theorem Base.move {ok : Prop} {v v' : View} (h : Base v) (hm : Move cfg ok v v') : Base v' := by
  cases hm with
  | none => exact h
  | accept chunk hc => exact { h with shouldStop := by rw [h.shouldStop, hc]; rfl }
  | ignore hc => exact { h with shouldStop := by rw [h.shouldStop, hc]; rfl }
  | reject chunk hc => exact { h with shouldStop := by rw [h.shouldStop, hc]; rfl }
  | queue chunk size hc =>
    exact { h with
      shouldStop := by rw [h.shouldStop, hc]; rfl
      queued := by
        show v.queued ++ [chunk] = v.tape.written ++ (v.place.inHand ++ (v.tape.chunkQueue ++ [chunk]))
        rw [h.queued]
        simp
      file := ⟨h.file.created, h.file.active⟩ }
  | push b hc =>
    exact { h with shouldStop := by rw [h.shouldStop, hc]; rfl, file := ⟨h.file.created, h.file.active⟩ }
  | pushStopped b hc =>
    exact { h with shouldStop := by rw [h.shouldStop, hc]; rfl, file := ⟨h.file.created, h.file.active⟩ }
  | stop hc _ =>
    exact { h with
      shouldStop := rfl
      stopped := fun _ => rfl
      closing := fun hp => ⟨rfl, (h.closing hp).2⟩
      file := ⟨h.file.created, h.file.active⟩ }
  | start hp =>
    exact { h with
      queued := by rw [h.queued, hp]; rfl
      file := ⟨h.file.created, h.file.active⟩
      popped := fun _ hq => by cases hq
      closing := fun hq => by cases hq }
  | skip hp hs =>
    exact { h with
      queued := by rw [h.queued, hp]; rfl
      popped := fun _ hq => by cases hq
      closing := fun hq => by cases hq }
  | empty hp hq =>
    exact { h with
      queued := by rw [h.queued, hp]; rfl
      popped := fun _ hq => by cases hq
      closing := fun hq => by cases hq }
  | pop chunk rest hp hs he hq =>
    exact { h with
      queued := by rw [h.queued, hp, hq]; rfl
      file := ⟨h.file.created, h.file.active⟩
      popped := fun _ _ => hs
      closing := fun hq => by cases hq }
  | write chunk tape hp hlimit hw =>
    obtain ⟨hwritten, hactive, hfile, hq, hstop⟩ := h.written hp hlimit hw
    exact {
      queued := by
        show v.queued = tape.written ++ ([] ++ tape.chunkQueue)
        rw [h.queued, hp, hwritten, hq]
        simp [Place.inHand]
      state := by rw [hactive]; decide
      file := ⟨fun hc => absurd (hactive.symm.trans hc) (by decide), fun _ => hfile⟩
      shouldStop := hstop.trans h.shouldStop
      stopped := fun hc => absurd (hactive.symm.trans hc) (by decide)
      popped := fun _ hq => by cases hq
      closing := fun hq => by cases hq }
  | toClose hp hstop =>
    have hstop : v.tape.shouldStop = true ∧ v.tape.state ≠ .stopped := by
      simpa [AudioTape.isToStop, h.state] using hstop
    exact { h with
      queued := by rw [h.queued, hp]; rfl
      popped := fun _ hq => by cases hq
      closing := fun _ => hstop }
  | leave hp _ =>
    exact { h with
      queued := by rw [h.queued, hp]; rfl
      popped := fun _ hq => by cases hq
      closing := fun hq => by cases hq }
  | close hp =>
    have hwritten : v.tape.close.written = v.tape.written := by
      unfold AudioTape.written AudioTape.close
      cases v.tape.audioFile <;> rfl
    exact {
      queued := by
        rw [h.queued, hp, hwritten]
        rfl
      state := fun hc => by cases hc
      file := ⟨fun hc => (nomatch hc), fun hc => (nomatch hc)⟩
      shouldStop := h.shouldStop
      stopped := fun _ => (h.closing hp).1
      popped := fun _ hq => by cases hq
      closing := fun hq => by cases hq }

/-! ## A queue that is empty when the tape is stopped -/

/-- The queue is empty from the moment on where `Write` is bound to stop the tape. -/
structure Drained (v : View) : Prop extends Base v where
  emptied : v.place = .emptied → v.tape.shouldStop = true → v.tape.chunkQueue = []
  toClose : v.place = .closing → v.tape.chunkQueue = []
  drained : v.tape.state = .stopped → v.tape.chunkQueue = []

theorem Drained.move {ok : Prop} {v v' : View} (h : Drained v) (hm : Move cfg ok v v') (hok : ok) :
    Drained v' := by
  have hb := h.toBase.move hm
  cases hm with
  | none => exact h
  | accept chunk hc => exact { h with toBase := hb }
  | ignore hc => exact { h with toBase := hb }
  | reject chunk hc => exact { h with toBase := hb }
  | queue chunk size hc =>
    -- the call is not stopped
    have hno : v.tape.shouldStop = false := by rw [h.shouldStop, hc]; rfl
    exact {
      toBase := hb
      emptied := fun _ hs => absurd (hno.symm.trans hs) (by decide)
      toClose := fun hp => absurd (hno.symm.trans (h.closing hp).1) (by decide)
      drained := fun hs => absurd (hno.symm.trans (h.stopped hs)) (by decide) }
  | push b hc => exact { h with toBase := hb }
  | pushStopped b hc => exact { h with toBase := hb }
  | stop hc hempty =>
    exact { h with
      toBase := hb
      emptied := fun hp _ => hempty hok hp }
  | start hp =>
    exact { h with
      toBase := hb
      emptied := fun hq => by cases hq
      toClose := fun hq => by cases hq }
  | skip hp hs =>
    exact { h with
      toBase := hb
      emptied := fun _ _ => h.drained (hs.resolve_right h.state)
      toClose := fun hq => by cases hq }
  | empty hp hq =>
    exact { h with
      toBase := hb
      emptied := fun _ _ => hq
      toClose := fun hq => by cases hq }
  | pop chunk rest hp hs he hq =>
    exact {
      toBase := hb
      emptied := fun hq => by cases hq
      toClose := fun hq => by cases hq
      drained := fun hc => absurd hc hs }
  | write chunk tape hp hlimit hw =>
    exact {
      toBase := hb
      emptied := fun hq => by cases hq
      toClose := fun hq => by cases hq
      drained := fun hc => absurd ((h.written hp hlimit hw).2.1.symm.trans hc) (by decide) }
  | toClose hp hstop =>
    have hstop : v.tape.shouldStop = true ∧ v.tape.state ≠ .stopped := by
      simpa [AudioTape.isToStop, h.state] using hstop
    exact { h with
      toBase := hb
      emptied := fun hq => by cases hq
      toClose := fun _ => h.emptied hp hstop.1 }
  | leave hp _ =>
    exact { h with
      toBase := hb
      emptied := fun hq => by cases hq
      toClose := fun hq => by cases hq }
  | close hp =>
    exact {
      toBase := hb
      emptied := fun hq => by cases hq
      toClose := fun hq => by cases hq
      drained := fun _ => h.toClose hp }

/-! ## A stop that comes between the two tests -/

/-- `Write` is bound to stop the tape, and a chunk is on its queue. -/
structure Lost (v : View) : Prop where
  place : v.place = .emptied ∨ v.place = .closing
  shouldStop : v.tape.shouldStop = true
  state : v.tape.state ≠ .stopped
  chunkQueue : v.tape.chunkQueue ≠ []

theorem Lost.move {ok : Prop} {v v' : View} (h : Lost v) (hb : Base v) (hm : Move cfg ok v v') :
    Lost v' ∨ (v'.tape.state = .stopped ∧ v'.tape.chunkQueue ≠ []) := by
  have hstopped : v.capture.hasStopped = true := hb.shouldStop.symm.trans h.shouldStop
  cases hm with
  | none => exact .inl h
  | accept chunk hc | ignore hc | reject chunk hc | queue chunk size hc | push b hc | stop hc _ =>
    rw [hc] at hstopped
    cases hstopped
  | pushStopped b hc => exact .inl { h with }
  | start hp | skip hp _ | empty hp _ | pop chunk rest hp _ _ _ | write chunk tape hp _ _ =>
    rcases h.place with h' | h' <;> rw [hp] at h' <;> cases h'
  | toClose hp _ => exact .inl { h with place := .inr rfl }
  | leave hp hstop =>
    have htrue : v.tape.isToStop = true := by simp [AudioTape.isToStop, h.shouldStop, h.state]
    rw [htrue] at hstop
    cases hstop
  | close hp => exact .inr ⟨rfl, h.chunkQueue⟩

/-- No chunk is left behind on the queue of a stopped tape. -/
theorem chunkQueue_of_kept {s : TapeThreads τ} {t : τ} (hk : s.Kept) (hb : Base (s.view t))
    (hs : (s.tape t).state = .stopped) : (s.tape t).chunkQueue = [] := by
  have hq : s.queued t = (s.tape t).written ++ ((s.view t).place.inHand ++ (s.tape t).chunkQueue) :=
    hb.queued
  rw [← hk t hs] at hq
  exact (List.append_eq_nil_iff.1 (List.self_eq_append_right.1 hq)).2

theorem lost_run {l : List (TapeAction τ)} {t : τ} : ∀ {s : TapeThreads τ},
    (∀ u, Base (s.view u)) → Lost (s.view t) → Run.Meets (step cfg) (Writable cfg) s l →
    Run.Always (step cfg) Kept s l → Lost ((l.foldl (step cfg) s).view t) := by
  induction l with
  | nil => exact fun _ hl _ _ => hl
  | cons a l ih =>
    intro s hb hl hw ha
    have hb' (u : τ) : Base ((step cfg s a).view u) := (hb u).move (view_step hw.1 u)
    rcases hl.move (hb t) (view_step hw.1 t) with hl' | ⟨hs, hq⟩
    · exact ih hb' hl' hw.2 ha.2
    · exact absurd (chunkQueue_of_kept ha.2.head (hb' t) hs) hq

/-! ## The condition on the stops -/

variable {now : τ → Int} {portId : τ → String}

theorem drained_new (t : τ) : Drained ((new cfg now portId).view t) where
  queued := rfl
  state := by simp [view, new, TapeThreads.tape, AudioTape.new]
  file := ⟨fun _ => rfl, fun h => nomatch h⟩
  shouldStop := rfl
  stopped := fun h => nomatch h
  popped := fun _ h => nomatch h
  closing := fun h => nomatch h
  emptied := fun h => nomatch h
  toClose := fun h => nomatch h
  drained := fun h => nomatch h

theorem Drained.kept {s : TapeThreads τ} (h : ∀ t, Drained (s.view t)) : s.Kept := by
  intro t hs
  have hq : s.queued t = (s.tape t).written ++ ((s.view t).place.inHand ++ (s.tape t).chunkQueue) :=
    (h t).queued
  have hhand : (s.view t).place.inHand = [] := by
    cases hp : (s.view t).place with
    | popped chunk => exact absurd hs ((h t).popped chunk hp)
    | _ => rfl
  have hqueue : (s.tape t).chunkQueue = [] := (h t).drained hs
  rw [hq, hhand, hqueue]
  simp

theorem meets_of_kept {l : List (TapeAction τ)} : ∀ {s : TapeThreads τ},
    (∀ u, Base (s.view u)) → Run.Meets (step cfg) (Writable cfg) s l →
    (l.foldl (step cfg) s).process = .idle → Run.Always (step cfg) Kept s l →
    Run.Meets (step cfg) NotBetween s l := by
  induction l with
  | nil => exact fun _ _ _ _ => trivial
  | cons a l ih =>
    intro s hb hw hend ha
    have hb' (u : τ) : Base ((step cfg s a).view u) := (hb u).move (view_step hw.1 u)
    refine ⟨?_, ih hb' hw.2 hend ha.2⟩
    cases a with
    | stop t =>
      by_contra hno
      cases hc : s.capture t with
      | idle =>
        cases hp : s.process with
        | emptied u =>
          simp only [NotBetween, hc, hp, Classical.not_imp] at hno
          obtain ⟨rfl, hq⟩ := hno
          have hl : Lost ((step cfg s (.stop u)).view u) := by
            simp only [step, hc, view_setTape, view_setCapture, if_true]
            refine ⟨.inl (place_emptied.2 hp), rfl, fun hs => ?_, fun h => hq (List.isEmpty_iff.2 h)⟩
            have hstop := ((hb u).stopped hs).symm.trans (hb u).shouldStop
            rw [show (s.view u).capture = .idle from hc] at hstop
            cases hstop
          have hend' := (lost_run hb' hl hw.2 ha.2).place
          have hidle := place_of_eq hend u
          rw [List.foldl_cons] at hidle
          rcases hend' with h | h <;> rw [h] at hidle <;> cases hidle
        | _ => simp [NotBetween, hc, hp] at hno
      | _ => simp [NotBetween, hc] at hno
    | _ => trivial

/-- **No chunk is lost at the end of a call** when no stop comes between the two tests of `Write` with
a chunk queued in the meantime; and in a run that ends with the writing thread waiting for a tape, one
is lost when a stop does. -/
theorem always_kept_iff (cfg : TapeConfig) (now : τ → Int) (portId : τ → String)
    (actions : List (TapeAction τ))
    (hw : Run.Meets (step cfg) (Writable cfg) (new cfg now portId) actions) :
    (Run.Meets (step cfg) NotBetween (new cfg now portId) actions →
      Run.Always (step cfg) Kept (new cfg now portId) actions) ∧
    ((actions.foldl (step cfg) (new cfg now portId)).process = .idle →
      Run.Always (step cfg) Kept (new cfg now portId) actions →
      Run.Meets (step cfg) NotBetween (new cfg now portId) actions) := by
  constructor
  · intro hm
    have hboth := hw.and hm
    refine Run.Always.mono (fun s => Drained.kept) (Run.always_of_inv ?_ drained_new hboth)
    intro s a hi hc t
    exact (hi t).move (view_step hc.1 t) hc.2
  · exact meets_of_kept (fun u => (drained_new u).toBase) hw

/-- A packet of speech. -/
def speech : AudioChunk := { details := { encoding := .pcmAudio, numBytes := 320 } }

/-- A chunk is queued, the tape pushed and its chunk written. -/
def oneChunk : List (TapeAction Unit) :=
  [.addAudioChunk () speech, .queueChunk (), .addAudioTape (), .acquire, .pop, .popChunk,
    .writeChunk true]

theorem always_kept_call :
    Run.Always (step {}) Kept (new {} (fun _ : Unit => 0) fun _ => "A")
      (oneChunk ++ [.popChunk, .testStop, .stop (), .addAudioTape (), .acquire, .pop, .popChunk,
        .testStop, .close]) :=
  (always_kept_iff {} (fun _ => 0) (fun _ => "A") _ (by decide)).1 (by decide)

/-- `Write` finds the queue empty; a second chunk and the stop come before it tests the flag. -/
def betweenTests : List (TapeAction Unit) :=
  oneChunk ++ [.popChunk, .addAudioChunk () speech, .queueChunk (), .addAudioTape (), .stop (),
    .testStop, .close]

theorem not_always_kept :
    Run.Meets (step {}) (Writable {}) (new {} (fun _ : Unit => 0) fun _ => "A") betweenTests ∧
      ¬ Run.Always (step {}) Kept (new {} (fun _ : Unit => 0) fun _ => "A") betweenTests := by
  refine ⟨by decide, fun ha => ?_⟩
  have hwritten := congrArg List.length (ha.last () (by decide))
  exact absurd hwritten (by decide)

end TapeThreads

end Oreka
