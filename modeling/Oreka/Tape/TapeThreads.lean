import Oreka.Lib.Run
import Oreka.Tape.ImmediateProcessing

/-!
# The two threads of a tape

Any number of tapes, each fed by a capture thread (chunks, and then the stop of the call) and all of
them written by the thread of `ImmediateProcessing`, with the party filter inactive. An action is one
section under a mutex, one operation of the semaphore, or one access to a flag that is read without
the mutex. An action that a thread cannot take where it stands changes nothing.
-/

namespace Oreka

/-- Where the capture thread of a tape is. -/
inductive CaptureCall
  | idle
  /-- In `AddAudioChunk`, behind the test of the state. -/
  | accepted (chunk : AudioChunk)
  /-- Before `AddAudioTape`. -/
  | added
  /-- In the stop of the call: the flag is set, the tape is still to be pushed. -/
  | stopping
  | stopped

/-- Whether the stop of the call has set the flag. -/
def CaptureCall.hasStopped : CaptureCall → Bool
  | .stopping | .stopped => true
  | _ => false

/-- Where the thread of `ImmediateProcessing` is. -/
inductive ProcessCall (τ : Type*)
  | idle
  /-- In `Pop`, behind the semaphore. -/
  | acquired
  /-- At the head of the loop of `Write`. -/
  | writing (t : τ)
  | popped (t : τ) (chunk : AudioChunk)
  /-- Behind the loop, before the stop flag is tested. -/
  | emptied (t : τ)
  /-- The test came out true. -/
  | closing (t : τ)

/-- The threads and their tapes, and the chunks queued on each tape so far. -/
structure TapeThreads (τ : Type*) where
  imm : ImmediateProcessing τ
  capture : τ → CaptureCall
  process : ProcessCall τ
  queued : τ → List AudioChunk

inductive TapeAction (τ : Type*)
  /-- `AddAudioChunk` reads the state. -/
  | addAudioChunk (t : τ) (chunk : AudioChunk)
  | queueChunk (t : τ)
  | addAudioTape (t : τ)
  /-- The event sets `m_shouldStop`. -/
  | stop (t : τ)
  | acquire
  | pop
  | popChunk
  | writeChunk (io : Bool)
  | testStop
  | close

namespace TapeThreads

variable {τ : Type*} [DecidableEq τ]

/-- The tapes are new, their queues empty, and no thread is in a call. -/
def new (cfg : TapeConfig) (now : τ → Int) (portId : τ → String) : TapeThreads τ where
  imm := { tapes := fun t => .new cfg (now t) (portId t) }
  capture := fun _ => .idle
  process := .idle
  queued := fun _ => []

def tape (s : TapeThreads τ) (t : τ) : AudioTape := s.imm.tapes t

def setTape (s : TapeThreads τ) (t : τ) (tape : AudioTape) : TapeThreads τ :=
  { s with imm := s.imm.setTape t tape }

def setCapture (s : TapeThreads τ) (t : τ) (c : CaptureCall) : TapeThreads τ :=
  { s with capture := Function.update s.capture t c }

def setProcess (s : TapeThreads τ) (p : ProcessCall τ) : TapeThreads τ := { s with process := p }

/-- A chunk is on the queue of its tape. -/
def addQueued (s : TapeThreads τ) (t : τ) (chunk : AudioChunk) : TapeThreads τ :=
  { s with queued := Function.update s.queued t (s.queued t ++ [chunk]) }

def push (s : TapeThreads τ) (t : τ) : TapeThreads τ := { s with imm := s.imm.push t }

def step (cfg : TapeConfig) (s : TapeThreads τ) : TapeAction τ → TapeThreads τ
  | .addAudioChunk t chunk =>
    match s.capture t with
    | .idle => s.setCapture t (if (s.tape t).acceptsChunks then .accepted chunk else .added)
    | _ => s
  | .queueChunk t =>
    match s.capture t with
    | .accepted chunk =>
      if (s.tape t).isFull cfg then s.setCapture t .added
      else ((s.setTape t ((s.tape t).queueChunk cfg chunk)).addQueued t chunk).setCapture t .added
    | _ => s
  | .addAudioTape t =>
    match s.capture t with
    | .added => (s.setCapture t .idle).push t
    | .stopping => (s.setCapture t .stopped).push t
    | _ => s
  | .stop t =>
    match s.capture t with
    | .idle => (s.setCapture t .stopping).setTape t { s.tape t with shouldStop := true }
    | _ => s
  | .acquire =>
    match s.process with
    | .idle =>
      if s.imm.count > 0 then
        { s with imm := { s.imm with count := s.imm.count - 1 } }.setProcess .acquired
      else s
    | _ => s
  | .pop =>
    match s.process with
    | .acquired => { s with imm := s.imm.pop.1 }.setProcess (s.imm.pop.2.elim .idle .writing)
    | _ => s
  | .popChunk =>
    match s.process with
    | .writing t =>
      if (s.tape t).state = .stopped ∨ (s.tape t).state = .error then s.setProcess (.emptied t)
      else
        match (s.tape t).chunkQueue with
        | [] => s.setProcess (.emptied t)
        | chunk :: rest =>
          (s.setTape t ((s.tape t).popped chunk rest)).setProcess (.popped t chunk)
    | _ => s
  | .writeChunk io =>
    match s.process with
    | .popped t chunk =>
      match (s.tape t).writeChunk cfg io chunk with
      | .ok tape => (s.setTape t tape).setProcess (.writing t)
      | .error _ => s
    | _ => s
  | .testStop =>
    match s.process with
    | .emptied t => s.setProcess (if (s.tape t).isToStop then .closing t else .idle)
    | _ => s
  | .close =>
    match s.process with
    | .closing t => (s.setTape t (s.tape t).close).setProcess .idle
    | _ => s

/-- A chunk that is to be written is: no error, and no size limit is reached. -/
def Writable (cfg : TapeConfig) (s : TapeThreads τ) (a : TapeAction τ) : Prop :=
  match a, s.process with
  | .writeChunk io, .popped t _ => io = true ∧ (s.tape t).isOverSizeLimit cfg = false
  | _, _ => True

instance (cfg : TapeConfig) (s : TapeThreads τ) (a : TapeAction τ) : Decidable (Writable cfg s a) := by
  unfold Writable
  split <;> infer_instance

/-- The chunks queued on a tape are in its file when the file is closed. -/
def Kept (s : TapeThreads τ) : Prop :=
  ∀ t, (s.tape t).state = .stopped → (s.tape t).written = s.queued t

/-- The call is not stopped between the moment where `Write` has found the queue of the tape empty and
its test of the flag, with a chunk queued in the meantime. -/
def NotBetween (s : TapeThreads τ) : TapeAction τ → Prop
  | .stop t =>
    match s.capture t, s.process with
    | .idle, .emptied u => u = t → (s.tape t).chunkQueue.isEmpty = true
    | _, _ => True
  | _ => True

instance (s : TapeThreads τ) (a : TapeAction τ) : Decidable (NotBetween s a) := by
  unfold NotBetween
  split
  · split <;> infer_instance
  · infer_instance

end TapeThreads

end Oreka
