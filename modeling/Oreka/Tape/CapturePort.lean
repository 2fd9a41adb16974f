import Mathlib.Algebra.Order.Ring.Rat
import Oreka.Lib.Except
import Oreka.Lib.Run
import Oreka.Tape.ImmediateProcessing

/-!
# Capture ports

`CapturePort.cpp`, with the tapes of one port, the queue they go to, and the thread that processes it:
a call of the port, and a round of `ImmediateProcessing::ThreadHandler`, is one step. Tapes are numbered
as they are made. No capture filters are configured.
-/

namespace Oreka

/-- What the port and the processing thread read of `Config`; and what the voice detection makes of a
chunk. -/
structure PortConfig extends TapeConfig where
  audioOutputEnable : Bool := true
  audioSegmentation : Bool := false
  audioSegmentDuration : Int := 60
  vad : Bool := false
  vadHighThresholdDb : Rat := -61 / 5
  vadLowThresholdDb : Rat := -25 / 2
  vadHoldOnSec : Rat := 4
  holdResumeReportEvents : Bool := false
  holdResumeReportDuration : Bool := false
  tapeDurationMinimumSec : Int := 2
  /-- The PCM chunk that the decoder of a payload type gives, if there is one. -/
  decode : AudioChunk → Option AudioChunk := fun _ => none
  /-- `ComputeRmsDb`. -/
  rmsDb : AudioChunk → Rat := fun _ => 0
  /-- `GetDurationSec`. -/
  durationSec : AudioChunk → Rat := fun _ => 0

structure CapturePort where
  id : String
  /-- `m_audioTapeRef`. -/
  audioTape : Option Nat := none
  capturing : Bool := false
  vadBelowThresholdSec : Rat := 0
  vadUp : Bool := false
  lastUpdated : Int := 0
  captureEvents : List CaptureEvent := []
  needSendStop : Bool := false
  segmentNumber : Nat := 0

/-- Why a message is asked for. -/
inductive Cause
  | event (type : EventType)
  /-- The second message of `Finalize`. -/
  | finalize
  /-- The tape is at the `Reporting` processor. -/
  | arrival
  deriving DecidableEq, Repr

/-- A message given to `Reporting::AddMessage`. -/
structure Report where
  tape : Nat
  cause : Cause
  message : TapeMsg

structure Recorder where
  port : CapturePort
  imm : ImmediateProcessing Nat
  numTapes : Nat := 0
  reports : List Report := []
  /-- The tapes passed to the tape processor chain, and those whose file was deleted instead. -/
  processed : List Nat := []
  deleted : List Nat := []

namespace Recorder

variable (cfg : PortConfig)

/-- A port that was just made; there are no tapes. -/
def new (id : String) : Recorder where
  port := { id }
  imm := { tapes := fun _ => .new cfg.toTapeConfig 0 id }

def tape (w : Recorder) (t : Nat) : AudioTape := w.imm.tapes t

def setTape (w : Recorder) (t : Nat) (tape : AudioTape) : Recorder :=
  { w with imm := w.imm.setTape t tape }

/-- `m_audioTapeRef.reset(new AudioTape(m_id))`. -/
def resetTape (w : Recorder) (now : Int) : Recorder :=
  { w.setTape w.numTapes (.new cfg.toTapeConfig now w.port.id) with
    numTapes := w.numTapes + 1
    port := { w.port with audioTape := some w.numTapes } }

/-- `AddAudioTape`. -/
def push (w : Recorder) (t : Nat) : Recorder := { w with imm := w.imm.push t }

def store (w : Recorder) (t : Nat) (now : Int) (event : CaptureEvent) (send : Bool) : Recorder :=
  w.setTape t ((w.tape t).addCaptureEvent cfg.toTapeConfig now event send)

/-- `GetMessage` and `AddMessage`. -/
def report (w : Recorder) (t : Nat) (cause : Cause) : Except TapeFailure Recorder :=
  let r := (w.tape t).getMessage cfg.toTapeConfig
  match r.2 with
  | none => .error .nullMessage
  | some message =>
    .ok { w.setTape t r.1 with reports := w.reports ++ [⟨t, cause, message⟩] }

/-! ## Capture events -/

/-- An `EtStart` stops the tape there is and makes another. -/
def startTape (w : Recorder) (now : Int) (event : CaptureEvent) : Recorder :=
  let w := { w with port := { w.port with capturing := true } }
  let w :=
    match w.port.audioTape with
    | none => w
    | some t => w.setTape t { w.tape t with shouldStop := true }
  (w.resetTape cfg now).store cfg w.numTapes now event true

/-- The tag of the hold duration. -/
def tagHoldDuration (w : Recorder) (t : Nat) : Recorder :=
  if cfg.holdResumeReportDuration then
    w.setTape t ((w.tape t).populateTag "holdduration" (toString (w.tape t).holdDuration))
  else w

def stopTape (w : Recorder) (t : Nat) (now : Int) (event : CaptureEvent) :
    Except TapeFailure Recorder := do
  let w := { w with port := { w.port with capturing := false } }
  let w ← ((w.tagHoldDuration cfg t).store cfg t now event true).report cfg t (.event .stop)
  return { w with port := { w.port with needSendStop := false } }.push t

def holdTape (w : Recorder) (t : Nat) (now : Int) (event : CaptureEvent) :
    Except TapeFailure Recorder :=
  if (w.tape t).lastHoldTs = 0 then
    let w := w.setTape t { w.tape t with lastHoldTs := now.bmod (2 ^ 32) }
    if cfg.holdResumeReportEvents then (w.store cfg t now event true).report cfg t (.event .hold)
    else .ok w
  else .ok w

/-- The time on hold is counted. -/
def countHold (w : Recorder) (t : Nat) (now : Int) : Recorder :=
  if (w.tape t).lastHoldTs > 0 then
    w.setTape t { w.tape t with
      holdDuration := ((w.tape t).holdDuration + (now - (w.tape t).lastHoldTs)).bmod (2 ^ 32) }
  else w

def reportResume (w : Recorder) (t : Nat) (now : Int) (event : CaptureEvent) :
    Except TapeFailure Recorder :=
  if cfg.holdResumeReportEvents ∧ (w.tape t).lastHoldTs > 0 then
    (w.store cfg t now event true).report cfg t (.event .resume)
  else .ok w

def resumeTape (w : Recorder) (t : Nat) (now : Int) (event : CaptureEvent) :
    Except TapeFailure Recorder := do
  let w ← (w.countHold t now).reportResume cfg t now event
  return w.setTape t { w.tape t with lastHoldTs := 0 }

/-- The `switch` of `AddCaptureEvent`, on a tape. -/
def handleEvent (w : Recorder) (t : Nat) (now : Int) (event : CaptureEvent) :
    Except TapeFailure Recorder :=
  match event.type with
  | .start => .ok w
  | .stop => w.stopTape cfg t now event
  | .hold => w.holdTape cfg t now event
  | .resume => w.resumeTape cfg t now event
  | .endMetadata => do
    let w ← w.report cfg t (.event .endMetadata)
    return { w with port := { w.port with needSendStop := true } }
  | .update => (w.store cfg t now event true).report cfg t (.event .update)
  | _ => .ok (w.store cfg t now event false)

def addCaptureEvent (w : Recorder) (now : Int) (event : CaptureEvent) :
    Except TapeFailure Recorder :=
  let w := { w with port := { w.port with lastUpdated := now } }
  let w := if event.type = .start then w.startTape cfg now event else w
  match w.port.audioTape with
  | none => .ok w
  | some t => w.handleEvent cfg t now event

def queueCaptureEvent (w : Recorder) (event : CaptureEvent) : Recorder :=
  { w with port := { w.port with captureEvents := w.port.captureEvents ++ [event] } }

def clearEventQueue (w : Recorder) : Recorder :=
  { w with port := { w.port with captureEvents := [] } }

/-- One event of the backlog: an identifier is given the number of the segment. -/
def reportBacklogged (w : Recorder) (now : Int) (event : CaptureEvent) :
    Except TapeFailure Recorder :=
  if event.type = .orkUid then
    let n := w.port.segmentNumber + 1
    { w with port := { w.port with segmentNumber := n } }.addCaptureEvent cfg now
      { type := .orkUid, value := event.value ++ "_" ++ toString n }
  else w.addCaptureEvent cfg now event

/-- `ReportEventBacklog`. -/
def reportEventBacklog (w : Recorder) (now : Int) : Except TapeFailure Recorder :=
  w.port.captureEvents.foldlM (fun w event => w.reportBacklogged cfg now event) w

/-! ## Audio chunks -/

/-- A new tape is made and started, and given the backlog of events. -/
def openTape (w : Recorder) (now : Int) : Except TapeFailure Recorder := do
  let w ← (w.resetTape cfg now).addCaptureEvent cfg now
    { type := .start, timestamp := now, value := w.port.id }
  w.reportEventBacklog cfg now

/-- The audio segmentation. -/
def segment (w : Recorder) (now : Int) : Except TapeFailure Recorder :=
  match w.port.audioTape with
  | none => w.openTape cfg now
  | some t =>
    if now - (w.tape t).beginDate ≥ cfg.audioSegmentDuration then do
      let w ← w.addCaptureEvent cfg now { type := .stop, timestamp := now }
      w.openTape cfg now
    else .ok w

/-- How long the voice has been below the lower threshold. -/
def belowThreshold (w : Recorder) (chunk : AudioChunk) : Rat :=
  if cfg.rmsDb chunk < cfg.vadLowThresholdDb then
    w.port.vadBelowThresholdSec + cfg.durationSec chunk
  else 0

/-- The voice is gone. -/
def endVoice (w : Recorder) (now : Int) : Except TapeFailure Recorder := do
  let w := { w with port := { w.port with vadUp := false } }
  let w ← w.addCaptureEvent cfg now { type := .stop, timestamp := now }
  return { w with port := { w.port with audioTape := none } }

/-- The voice is up. -/
def followVoice (w : Recorder) (now : Int) (chunk : AudioChunk) : Except TapeFailure Recorder :=
  let w := { w with port := { w.port with vadBelowThresholdSec := w.belowThreshold cfg chunk } }
  if w.port.vadBelowThresholdSec > cfg.vadHoldOnSec then w.endVoice cfg now else .ok w

def startVoice (w : Recorder) (now : Int) : Except TapeFailure Recorder :=
  let w := { w with port := { w.port with vadBelowThresholdSec := 0, vadUp := true } }
  match w.port.audioTape with
  | none => w.openTape cfg now
  | some _ => .ok w

/-- The voice detection, on a decoded chunk. -/
def detectVoice (w : Recorder) (now : Int) (chunk : AudioChunk) : Except TapeFailure Recorder :=
  if w.port.vadUp then w.followVoice cfg now chunk
  else if cfg.rmsDb chunk > cfg.vadHighThresholdDb then w.startVoice cfg now
  else .ok w

/-- What comes before the chunk is added to a tape. -/
def beforeChunk (w : Recorder) (now : Int) (chunk : AudioChunk) : Except TapeFailure Recorder :=
  if cfg.audioSegmentation then w.segment cfg now
  else if cfg.vad then
    match if chunk.details.encoding = .pcmAudio then some chunk else cfg.decode chunk with
    | none => .ok w
    | some decoded => w.detectVoice cfg now decoded
  else .ok w

/-- The chunk is added to the tape, and the tape pushed. -/
def addToTape (w : Recorder) (chunk : AudioChunk) : Recorder :=
  match w.port.audioTape with
  | some t =>
    if w.port.capturing then
      (w.setTape t ((w.tape t).addAudioChunk cfg.toTapeConfig chunk)).push t
    else w
  | none => w

def addAudioChunk (w : Recorder) (now : Int) (chunk : AudioChunk) : Except TapeFailure Recorder :=
  let w := { w with port := { w.port with lastUpdated := now } }
  if cfg.audioOutputEnable then do
    let w ← w.beforeChunk cfg now chunk
    return w.addToTape cfg chunk
  else .ok w

/-- `IsExpired`. -/
def isExpired (w : Recorder) (now : Int) : Bool :=
  now - w.port.lastUpdated > 600 && w.port.audioTape.all fun t => (w.tape t).state ≠ .active

def finalize (w : Recorder) (now : Int) : Except TapeFailure Recorder :=
  if w.port.needSendStop then do
    let w ← w.addCaptureEvent cfg now { type := .stop, timestamp := now }
    match w.port.audioTape with
    | none => .error .nullAudioTape
    | some t =>
      let w ← w.report cfg t .finalize
      return { w with port := { w.port with needSendStop := false } }
  else .ok w

/-! ## The processing thread -/

/-- A tape that is ready is passed on or deleted, once. -/
def passOn (w : Recorder) (t : Nat) : Recorder :=
  let r := (w.tape t).takeReady
  let w := w.setTape t r.2
  if r.1 then
    if cfg.tapeDurationMinimumSec > 0 ∧ (w.tape t).duration < cfg.tapeDurationMinimumSec then
      { w with deleted := w.deleted ++ [t] }
    else if (w.tape t).keep = false then { w with deleted := w.deleted ++ [t] }
    else { w with processed := w.processed ++ [t] }
  else w

def writeTape (w : Recorder) (t : Nat) (io : Nat → Bool) : Except TapeFailure Recorder := do
  let tape ← (w.tape t).write cfg.toTapeConfig io
  return (w.setTape t tape).passOn cfg t

/-- The tape that is next on the queue, if there is one. -/
def processNext (w : Recorder) (io : Nat → Bool) : Except TapeFailure Recorder :=
  match w.imm.pop with
  | (imm, none) => .ok { w with imm }
  | (imm, some t) => { w with imm }.writeTape cfg t io

/-- A round of `ThreadHandler`, when the semaphore can be acquired. -/
def process (w : Recorder) (io : Nat → Bool) : Except TapeFailure Recorder :=
  if w.imm.count = 0 then .ok w
  else { w with imm := { w.imm with count := w.imm.count - 1 } }.processNext cfg io

/-- The call that `Reporting::AddAudioTape` makes for a tape that arrives there. -/
def arrive (w : Recorder) (t : Nat) : Except TapeFailure Recorder := w.report cfg t .arrival

end Recorder

/-- The calls of a port, and the rounds of the processing thread. -/
inductive RecorderAction
  | addAudioChunk (now : Int) (chunk : AudioChunk)
  | addCaptureEvent (now : Int) (event : CaptureEvent)
  | queueCaptureEvent (event : CaptureEvent)
  | clearEventQueue
  | finalize (now : Int)
  | process (io : Nat → Bool)

namespace Recorder

def act (cfg : PortConfig) (w : Recorder) : RecorderAction → Except TapeFailure Recorder
  | .addAudioChunk now chunk => w.addAudioChunk cfg now chunk
  | .addCaptureEvent now event => w.addCaptureEvent cfg now event
  | .queueCaptureEvent event => .ok (w.queueCaptureEvent event)
  | .clearEventQueue => .ok w.clearEventQueue
  | .finalize now => w.finalize cfg now
  | .process io => w.process cfg io

/-- A failure ends the program. -/
def step (cfg : PortConfig) (s : Except TapeFailure Recorder) (a : RecorderAction) :
    Except TapeFailure Recorder := do
  let w ← s
  w.act cfg a

end Recorder

end Oreka

/-!
## The calls of a capture plugin

`CapturePluginProxy.cpp`: where voice detection or segmentation is on, the starts and stops of tapes are
the port's own. The plugin's `EtStart` is dropped, its `EtStop` ends the backlog of events, and every
other event is kept in the backlog too.
-/

namespace Oreka

/-- The calls for one port, and the rounds of the processing thread. -/
inductive PortCall
  | audioChunkCallBack (now : Int) (chunk : AudioChunk)
  | captureEventCallBack (now : Int) (event : CaptureEvent)
  | process (io : Nat → Bool)

namespace Recorder

variable (cfg : PortConfig)

def captureEventCallBack (w : Recorder) (now : Int) (event : CaptureEvent) :
    Except TapeFailure Recorder :=
  if cfg.vad ∨ cfg.audioSegmentation then
    if event.type = .start ∨ event.type = .stop then
      if event.type = .stop then w.clearEventQueue.addCaptureEvent cfg now event else .ok w
    else (w.queueCaptureEvent event).addCaptureEvent cfg now event
  else w.addCaptureEvent cfg now event

def portCall (w : Recorder) : PortCall → Except TapeFailure Recorder
  | .audioChunkCallBack now chunk => w.addAudioChunk cfg now chunk
  | .captureEventCallBack now event => w.captureEventCallBack cfg now event
  | .process io => w.process cfg io

/-- A failure ends the program. -/
def portStep (s : Except TapeFailure Recorder) (c : PortCall) : Except TapeFailure Recorder := do
  let w ← s
  w.portCall cfg c

end Recorder

end Oreka
