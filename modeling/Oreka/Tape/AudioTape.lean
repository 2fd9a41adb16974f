import Oreka.Audio.AudioChunk
import Oreka.Base.Utils
import Std.Data.TreeMap.Basic

/-!
# Audio tapes

`AudioTape.cpp`: a recording under way. The capture thread queues chunks and events on a tape, the
thread of `ImmediateProcessing` writes the chunks to a file and stops the tape. `WriteChunk`, and
`Open` before it, may throw; whether they do is an argument. File names and the parties' texts are
left out.
-/

namespace Oreka

/-- `LocalSideEnum`. -/
inductive LocalSide
  | unkn | side1 | side2 | both | invalid
  deriving DecidableEq, Repr

/-- `LocalSideToEnum`. -/
def LocalSide.ofText (s : String) : LocalSide :=
  if compareNoCase s "unknown" then .unkn
  else if compareNoCase s "side1" then .side1
  else if compareNoCase s "side2" then .side2
  else if compareNoCase s "both" then .both
  else .invalid

/-- `AudioKeepDirectionEnum`. -/
inductive AudioKeepDirection
  | both | local | remote | none | invalid
  deriving DecidableEq, Repr

/-- `AudioKeepDirectionToEnum`. -/
def AudioKeepDirection.ofText (s : String) : AudioKeepDirection :=
  if compareNoCase s "both" then .both
  else if compareNoCase s "local" then .local
  else if compareNoCase s "remote" then .remote
  else if compareNoCase s "none" then .none
  else .invalid

/-- `AudioDirectionMarks`: a next mark of 0 is none. -/
structure AudioDirectionMarks where
  timestamp : Int := 0
  nextTimestampMark : Int := 0
  audioKeepDirection : AudioKeepDirection := .both
  deriving DecidableEq, Repr

/-- The states that tapes are in, of `StateEnum`. -/
inductive TapeState
  | created | active | stopped | error
  deriving DecidableEq, Repr

/-- `m_audioFileRef`: what `WriteChunk` was given and whether the file is closed. -/
structure TapeFile where
  /-- A `LibSndFileFile`, else a `MediaChunkFile`. -/
  pcm : Bool
  chunks : List AudioChunk := []
  closed : Bool := false

/-- What the tapes read of `Config`. -/
structure TapeConfig where
  captureFileBatchSizeKByte : Int := 64
  captureFileSizeLimitKb : Int := 300000
  audioKeepDirectionDefault : String := "both"
  audioKeepDirectionIncomingDefault : String := "both"
  audioKeepDirectionOutgoingDefault : String := "both"
  /-- `PartyFilterActive`. -/
  partyFilterActive : Bool := false
  /-- `PartyFilterMatches`. -/
  partyFilterMatches : String → Bool := fun _ => false
  dtmfReportingDetailed : Bool := false
  dynamicTags : List String := []
  tagsListUseInitialValue : List String := []

namespace TapeConfig

/-- `(unsigned int)(m_captureFileBatchSizeKByte * 3 * 1024)`. -/
def chunkQueueLimit (cfg : TapeConfig) : UInt32 :=
  UInt32.ofNat ((cfg.captureFileBatchSizeKByte * 3 * 1024) % 4294967296).toNat

/-- The direction a new tape keeps. -/
def initialKeepDirection (cfg : TapeConfig) : AudioKeepDirection :=
  if !compareNoCase cfg.audioKeepDirectionIncomingDefault "both" then
    .ofText cfg.audioKeepDirectionIncomingDefault
  else if !compareNoCase cfg.audioKeepDirectionOutgoingDefault "both" then
    .ofText cfg.audioKeepDirectionOutgoingDefault
  else .ofText cfg.audioKeepDirectionDefault

end TapeConfig

structure AudioTape where
  portId : String
  state : TapeState := .created
  beginDate : Int
  duration : Int := 0
  direction : Direction := .dirUnkn
  localSide : LocalSide := .unkn
  audioKeepDirection : AudioKeepDirection
  audioDirectionMarks : List AudioDirectionMarks := []
  shouldStop : Bool := false
  readyForBatchProcessing : Bool := false
  trackingId : String
  bytesWritten : Int := 0
  passedPartyFilterTest : Bool := false
  onDemand : Bool := false
  keep : Bool := true
  isQueued : Bool := false
  chunkQueue : List AudioChunk := []
  chunkQueueDataSize : UInt32 := 0
  audioFile : Option TapeFile := none
  localEntryPoint : String := ""
  localIp : String := ""
  remoteIp : String := ""
  orkUid : String := ""
  nativeCallId : String := ""
  eventQueue : List CaptureEvent := []
  toSendEventQueue : List CaptureEvent := []
  tags : Std.TreeMap String String := ∅
  lastHoldTs : Int := 0
  holdDuration : Int := 0

/-- What ends the program. -/
inductive TapeFailure
  /-- `m_audioFileRef->WriteChunk` without a file. -/
  | nullAudioFile
  /-- `Reporting::AddMessage` without a message. -/
  | nullMessage
  /-- `m_audioTapeRef->GetMessage` without a tape. -/
  | nullAudioTape
  deriving DecidableEq, Repr

/-- The stage of a tape message, where it has one. -/
inductive Stage
  | event (type : EventType)
  | ready
  deriving DecidableEq, Repr

/-- `TapeMsg`. -/
structure TapeMsg where
  recId : String := ""
  stage : Option Stage := none
  capturePort : String := ""
  localEntryPoint : String := ""
  audioKeepDirection : AudioKeepDirection := .both
  duration : Int := 0
  timestamp : Int := 0
  localIp : String := ""
  remoteIp : String := ""
  nativeCallId : String := ""
  onDemand : Option Bool := none
  tags : Std.TreeMap String String := ∅

/-- The events that a message is made of. -/
def EventType.isReported : EventType → Bool
  | .stop | .start | .update | .hold | .resume => true
  | _ => false

namespace AudioTape

/-- `AudioTape(portId)`. -/
def new (cfg : TapeConfig) (now : Int) (portId : String) : AudioTape where
  portId
  beginDate := now
  audioKeepDirection := cfg.initialKeepDirection
  trackingId := portId

/-! ## Chunks -/

/-- The test of `AddAudioChunk`. -/
def acceptsChunks (t : AudioTape) : Bool := t.state = .created || t.state = .active

/-- Too much data is queued for another chunk. -/
def isFull (cfg : TapeConfig) (t : AudioTape) : Bool := t.chunkQueueDataSize ≥ cfg.chunkQueueLimit

/-- The section of `AddAudioChunk` under the mutex. -/
def queueChunk (cfg : TapeConfig) (t : AudioTape) (chunk : AudioChunk) : AudioTape :=
  if t.isFull cfg then t
  else { t with
    chunkQueue := t.chunkQueue ++ [chunk]
    chunkQueueDataSize := t.chunkQueueDataSize + chunk.details.numBytes }

def addAudioChunk (cfg : TapeConfig) (t : AudioTape) (chunk : AudioChunk) : AudioTape :=
  if t.acceptsChunks then t.queueChunk cfg chunk else t

/-- The tape without the first chunk of its queue. -/
def popped (t : AudioTape) (chunk : AudioChunk) (rest : List AudioChunk) : AudioTape :=
  { t with chunkQueue := rest, chunkQueueDataSize := t.chunkQueueDataSize - chunk.details.numBytes }

/-- `!m_passedPartyFilterTest && PartyFilterActive()`. -/
def isFiltered (cfg : TapeConfig) (t : AudioTape) : Bool :=
  !t.passedPartyFilterTest && cfg.partyFilterActive

/-- The file that the first chunk of a tape makes `Write` create. -/
def createFile (t : AudioTape) (chunk : AudioChunk) : AudioTape :=
  if t.state = .created then
    { t with state := .active, audioFile := some { pcm := chunk.details.encoding = .pcmAudio } }
  else t

/-- `(m_bytesWritten / 1024) > CONFIG.m_captureFileSizeLimitKb`. -/
def isOverSizeLimit (cfg : TapeConfig) (t : AudioTape) : Bool :=
  t.bytesWritten.tdiv 1024 > cfg.captureFileSizeLimitKb

/-- What `Write` does with a chunk of the queue; `io` is whether `Open` and `WriteChunk` return. -/
def writeChunk (cfg : TapeConfig) (io : Bool) (t : AudioTape) (chunk : AudioChunk) :
    Except TapeFailure AudioTape :=
  let t := t.createFile chunk
  if t.state = .active then
    if t.isOverSizeLimit cfg then .ok t
    else
      match t.audioFile with
      | none => .error .nullAudioFile
      | some file =>
        .ok (if io then
          { t with audioFile := some { file with chunks := file.chunks ++ [chunk] }
                   bytesWritten := t.bytesWritten + chunk.getNumBytes }
        else t)
  else .ok t

/-- The loop that throws chunks away. -/
def discardChunks : List AudioChunk → AudioTape → AudioTape
  | [], t => t
  | chunk :: rest, t => discardChunks rest (t.popped chunk rest)

/-- The loop that writes chunks. -/
def writeChunks (cfg : TapeConfig) :
    (Nat → Bool) → List AudioChunk → AudioTape → Except TapeFailure AudioTape
  | _, [], t => .ok t
  | io, chunk :: rest, t => do
    let t ← (t.popped chunk rest).writeChunk cfg (io 0) chunk
    writeChunks cfg (fun n => io (n + 1)) rest t

/-- The condition under which `Write` stops the tape. -/
def isToStop (t : AudioTape) : Bool := (t.shouldStop && t.state ≠ .stopped) || t.state = .error

/-- `m_state = StateStopped` and what follows it. -/
def close (t : AudioTape) : AudioTape :=
  { t with
    state := .stopped
    audioFile := t.audioFile.map fun file => { file with closed := true }
    readyForBatchProcessing :=
      t.readyForBatchProcessing || (t.audioFile.isSome && t.bytesWritten > 0) }

/-- The test behind the loop. -/
def stopIfTold (t : AudioTape) : AudioTape := if t.isToStop then t.close else t

/-- The loop of `Write`, which a stopped tape is not in. -/
def writeLoop (cfg : TapeConfig) (io : Nat → Bool) (t : AudioTape) : Except TapeFailure AudioTape :=
  if t.state = .stopped ∨ t.state = .error then .ok t else writeChunks cfg io t.chunkQueue t

def write (cfg : TapeConfig) (io : Nat → Bool) (t : AudioTape) : Except TapeFailure AudioTape :=
  if t.isFiltered cfg then
    .ok (discardChunks t.chunkQueue (if t.state = .created then { t with state := .active } else t))
  else do
    let t ← t.writeLoop cfg io
    return t.stopIfTold

/-- The chunks that are in the file. -/
def written (t : AudioTape) : List AudioChunk := t.audioFile.elim [] (·.chunks)

/-! ## Events -/

/-- The keep direction changes: the last mark ends where the new one begins, by a clock that is read
once for each. -/
def addDirectionMark (t : AudioTape) (now later : Int) (d : AudioKeepDirection) : AudioTape :=
  { t with
    audioKeepDirection := d
    audioDirectionMarks :=
      (t.audioDirectionMarks.dropLast ++
          t.audioDirectionMarks.getLast?.toList.map fun m => { m with nextTimestampMark := later }) ++
        [{ timestamp := now, audioKeepDirection := d }] }

/-- A party is tried on the filter until one passes. -/
def testParty (cfg : TapeConfig) (t : AudioTape) (party : String) : AudioTape :=
  if t.isFiltered cfg then { t with passedPartyFilterTest := cfg.partyFilterMatches party } else t

/-- The `switch` of `AddCaptureEvent`. -/
def extractInfo (cfg : TapeConfig) (t : AudioTape) (now : Int) (event : CaptureEvent) : AudioTape :=
  match event.type with
  | .start =>
    let t := { t with trackingId := event.value }
    if t.state = .created then { t with beginDate := event.timestamp } else t
  | .stop => { t with shouldStop := true, duration := event.timestamp - t.beginDate }
  | .localSide => { t with localSide := .ofText event.value }
  | .audioKeepDirection => t.addDirectionMark now now (.ofText event.value)
  | .direction =>
    { t with direction :=
        if compareNoCase event.value "in" then .dirIn
        else if compareNoCase event.value "out" then .dirOut
        else .dirUnkn }
  | .remoteParty | .localParty => t.testParty cfg event.value
  | .localEntryPoint => { t with localEntryPoint := event.value }
  | .localIp => { t with localIp := event.value }
  | .remoteIp => { t with remoteIp := event.value }
  | .orkUid => { t with orkUid := event.value }
  | .callId => { t with nativeCallId := event.value }
  | .keyValue =>
    if compareNoCase event.key "ondemand" then
      if compareNoCase event.value "true" then { t with onDemand := true }
      else if compareNoCase event.value "false" then { t with onDemand := false }
      else t
    else if compareNoCase event.key "Keep" then { t with keep := compareNoCase event.value "1" }
    else t
  | _ => t

/-- The event is stored, and queued for a message where `send` says so. -/
def storeEvent (t : AudioTape) (event : CaptureEvent) (send : Bool) : AudioTape :=
  { t with
    eventQueue := t.eventQueue ++ [event]
    toSendEventQueue := if send then t.toSendEventQueue ++ [event] else t.toSendEventQueue }

/-- A tag is stored or updated, unless it is a dynamic one. -/
def storeTag (cfg : TapeConfig) (t : AudioTape) (event : CaptureEvent) : AudioTape :=
  if event.type = .keyValue ∧ event.value ≠ "" ∧ event.key ≠ "" then
    if !cfg.dtmfReportingDetailed && compareNoCase event.key "dtmfdigit" then t
    else if cfg.dynamicTags.any (compareNoCase event.key) then t
    else if event.key ∈ t.tags ∧ event.key ∈ cfg.tagsListUseInitialValue then t
    else { t with tags := t.tags.insert event.key event.value }
  else t

def addCaptureEvent (cfg : TapeConfig) (t : AudioTape) (now : Int) (event : CaptureEvent)
    (send : Bool) : AudioTape :=
  ((t.extractInfo cfg now event).storeEvent event send).storeTag cfg event

/-- `PopulateTag`: a tag that is there stays. -/
def populateTag (t : AudioTape) (key value : String) : AudioTape :=
  { t with tags := t.tags.insertIfNew key value }

/-! ## Messages -/

/-- `PopulateTapeMessage`. -/
def tapeMessage (t : AudioTape) (stage : Stage) : TapeMsg where
  recId := t.orkUid
  stage := some stage
  capturePort := t.portId
  localEntryPoint := t.localEntryPoint
  audioKeepDirection := t.audioKeepDirection
  duration := t.duration
  timestamp := t.beginDate
  localIp := t.localIp
  remoteIp := t.remoteIp
  nativeCallId := t.nativeCallId
  onDemand := some t.onDemand
  tags := t.tags

/-- `GetMessage`: no message where the filter has not let the tape pass. The events are taken from
the queue, and when there are none the tape is ready. -/
def getMessage (cfg : TapeConfig) (t : AudioTape) : AudioTape × Option TapeMsg :=
  if t.isFiltered cfg then (t, none)
  else
    match t.toSendEventQueue with
    | [] => (t, some (if t.bytesWritten > 0 then t.tapeMessage .ready else {}))
    | event :: rest =>
      ({ t with toSendEventQueue := rest },
        some (if event.type.isReported then t.tapeMessage (.event event.type) else {}))

/-- `IsReadyForBatchProcessing`, which toggles. -/
def takeReady (t : AudioTape) : Bool × AudioTape :=
  (t.readyForBatchProcessing, { t with readyForBatchProcessing := false })

end AudioTape

end Oreka
