import Oreka.Lib.Except
import Oreka.Mixer.RtpMixer
import Oreka.Tape.DirectionSelector

/-!
# Batch processing

`BatchProcessing.cpp`: the transcoding of one tape by `BatchProcessing::ThreadHandler`, from the chunks
of its capture file to the output file, and what becomes of the files. The samples of a VoIP call pass a
decoder, the audio gain and an RTP mixer, and, with a secondary output path, another mixer. Log messages
are left out, the counts of decoded samples and the payload types seen with them; so are the permissions
and the owner of the output file.
-/

namespace Oreka

open Mixer

/-- `RTP_PAYLOAD_TYPE_MAX`. -/
abbrev rtpPayloadTypeMax : Nat := 127

/-- A decoder is given the chunks of one side and one payload type, and holds this chunk after them
until it is given the next. -/
abbrev Decoder := List AudioChunk → Except AudioError (Option AudioChunk)

/-- What the thread reads of `Config`, and the filters that are registered. -/
structure BatchConfig extends MixerConfig where
  directionLookBack : Bool := true
  stereoRecording : Bool := false
  audioOutputPathSecondary : String := ""
  deleteNativeFile : Bool := true
  deleteFailedCaptureFile : Bool := false
  /-- `GetNewFilter(rtpPayloadType)`. -/
  decoder : Nat → Option Decoder
  /-- A filter of the name "RtpMixer" is registered. -/
  hasRtpMixer : Bool := true
  /-- A sample of a channel times the multipliers of `AudioGain`, towards zero. -/
  amplify : UInt8 → Int → Int := fun _ sample => sample
  /-- The memory that the circular buffers of the two mixers are made of. -/
  stale : Nat → Int := fun _ => 0
  staleSecondary : Nat → Int := fun _ => 0

/-- `CONFIG.m_audioOutputPathSecondary.length() > 3`. -/
def BatchConfig.hasSecondary (cfg : BatchConfig) : Bool := cfg.audioOutputPathSecondary.utf8ByteSize > 3

inductive BatchFailure
  /-- A `CStdString` is thrown. -/
  | exception
  /-- A null pointer or an index past the end is used. -/
  | crash
  deriving DecidableEq, Repr

/-- What the mixer throws. -/
def BatchFailure.ofMixer : MixerError → BatchFailure
  | .notPcm => .exception
  | .audio _ => .exception
  | .channelIndex => .crash

/-- The capture file: its chunks, and whether `ReadChunkMono` throws after them. -/
structure CaptureFile where
  chunks : List AudioChunk
  broken : Bool := false

/-- An output file: how often it was opened, and what was written since. -/
structure OutFile where
  opened : Nat := 0
  written : List AudioChunk := []

/-- A mixer, and what it was given. -/
structure FedMixer where
  mixer : RtpMixer
  inputs : List (Option AudioChunk) := []

/-- The variables of the thread; file operations are numbered. -/
structure Batch where
  ops : Nat := 0
  forceChannel1 : Bool := false
  firstChunk : Bool := true
  voIpSession : Bool := false
  /-- The payload types of `decoder1` and `decoder2`. -/
  decoder1 : Nat := rtpPayloadTypeMax - 1
  decoder2 : Nat := rtpPayloadTypeMax - 1
  /-- What the filters in `decoders1` and `decoders2` were given. -/
  decoders1 : Nat → List AudioChunk := fun _ => []
  decoders2 : Nat → List AudioChunk := fun _ => []
  rtpMixer : Option FedMixer := none
  rtpMixerSecondary : Option FedMixer := none
  tmpChunk : Option AudioChunk := none
  tmpChunkSecondary : Option AudioChunk := none
  outFile : OutFile := {}
  outFileSecondary : Option OutFile := none
  numSamplesOut : Nat := 0

/-! ## Filters -/

/-- `AudioGainFilter::AudioChunkIn` and `AudioChunkOut`. -/
def audioGain (cfg : BatchConfig) : Option AudioChunk → Except BatchFailure (Option AudioChunk)
  | none => .ok none
  | some chunk => do
    let numSamples ← chunk.getNumSamples.mapError fun _ => .exception
    if numSamples = 0 then return none
    else if chunk.details.encoding ≠ .pcmAudio then
      return some ((AudioChunk.new 0).setBuffer chunk.buffer chunk.details)
    else
      return some { AudioChunk.new 0 with
        details := chunk.details
        buffer := chunk.pcm.map fun sample => RtpMixer.saturate (cfg.amplify chunk.details.channel sample) }

namespace FedMixer

def audioChunkIn (cfg : BatchConfig) (m : FedMixer) (chunk : Option AudioChunk) :
    Except BatchFailure FedMixer := do
  let mixer ← (m.mixer.audioChunkIn cfg.toMixerConfig chunk).mapError .ofMixer
  return { mixer, inputs := m.inputs ++ [chunk] }

def audioChunkOut (m : FedMixer) : FedMixer × Option AudioChunk :=
  let r := m.mixer.audioChunkOut
  ({ m with mixer := r.1 }, r.2)

end FedMixer

namespace OutFile

variable (io : Nat → Bool) (ops : Nat) (f : OutFile)

/-- `Open`, which creates the file again. -/
def «open» : Except BatchFailure OutFile :=
  if io ops then .ok { opened := f.opened + 1 } else .error .exception

def writeChunk : Option AudioChunk → Except BatchFailure OutFile
  | none => .ok f
  | some chunk =>
    if chunk.details.numBytes = 0 then .ok f
    else if f.opened = 0 then .error .exception
    else if io ops then .ok { f with written := f.written ++ [chunk] }
    else .error .exception

end OutFile

namespace Batch

variable (cfg : BatchConfig) (io : Nat → Bool)

/-! ## Output -/

def writeOutput (b : Batch) : Except BatchFailure Batch := do
  let outFile ← b.outFile.writeChunk io b.ops b.tmpChunk
  return { b with ops := b.ops + 1, outFile }

def writeSecondary (b : Batch) : Except BatchFailure Batch :=
  match b.outFileSecondary with
  | none => .error .crash
  | some f => do
    let outFileSecondary ← f.writeChunk io b.ops b.tmpChunkSecondary
    return { b with ops := b.ops + 1, outFileSecondary := some outFileSecondary }

def countSamples (b : Batch) : Except BatchFailure Batch :=
  match b.tmpChunk with
  | none => .ok b
  | some chunk => do
    let numSamples ← chunk.getNumSamples.mapError fun _ => .exception
    return { b with numSamplesOut := b.numSamplesOut + numSamples.toNat }

/-- The mixers of a VoIP call, and the secondary file. -/
def createMixers (b : Batch) : Except BatchFailure Batch :=
  if b.voIpSession then
    if cfg.hasRtpMixer then
      let b := { b with rtpMixer := some { mixer := .fresh cfg.stale (if cfg.stereoRecording then 2 else 1) } }
      if cfg.hasSecondary then
        .ok { b with
          outFileSecondary := some {}
          rtpMixerSecondary := some { mixer := .fresh cfg.staleSecondary 2 } }
      else .ok b
    else .error .exception
  else .ok b

def openSecondary (b : Batch) : Except BatchFailure Batch :=
  if cfg.hasSecondary then
    match b.outFileSecondary with
    | none => .error .crash
    | some f => do
      let outFileSecondary ← f.open io b.ops
      return { b with ops := b.ops + 1, outFileSecondary := some outFileSecondary }
  else .ok b

/-- "At this point, we know we have a working codec, create an RTP mixer and open the output file". -/
def openOutput (b : Batch) : Except BatchFailure Batch := do
  let b ← { b with firstChunk := false }.createMixers cfg
  let outFile ← b.outFile.open io b.ops
  openSecondary cfg io { b with ops := b.ops + 1, outFile }

/-! ## A chunk -/

/-- The decoder of a side is given a chunk. -/
def decode (b : Batch) (chunk : AudioChunk) : Except BatchFailure (Batch × Option AudioChunk) :=
  if chunk.details.channel = 2 then
    match cfg.decoder b.decoder2 with
    | none => .error .crash
    | some decoder => do
      let decoded ← (decoder (b.decoders2 b.decoder2 ++ [chunk])).mapError fun _ => .exception
      return ({ b with
        decoders2 := Function.update b.decoders2 b.decoder2 (b.decoders2 b.decoder2 ++ [chunk]) }, decoded)
  else
    match cfg.decoder b.decoder1 with
    | none => .error .crash
    | some decoder => do
      let decoded ← (decoder (b.decoders1 b.decoder1 ++ [chunk])).mapError fun _ => .exception
      return ({ b with
        decoders1 := Function.update b.decoders1 b.decoder1 (b.decoders1 b.decoder1 ++ [chunk]) }, decoded)

def mixPrimary (b : Batch) (chunk : Option AudioChunk) : Except BatchFailure Batch :=
  match b.rtpMixer with
  | none => .error .crash
  | some m => do
    let m ← m.audioChunkIn cfg chunk
    let r := m.audioChunkOut
    return { b with rtpMixer := some r.1, tmpChunk := r.2 }

def mixSecondary (b : Batch) (chunk : Option AudioChunk) : Except BatchFailure Batch :=
  match b.rtpMixerSecondary with
  | none => .ok b
  | some m => do
    let m ← m.audioChunkIn cfg chunk
    let r := m.audioChunkOut
    return { b with rtpMixerSecondary := some r.1, tmpChunkSecondary := r.2 }

/-- The decoded chunk is amplified for the mixer, and given to the secondary one as it is. -/
def mix (b : Batch) (decoded : Option AudioChunk) : Except BatchFailure Batch := do
  let amplified ← audioGain cfg decoded
  let b ← b.mixPrimary cfg amplified
  b.mixSecondary cfg decoded

/-- What is written of a chunk: outside of VoIP calls it is what `tmpChunkRef` was before. -/
def convert (b : Batch) (chunk : AudioChunk) : Except BatchFailure Batch :=
  if b.voIpSession then do
    let r ← b.decode cfg chunk
    r.1.mix cfg r.2
  else do
    let tmpChunk ← audioGain cfg b.tmpChunk
    return { b with tmpChunk }

/-- Outside of VoIP calls the file is opened for every chunk. -/
def openFirst (b : Batch) (hasDecoder : Bool) : Except BatchFailure Batch :=
  if !b.voIpSession || (b.firstChunk && hasDecoder) then b.openOutput cfg io else .ok b

def writeMixed (b : Batch) : Except BatchFailure Batch :=
  if b.rtpMixerSecondary.isSome then b.writeSecondary io else .ok b

/-- The chunk is not skipped, and its decoder is there if it needs one. -/
def transcode (b : Batch) (chunk : AudioChunk) (hasDecoder : Bool) : Except BatchFailure Batch := do
  let b ← b.openFirst cfg io hasDecoder
  let b ← b.convert cfg chunk
  let b ← b.writeOutput io
  let b ← b.writeMixed io
  b.countSamples

def chooseDecoder (b : Batch) (chunk : AudioChunk) : Batch :=
  if chunk.details.channel = 2 then
    { b with voIpSession := true, decoder2 := chunk.details.rtpPayloadType.toNat }
  else { b with voIpSession := true, decoder1 := chunk.details.rtpPayloadType.toNat }

/-- A chunk when side 1 has been skipped is on channel 1. -/
def forced (b : Batch) (chunk : AudioChunk) : AudioChunk :=
  if b.forceChannel1 then { chunk with details := { chunk.details with channel := 1 } } else chunk

/-- The loop body, of a chunk that is not skipped. -/
def acceptChunk (b : Batch) (chunk : AudioChunk) : Except BatchFailure Batch :=
  if chunk.details.rtpPayloadType < -1 ∨ chunk.details.rtpPayloadType ≥ rtpPayloadTypeMax then .ok b
  else if chunk.details.rtpPayloadType = -1 then b.transcode cfg io chunk false
  else
    let b := b.chooseDecoder chunk
    if (cfg.decoder chunk.details.rtpPayloadType.toNat).isSome then b.transcode cfg io chunk true else .ok b

def processChunk (t : AudioTape) (b : Batch) (chunk : AudioChunk) : Except BatchFailure Batch :=
  let skip := t.skipChunk chunk
  if cfg.directionLookBack ∧ skip.1 then .ok { b with forceChannel1 := b.forceChannel1 || skip.2 = 1 }
  else b.acceptChunk cfg io (b.forced chunk)

/-! ## The end of the tape -/

def stopChunk : AudioChunk := { details := { marker := mediaChunkEosMarker } }

def markStop (chunk : AudioChunk) : AudioChunk :=
  { chunk with details := { chunk.details with marker := mediaChunkEosMarker } }

/-- The mixer is given the stop chunk. -/
def stopMixer (b : Batch) : Except BatchFailure Batch :=
  match b.rtpMixer with
  | none => .error .crash
  | some m => do
    let m ← m.audioChunkIn cfg (some stopChunk)
    let r := m.audioChunkOut
    return { b with rtpMixer := some r.1, tmpChunk := r.2.map markStop }

def takeSecondary (b : Batch) : Batch :=
  match b.rtpMixerSecondary with
  | none => b
  | some m =>
    let r := m.audioChunkOut
    { b with rtpMixerSecondary := some r.1, tmpChunkSecondary := r.2 }

def drainStep (b : Batch) (chunk : AudioChunk) : Except BatchFailure Batch := do
  let b ← { b with tmpChunk := some chunk }.writeOutput io
  b.countSamples

/-- `tmpChunkRef` and the chunks that the mixer still has are written. -/
def drainOutput (b : Batch) : Except BatchFailure Batch :=
  match b.rtpMixer with
  | none => .error .crash
  | some m =>
    (b.tmpChunk.toList ++ m.mixer.outputQueue).foldlM (drainStep io)
      { b with tmpChunk := none, rtpMixer := some { m with mixer := { m.mixer with outputQueue := [] } } }

def drainSecondaryStep (b : Batch) (chunk : AudioChunk) : Except BatchFailure Batch :=
  { b with tmpChunkSecondary := some chunk }.writeSecondary io

def drainSecondary (b : Batch) : Except BatchFailure Batch :=
  match b.rtpMixerSecondary with
  | none => .ok b
  | some m =>
    (b.tmpChunkSecondary.toList ++ m.mixer.outputQueue).foldlM (drainSecondaryStep io)
      { b with
        tmpChunkSecondary := none
        rtpMixerSecondary := some { m with mixer := { m.mixer with outputQueue := [] } } }

/-- "Flush the RTP mixer". -/
def flush (b : Batch) : Except BatchFailure Batch :=
  if b.voIpSession ∧ ¬ b.firstChunk then do
    let b ← b.stopMixer cfg
    let b ← b.takeSecondary.drainOutput io
    b.drainSecondary io
  else .ok b

/-- A tape is transcoded. -/
def transcodeTape (t : AudioTape) (file : CaptureFile) : Except BatchFailure Batch :=
  if io 0 then do
    let b ← file.chunks.foldlM (processChunk cfg io t) { ops := 1 }
    if file.broken then .error .exception else b.flush cfg io
  else .error .exception

end Batch

/-- What becomes of a tape: whether its files still exist, and whether `RunNextProcessor` is called. -/
inductive BatchOutcome
  | done (batch : Batch) (native output passedOn : Bool)
  | failed (native : Bool)
  | crashed

/-- The files after a tape that was transcoded. -/
def Batch.finish (cfg : BatchConfig) (b : Batch) : BatchOutcome :=
  if cfg.deleteNativeFile ∧ b.numSamplesOut ≠ 0 then
    .done b false (b.outFile.opened ≠ 0) (b.numSamplesOut ≠ 0)
  else if cfg.deleteFailedCaptureFile then .done b false false (b.numSamplesOut ≠ 0)
  else .done b true (b.outFile.opened ≠ 0) (b.numSamplesOut ≠ 0)

/-- A tape that `ThreadHandler` has taken from its queue; what an exception leaves of the output file is
not said. -/
def processTape (cfg : BatchConfig) (io : Nat → Bool) (t : AudioTape) (file : CaptureFile) : BatchOutcome :=
  match Batch.transcodeTape cfg io t file with
  | .ok b => b.finish cfg
  | .error .exception => .failed (!cfg.deleteFailedCaptureFile)
  | .error .crash => .crashed

end Oreka
