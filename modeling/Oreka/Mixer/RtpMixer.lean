import Oreka.Audio.AudioChunk
import Mathlib.Logic.Function.Basic

/-!
# The RTP mixer filter

`orkaudio/filters/rtpmixer/RtpMixer.cpp`: `RtpMixer::AudioChunkIn` stores the PCM chunks of a call
into a circular buffer by RTP timestamp, mixing where they overlap, and pushes shipments cut from
that buffer onto an output queue. Pointers into the buffer are offsets from `m_buffer`; timestamps
are `unsigned int`. A `double` of the source here only ever holds a difference of two timestamps,
which it represents exactly, so it is an `Int`; converting one to `unsigned int` is defined up to
`2^32 - 1` and left open past it (`MixerConfig.doubleToUInt`).

The statistics (`DoStats`) and the log messages are left out: no decision depends on them.
-/

namespace Oreka.Mixer

abbrev numSamplesCircularBuffer : Nat := 16000
abbrev numSamplesTrigger : Nat := 12000
abbrev numSamplesShipmentHoldoff : Nat := 11000

/-- The configuration that the mixer reads, and the platform's conversion of a `double` out of the
range of `unsigned int`. -/
structure MixerConfig where
  /-- `CONFIG.m_tapeNumChannels`. -/
  tapeNumChannels : Nat := 1
  /-- `(unsigned int)x` for `x ≥ 2^32`. -/
  overflowToUInt : Int → UInt32 := fun _ => 0

/-- `(unsigned int)x` for a non-negative `double`. -/
def MixerConfig.doubleToUInt (cfg : MixerConfig) (x : Int) : UInt32 :=
  if x < 4294967296 then UInt32.ofNat x.toNat else cfg.overflowToUInt x

inductive MixerError
  /-- "RtpMixer input audio must be PCM !". -/
  | notPcm
  | audio (e : AudioError)
  /-- An access past the end of `m_rtpMixerChannels`. -/
  | channelIndex
  deriving DecidableEq, Repr

structure RtpMixerChannel where
  /-- `m_channel`. -/
  channel : Nat
  timestampCorrectiveDelta : Int := 0
  buffer : Nat → Int := fun _ => 0
  lastChunk : Option AudioChunk := none
  lastTimestamp : UInt32 := 0

structure RtpMixer where
  /-- Pointer after the newest RTP data received. -/
  writePtr : Nat := 0
  /-- Where to read from next. -/
  readPtr : Nat := 0
  /-- The timestamp that the next shipment will have. -/
  readTimestamp : UInt32 := 0
  /-- The timestamp that the next RTP buffer should have. -/
  writeTimestamp : UInt32 := 0
  buffer : Nat → Int
  timestampCorrectiveDelta : Int := 0
  error : Bool := false
  oneS1PacketState : Bool := false
  lastTimestampS1 : UInt32 := 0
  lastTimestampS2 : UInt32 := 0
  lastChunkS1 : Option AudioChunk := none
  lastChunkS2 : Option AudioChunk := none
  numSampleTrigger : Nat := numSamplesTrigger
  numSampleShipmentHoldoff : Nat := numSamplesShipmentHoldoff
  numOutputChannels : Nat := 1
  numInputChannels : Nat := 0
  rtpMixerChannels : List RtpMixerChannel := []
  outputQueue : List AudioChunk := []

/-- A mixer as constructed, its buffer still holding whatever was in memory. -/
def RtpMixer.fresh (stale : Nat → Int) (numOutputChannels : Nat) : RtpMixer :=
  { buffer := stale, numOutputChannels }

namespace RtpMixer

/-! ## Pointers -/

/-- `m_bufferEnd`. -/
abbrev bufferEnd : Nat := numSamplesCircularBuffer

def circularPointerAddOffset (ptr offset : Nat) : Nat :=
  if ptr + offset ≥ bufferEnd then offset - (bufferEnd - ptr) else ptr + offset

def circularPointerSubtractOffset (ptr offset : Nat) : Nat :=
  if ptr < offset then bufferEnd + ptr - offset else ptr - offset

def usedSpace (m : RtpMixer) : Nat :=
  if m.writePtr ≥ m.readPtr then m.writePtr - m.readPtr
  else numSamplesCircularBuffer + m.writePtr - m.readPtr

def freeSpace (m : RtpMixer) : Nat := numSamplesCircularBuffer - m.usedSpace

def reset (m : RtpMixer) (timestamp : UInt32) : RtpMixer :=
  { m with writePtr := 0, readPtr := 0, writeTimestamp := timestamp, readTimestamp := timestamp }

/-- 16-bit saturation of a sum. -/
def saturate (sample : Int) : Int :=
  if sample > 32767 then 32767 else if sample < -32768 then -32768 else sample

/-! ## Channels of a stereo recording -/

/-- Create the channels up to `channelNumber`. -/
def createChannels (m : RtpMixer) (cfg : MixerConfig) (channelNumber : Nat) : RtpMixer :=
  if m.numOutputChannels = 1 ∨ cfg.tapeNumChannels ≤ 1 ∨ channelNumber ≤ m.numInputChannels then m
  else
    { m with
      rtpMixerChannels := m.rtpMixerChannels ++
        (List.range' m.numInputChannels (channelNumber - m.numInputChannels)).map
          fun i => { channel := i + 1 }
      numInputChannels := channelNumber }

/-- `m_channel - 1`, the index of a chunk's channel; -1 for a mono chunk. -/
def channelIdx (chunk : AudioChunk) : Int := chunk.details.channel.toNat - 1

/-- Whether `m_rtpMixerChannels[idx]` is an access inside the vector. -/
def validIdx (m : RtpMixer) (idx : Int) : Prop := 0 ≤ idx ∧ idx < m.rtpMixerChannels.length

instance (m : RtpMixer) (idx : Int) : Decidable (m.validIdx idx) :=
  inferInstanceAs (Decidable (_ ∧ _))

/-- Update the channel at an index of `m_rtpMixerChannels`. -/
def modifyChannel (m : RtpMixer) (idx : Int) (f : RtpMixerChannel → RtpMixerChannel) :
    Except MixerError RtpMixer :=
  if m.validIdx idx then
    .ok { m with rtpMixerChannels := m.rtpMixerChannels.modify idx.toNat f }
  else .error .channelIndex

/-! ## Storing -/

/-- One round of the silence loop: the slot under the write pointer is zeroed in the mix and in the
buffer of every channel. -/
def zeroStep (m : RtpMixer) : RtpMixer :=
  { m with
    buffer := Function.update m.buffer m.writePtr 0
    rtpMixerChannels := m.rtpMixerChannels.mapIdx fun x ch =>
      if x < m.numInputChannels then { ch with buffer := Function.update ch.buffer m.writePtr 0 }
      else ch
    writePtr := if m.writePtr + 1 ≥ bufferEnd then 0 else m.writePtr + 1 }

def zeroLoop : Nat → RtpMixer → RtpMixer
  | 0, m => m
  | n + 1, m => zeroLoop n m.zeroStep

/-- One round of the mixing loop: the sample is added with saturation to the slot under
`tempWritePtr`, and copied to the buffer of the chunk's own channel. -/
def mixStep (chanIdx : Nat) (tempWritePtr : Nat) (m : RtpMixer) (sample : Int) : RtpMixer :=
  { m with
    buffer := Function.update m.buffer tempWritePtr (saturate (m.buffer tempWritePtr + sample))
    rtpMixerChannels :=
      if m.numInputChannels ≠ 0 then
        m.rtpMixerChannels.modify chanIdx fun ch =>
          { ch with buffer := Function.update ch.buffer tempWritePtr sample }
      else m.rtpMixerChannels }

def mixLoop (chanIdx : Nat) : List Int → Nat → RtpMixer → RtpMixer
  | [], _, m => m
  | sample :: samples, tempWritePtr, m =>
    mixLoop chanIdx samples (if tempWritePtr + 1 ≥ bufferEnd then 0 else tempWritePtr + 1)
      (m.mixStep chanIdx tempWritePtr sample)

/-- The samples of a stored chunk are written, unless the buffer does not reach back to them. -/
def mixPayload (m : RtpMixer) (audioChunk : AudioChunk) (correctedTimestamp : UInt32) : RtpMixer :=
  let timestampDelta : Int := m.writeTimestamp.toNat - correctedTimestamp.toNat
  if timestampDelta < 0 ∨ timestampDelta ≥ numSamplesCircularBuffer then m
  else
    mixLoop (channelIdx audioChunk).toNat audioChunk.pcm
      (circularPointerSubtractOffset m.writePtr timestampDelta.toNat) m

/-- `StoreRtpPacket`: "writes to the internal buffer without any size verification". -/
def storeRtpPacket (m : RtpMixer) (audioChunk : AudioChunk) (correctedTimestamp : UInt32) :
    Except MixerError RtpMixer :=
  if m.numInputChannels ≠ 0 ∧ ¬ m.validIdx (channelIdx audioChunk) then .error .channelIndex
  else
    let endRtpTimestamp := correctedTimestamp.toNat + audioChunk.details.numBytes.toNat / 2
    -- a chunk whose timestamps wrap is dismissed
    if endRtpTimestamp ≥ 4294967296 then .ok m
    else
      let silenceSize : Int := endRtpTimestamp - m.writeTimestamp.toNat
      if silenceSize ≥ numSamplesCircularBuffer then .ok m
      else if silenceSize > 0 then
        .ok (mixPayload
          { zeroLoop silenceSize.toNat m with writeTimestamp := UInt32.ofNat endRtpTimestamp }
          audioChunk correctedTimestamp)
      else .ok (mixPayload m audioChunk correctedTimestamp)

/-! ## Shipping -/

/-- `CheckChunkDetails`: false for an empty chunk, and an error for one that is too big. -/
def checkChunkDetails (m : RtpMixer) (details : AudioChunkDetails) : RtpMixer × Bool :=
  if details.numBytes > 100000 then ({ m with error := true }, false)
  else (m, details.numBytes ≠ 0)

/-- One of the two tape channels: the saturating sum of the input channels whose number has the
given parity, at a slot. -/
def tapeSample (m : RtpMixer) (parity slot : Nat) : Int :=
  (List.range m.numInputChannels).foldl
    (fun acc i =>
      if (i + 1) % 2 = parity then
        saturate (acc + (m.rtpMixerChannels[i]?.map fun ch => ch.buffer slot).getD 0)
      else acc) 0

/-- `HandleMixedOutput`: the two tape channels (even input channels, then odd ones) of a shipment of
`n` samples that starts at `readPtr`, and silence on the further ones. -/
def handleMixedOutput (m : RtpMixer) (cfg : MixerConfig) (chunk : AudioChunk)
    (details : AudioChunkDetails) (readPtr n : Nat) : Except AudioError AudioChunk :=
  if m.numOutputChannels = 1 ∨ cfg.tapeNumChannels ≤ 1 then .ok chunk
  else do
    let chunk :=
      if cfg.tapeNumChannels ≠ m.numInputChannels then
        (AudioChunk.new cfg.tapeNumChannels).setBuffer
          ((List.range n).map fun j => m.buffer (readPtr + j)) details
      else chunk
    let chunk ← chunk.setChannelBuffer
      ((List.range n).map fun j => m.tapeSample 0 (readPtr + j)) details 1
    let chunk ← chunk.setChannelBuffer
      ((List.range n).map fun j => m.tapeSample 1 (readPtr + j)) details 2
    (List.range' 2 (cfg.tapeNumChannels - 2)).foldlM
      (fun c i => c.setChannelBuffer (List.replicate n 0) details (i + 1)) chunk

/-- The chunk that carries `shortSize` samples from `ptr` on. -/
def shipmentChunk (m : RtpMixer) (cfg : MixerConfig) (details : AudioChunkDetails)
    (ptr shortSize : Nat) : Except MixerError AudioChunk :=
  let chunk := (AudioChunk.new m.numInputChannels).setBuffer
    ((List.range shortSize).map fun j => m.buffer (ptr + j)) details
  if m.numOutputChannels = 2 then
    (m.handleMixedOutput cfg chunk details ptr shortSize).mapError .audio
  else .ok chunk

/-- Queue the chunk, if there is anything to ship. -/
def queueShipment (m : RtpMixer) (cfg : MixerConfig) (details : AudioChunkDetails)
    (ptr shortSize : Nat) : Except MixerError RtpMixer :=
  let (m, valid) := m.checkChunkDetails details
  if valid then do
    let chunk ← m.shipmentChunk cfg details ptr shortSize
    return { m with outputQueue := m.outputQueue ++ [chunk] }
  else .ok m

/-- Ship `shortSize` samples from `ptr`, and move the read pointer and timestamp past them. -/
def ship (m : RtpMixer) (cfg : MixerConfig) (ptr shortSize : Nat) : Except MixerError RtpMixer := do
  let details : AudioChunkDetails :=
    { encoding := .pcmAudio, numBytes := UInt32.ofNat (shortSize * 2)
      channel := if m.numInputChannels ≠ 0 then 100 else 0 }
  let m ← m.queueShipment cfg details ptr shortSize
  return { m with
    readPtr := circularPointerAddOffset m.readPtr shortSize
    readTimestamp := m.readTimestamp + UInt32.ofNat shortSize }

/-- Where a shipment stops (`stopPtr`): at the write pointer when forced, else the holdoff before. -/
def shipStop (m : RtpMixer) (force : Bool) : Nat :=
  if force then m.writePtr else circularPointerSubtractOffset m.writePtr m.numSampleShipmentHoldoff

/-- `CreateShipment`, without additional silence as every caller has it: in two chunks when it wraps
at the end of the buffer. -/
def createShipment (m : RtpMixer) (cfg : MixerConfig) (force : Bool) : Except MixerError RtpMixer :=
  if m.shipStop force < m.readPtr then do
    let m₁ ← m.ship cfg m.readPtr (bufferEnd - m.readPtr)
    m₁.ship cfg 0 (m.shipStop force)
  else m.ship cfg m.readPtr (m.shipStop force - m.readPtr)

/-! ## Input -/

def manageOutOfRangeTimestamp (m : RtpMixer) (cfg : MixerConfig) (chunk : AudioChunk) :
    Except MixerError RtpMixer :=
  let delta : Int := chunk.details.timestamp.toNat - m.writeTimestamp.toNat
  if chunk.details.channel = 1 then do
    let m ← m.createShipment cfg true
    let m ← (m.reset chunk.details.timestamp).storeRtpPacket chunk chunk.details.timestamp
    return { m with timestampCorrectiveDelta := 0 }
  else if chunk.details.channel = 2 then .ok { m with timestampCorrectiveDelta := delta }
  else if m.numInputChannels ≠ 0 then
    m.modifyChannel (channelIdx chunk) fun ch => { ch with timestampCorrectiveDelta := delta }
  else .ok m

/-- User agents that count timestamps in milliseconds: a chunk 20 after the last one is stamped 160
after it. Returns the chunk and the last timestamp as received, which the first chunk sets. -/
def correctMillis (chunk : AudioChunk) (lastChunk : Option AudioChunk) (lastTimestamp : UInt32) :
    AudioChunk × UInt32 :=
  match lastChunk with
  | none => (chunk, chunk.details.timestamp)
  | some last =>
    if chunk.details.timestamp - lastTimestamp = 20 then
      (chunk.setTimestamp (last.details.timestamp + 160), chunk.details.timestamp)
    else (chunk, lastTimestamp)

/-- The last chunk of a separate channel, when there are separate channels. -/
def setLastChunk (m : RtpMixer) (idx : Int) (chunk : AudioChunk) : Except MixerError RtpMixer :=
  if m.numInputChannels ≠ 0 then m.modifyChannel idx fun ch => { ch with lastChunk := some chunk }
  else .ok m

/-- The corrective delta applied to a chunk of side 2 and further ones; no correction when it would
be negative. -/
def applyDelta (cfg : MixerConfig) (timestamp : UInt32) (delta : Int) : UInt32 :=
  let tmp : Int := timestamp.toNat - delta
  if tmp < 0 then timestamp else cfg.doubleToUInt tmp

/-- Channel 1 keeps its timestamps. -/
def correctS1 (m : RtpMixer) (chunk : AudioChunk) :
    Except MixerError (RtpMixer × AudioChunk × UInt32) := do
  let (chunk, lastTimestampS1) := correctMillis chunk m.lastChunkS1 m.lastTimestampS1
  let m ← m.setLastChunk 0 chunk
  return ({ m with lastTimestampS1, lastChunkS1 := some chunk }, chunk, chunk.details.timestamp)

/-- Channel 2 is corrected to the window of channel 1. -/
def correctS2 (m : RtpMixer) (cfg : MixerConfig) (chunk : AudioChunk) :
    Except MixerError (RtpMixer × AudioChunk × UInt32) := do
  let (chunk, lastTimestampS2) := correctMillis chunk m.lastChunkS2 m.lastTimestampS2
  let m ← m.setLastChunk 1 chunk
  let delta : Int := chunk.details.timestamp.toNat - m.writeTimestamp.toNat
  let timestampCorrectiveDelta :=
    if m.oneS1PacketState then delta
    else if m.timestampCorrectiveDelta = 0 ∧ m.writeTimestamp ≠ 0 then delta
    else m.timestampCorrectiveDelta
  return ({ m with lastTimestampS2, timestampCorrectiveDelta, oneS1PacketState := false
                   lastChunkS2 := some chunk },
    chunk, applyDelta cfg chunk.details.timestamp timestampCorrectiveDelta)

/-- Channels 3, 4, 5, ...; without separate channels the corrected timestamp stays 0. -/
def correctOther (m : RtpMixer) (cfg : MixerConfig) (chunk : AudioChunk) :
    Except MixerError (RtpMixer × AudioChunk × UInt32) :=
  if m.numInputChannels = 0 then .ok (m, chunk, 0)
  else if channelIdx chunk < 0 then .error .channelIndex
  else
    match m.rtpMixerChannels[(channelIdx chunk).toNat]? with
    | none => .error .channelIndex
    | some ch => do
      let (chunk, lastTimestamp) := correctMillis chunk ch.lastChunk ch.lastTimestamp
      let m ← m.modifyChannel (channelIdx chunk) fun ch =>
        { ch with lastTimestamp, lastChunk := some chunk }
      return (m, chunk, applyDelta cfg chunk.details.timestamp ch.timestampCorrectiveDelta)

def correctTimestamp (m : RtpMixer) (cfg : MixerConfig) (chunk : AudioChunk) :
    Except MixerError (RtpMixer × AudioChunk × UInt32) :=
  if chunk.details.channel = 1 then m.correctS1 chunk
  else if chunk.details.channel = 2 then m.correctS2 cfg chunk
  else m.correctOther cfg chunk

/-- "RTP packet fits into current buffer". -/
def fits (m : RtpMixer) (chunk : AudioChunk) (correctedTimestamp : UInt32) : Prop :=
  let rtpEndTimestamp := correctedTimestamp + UInt32.ofNat (chunk.details.numBytes.toNat / 2)
  m.readTimestamp ≤ correctedTimestamp ∧
    asInt (rtpEndTimestamp - m.writeTimestamp) ≤ m.freeSpace ∧
    asInt (m.writeTimestamp - correctedTimestamp) ≤ m.usedSpace

instance (m : RtpMixer) (chunk : AudioChunk) (t : UInt32) : Decidable (m.fits chunk t) :=
  inferInstanceAs (Decidable (_ ∧ _ ∧ _))

/-- The end of `AudioChunkIn`: the first chunk of the session opens the window, a chunk that fits is
stored and may trigger a shipment. -/
def place (m : RtpMixer) (cfg : MixerConfig) (chunk : AudioChunk) (correctedTimestamp : UInt32) :
    Except MixerError RtpMixer :=
  if m.writeTimestamp = 0 then
    if chunk.details.channel = 1 then
      storeRtpPacket
        { m with writeTimestamp := correctedTimestamp, readTimestamp := correctedTimestamp
                 oneS1PacketState := true }
        chunk correctedTimestamp
    else .ok m
  else if m.fits chunk correctedTimestamp then do
    let m ← m.storeRtpPacket chunk correctedTimestamp
    if m.usedSpace > m.numSampleTrigger then m.createShipment cfg false else .ok m
  else m.manageOutOfRangeTimestamp cfg chunk

/-- The checks and the timestamp correction at the start of `AudioChunkIn`: the chunk to place and
its corrected timestamp, or nothing when the call ends here. -/
def accept (m : RtpMixer) (cfg : MixerConfig) (chunk : AudioChunk) :
    Except MixerError (RtpMixer × Option (AudioChunk × UInt32)) := do
  let numSamples ← chunk.getNumSamples.mapError .audio
  if numSamples = 0 then return (m, none)
  else if chunk.getNumBytes > 100000 then return ({ m with error := true }, none)
  else if chunk.details.encoding ≠ .pcmAudio then throw .notPcm
  else
    let m₁ := if m.numOutputChannels = 2 then m.createChannels cfg chunk.details.channel.toNat else m
    let (m₂, chunk₁, correctedTimestamp) ← m₁.correctTimestamp cfg chunk
    return (m₂, some (chunk₁, correctedTimestamp))

def audioChunkIn (m : RtpMixer) (cfg : MixerConfig) (chunk : Option AudioChunk) :
    Except MixerError RtpMixer :=
  if m.error then .ok m
  else match chunk with
  | none => .ok m
  | some chunk =>
    if chunk.details.marker = mediaChunkEosMarker then m.createShipment cfg true
    else do
      match ← m.accept cfg chunk with
      | (m, none) => return m
      | (m, some (chunk, correctedTimestamp)) => m.place cfg chunk correctedTimestamp

/-- The next chunk of the output queue. -/
def audioChunkOut (m : RtpMixer) : RtpMixer × Option AudioChunk :=
  match m.outputQueue with
  | [] => (m, none)
  | chunk :: rest => ({ m with outputQueue := rest }, some chunk)

/-- A call of `AudioChunkIn`, seen from a caller that survives its exceptions; `notPcm` and
`unknownEncoding` are thrown before the mixer changes. -/
def step (m : RtpMixer) (cfg : MixerConfig) (chunk : Option AudioChunk) : RtpMixer :=
  match m.audioChunkIn cfg chunk with
  | .ok m' => m'
  | .error _ => m

def run (m : RtpMixer) (cfg : MixerConfig) (chunks : List (Option AudioChunk)) : RtpMixer :=
  chunks.foldl (fun m => step m cfg) m

end RtpMixer

end Oreka.Mixer
