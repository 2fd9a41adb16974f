import Mathlib.Data.List.Basic

/-!
# Audio chunks

`AudioChunk` and `AudioChunkDetails` of `orkbasecxx/AudioCapture.h`: a serialisable details record
and a buffer, which the filters read as 16-bit samples. A sample is an `Int` here; the buffer's
`numBytes` is the source's `unsigned int`.
-/

namespace Oreka

/-- `(int)x` of an `unsigned int` on a two's complement machine. -/
def asInt (x : UInt32) : Int := if x.toNat < 2147483648 then x.toNat else x.toNat - 4294967296

/-- `AudioEncodingEnum`. -/
inductive AudioEncoding
  | unknownAudio | pcmAudio | alawAudio | ulawAudio | gsmAudio | ilbcAudio | g722Audio | g721Audio
  | silkAudio | opusAudio | amrNb | amrWb | g729Audio | invalidAudio
  deriving DecidableEq, Repr

/-- `MEDIA_CHUNK_MARKER`, "****". -/
def mediaChunkMarker : Nat := 0x2A2A2A2A

/-- `MEDIA_CHUNK_EOS_MARKER`, "EOSM". -/
def mediaChunkEosMarker : Nat := 0x454F534D

structure AudioChunkDetails where
  marker : Nat := mediaChunkMarker
  encoding : AudioEncoding := .unknownAudio
  numBytes : UInt32 := 0
  timestamp : UInt32 := 0
  arrivalTimestamp : UInt32 := 0
  sequenceNumber : UInt32 := 0
  sampleRate : UInt32 := 8000
  /-- -1 if none. -/
  rtpPayloadType : Int := -1
  /-- 0 if mono, 1 or 2 if stereo, 100 for separated channels. -/
  channel : UInt8 := 0
  deriving DecidableEq

/-- What a chunk's methods throw. -/
inductive AudioError
  | unknownEncoding
  | invalidChannel (chan : Nat)
  deriving DecidableEq, Repr

structure AudioChunk where
  details : AudioChunkDetails
  /-- `m_pBuffer`, read as samples. -/
  buffer : List Int := []
  /-- `m_numChannels`: the number of separate channel buffers, none for a plain chunk. -/
  numChannels : Nat := 0
  /-- `m_pChannelAudio`. -/
  channelAudio : List (Option (List Int)) := []
  deriving DecidableEq

namespace AudioChunk

def getNumBytes (c : AudioChunk) : Int := asInt c.details.numBytes

def getNumSamples (c : AudioChunk) : Except AudioError Int :=
  match c.details.encoding with
  | .pcmAudio => .ok (c.details.numBytes.toNat / 2 : Nat)
  | .alawAudio | .ulawAudio => .ok (asInt c.details.numBytes)
  | _ => .error .unknownEncoding

/-- The samples of a PCM chunk: the loop `payload[i]`, `i < GetNumSamples()`. -/
def pcm (c : AudioChunk) : List Int :=
  (List.range (c.details.numBytes.toNat / 2)).map fun i => c.buffer.getD i 0

@[simp] theorem length_pcm (c : AudioChunk) : c.pcm.length = c.details.numBytes.toNat / 2 := by
  simp [pcm]

/-- A new chunk with `numChannels` empty channel buffers. -/
def new (numChannels : Nat) : AudioChunk :=
  { details := {}, numChannels, channelAudio := List.replicate numChannels none }

/-- `SetBuffer(pBuffer, details)`: empty details only drop the buffer there was. -/
def setBuffer (c : AudioChunk) (samples : List Int) (details : AudioChunkDetails) : AudioChunk :=
  if details.numBytes = 0 then
    if c.buffer = [] then c else { c with buffer := [], details := { c.details with numBytes := 0 } }
  else { c with details, buffer := samples }

/-- `SetBuffer(pBuffer, details, chan)`: the buffer of one channel, counted from 1. -/
def setChannelBuffer (c : AudioChunk) (samples : List Int) (details : AudioChunkDetails)
    (chan : Nat) : Except AudioError AudioChunk :=
  if chan > c.numChannels ∨ chan < 1 then .error (.invalidChannel chan)
  else .ok { c with
    channelAudio := c.channelAudio.set (chan - 1)
      (if details.numBytes = 0 then none else some samples) }

def setTimestamp (c : AudioChunk) (timestamp : UInt32) : AudioChunk :=
  { c with details := { c.details with timestamp } }

end AudioChunk

end Oreka
