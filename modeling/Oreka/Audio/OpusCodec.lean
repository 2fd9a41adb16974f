import Oreka.Audio.AudioChunk

/-!
# The Opus decoder

`OpusCodecDecoder` of `filters/opuscodec/OpusCodec.cpp`. The decoder of the library is a parameter. What is
only logged is left out.
-/

namespace Oreka

def pt_OPUS : Int := 60

/-- `opus_decode`: from the state of the decoder, a payload, its length and the room for samples, the
number of samples (or an error), the samples that are written and the next state. -/
abbrev OpusDecode (δ : Type) := δ → List Int → Int → Nat → Int × List Int × δ

structure OpusCodecDecoder (δ : Type) where
  decoder : δ
  /-- The decoder could not be created. -/
  initialized : Bool := false
  lastRtpSeq : UInt32 := 0
  lastRtpTs : UInt32 := 0
  sampleRate8KhzMultiplier : Nat := 1
  outputChunk : Option AudioChunk := none

namespace OpusCodecDecoder

variable {δ : Type} (opus_decode : OpusDecode δ)

/-- `m_max_frame_size`: bytes of the buffer, and samples that the decoder may write. -/
abbrev max_frame_size : Nat := 5760

/-- A decoder that could be created. -/
def new (decoder : δ) : OpusCodecDecoder δ := { decoder }

def supportsInputRtpPayloadType (rtpPayloadType : Int) : Bool := rtpPayloadType = pt_OPUS

/-- The samples of 20 ms between two timestamps, if they are those of a known clock rate. -/
def sampleRate (d : OpusCodecDecoder δ) (timestamp : UInt32) : Nat :=
  let sampleRate := ((timestamp - d.lastRtpTs) / 160).toNat
  if sampleRate = 1 ∨ sampleRate = 2 ∨ sampleRate = 4 ∨ sampleRate = 6 then sampleRate
  else d.sampleRate8KhzMultiplier

/-- The chunk that is made of a payload; silence, if it cannot be decoded. -/
def decode (d : OpusCodecDecoder δ) (chunk : AudioChunk) : OpusCodecDecoder δ :=
  let details := { chunk.details with
    rtpPayloadType := -1
    encoding := .pcmAudio
    timestamp := chunk.details.timestamp / UInt32.ofNat d.sampleRate8KhzMultiplier }
  let (output_samples, samples, decoder) := opus_decode d.decoder chunk.buffer chunk.getNumBytes max_frame_size
  let outputChunk : AudioChunk :=
    if output_samples > 0 then
      { details := { details with numBytes := UInt32.ofInt (output_samples * 2) }, buffer := samples }
    else { details := { details with numBytes := 320 }, buffer := List.replicate 160 0 ++ samples.drop 160 }
  { d with decoder, outputChunk := some outputChunk }

def audioChunkIn (d : OpusCodecDecoder δ) (inputChunk : Option AudioChunk) :
    Except AudioError (OpusCodecDecoder δ) :=
  let d := { d with outputChunk := none }
  if d.initialized then .ok d
  else
    match inputChunk with
    | none => .ok d
    | some chunk => do
      let numSamples ← chunk.getNumSamples
      if numSamples = 0 then return d
      else if ¬ supportsInputRtpPayloadType chunk.details.rtpPayloadType then return d
      else
        let seq := chunk.details.sequenceNumber
        let ts := chunk.details.timestamp
        let read := { d with lastRtpSeq := seq, lastRtpTs := ts }
        -- "very first chunk, not known sampling rate yet"
        if d.lastRtpSeq = 0 ∨ d.lastRtpTs = 0 then return read
        else if seq - d.lastRtpSeq = 1 then
          return { read with sampleRate8KhzMultiplier := d.sampleRate ts }.decode opus_decode chunk
        else return read.decode opus_decode chunk

def audioChunkOut (d : OpusCodecDecoder δ) : Option AudioChunk := d.outputChunk

/-- The chunks that are put out for those that are put in, one for each. -/
def decodeAll (d : OpusCodecDecoder δ) : List AudioChunk → Except AudioError (List (Option AudioChunk))
  | [] => .ok []
  | chunk :: chunks => do
    let d ← d.audioChunkIn opus_decode (some chunk)
    let outputs ← d.decodeAll chunks
    return d.audioChunkOut :: outputs

end OpusCodecDecoder

end Oreka
