import Oreka.Lib.Memory

/-!
# The Ogg/Opus writer

`audiofile/OggOpusFile.cpp`: `WriteChunk` gives the encoder whole frames of 160 samples and carries
the samples behind the last whole frame in a side buffer, which `Close` pads and encodes. Buffers hold
16-bit samples here; lengths that the source keeps in bytes stay in bytes.
-/

namespace Oreka

open Memory

/-- A PCM `AudioChunk` as the writers see it: `m_pBuffer` with two bytes a sample, and the buffers of
its separate channels (`m_pChannelAudio`). -/
structure PcmChunk where
  samples : List Int
  channelAudio : List (List Int) := []
  /-- Its marker is `MEDIA_CHUNK_EOS_MARKER`. -/
  eos : Bool := false
  length_eq : ∀ l ∈ channelAudio, l.length = samples.length

namespace PcmChunk

def numSamples (c : PcmChunk) : Nat := c.samples.length

def numBytes (c : PcmChunk) : Nat := c.numSamples * 2

def numChannels (c : PcmChunk) : Nat := c.channelAudio.length

/-- The interleaving loops over the samples `first` to `last`. -/
def interleave (c : PcmChunk) (first last : Nat) : List Int :=
  (List.range' first (last - first)).flatMap fun x => c.channelAudio.map fun l => l.getD x 0

/-- The samples `first` to `last` as they are copied into a buffer. -/
def copied (c : PcmChunk) (stereo : Bool) (first last : Nat) : List Int :=
  if stereo then c.interleave first last else (c.samples.drop first).take (last - first)

end PcmChunk

abbrev PCM_SAMPLES_IN_FRAME : Nat := 160

structure OggOpusFile where
  chan : Nat
  isOpen : Bool
  pcmBuf : Nat → Int
  /-- `m_extraStreoPcmBuf` at true, `m_extraPcmBuf` at false. -/
  extraBuf : Bool → Nat → Int
  extraSamplesFromLastChunk : Nat := 0
  /-- In bytes. -/
  extraPcmBufLen : Nat := 0
  /-- The frames that the encoder has been given. -/
  encoded : List (List Int) := []

namespace OggOpusFile

/-- `sizeof(m_pcmBuf) / 2`. -/
abbrev pcmBufSize : Nat := 32000

/-- Samples of 16 bits in one sample time. -/
def width (stereo : Bool) : Nat := if stereo then 2 else 1

/-- The size of a side buffer, in samples. -/
def extraBufSize (stereo : Bool) : Nat := PCM_SAMPLES_IN_FRAME * width stereo

/-- A new writer, opened. The constructor clears half of `m_pcmBuf`, and of the side buffers only
`m_extraPcmBuf`; the rest holds what was in memory. -/
def new (chan : Nat) (pcmBuf extraStreoPcmBuf : Nat → Int) : OggOpusFile where
  chan := chan
  isOpen := true
  pcmBuf := fun i => if i < 16000 then 0 else pcmBuf i
  extraBuf := fun stereo i => if stereo then extraStreoPcmBuf i else 0

/-- A store into a buffer of `size` samples; nothing for one that does not stay inside. -/
def store (size : Nat) (buf : Nat → Int) (p : Nat) (d : List Int) : Option (Nat → Int) :=
  if p + d.length ≤ size then some (put buf p d) else none

/-- `EncodeChunks`: the frames that go to `opus_multistream_encode`. -/
def frames (buf : Nat → Int) (numSamples chan : Nat) : List (List Int) :=
  (List.range (numSamples / PCM_SAMPLES_IN_FRAME)).map fun j =>
    read buf (j * PCM_SAMPLES_IN_FRAME * chan) (PCM_SAMPLES_IN_FRAME * chan)

/-- `m_numChannels > 0 && chan == 2`. -/
def stereo (s : OggOpusFile) (c : PcmChunk) : Bool := c.numChannels > 0 && s.chan == 2

def setExtraBuf (s : OggOpusFile) (stereo : Bool) (buf : Nat → Int) : Bool → Nat → Int :=
  fun b => if b = stereo then buf else s.extraBuf b

/-- Too few samples for a frame: they are put behind those in the side buffer. -/
def storeSamples (s : OggOpusFile) (c : PcmChunk) : Option OggOpusFile := do
  let stereo := s.stereo c
  let numSamples := c.numSamples + s.extraSamplesFromLastChunk
  let buf ← store (extraBufSize stereo) (s.extraBuf stereo) (s.extraPcmBufLen / 2)
    (c.copied stereo 0 c.numSamples)
  return { s with
    extraBuf := s.setExtraBuf stereo buf
    extraPcmBufLen := s.extraPcmBufLen + c.numSamples * 2 * width stereo
    extraSamplesFromLastChunk := numSamples + s.extraSamplesFromLastChunk }

/-- The main buffer is filled, from the side buffer first. -/
def fillPcmBuf (s : OggOpusFile) (c : PcmChunk) (numSamplesInFullFrames : Nat)
    (extraSamplesPos : Int) : Option OggOpusFile := do
  let stereo := s.stereo c
  if s.extraSamplesFromLastChunk > 0 then
    -- a negative length or position is far outside
    if extraSamplesPos < 0 then none
    let held := s.extraPcmBufLen / 2
    let pcmBuf ← store pcmBufSize s.pcmBuf 0 (read (s.extraBuf stereo) 0 held)
    let pcmBuf ← store pcmBufSize pcmBuf held (c.copied stereo 0 extraSamplesPos.toNat)
    return { s with
      pcmBuf := pcmBuf
      extraBuf := s.setExtraBuf stereo (put (s.extraBuf stereo) 0 (List.replicate held 0))
      extraPcmBufLen := 0 }
  else
    let pcmBuf ← store pcmBufSize s.pcmBuf 0 (c.copied stereo 0 numSamplesInFullFrames)
    return { s with pcmBuf := pcmBuf }

/-- The samples that do not make a frame go into the side buffer. -/
def keepExtra (s : OggOpusFile) (c : PcmChunk) (numSamplesExtra : Nat) (extraSamplesPos : Int) :
    Option OggOpusFile := do
  let stereo := s.stereo c
  if numSamplesExtra > 0 then
    if extraSamplesPos < 0 then none
    let buf ← store (extraBufSize stereo) (s.extraBuf stereo) 0
      (c.copied stereo extraSamplesPos.toNat (extraSamplesPos.toNat + numSamplesExtra))
    return { s with
      extraBuf := s.setExtraBuf stereo buf
      extraPcmBufLen := s.extraPcmBufLen + numSamplesExtra * 2 * width stereo }
  else return s

/-- `WriteChunk`; nothing where it leaves its buffers. -/
def writeChunk (s : OggOpusFile) (chunk : Option PcmChunk) : Option OggOpusFile :=
  match chunk with
  | none => some s
  | some c =>
    if c.numBytes = 0 then some s
    else if !s.isOpen then some s
    else
      let numSamples := c.numSamples + s.extraSamplesFromLastChunk
      if numSamples < PCM_SAMPLES_IN_FRAME then s.storeSamples c
      else do
        let numFullFrames := numSamples / PCM_SAMPLES_IN_FRAME
        let numSamplesInFullFrames := numFullFrames * PCM_SAMPLES_IN_FRAME
        let numSamplesExtra := numSamples - numSamplesInFullFrames
        let extraSamplesPos : Int := c.numSamples - numSamplesExtra
        let s ← s.fillPcmBuf c numSamplesInFullFrames extraSamplesPos
        let s ← s.keepExtra c numSamplesExtra extraSamplesPos
        return { s with
          extraSamplesFromLastChunk := numSamplesExtra
          encoded := s.encoded ++ frames s.pcmBuf numSamplesInFullFrames s.chan }

/-- The memory from `m_extraPcmBuf` on: `m_extraStreoPcmBuf` comes behind it in the object. -/
def extraMemory (s : OggOpusFile) : Nat → Int :=
  fun i => if i < extraBufSize false then s.extraBuf false i
    else s.extraBuf true (i - extraBufSize false)

/-- `Close`: what is held is padded and encoded, from `m_extraPcmBuf`. -/
def close (s : OggOpusFile) : OggOpusFile :=
  if s.extraPcmBufLen > 0 then
    let size := PCM_SAMPLES_IN_FRAME * s.chan
    let held := s.extraPcmBufLen / 2
    let buf := put s.extraMemory held (List.replicate (size - held) 0)
    { s with encoded := s.encoded ++ frames buf PCM_SAMPLES_IN_FRAME s.chan, isOpen := false }
  else { s with isOpen := false }

/-- One chunk after the other. -/
def writeChunks (s : OggOpusFile) : List (Option PcmChunk) → Option OggOpusFile
  | [] => some s
  | c :: cs => do
    let s ← s.writeChunk c
    s.writeChunks cs

/-- What the encoder is given of the chunks by the time the file is closed. -/
def encode (s : OggOpusFile) (cs : List (Option PcmChunk)) : Option (List Int) :=
  (s.writeChunks cs).map fun s => s.close.encoded.flatten

end OggOpusFile

end Oreka
