import Oreka.Audio.AudioChunk
import Oreka.Lib.Memory

/-!
# Media chunk files

`audiofile/MediaChunkFile.cpp`: chunks are queued and written in batches, each as the memory of its
`AudioChunkDetails` and its buffer; a reader takes them apart again. The details are laid out as a
64-bit little-endian target has them.
-/

namespace Oreka

open LittleEndian

/-- The numbers of `AudioEncodingEnum`. -/
def AudioEncoding.number : AudioEncoding → Nat
  | .unknownAudio => 0
  | .pcmAudio => 1
  | .alawAudio => 2
  | .ulawAudio => 3
  | .gsmAudio => 4
  | .ilbcAudio => 5
  | .g722Audio => 6
  | .g721Audio => 7
  | .silkAudio => 8
  | .opusAudio => 9
  | .amrNb => 10
  | .amrWb => 11
  | .g729Audio => 12
  | .invalidAudio => 13

/-- A number that the enumeration does not name is taken for `invalidAudio`. -/
def AudioEncoding.ofNumber : Nat → AudioEncoding
  | 0 => .unknownAudio
  | 1 => .pcmAudio
  | 2 => .alawAudio
  | 3 => .ulawAudio
  | 4 => .gsmAudio
  | 5 => .ilbcAudio
  | 6 => .g722Audio
  | 7 => .g721Audio
  | 8 => .silkAudio
  | 9 => .opusAudio
  | 10 => .amrNb
  | 11 => .amrWb
  | 12 => .g729Audio
  | _ => .invalidAudio

@[simp] theorem AudioEncoding.ofNumber_number (e : AudioEncoding) : ofNumber e.number = e := by
  cases e <;> rfl

theorem AudioEncoding.number_lt (e : AudioEncoding) : e.number < 256 ^ 4 := by
  cases e <;> decide

/-- An `AudioChunk` as it is stored: its details and `m_pBuffer`, none for a chunk without one. -/
structure MediaChunk where
  details : AudioChunkDetails := {}
  buffer : Option (List UInt8) := none
  /-- The two bytes of the details behind `m_channel`, of no meaning. -/
  padding : UInt8 × UInt8 := (0, 0)

/-- `sizeof(AudioChunkDetails)`. -/
abbrev sizeofDetails : Nat := 32

abbrev MAX_CHUNK_SIZE : Nat := 100000

namespace MediaChunk

/-- The memory of the details. -/
def detailsBytes (c : MediaChunk) : List UInt8 :=
  bytes 4 c.details.marker ++ bytes 4 c.details.encoding.number ++ bytes 4 c.details.numBytes.toNat ++
  bytes 4 c.details.timestamp.toNat ++ bytes 4 c.details.arrivalTimestamp.toNat ++
  bytes 4 c.details.sequenceNumber.toNat ++ bytes 4 c.details.sampleRate.toNat ++
  [(Int8.ofInt c.details.rtpPayloadType).toUInt8, c.details.channel, c.padding.1, c.padding.2]

/-- The details that memory holds. -/
def ofDetailsBytes (b : List UInt8) : MediaChunk :=
  let field (offset : Nat) : Nat := value ((b.drop offset).take 4)
  let byte (offset : Nat) : UInt8 := b.getD offset 0
  { details := {
      marker := field 0
      encoding := .ofNumber (field 4)
      numBytes := .ofNat (field 8)
      timestamp := .ofNat (field 12)
      arrivalTimestamp := .ofNat (field 16)
      sequenceNumber := .ofNat (field 20)
      sampleRate := .ofNat (field 24)
      rtpPayloadType := (byte 28).toInt8.toInt
      channel := byte 29 }
    padding := (byte 30, byte 31) }

/-- `SetBuffer(temp, details)` on a new chunk. -/
def setBuffer (details : MediaChunk) (temp : List UInt8) : MediaChunk :=
  if details.details.numBytes = 0 then {} else { details with buffer := some temp }

end MediaChunk

/-- A `std::fstream` whose file keeps what it is given: what has been written, or is yet to be read. -/
structure FStream where
  isOpen : Bool
  bytes : List UInt8
  good : Bool := true
  eof : Bool := false

namespace FStream

def write (s : FStream) (d : List UInt8) : FStream :=
  if s.good then { s with bytes := s.bytes ++ d } else s

/-- What `read` gets of `n` bytes; too few are the end of the file, and a failure. -/
def read (s : FStream) (n : Nat) : List UInt8 × FStream :=
  if !s.good then ([], s)
  else if s.bytes.length < n then (s.bytes, { s with bytes := [], good := false, eof := true })
  else (s.bytes.take n, { s with bytes := s.bytes.drop n })

end FStream

structure MediaChunkFile where
  filename : String
  stream : FStream
  chunkQueueDataSize : UInt64 := 0
  chunkQueue : List (Option MediaChunk) := []

namespace MediaChunkFile

/-- The loop of `FlushToDisk`: the stream, the chunks that are left, and whether a write failed. -/
def flushQueue (stream : FStream) : List (Option MediaChunk) → FStream × List (Option MediaChunk) × Bool
  | [] => (stream, [], false)
  | none :: queue => flushQueue stream queue
  | some tmpChunk :: queue =>
    match tmpChunk.buffer with
    | none => flushQueue stream queue
    | some buffer =>
      let stream := stream.write tmpChunk.detailsBytes
      if !stream.good then (stream, queue, true)
      else
        let stream := stream.write (buffer.take tmpChunk.details.numBytes.toNat)
        if !stream.good then (stream, queue, true) else flushQueue stream queue

def flushToDisk (f : MediaChunkFile) : MediaChunkFile × Bool :=
  let (stream, chunkQueue, writeError) := flushQueue f.stream f.chunkQueue
  ({ f with stream, chunkQueue, chunkQueueDataSize := 0 }, writeError)

/-- `(unsigned int)(CONFIG.m_captureFileBatchSizeKByte*1024)`. -/
def batchSize (captureFileBatchSizeKByte : Int) : UInt64 :=
  (UInt32.ofInt (captureFileBatchSizeKByte * 1024)).toUInt64

def writeChunk (captureFileBatchSizeKByte : Int) (f : MediaChunkFile) (chunkRef : Option MediaChunk) :
    Except String MediaChunkFile :=
  match chunkRef with
  | none => .ok f
  | some chunk =>
    if chunk.details.numBytes = 0 then .ok f
    else
      let f := { f with
        chunkQueueDataSize := f.chunkQueueDataSize + UInt64.ofInt (asInt chunk.details.numBytes)
        chunkQueue := f.chunkQueue ++ [chunkRef] }
      if f.chunkQueueDataSize > batchSize captureFileBatchSizeKByte then
        if f.stream.isOpen then
          let (f, writeError) := f.flushToDisk
          if writeError then .error ("Could not write to file:" ++ f.filename) else .ok f
        else .error ("Write attempt on unopened file:" ++ f.filename)
      else .ok f

def close (f : MediaChunkFile) : MediaChunkFile :=
  if f.stream.isOpen then
    let f := f.flushToDisk.1
    { f with stream := { f.stream with isOpen := false } }
  else f

/-- `ReadChunkMono`: what it returns, the chunk and the file. -/
def readChunkMono (f : MediaChunkFile) : Except String (Nat × MediaChunk × MediaChunkFile) :=
  if f.stream.isOpen then
    let (temp, stream) := f.stream.read sizeofDetails
    let f := { f with stream }
    if stream.eof then .ok (0, {}, f)
    else if stream.good then
      let details := MediaChunk.ofDetailsBytes temp
      if details.details.marker ≠ mediaChunkMarker then
        .error ("Invalid marker in file:" ++ f.filename)
      else if details.details.numBytes.toNat ≥ MAX_CHUNK_SIZE then
        .error ("Chunk too big in file:" ++ f.filename)
      else
        let (temp, stream) := stream.read details.details.numBytes.toNat
        if !stream.good then .error ("Incomplete chunk in file:" ++ f.filename)
        else .ok (sizeofDetails, details.setBuffer temp, { f with stream })
    else .ok (sizeofDetails, {}, f)
  else .error ("Read attempt on unopened file:" ++ f.filename)

/-- One chunk after the other. -/
def writeChunks (captureFileBatchSizeKByte : Int) :
    MediaChunkFile → List (Option MediaChunk) → Except String MediaChunkFile
  | f, [] => .ok f
  | f, c :: cs => do
    let f ← f.writeChunk captureFileBatchSizeKByte c
    f.writeChunks captureFileBatchSizeKByte cs

/-- `while(fileRef->ReadChunkMono(chunkRef))`, with at most `fuel` calls. -/
def readChunks : Nat → MediaChunkFile → Option (Except String (List MediaChunk))
  | 0, _ => none
  | fuel + 1, f =>
    match f.readChunkMono with
    | .error e => some (.error e)
    | .ok (numRead, chunk, f) =>
      if numRead = 0 then some (.ok [])
      else (readChunks fuel f).map fun r => r.map (chunk :: ·)

/-- A file that has been opened for writing. -/
def create (filename : String) : MediaChunkFile :=
  { filename, stream := { isOpen := true, bytes := [] } }

/-- The file opened again for reading. -/
def reopen (f : MediaChunkFile) : MediaChunkFile :=
  { filename := f.filename, stream := { isOpen := true, bytes := f.stream.bytes } }

end MediaChunkFile

end Oreka
