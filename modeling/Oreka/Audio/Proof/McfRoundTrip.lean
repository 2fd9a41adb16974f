import Oreka.Audio.MediaChunkFile
import Oreka.Lib.Except

/-!
# What is written to a media chunk file is read back

The writer's invariant (`MediaChunkFile.Inv`) is that the file, followed by the records of the queued
chunks, is the records of all chunks so far; where the batches end does not show in it. The reader
takes one record off the file at each call (`readChunkMono_record`).
-/

namespace Oreka

open LittleEndian

namespace MediaChunk

/-- A chunk as the file is meant to hold it: marked, of a size that the reader accepts, and with a
buffer of that size. Its payload type is a `char`. -/
structure Valid (c : MediaChunk) : Prop where
  marker : c.details.marker = mediaChunkMarker
  pos : 0 < c.details.numBytes.toNat
  lt : c.details.numBytes.toNat < MAX_CHUNK_SIZE
  buffer : c.buffer.map List.length = some c.details.numBytes.toNat
  char : -128 ≤ c.details.rtpPayloadType ∧ c.details.rtpPayloadType < 128

theorem Valid.numBytes_ne {c : MediaChunk} (h : c.Valid) : c.details.numBytes ≠ 0 := by
  intro h0
  have := h.pos
  simp [h0] at this

/-- What the file holds of a chunk. -/
def record (c : MediaChunk) : List UInt8 := c.detailsBytes ++ c.buffer.getD []

@[simp] theorem length_detailsBytes (c : MediaChunk) : c.detailsBytes.length = sizeofDetails := by
  simp [detailsBytes, sizeofDetails]

/-- The details are read back from their memory. -/
theorem ofDetailsBytes_detailsBytes {c : MediaChunk} (h : c.Valid) :
    ofDetailsBytes c.detailsBytes = { c with buffer := none } := by
  have hmarker : value (bytes 4 c.details.marker) = c.details.marker :=
    value_bytes (by rw [h.marker]; decide)
  have hencoding := value_bytes c.details.encoding.number_lt
  have hword (x : UInt32) : UInt32.ofNat (value (bytes 4 x.toNat)) = x := by
    rw [value_bytes x.toNat_lt, UInt32.ofNat_toNat]
  have hchar : (Int8.ofInt c.details.rtpPayloadType).toInt = c.details.rtpPayloadType :=
    Int8.toInt_ofInt_of_le h.char.1 h.char.2
  simp [bytes] at hmarker hencoding hword
  simp [ofDetailsBytes, detailsBytes, bytes, hmarker, hencoding, hword, hchar]

end MediaChunk

namespace MediaChunkFile

variable {f : MediaChunkFile}

/-! ## Writing -/

theorem write_eq {stream : FStream} (hgood : stream.good = true) (d : List UInt8) :
    stream.write d = { stream with bytes := stream.bytes ++ d } := by
  simp [FStream.write, hgood]

/-- A flush writes the records of the queue. -/
theorem flushQueue_eq (stream : FStream) (hgood : stream.good = true) {queue : List MediaChunk}
    (hvalid : ∀ c ∈ queue, c.Valid) :
    flushQueue stream (queue.map some) =
      ({ stream with bytes := stream.bytes ++ queue.flatMap MediaChunk.record }, [], false) := by
  induction queue generalizing stream with
  | nil => simp [flushQueue]
  | cons c queue ih =>
    obtain ⟨buffer, hbuffer, hlen⟩ : ∃ b, c.buffer = some b ∧ b.length = c.details.numBytes.toNat := by
      simpa using (hvalid c List.mem_cons_self).buffer
    obtain ⟨isOpen, written, good, eof⟩ := stream
    obtain rfl : good = true := hgood
    have hrest := ih ⟨isOpen, written ++ c.record, true, eof⟩ rfl
      fun d hd => hvalid d (List.mem_cons_of_mem _ hd)
    have hrecord : c.record = c.detailsBytes ++ buffer := by simp [MediaChunk.record, hbuffer]
    rw [hrecord] at hrest
    simp only [List.map_cons, flushQueue, hbuffer, write_eq, Bool.not_true, Bool.false_eq_true,
      if_false, ← hlen, List.take_length, List.append_assoc]
    simp only [hrest, List.flatMap_cons, hrecord, List.append_assoc]

/-- The invariant of a writer that has been given `written`. -/
structure Inv (written : List MediaChunk) (f : MediaChunkFile) : Prop where
  isOpen : f.stream.isOpen = true
  good : f.stream.good = true
  split : ∃ queue : List MediaChunk, f.chunkQueue = queue.map some ∧ (∀ c ∈ queue, c.Valid) ∧
    f.stream.bytes ++ queue.flatMap MediaChunk.record = written.flatMap MediaChunk.record

theorem inv_create (filename : String) : Inv [] (create filename) :=
  ⟨rfl, rfl, [], rfl, by simp, rfl⟩

/-- After a flush, all that was written is in the file. -/
theorem Inv.flushToDisk {written : List MediaChunk} (h : Inv written f) :
    ∃ f', f.flushToDisk = (f', false) ∧ f'.stream.isOpen = true ∧ f'.stream.good = true ∧
      f'.chunkQueue = [] ∧ f'.stream.bytes = written.flatMap MediaChunk.record := by
  obtain ⟨queue, hqueue, hvalid, hsplit⟩ := h.split
  simp only [MediaChunkFile.flushToDisk, hqueue, flushQueue_eq _ h.good hvalid]
  exact ⟨_, rfl, h.isOpen, h.good, rfl, hsplit⟩

/-- A write keeps the invariant, whether it flushes or not. -/
theorem Inv.writeChunk (batch : Int) {written : List MediaChunk} (h : Inv written f)
    {c : MediaChunk} (hc : c.Valid) : ∃ f', f.writeChunk batch (some c) = .ok f' ∧ Inv (written ++ [c]) f' := by
  obtain ⟨queue, hqueue, hvalid, hsplit⟩ := h.split
  have hne := hc.numBytes_ne
  obtain ⟨f₁, hf₁, h₁⟩ : ∃ f₁ : MediaChunkFile, f₁ = { f with
      chunkQueueDataSize := f.chunkQueueDataSize + UInt64.ofInt (asInt c.details.numBytes)
      chunkQueue := f.chunkQueue ++ [some c] } ∧ Inv (written ++ [c]) f₁ := by
    refine ⟨_, rfl, h.isOpen, h.good, queue ++ [c], by simp [hqueue], ?_, ?_⟩
    · intro d hd
      obtain hd | hd := List.mem_append.1 hd
      · exact hvalid d hd
      · rw [List.mem_singleton.1 hd]
        exact hc
    · simp only [List.flatMap_append, ← List.append_assoc, hsplit]
  have hopen : f.stream.isOpen = true := h.isOpen
  simp only [MediaChunkFile.writeChunk, hne, if_false, ← hf₁, hopen, if_true]
  split
  · obtain ⟨f₂, hf₂, hopen₂, hgood₂, hempty, hbytes⟩ := h₁.flushToDisk
    simp only [hf₂, Bool.false_eq_true, if_false]
    exact ⟨f₂, rfl, hopen₂, hgood₂, [], hempty, by simp, by simpa using hbytes⟩
  · exact ⟨f₁, rfl, h₁⟩

theorem Inv.writeChunks (batch : Int) {cs : List MediaChunk} (hcs : ∀ c ∈ cs, c.Valid) :
    ∀ {written : List MediaChunk} {f : MediaChunkFile}, Inv written f →
      ∃ f', f.writeChunks batch (cs.map some) = .ok f' ∧ Inv (written ++ cs) f' := by
  induction cs with
  | nil =>
    intro written f h
    exact ⟨f, rfl, by simpa using h⟩
  | cons c cs ih =>
    intro written f h
    obtain ⟨f₁, hf₁, h₁⟩ := h.writeChunk batch (hcs c List.mem_cons_self)
    obtain ⟨f', hf', h'⟩ := ih (fun d hd => hcs d (List.mem_cons_of_mem _ hd)) h₁
    refine ⟨f', ?_, by simpa using h'⟩
    simp only [List.map_cons, MediaChunkFile.writeChunks, hf₁, Except.ok_bind, hf']

/-- `Close` leaves the records of all chunks in the file. -/
theorem Inv.close {written : List MediaChunk} (h : Inv written f) :
    f.close.stream.bytes = written.flatMap MediaChunk.record := by
  obtain ⟨f', hf', -, -, -, hbytes⟩ := h.flushToDisk
  simp only [MediaChunkFile.close, h.isOpen, if_true, hf', hbytes]

/-! ## Reading -/

theorem read_append (stream : FStream) (hgood : stream.good = true) {d rest : List UInt8} {n : Nat}
    (hn : d.length = n) (hbytes : stream.bytes = d ++ rest) :
    stream.read n = (d, { stream with bytes := rest }) := by
  have hlong : ¬ stream.bytes.length < n := by
    rw [hbytes, List.length_append]
    omega
  simp only [FStream.read, hgood, Bool.not_true, Bool.false_eq_true, if_false, hlong]
  rw [hbytes, List.take_left' hn, List.drop_left' hn]

/-- One call takes one record off the file. -/
theorem readChunkMono_record (hopen : f.stream.isOpen = true) (hgood : f.stream.good = true)
    (heof : f.stream.eof = false) {c : MediaChunk} (hc : c.Valid) {rest : List UInt8}
    (hbytes : f.stream.bytes = c.record ++ rest) :
    f.readChunkMono = .ok (sizeofDetails, c, { f with stream := { f.stream with bytes := rest } }) := by
  obtain ⟨buffer, hbuffer, hlen⟩ : ∃ b, c.buffer = some b ∧ b.length = c.details.numBytes.toNat := by
    simpa using hc.buffer
  have hlt : ¬ c.details.numBytes.toNat ≥ MAX_CHUNK_SIZE := Nat.not_le.2 hc.lt
  rw [MediaChunk.record, hbuffer, Option.getD_some, List.append_assoc] at hbytes
  have hdetails := read_append _ hgood c.length_detailsBytes hbytes
  have hpayload := read_append ⟨true, buffer ++ rest, true, false⟩ rfl hlen rfl
  have hchunk : ({ c with buffer := none } : MediaChunk).setBuffer buffer = c := by
    simp only [MediaChunk.setBuffer, hc.numBytes_ne, if_false, ← hbuffer]
  simp only [readChunkMono, hopen, hdetails, heof, hgood, if_true, Bool.false_eq_true, if_false,
    MediaChunk.ofDetailsBytes_detailsBytes hc, hc.marker, ne_eq, not_true_eq_false, hlt]
  simp only [hpayload, Bool.not_true, Bool.false_eq_true, if_false, hchunk]

/-- The end of the file. -/
theorem readChunkMono_nil (hopen : f.stream.isOpen = true) (hgood : f.stream.good = true)
    (hbytes : f.stream.bytes = []) : ∃ f', f.readChunkMono = .ok (0, {}, f') := by
  simp [readChunkMono, hopen, FStream.read, hgood, hbytes]

/-- The reader takes the file apart into the chunks. -/
theorem readChunks_records {cs : List MediaChunk} (hcs : ∀ c ∈ cs, c.Valid) :
    ∀ {f : MediaChunkFile} {fuel : Nat}, f.stream.isOpen = true → f.stream.good = true →
      f.stream.eof = false → f.stream.bytes = cs.flatMap MediaChunk.record → cs.length < fuel →
      f.readChunks fuel = some (.ok cs) := by
  induction cs with
  | nil =>
    intro f fuel hopen hgood _ hbytes hfuel
    obtain ⟨fuel, rfl⟩ := Nat.exists_eq_succ_of_ne_zero (Nat.ne_of_gt hfuel)
    obtain ⟨f', hf'⟩ := readChunkMono_nil hopen hgood hbytes
    simp only [readChunks, hf', if_true]
  | cons c cs ih =>
    intro f fuel hopen hgood heof hbytes hfuel
    obtain ⟨fuel, rfl⟩ := Nat.exists_eq_succ_of_ne_zero (Nat.ne_of_gt (Nat.zero_lt_of_lt hfuel))
    obtain ⟨rest, hrest⟩ : ∃ rest, rest = cs.flatMap MediaChunk.record := ⟨_, rfl⟩
    rw [List.flatMap_cons, ← hrest] at hbytes
    have hread := readChunkMono_record hopen hgood heof (hcs c List.mem_cons_self) hbytes
    have hreads := ih (f := { f with stream := { f.stream with bytes := rest } })
      (fun d hd => hcs d (List.mem_cons_of_mem _ hd)) hopen hgood heof hrest
      (Nat.lt_of_succ_lt_succ hfuel)
    have hne : ¬ sizeofDetails = 0 := by decide
    rw [readChunks, hread]
    dsimp only
    rw [if_neg hne, hreads]
    rfl

/-- **The chunks that are written are read back**, whatever the size of the batches. -/
theorem readChunks_writeChunks (filename : String) (captureFileBatchSizeKByte : Int)
    (chunks : List MediaChunk) (hvalid : ∀ c ∈ chunks, c.Valid) :
    ∃ f, (create filename).writeChunks captureFileBatchSizeKByte (chunks.map some) = .ok f ∧
      ∀ fuel, chunks.length < fuel → f.close.reopen.readChunks fuel = some (.ok chunks) := by
  obtain ⟨f, hf, h⟩ :=
    (inv_create filename).writeChunks captureFileBatchSizeKByte hvalid
  exact ⟨f, hf, fun fuel hfuel => readChunks_records hvalid rfl rfl rfl h.close hfuel⟩

/-- A chunk with a payload. -/
def payloadChunk (payload : List UInt8) : MediaChunk :=
  { details := { encoding := .alawAudio, numBytes := .ofNat payload.length }, buffer := some payload }

/-- Two chunks, each a batch of its own. -/
theorem readChunks_writeChunks_two :
    ∃ f, (create "tape").writeChunks 0 ([payloadChunk [1, 2, 3], payloadChunk [42]].map some) = .ok f ∧
      ∀ fuel, 2 < fuel →
        f.close.reopen.readChunks fuel = some (.ok [payloadChunk [1, 2, 3], payloadChunk [42]]) := by
  apply readChunks_writeChunks
  intro c hc
  simp only [List.mem_cons, List.not_mem_nil, or_false] at hc
  obtain rfl | rfl := hc
  · exact ⟨rfl, by decide, by decide, rfl, by decide⟩
  · exact ⟨rfl, by decide, by decide, rfl, by decide⟩

end MediaChunkFile

end Oreka
