import Oreka.Lib.Except
import Oreka.Lib.Ring
import Oreka.Mixer.RtpMixer

/-!
# What storing and shipping do to the circular buffer

One lemma per routine of the mixer, in terms of `Ring.fold` and `Ring.read`: the two loops of
`StoreRtpPacket` (`zeroLoop_eq`, `mixLoop_eq`), a store as a whole (`storeRtpPacket_cases`) and a
shipment (`createShipment_ok`). `SameRing` is the frame of the timestamp correction, which touches
neither the buffer nor its pointers (`accept_ok`).
-/

namespace Oreka.Mixer

namespace RtpMixer

variable {cfg : MixerConfig} {m m' : RtpMixer}

/-! ## The loops of a store -/

theorem zeroLoop_eq : ∀ (n : Nat) {m : RtpMixer}, m.writePtr < bufferEnd → ∃ chs,
    zeroLoop n m =
      { m with
        buffer := (Ring.fold bufferEnd (fun _ _ => 0) (List.replicate n ()) m.buffer m.writePtr).1
        rtpMixerChannels := chs
        writePtr := (m.writePtr + n) % bufferEnd }
  | 0, m, h => ⟨m.rtpMixerChannels, by simp [zeroLoop, Ring.fold, Nat.mod_eq_of_lt h]⟩
  | n + 1, m, h => by
    have hnext : m.zeroStep.writePtr = Ring.next bufferEnd m.writePtr := rfl
    obtain ⟨chs, he⟩ := zeroLoop_eq n (m := m.zeroStep) (hnext ▸ Ring.next_lt h)
    refine ⟨chs, ?_⟩
    rw [zeroLoop, he, hnext, Ring.next_eq h, Nat.mod_add_mod, Nat.add_assoc, Nat.add_comm 1 n,
      List.replicate_succ, Ring.fold, Ring.next_eq h]
    rfl

theorem mixLoop_eq (idx : Nat) : ∀ (xs : List Int) (p : Nat) (m : RtpMixer), ∃ chs,
    mixLoop idx xs p m =
      { m with
        buffer := (Ring.fold bufferEnd (fun a x => saturate (a + x)) xs m.buffer p).1
        rtpMixerChannels := chs }
  | [], _, m => ⟨m.rtpMixerChannels, rfl⟩
  | x :: xs, p, m => by
    obtain ⟨chs, he⟩ := mixLoop_eq idx xs (Ring.next bufferEnd p) (m.mixStep idx p x)
    exact ⟨chs, by rw [mixLoop, ← Ring.next, he]; rfl⟩

/-- The buffer after a store: silence up to the new write timestamp `w`, then the samples mixed in
from `t` on, when the buffer reaches back to it. -/
def storeBuffer (m : RtpMixer) (samples : List Int) (w t : Nat) : Nat → Int :=
  let n := w - m.writeTimestamp.toNat
  let z := (Ring.fold bufferEnd (fun _ _ => 0) (List.replicate n ()) m.buffer m.writePtr).1
  if w - t < bufferEnd then
    (Ring.fold bufferEnd (fun a x => saturate (a + x)) samples z
      (circularPointerSubtractOffset ((m.writePtr + n) % bufferEnd) (w - t))).1
  else z

/-- `StoreRtpPacket` dismisses the chunk: its timestamps wrap, or it starts too late. -/
def dismisses (m : RtpMixer) (chunk : AudioChunk) (t : UInt32) : Prop :=
  4294967296 ≤ t.toNat + chunk.pcm.length ∨
    m.writeTimestamp.toNat + bufferEnd ≤ t.toNat + chunk.pcm.length

instance (m : RtpMixer) (chunk : AudioChunk) (t : UInt32) : Decidable (m.dismisses chunk t) :=
  inferInstanceAs (Decidable (_ ∨ _))

/-- The samples are mixed in when the buffer reaches back to them. -/
theorem mixPayload_run {c : AudioChunk} {t : UInt32} (h : t.toNat ≤ m.writeTimestamp.toNat) :
    mixPayload m c t =
      if m.writeTimestamp.toNat - t.toNat < bufferEnd then
        mixLoop (channelIdx c).toNat c.pcm
          (circularPointerSubtractOffset m.writePtr (m.writeTimestamp.toNat - t.toNat)) m
      else m := by
  simp only [mixPayload, numSamplesCircularBuffer, bufferEnd]
  by_cases hd : m.writeTimestamp.toNat - t.toNat < 16000
  · have hn : ¬ ((m.writeTimestamp.toNat : Int) - t.toNat < 0 ∨
        (m.writeTimestamp.toNat : Int) - t.toNat ≥ (16000 : Nat)) := by omega
    rw [if_neg hn, if_pos hd, show ((m.writeTimestamp.toNat : Int) - t.toNat).toNat
      = m.writeTimestamp.toNat - t.toNat by omega]
  · have hn : ((m.writeTimestamp.toNat : Int) - t.toNat < 0 ∨
        (m.writeTimestamp.toNat : Int) - t.toNat ≥ (16000 : Nat)) := by omega
    rw [if_pos hn, if_neg hd]

/-- **What a store does**, in terms of its loops: nothing to a dismissed chunk, else silence up to the
end of the chunk and the samples mixed in. -/
theorem storeRtpPacket_run {c : AudioChunk} {t : UInt32} (h : m.storeRtpPacket c t = .ok m') :
    (m.dismisses c t ∧ m' = m) ∨
    (¬ m.dismisses c t ∧ ∃ w, w = max m.writeTimestamp.toNat (t.toNat + c.pcm.length) ∧
      m' = mixPayload { zeroLoop (w - m.writeTimestamp.toNat) m with
        writeTimestamp := UInt32.ofNat w } c t) := by
  unfold storeRtpPacket at h
  split at h
  · cases h
  simp only [← AudioChunk.length_pcm, numSamplesCircularBuffer] at h
  unfold dismisses bufferEnd numSamplesCircularBuffer
  split at h
  · exact .inl ⟨.inl (by omega), by cases h; rfl⟩
  split at h
  · exact .inl ⟨.inr (by omega), by cases h; rfl⟩
  rename_i hwrap hlate
  refine .inr ⟨by omega, _, rfl, ?_⟩
  split at h
  · -- the chunk ends after the write timestamp
    rename_i hs
    rw [show max m.writeTimestamp.toNat (t.toNat + c.pcm.length) = t.toNat + c.pcm.length by omega]
    cases h
    rw [show ((t.toNat + c.pcm.length : Nat) - (m.writeTimestamp.toNat : Int)).toNat
        = t.toNat + c.pcm.length - m.writeTimestamp.toNat by omega]
  · rename_i hs
    rw [show max m.writeTimestamp.toNat (t.toNat + c.pcm.length) = m.writeTimestamp.toNat by omega]
    cases h
    simp [zeroLoop]

/-- A store that is not dismissed ends at a timestamp. -/
theorem store_toNat {c : AudioChunk} {t : UInt32} (hd : ¬ m.dismisses c t) :
    (UInt32.ofNat (max m.writeTimestamp.toNat (t.toNat + c.pcm.length))).toNat =
      max m.writeTimestamp.toNat (t.toNat + c.pcm.length) := by
  have := m.writeTimestamp.toNat_lt
  refine UInt32.toNat_ofNat_of_lt' ?_
  simp only [dismisses, not_or, not_le] at hd
  simp only [UInt32.size]
  omega

/-- What a store does to the mixer: it moves the write pointer and timestamp to the end of the chunk
when that is later, and writes the buffer. -/
theorem storeRtpPacket_cases {c : AudioChunk} {t : UInt32} (hw : m.writePtr < bufferEnd)
    (h : m.storeRtpPacket c t = .ok m') :
    (m.dismisses c t ∧ m' = m) ∨
    (¬ m.dismisses c t ∧ ∃ chs w, w = max m.writeTimestamp.toNat (t.toNat + c.pcm.length) ∧
      m' = { m with
        buffer := m.storeBuffer c.pcm w t.toNat
        rtpMixerChannels := chs
        writePtr := (m.writePtr + (w - m.writeTimestamp.toNat)) % bufferEnd
        writeTimestamp := UInt32.ofNat w }) := by
  refine (storeRtpPacket_run h).imp id ?_
  rintro ⟨hd, w, hw', rfl⟩
  have hto : (UInt32.ofNat w).toNat = w := by rw [hw', store_toNat hd]
  obtain ⟨chs, hz⟩ := zeroLoop_eq (w - m.writeTimestamp.toNat) hw
  rw [hz, mixPayload_run (by rw [hto]; omega)]
  dsimp only
  rw [hto]
  by_cases hreach : w - t.toNat < bufferEnd
  · rw [if_pos hreach]
    obtain ⟨chs', he⟩ := mixLoop_eq (channelIdx c).toNat c.pcm
      (circularPointerSubtractOffset ((m.writePtr + (w - m.writeTimestamp.toNat)) % bufferEnd)
        (w - t.toNat))
      { m with
        buffer := (Ring.fold bufferEnd (fun _ _ => 0)
          (List.replicate (w - m.writeTimestamp.toNat) ()) m.buffer m.writePtr).1
        rtpMixerChannels := chs
        writePtr := (m.writePtr + (w - m.writeTimestamp.toNat)) % bufferEnd
        writeTimestamp := UInt32.ofNat w }
    refine ⟨hd, chs', w, hw', ?_⟩
    rw [he, storeBuffer, if_pos hreach]
  · rw [if_neg hreach]
    refine ⟨hd, chs, w, hw', ?_⟩
    rw [storeBuffer, if_neg hreach]

/-! ## Shipments -/

/-- The samples shipped so far. -/
def shipped (m : RtpMixer) : List Int := m.outputQueue.flatMap (·.buffer)

theorem setChannelBuffer_buffer {c c' : AudioChunk} {xs : List Int} {d : AudioChunkDetails}
    {chan : Nat} (h : c.setChannelBuffer xs d chan = .ok c') : c'.buffer = c.buffer := by
  unfold AudioChunk.setChannelBuffer at h
  split at h
  · cases h
  · cases h; rfl

theorem setChannelBuffers_buffer {xs : List Int} {d : AudioChunkDetails} :
    ∀ {is : List Nat} {c c' : AudioChunk},
      is.foldlM (fun c i => c.setChannelBuffer xs d (i + 1)) c = .ok c' → c'.buffer = c.buffer
  | [], _, _, h => by cases h; rfl
  | i :: is, c, c', h => by
    simp only [List.foldlM_cons] at h
    cases hc : c.setChannelBuffer xs d (i + 1) with
    | error e => rw [hc] at h; cases h
    | ok c₁ =>
      rw [hc] at h
      rw [setChannelBuffers_buffer h, setChannelBuffer_buffer hc]

theorem setBuffer_buffer {c : AudioChunk} {xs : List Int} {d : AudioChunkDetails}
    (h : d.numBytes ≠ 0) : (c.setBuffer xs d).buffer = xs := by
  simp [AudioChunk.setBuffer, h]

/-- The separate channels leave a shipment's own buffer alone. -/
theorem handleMixedOutput_buffer {c c' : AudioChunk} {d : AudioChunkDetails} {ptr n : Nat}
    (hd : d.numBytes ≠ 0) (hc : c.buffer = (List.range n).map fun j => m.buffer (ptr + j))
    (h : m.handleMixedOutput cfg c d ptr n = .ok c') : c'.buffer = c.buffer := by
  unfold handleMixedOutput at h
  split at h
  · cases h; rfl
  · obtain ⟨c₁, h₁, h⟩ := Except.bind_eq_ok.1 h
    obtain ⟨c₂, h₂, h⟩ := Except.bind_eq_ok.1 h
    rw [setChannelBuffers_buffer h, setChannelBuffer_buffer h₂, setChannelBuffer_buffer h₁]
    split
    · rw [setBuffer_buffer hd, hc]
    · rfl

theorem shipmentChunk_buffer {c : AudioChunk} {d : AudioChunkDetails} {ptr n : Nat}
    (hd : d.numBytes ≠ 0) (h : m.shipmentChunk cfg d ptr n = .ok c) :
    c.buffer = (List.range n).map fun j => m.buffer (ptr + j) := by
  simp only [shipmentChunk] at h
  split at h
  · rw [handleMixedOutput_buffer hd (setBuffer_buffer hd) (Except.mapError_eq_ok.1 h)]
    exact setBuffer_buffer hd
  · cases h
    exact setBuffer_buffer hd

/-- **What `ship` does**: a chunk is queued unless there is nothing to ship, and the read side moves
on. -/
theorem ship_run {ptr n : Nat} (hn : n ≤ bufferEnd) (h : m.ship cfg ptr n = .ok m') :
    ∃ q, m' = { m with
        readPtr := circularPointerAddOffset m.readPtr n
        readTimestamp := m.readTimestamp + UInt32.ofNat n
        outputQueue := q } ∧
      (n = 0 ∧ q = m.outputQueue ∨ ∃ c d, d.numBytes ≠ 0 ∧ d.numBytes.toNat = 2 * n ∧
        m.shipmentChunk cfg d ptr n = .ok c ∧ q = m.outputQueue ++ [c]) := by
  simp only [bufferEnd, numSamplesCircularBuffer] at hn
  have hb : (UInt32.ofNat (n * 2)).toNat = n * 2 :=
    UInt32.toNat_ofNat_of_lt' (by simp only [UInt32.size]; omega)
  have hbig : ¬ UInt32.ofNat (n * 2) > 100000 := by
    intro hgt
    have := UInt32.lt_iff_toNat_lt.1 hgt
    rw [hb] at this
    have h1 : (100000 : UInt32).toNat = 100000 := rfl
    omega
  obtain ⟨m₁, h₁, h⟩ := Except.bind_eq_ok.1 h
  cases h
  simp only [queueShipment, checkChunkDetails, if_neg hbig] at h₁
  by_cases hz : n = 0
  · subst hz
    cases h₁
    exact ⟨m.outputQueue, rfl, .inl ⟨rfl, rfl⟩⟩
  have hne : UInt32.ofNat (n * 2) ≠ 0 := fun h0 => by
    have := congrArg UInt32.toNat h0
    rw [hb] at this
    simp at this
    omega
  simp only [hne, ne_eq, not_false_eq_true, decide_true, if_true] at h₁
  obtain ⟨c, hc, h₁⟩ := Except.bind_eq_ok.1 h₁
  cases h₁
  exact ⟨m.outputQueue ++ [c], rfl, .inr ⟨c, _, hne, hb.trans (Nat.mul_comm ..), hc, rfl⟩⟩

/-- The samples from `ptr` on are shipped. -/
theorem ship_ok {ptr n : Nat} (hn : n ≤ bufferEnd) (h : m.ship cfg ptr n = .ok m') :
    ∃ q, (m'.shipped = m.shipped ++ (List.range n).map fun j => m.buffer (ptr + j)) ∧
      m' = { m with
        readPtr := circularPointerAddOffset m.readPtr n
        readTimestamp := m.readTimestamp + UInt32.ofNat n
        outputQueue := q } := by
  obtain ⟨q, rfl, ⟨rfl, rfl⟩ | ⟨c, d, hd, -, hc, rfl⟩⟩ := ship_run hn h
  · exact ⟨m.outputQueue, by simp [shipped], rfl⟩
  · exact ⟨m.outputQueue ++ [c], by simp [shipped, shipmentChunk_buffer hd hc], rfl⟩

theorem add_ofNat_toNat {x : UInt32} {n : Nat} (h : x.toNat + n < 4294967296) :
    (x + UInt32.ofNat n).toNat = x.toNat + n := by
  rw [UInt32.toNat_add, UInt32.toNat_ofNat_of_lt' (by simp only [UInt32.size]; omega)]
  exact Nat.mod_eq_of_lt h

theorem circularPointerAddOffset_eq {p n : Nat} (hp : p < bufferEnd) (hn : p + n ≤ bufferEnd) :
    circularPointerAddOffset p n = (p + n) % bufferEnd := by
  unfold circularPointerAddOffset
  simp only [bufferEnd, numSamplesCircularBuffer] at *
  split <;> omega

theorem circularPointerSubtractOffset_eq {p n : Nat} (hp : p < bufferEnd) (hn : n < bufferEnd) :
    circularPointerSubtractOffset p n = (p + (bufferEnd - n)) % bufferEnd := by
  unfold circularPointerSubtractOffset
  simp only [bufferEnd, numSamplesCircularBuffer] at *
  split <;> omega

/-- The number of samples in a shipment: the distance from the read pointer to where it stops. -/
def shipSize (m : RtpMixer) (force : Bool) : Nat :=
  (m.shipStop force + (bufferEnd - m.readPtr)) % bufferEnd

/-- **What a shipment does**: it ships the slots from the read pointer to its stop pointer, and moves
the read pointer and timestamp past them. -/
theorem createShipment_ok {force : Bool} (hr : m.readPtr < bufferEnd)
    (hs : m.shipStop force < bufferEnd)
    (hts : m.readTimestamp.toNat + m.shipSize force < 4294967296)
    (h : m.createShipment cfg force = .ok m') :
    ∃ q ts, ts.toNat = m.readTimestamp.toNat + m.shipSize force ∧
      m'.shipped =
        m.shipped ++ Ring.read bufferEnd m.buffer m.readPtr (m.shipSize force) ∧
      m' = { m with readPtr := m.shipStop force, readTimestamp := ts, outputQueue := q } := by
  unfold createShipment at h
  unfold shipSize at hts ⊢
  generalize m.shipStop force = stop at *
  split at h
  · -- wrapped: the end of the buffer, then its start
    rename_i hw
    obtain ⟨m₁, h₁, h₂⟩ := Except.bind_eq_ok.1 h
    obtain ⟨q₁, hq₁, rfl⟩ := ship_ok (Nat.sub_le _ _) h₁
    obtain ⟨q₂, hq₂, he⟩ := ship_ok hs.le h₂
    have hlen : (stop + (bufferEnd - m.readPtr)) % bufferEnd = bufferEnd - m.readPtr + stop := by
      simp only [bufferEnd, numSamplesCircularBuffer] at *
      omega
    have hptr : circularPointerAddOffset m.readPtr (bufferEnd - m.readPtr) = 0 := by
      rw [circularPointerAddOffset_eq hr (by omega), Nat.add_sub_cancel' hr.le, Nat.mod_self]
    have hstop : circularPointerAddOffset 0 stop = stop := by
      rw [circularPointerAddOffset_eq (by omega) (by omega), Nat.zero_add, Nat.mod_eq_of_lt hs]
    rw [hlen] at hts ⊢
    simp only [hptr, hstop] at he
    refine ⟨q₂, _, ?_, ?_, he⟩
    · rw [add_ofNat_toNat, add_ofNat_toNat, Nat.add_assoc]
      · omega
      · rw [add_ofNat_toNat] <;> omega
    · rw [hq₂, hq₁, Ring.read_add, Nat.add_sub_cancel' hr.le, Nat.mod_self,
        Ring.read_flat _ (Nat.add_sub_cancel' hr.le).le, Ring.read_flat _ (by omega),
        List.append_assoc]
  · rename_i hw
    obtain ⟨q, hq, he⟩ := ship_ok (by omega) h
    have hlen : (stop + (bufferEnd - m.readPtr)) % bufferEnd = stop - m.readPtr := by
      rw [show stop + (bufferEnd - m.readPtr) = stop - m.readPtr + bufferEnd by omega,
        Nat.add_mod_right, Nat.mod_eq_of_lt (by omega)]
    have hstop : circularPointerAddOffset m.readPtr (stop - m.readPtr) = stop := by
      rw [circularPointerAddOffset_eq hr (by omega), Nat.add_sub_cancel' (by omega),
        Nat.mod_eq_of_lt hs]
    rw [hlen] at hts ⊢
    rw [hstop] at he
    exact ⟨q, _, add_ofNat_toNat hts, by rw [hq, Ring.read_flat _ (by omega)], he⟩

/-! ## The frame of the timestamp correction -/

/-- The same circular buffer with the same pointers, and the same output queue. -/
structure SameRing (m m' : RtpMixer) : Prop where
  writePtr : m'.writePtr = m.writePtr
  readPtr : m'.readPtr = m.readPtr
  readTimestamp : m'.readTimestamp = m.readTimestamp
  writeTimestamp : m'.writeTimestamp = m.writeTimestamp
  buffer : m'.buffer = m.buffer
  numSampleTrigger : m'.numSampleTrigger = m.numSampleTrigger
  numSampleShipmentHoldoff : m'.numSampleShipmentHoldoff = m.numSampleShipmentHoldoff
  outputQueue : m'.outputQueue = m.outputQueue
  error : m'.error = m.error

namespace SameRing

theorem refl (m : RtpMixer) : SameRing m m := ⟨rfl, rfl, rfl, rfl, rfl, rfl, rfl, rfl, rfl⟩

theorem trans {m₁ m₂ m₃ : RtpMixer} (h : SameRing m₁ m₂) (h' : SameRing m₂ m₃) :
    SameRing m₁ m₃ :=
  ⟨h'.1.trans h.1, h'.2.trans h.2, h'.3.trans h.3, h'.4.trans h.4, h'.5.trans h.5,
    h'.6.trans h.6, h'.7.trans h.7, h'.8.trans h.8, h'.9.trans h.9⟩

end SameRing

theorem createChannels_sameRing (m : RtpMixer) (cfg : MixerConfig) (n : Nat) :
    SameRing m (m.createChannels cfg n) := by
  unfold createChannels
  split
  · exact .refl m
  · exact ⟨rfl, rfl, rfl, rfl, rfl, rfl, rfl, rfl, rfl⟩

theorem modifyChannel_sameRing {idx : Int} {f : RtpMixerChannel → RtpMixerChannel}
    (h : m.modifyChannel idx f = .ok m') : SameRing m m' := by
  unfold modifyChannel at h
  split at h
  · cases h
    exact ⟨rfl, rfl, rfl, rfl, rfl, rfl, rfl, rfl, rfl⟩
  · cases h

/-- The same audio on the same channel, possibly stamped anew. -/
def SameAudio (c c' : AudioChunk) : Prop :=
  c'.pcm = c.pcm ∧ c'.details.channel = c.details.channel

theorem correctMillis_sameAudio (c : AudioChunk) (last : Option AudioChunk) (t : UInt32) :
    SameAudio c (correctMillis c last t).1 := by
  unfold correctMillis
  cases last with
  | none => exact ⟨rfl, rfl⟩
  | some last =>
    dsimp only
    split
    · exact ⟨rfl, rfl⟩
    · exact ⟨rfl, rfl⟩

theorem setLastChunk_sameRing {idx : Int} {c : AudioChunk} (h : m.setLastChunk idx c = .ok m') :
    SameRing m m' := by
  unfold setLastChunk at h
  split at h
  · exact modifyChannel_sameRing h
  · cases h
    exact .refl m

/-- The correction leaves the buffer and the audio alone, and the timestamps of channel 1 too. -/
theorem correctTimestamp_ok {c c' : AudioChunk} {t : UInt32}
    (h : m.correctTimestamp cfg c = .ok (m', c', t)) :
    SameRing m m' ∧ SameAudio c c' ∧ (c'.details.channel = 1 → t = c'.details.timestamp) := by
  unfold correctTimestamp at h
  split at h
  · obtain ⟨m₁, h₁, h⟩ := Except.bind_eq_ok.1 h
    have hr := setLastChunk_sameRing h₁
    cases h
    exact ⟨⟨hr.1, hr.2, hr.3, hr.4, hr.5, hr.6, hr.7, hr.8, hr.9⟩, correctMillis_sameAudio ..,
      fun _ => rfl⟩
  rename_i hc
  -- on any other channel the last part is vacuous
  suffices h : SameRing m m' ∧ SameAudio c c' from
    ⟨h.1, h.2, fun h1 => absurd (h.2.2 ▸ h1) hc⟩
  split at h
  · obtain ⟨m₁, h₁, h⟩ := Except.bind_eq_ok.1 h
    have hr := setLastChunk_sameRing h₁
    cases h
    exact ⟨⟨hr.1, hr.2, hr.3, hr.4, hr.5, hr.6, hr.7, hr.8, hr.9⟩, correctMillis_sameAudio ..⟩
  unfold correctOther at h
  split at h
  · cases h
    exact ⟨.refl _, rfl, rfl⟩
  split at h
  · cases h
  split at h
  · cases h
  · obtain ⟨m₁, h₁, h⟩ := Except.bind_eq_ok.1 h
    cases h
    exact ⟨modifyChannel_sameRing h₁, correctMillis_sameAudio ..⟩

/-- What `accept` comes to: a chunk that is too big puts the mixer into its error state, and of any
other one it leaves the same audio to place, for a mixer with the same buffer. -/
theorem accept_ok {c : AudioChunk} {o : Option (AudioChunk × UInt32)}
    (h : m.accept cfg c = .ok (m', o)) :
    (c.getNumBytes > 100000 ∧ o = none ∧ m' = { m with error := true }) ∨
    (SameRing m m' ∧ ∀ c' t, o = some (c', t) → SameAudio c c' ∧ 0 < c'.pcm.length ∧
      (c'.details.channel = 1 → t = c'.details.timestamp)) := by
  obtain ⟨n, hn, h⟩ := Except.bind_eq_ok.1 h
  rw [Except.mapError_eq_ok] at hn
  split at h
  · cases h
    exact .inr ⟨.refl m, fun _ _ h => by cases h⟩
  split at h
  · cases h
    exact .inl ⟨‹_›, rfl, rfl⟩
  split at h
  · cases h
  rename_i hn0 _ henc
  obtain ⟨⟨m₁, c₁, t₁⟩, h₁, h⟩ := Except.bind_eq_ok.1 h
  cases h
  obtain ⟨hr, ha, ht⟩ := correctTimestamp_ok h₁
  refine .inr ⟨.trans ?_ hr, fun c' t h => ?_⟩
  · split
    · exact createChannels_sameRing ..
    · exact .refl m
  · cases h
    refine ⟨ha, ?_, ht⟩
    rw [ha.1, AudioChunk.length_pcm]
    simp only [AudioChunk.getNumSamples, not_not.1 henc] at hn
    cases hn
    omega

theorem accept_some {c c' : AudioChunk} {t : UInt32} (h : m.accept cfg c = .ok (m', some (c', t))) :
    SameRing m m' ∧ SameAudio c c' ∧ 0 < c'.pcm.length ∧
      (c'.details.channel = 1 → t = c'.details.timestamp) := by
  rcases accept_ok h with ⟨-, ho, -⟩ | ⟨hr, ho⟩
  · cases ho
  · exact ⟨hr, ho c' t rfl⟩

/-! ## No accepted chunk makes a call throw -/

theorem setChannelBuffer_isOk (c : AudioChunk) (xs : List Int) (d : AudioChunkDetails) (chan : Nat)
    (h : 1 ≤ chan) (h' : chan ≤ c.numChannels) :
    ∃ c', c.setChannelBuffer xs d chan = .ok c' ∧ c'.numChannels = c.numChannels := by
  unfold AudioChunk.setChannelBuffer
  rw [if_neg (by omega)]
  exact ⟨_, rfl, rfl⟩

theorem setChannelBuffers_isOk (xs : List Int) (d : AudioChunkDetails) :
    ∀ (is : List Nat) (c : AudioChunk), (∀ i ∈ is, i + 1 ≤ c.numChannels) →
      ∃ c', is.foldlM (fun c i => c.setChannelBuffer xs d (i + 1)) c = .ok c'
  | [], c, _ => ⟨c, rfl⟩
  | i :: is, c, h => by
    obtain ⟨c₁, hc₁, hn⟩ := setChannelBuffer_isOk c xs d (i + 1) (by omega) (h i (by simp))
    obtain ⟨c₂, hc₂⟩ := setChannelBuffers_isOk xs d is c₁ fun j hj => hn ▸ h j (by simp [hj])
    exact ⟨c₂, by rw [List.foldlM_cons, hc₁]; exact hc₂⟩

@[simp] theorem setBuffer_numChannels (c : AudioChunk) (xs : List Int) (d : AudioChunkDetails) :
    (c.setBuffer xs d).numChannels = c.numChannels := by
  unfold AudioChunk.setBuffer
  split
  · split <;> rfl
  · rfl

/-- The tape channels are all there. -/
theorem handleMixedOutput_isOk (cfg : MixerConfig) {c : AudioChunk}
    (hc : c.numChannels = m.numInputChannels) (d : AudioChunkDetails) (ptr n : Nat) :
    ∃ c', m.handleMixedOutput cfg c d ptr n = .ok c' := by
  unfold handleMixedOutput
  split
  · exact ⟨c, rfl⟩
  rename_i htape
  dsimp only
  generalize hchunk : (if cfg.tapeNumChannels ≠ m.numInputChannels then
    (AudioChunk.new cfg.tapeNumChannels).setBuffer
      ((List.range n).map fun j => m.buffer (ptr + j)) d else c) = c₀
  have hn : c₀.numChannels = cfg.tapeNumChannels := by
    rw [← hchunk]
    split
    · rw [setBuffer_numChannels]
      rfl
    · rw [hc]
      omega
  obtain ⟨c₁, h₁, hn₁⟩ := setChannelBuffer_isOk c₀
    ((List.range n).map fun j => m.tapeSample 0 (ptr + j)) d 1 le_rfl (by omega)
  obtain ⟨c₂, h₂, hn₂⟩ := setChannelBuffer_isOk c₁
    ((List.range n).map fun j => m.tapeSample 1 (ptr + j)) d 2 (by omega) (by omega)
  obtain ⟨c₃, h₃⟩ := setChannelBuffers_isOk (List.replicate n 0) d
    (List.range' 2 (cfg.tapeNumChannels - 2)) c₂ fun i hi => by
      rw [List.mem_range'] at hi
      omega
  exact ⟨c₃, Except.bind_eq_ok.2 ⟨c₁, h₁, Except.bind_eq_ok.2 ⟨c₂, h₂, h₃⟩⟩⟩

theorem ship_isOk (m : RtpMixer) (cfg : MixerConfig) (ptr n : Nat) :
    ∃ m', m.ship cfg ptr n = .ok m' := by
  have hchunk (m : RtpMixer) (d : AudioChunkDetails) : ∃ c, m.shipmentChunk cfg d ptr n = .ok c := by
    unfold shipmentChunk
    dsimp only
    split
    · obtain ⟨c, hc⟩ := handleMixedOutput_isOk cfg (setBuffer_numChannels
        (AudioChunk.new m.numInputChannels) ((List.range n).map fun j => m.buffer (ptr + j)) d)
        d ptr n
      exact ⟨c, Except.mapError_eq_ok.2 hc⟩
    · exact ⟨_, rfl⟩
  have hq (d : AudioChunkDetails) : ∃ m', m.queueShipment cfg d ptr n = .ok m' := by
    unfold queueShipment
    obtain ⟨m₁, valid⟩ := m.checkChunkDetails d
    obtain ⟨c, hc⟩ := hchunk m₁ d
    cases valid with
    | true => exact ⟨_, Except.bind_eq_ok.2 ⟨c, hc, rfl⟩⟩
    | false => exact ⟨m₁, rfl⟩
  obtain ⟨m', hm'⟩ := hq { encoding := .pcmAudio, numBytes := UInt32.ofNat (n * 2)
                           channel := if m.numInputChannels ≠ 0 then 100 else 0 }
  exact ⟨_, Except.bind_eq_ok.2 ⟨m', hm', rfl⟩⟩

theorem createShipment_isOk (m : RtpMixer) (cfg : MixerConfig) (force : Bool) :
    ∃ m', m.createShipment cfg force = .ok m' := by
  unfold createShipment
  split
  · obtain ⟨m₁, h₁⟩ := m.ship_isOk cfg m.readPtr (bufferEnd - m.readPtr)
    obtain ⟨m₂, h₂⟩ := m₁.ship_isOk cfg 0 (m.shipStop force)
    exact ⟨m₂, Except.bind_eq_ok.2 ⟨m₁, h₁, h₂⟩⟩
  · exact m.ship_isOk cfg _ _

theorem ship_channels {ptr n : Nat} (h : m.ship cfg ptr n = .ok m') :
    m'.numInputChannels = m.numInputChannels ∧ m'.rtpMixerChannels = m.rtpMixerChannels ∧
      m'.numOutputChannels = m.numOutputChannels := by
  obtain ⟨m₁, h₁, h⟩ := Except.bind_eq_ok.1 h
  cases h
  unfold queueShipment checkChunkDetails at h₁
  dsimp only at h₁ ⊢
  split at h₁
  · cases h₁
    exact ⟨rfl, rfl, rfl⟩
  · split at h₁
    · obtain ⟨c, -, h₁⟩ := Except.bind_eq_ok.1 h₁
      cases h₁
      exact ⟨rfl, rfl, rfl⟩
    · cases h₁
      exact ⟨rfl, rfl, rfl⟩

theorem createShipment_channels {force : Bool} (h : m.createShipment cfg force = .ok m') :
    m'.numInputChannels = m.numInputChannels ∧ m'.rtpMixerChannels = m.rtpMixerChannels ∧
      m'.numOutputChannels = m.numOutputChannels := by
  unfold createShipment at h
  split at h
  · obtain ⟨m₁, h₁, h⟩ := Except.bind_eq_ok.1 h
    obtain ⟨hi, hc, ho⟩ := ship_channels h
    obtain ⟨hi₁, hc₁, ho₁⟩ := ship_channels h₁
    exact ⟨hi.trans hi₁, hc.trans hc₁, ho.trans ho₁⟩
  · exact ship_channels h

theorem storeRtpPacket_isOk {c : AudioChunk} (t : UInt32)
    (hv : m.numInputChannels ≠ 0 → m.validIdx (channelIdx c)) :
    ∃ m', m.storeRtpPacket c t = .ok m' := by
  unfold storeRtpPacket
  rw [if_neg fun h => h.2 (hv h.1)]
  dsimp only
  repeat' split
  all_goals exact ⟨_, rfl⟩

theorem validIdx_of_modifyChannel {idx : Int} {f : RtpMixerChannel → RtpMixerChannel}
    (h : m.modifyChannel idx f = .ok m') : m'.validIdx idx := by
  unfold modifyChannel at h
  split at h
  · rename_i hv
    cases h
    exact ⟨hv.1, by simpa using hv.2⟩
  · cases h

theorem validIdx_of_setLastChunk {idx : Int} {c : AudioChunk} (h : m.setLastChunk idx c = .ok m')
    (hn : m'.numInputChannels ≠ 0) : m'.validIdx idx := by
  unfold setLastChunk at h
  split at h
  · exact validIdx_of_modifyChannel h
  · cases h
    contradiction

/-- The channel of a chunk to place is there. -/
theorem correctTimestamp_validIdx {c c' : AudioChunk} {t : UInt32}
    (h : m.correctTimestamp cfg c = .ok (m', c', t)) (hn : m'.numInputChannels ≠ 0) :
    m'.validIdx (channelIdx c') := by
  have hc := (correctTimestamp_ok h).2.1.2
  unfold correctTimestamp at h
  split at h
  · rename_i h1
    obtain ⟨m₁, h₁, h⟩ := Except.bind_eq_ok.1 h
    cases h
    rw [channelIdx, hc, h1]
    have hv := validIdx_of_setLastChunk h₁ hn
    exact hv
  split at h
  · rename_i h2
    obtain ⟨m₁, h₁, h⟩ := Except.bind_eq_ok.1 h
    cases h
    rw [channelIdx, hc, h2]
    have hv := validIdx_of_setLastChunk h₁ hn
    exact hv
  unfold correctOther at h
  split at h
  · cases h
    contradiction
  split at h
  · cases h
  split at h
  · cases h
  · obtain ⟨m₁, h₁, h⟩ := Except.bind_eq_ok.1 h
    cases h
    exact validIdx_of_modifyChannel h₁

theorem accept_validIdx {c c' : AudioChunk} {t : UInt32}
    (h : m.accept cfg c = .ok (m', some (c', t))) (hn : m'.numInputChannels ≠ 0) :
    m'.validIdx (channelIdx c') := by
  obtain ⟨n, -, h⟩ := Except.bind_eq_ok.1 h
  split at h
  · cases h
  split at h
  · cases h
  split at h
  · cases h
  obtain ⟨⟨m₁, c₁, t₁⟩, h₁, h⟩ := Except.bind_eq_ok.1 h
  cases h
  exact correctTimestamp_validIdx h₁ hn

/-- A chunk whose channel is there is placed without an error. -/
theorem place_isOk (cfg : MixerConfig) {c : AudioChunk} (t : UInt32)
    (hv : m.numInputChannels ≠ 0 → m.validIdx (channelIdx c)) : ∃ m', m.place cfg c t = .ok m' := by
  unfold place
  split
  · split
    · exact storeRtpPacket_isOk t hv
    · exact ⟨m, rfl⟩
  split
  · obtain ⟨m₁, h₁⟩ := storeRtpPacket_isOk t hv
    have hship : ∃ m', (if m₁.usedSpace > m₁.numSampleTrigger then m₁.createShipment cfg false
        else .ok m₁) = .ok m' := by
      split
      · exact m₁.createShipment_isOk cfg false
      · exact ⟨m₁, rfl⟩
    obtain ⟨m', hm'⟩ := hship
    exact ⟨m', Except.bind_eq_ok.2 ⟨m₁, h₁, hm'⟩⟩
  unfold manageOutOfRangeTimestamp
  dsimp only
  split
  · obtain ⟨m₁, h₁⟩ := m.createShipment_isOk cfg true
    obtain ⟨hn, hch, -⟩ := createShipment_channels h₁
    have hv₁ (h : (m₁.reset c.details.timestamp).numInputChannels ≠ 0) :
        (m₁.reset c.details.timestamp).validIdx (channelIdx c) := by
      have hv := hv (hn ▸ h)
      unfold validIdx at hv ⊢
      exact hch ▸ hv
    obtain ⟨m₂, h₂⟩ := storeRtpPacket_isOk c.details.timestamp hv₁
    exact ⟨_, Except.bind_eq_ok.2 ⟨m₁, h₁, Except.bind_eq_ok.2 ⟨m₂, h₂, rfl⟩⟩⟩
  split
  · exact ⟨_, rfl⟩
  split
  · rename_i hn
    unfold modifyChannel
    rw [if_pos (hv hn)]
    exact ⟨_, rfl⟩
  · exact ⟨m, rfl⟩

end RtpMixer

end Oreka.Mixer
