import Oreka.Lib.Run
import Oreka.Mixer.Proof.ChannelRings

/-!
# The ring invariant of the mixer

`RingInv`: the write pointer is ahead of the read pointer by the window (the write timestamp less
the read timestamp), modulo the size of the buffer. Every call keeps it (`step_ringInv`), so
`UsedSpace` is the window modulo the size of the buffer, and it *is* the window (`Consistent`) as
long as the window is smaller than the buffer. The size test of `AudioChunkIn` lets exactly one kind
of call through after which it is not: the chunk that fills the buffer to the last slot
(`ExactFit`).
-/

namespace Oreka.Mixer

namespace RtpMixer

variable {cfg : MixerConfig} {m m' : RtpMixer}

/-- The samples between the read and the write timestamp. -/
def window (m : RtpMixer) : Nat := m.writeTimestamp.toNat - m.readTimestamp.toNat

structure RingInv (m : RtpMixer) : Prop where
  readPtr : m.readPtr < bufferEnd
  le : m.readTimestamp.toNat ≤ m.writeTimestamp.toNat
  writePtr : m.writePtr = (m.readPtr + m.window) % bufferEnd
  trigger : m.numSampleTrigger = numSamplesTrigger
  holdoff : m.numSampleShipmentHoldoff = numSamplesShipmentHoldoff

/-- The pointers lie inside the buffer, and the used space is what the timestamps say. -/
def Consistent (m : RtpMixer) : Prop :=
  m.writePtr < bufferEnd ∧ m.readPtr < bufferEnd ∧
    m.usedSpace = (m.writeTimestamp - m.readTimestamp).toNat

/-! ## What a call comes to -/

/-- The chunk that a call has to place, and its corrected timestamp. -/
def placed (m : RtpMixer) (cfg : MixerConfig) :
    Option AudioChunk → Option (AudioChunk × UInt32)
  | none => none
  | some chunk =>
    if m.error ∨ chunk.details.marker = mediaChunkEosMarker then none
    else match m.accept cfg chunk with
      | .ok (_, o) => o
      | .error _ => none

/-- The call stores the chunk into the window there is. -/
def Stores (m : RtpMixer) (cfg : MixerConfig) (chunk : Option AudioChunk) (c : AudioChunk)
    (t : UInt32) : Prop :=
  m.placed cfg chunk = some (c, t) ∧ m.writeTimestamp ≠ 0 ∧ m.fits c t ∧ ¬ m.dismisses c t

/-- The call opens a window at the chunk's timestamp: the first chunk of the session, or one out of
the window, on channel 1. -/
def Opens (m : RtpMixer) (cfg : MixerConfig) (chunk : Option AudioChunk) (c : AudioChunk)
    (t : UInt32) : Prop :=
  m.placed cfg chunk = some (c, t) ∧ c.details.channel = 1 ∧
    (m.writeTimestamp = 0 ∨ ¬ m.fits c t)

/-- The call stores a chunk that ends exactly one buffer after the read timestamp. -/
def ExactFit (m : RtpMixer) (cfg : MixerConfig) (chunk : Option AudioChunk) : Prop :=
  ∃ c t, m.Stores cfg chunk c t ∧
    t.toNat + c.pcm.length = m.readTimestamp.toNat + numSamplesCircularBuffer

instance (m : RtpMixer) (cfg : MixerConfig) (chunk : Option AudioChunk) :
    Decidable (m.ExactFit cfg chunk) :=
  decidable_of_iff (∃ ct ∈ m.placed cfg chunk, (m.writeTimestamp ≠ 0 ∧ m.fits ct.1 ct.2 ∧
      ¬ m.dismisses ct.1 ct.2) ∧
      ct.2.toNat + ct.1.pcm.length = m.readTimestamp.toNat + numSamplesCircularBuffer)
    ⟨fun ⟨⟨c, t⟩, hp, hs, he⟩ => ⟨c, t, ⟨hp, hs⟩, he⟩,
      fun ⟨c, t, ⟨hp, hs⟩, he⟩ => ⟨⟨c, t⟩, hp, hs, he⟩⟩

/-- What `AudioChunkIn` comes to: it ignores what it is given, gives up, flushes the buffer, or places
a chunk that was accepted. -/
inductive Call (m : RtpMixer) (cfg : MixerConfig) (chunk : Option AudioChunk) (m' : RtpMixer) : Prop
  | ignored : m.placed cfg chunk = none → m' = m → Call m cfg chunk m'
  | tooBig (c : AudioChunk) : chunk = some c → c.getNumBytes > 100000 →
      m.placed cfg chunk = none → m' = { m with error := true } → Call m cfg chunk m'
  | flush : m.error = false → m.placed cfg chunk = none → m.createShipment cfg true = .ok m' →
      Call m cfg chunk m'
  | place (c₀ : AudioChunk) (m₁ : RtpMixer) (c : AudioChunk) (t : UInt32) :
      m.accept cfg c₀ = .ok (m₁, some (c, t)) → m.placed cfg chunk = some (c, t) →
      m₁.place cfg c t = .ok m' → Call m cfg chunk m'

/-- The cases of placing a chunk. -/
inductive PlaceCases (m : RtpMixer) (cfg : MixerConfig) (c : AudioChunk) (t : UInt32)
    (m' : RtpMixer) : Prop
  | skip : c.details.channel ≠ 1 → ¬ (m.writeTimestamp ≠ 0 ∧ m.fits c t) → SameRing m m' →
      SameChannels m m' → PlaceCases m cfg c t m'
  | first : c.details.channel = 1 → m.writeTimestamp = 0 →
      storeRtpPacket { m with writeTimestamp := t, readTimestamp := t, oneS1PacketState := true }
        c t = .ok m' → PlaceCases m cfg c t m'
  | store (m₁ : RtpMixer) : m.writeTimestamp ≠ 0 → m.fits c t → m.storeRtpPacket c t = .ok m₁ →
      (m₁.usedSpace ≤ m₁.numSampleTrigger ∧ m' = m₁ ∨
        m₁.numSampleTrigger < m₁.usedSpace ∧ m₁.createShipment cfg false = .ok m') →
      PlaceCases m cfg c t m'
  | reset (m₁ m₂ : RtpMixer) : c.details.channel = 1 → m.writeTimestamp ≠ 0 → ¬ m.fits c t →
      m.createShipment cfg true = .ok m₁ →
      (m₁.reset c.details.timestamp).storeRtpPacket c c.details.timestamp = .ok m₂ →
      m' = { m₂ with timestampCorrectiveDelta := 0 } → PlaceCases m cfg c t m'

/-- The cases of a call of `AudioChunkIn` that ends in `m'`. -/
inductive CallCases (m : RtpMixer) (cfg : MixerConfig) (chunk : Option AudioChunk)
    (m' : RtpMixer) : Prop
  | idle : SameRing m m' → (∀ c t, ¬ m.Stores cfg chunk c t ∧ ¬ m.Opens cfg chunk c t) →
      CallCases m cfg chunk m'
  | tooBig (c : AudioChunk) : chunk = some c → c.getNumBytes > 100000 →
      m.placed cfg chunk = none → m' = { m with error := true } → CallCases m cfg chunk m'
  | flush : m.error = false → m.placed cfg chunk = none → m.createShipment cfg true = .ok m' →
      CallCases m cfg chunk m'
  | first (m₁ : RtpMixer) (c : AudioChunk) (t : UInt32) : SameRing m m₁ →
      m.Opens cfg chunk c t → m.writeTimestamp = 0 →
      storeRtpPacket { m₁ with writeTimestamp := t, readTimestamp := t, oneS1PacketState := true }
        c t = .ok m' →
      CallCases m cfg chunk m'
  | reset (m₁ m₂ m₃ : RtpMixer) (c : AudioChunk) (t : UInt32) : SameRing m m₁ →
      m.Opens cfg chunk c t → m.writeTimestamp ≠ 0 → m₁.createShipment cfg true = .ok m₂ →
      (m₂.reset t).storeRtpPacket c t = .ok m₃ → m' = { m₃ with timestampCorrectiveDelta := 0 } →
      CallCases m cfg chunk m'
  | store (m₁ m₂ : RtpMixer) (c : AudioChunk) (t : UInt32) : SameRing m m₁ →
      m.placed cfg chunk = some (c, t) → 0 < c.pcm.length → m.writeTimestamp ≠ 0 → m.fits c t →
      m₁.storeRtpPacket c t = .ok m₂ →
      (m₂.usedSpace ≤ m₂.numSampleTrigger ∧ m' = m₂ ∨
        m₂.numSampleTrigger < m₂.usedSpace ∧ m₂.createShipment cfg false = .ok m') →
      CallCases m cfg chunk m'

theorem SameRing.usedSpace (h : SameRing m m') : m'.usedSpace = m.usedSpace := by
  unfold RtpMixer.usedSpace
  rw [h.readPtr, h.writePtr]

theorem SameRing.fits (h : SameRing m m') {c : AudioChunk} {t : UInt32} :
    m'.fits c t ↔ m.fits c t := by
  unfold RtpMixer.fits freeSpace
  rw [h.usedSpace, h.readTimestamp, h.writeTimestamp]

theorem Opens.fits_false {chunk : Option AudioChunk} {c : AudioChunk} {t : UInt32}
    (h : m.Opens cfg chunk c t) {c' : AudioChunk} {t' : UInt32} :
    ¬ m.Stores cfg chunk c' t' := by
  rintro ⟨hp, hw, hf, -⟩
  obtain ⟨hp', -, h'⟩ := h
  rw [hp] at hp'
  cases hp'
  rcases h' with h' | h'
  · exact hw h'
  · exact h' hf

theorem accept_none {c : AudioChunk} (h : m.accept cfg c = .ok (m', none)) :
    m' = m ∨ c.getNumBytes > 100000 ∧ m' = { m with error := true } := by
  obtain ⟨n, -, h⟩ := Except.bind_eq_ok.1 h
  split at h
  · cases h
    exact .inl rfl
  split at h
  · cases h
    exact .inr ⟨‹_›, rfl⟩
  split at h
  · cases h
  · obtain ⟨_, -, h⟩ := Except.bind_eq_ok.1 h
    cases h

theorem audioChunkIn_call {chunk : Option AudioChunk} (h : m.audioChunkIn cfg chunk = .ok m') :
    Call m cfg chunk m' := by
  unfold audioChunkIn at h
  split at h
  · rename_i he
    cases h
    cases chunk with
    | none => exact .ignored rfl rfl
    | some c => exact .ignored (by simp [placed, he]) rfl
  rename_i he
  split at h
  · cases h
    exact .ignored rfl rfl
  rename_i chunk
  split at h
  · rename_i hm
    exact .flush (by simpa using he) (by simp [placed, hm]) h
  rename_i hm
  obtain ⟨⟨m₁, o⟩, ha, h⟩ := Except.bind_eq_ok.1 h
  have hplaced : m.placed cfg (some chunk) = o := by simp [placed, he, hm, ha]
  cases o with
  | none =>
    cases h
    rcases accept_none ha with rfl | ⟨hbig, rfl⟩
    · exact .ignored hplaced rfl
    · exact .tooBig chunk rfl hbig hplaced rfl
  | some ct => exact .place chunk m₁ ct.1 ct.2 ha hplaced h

theorem place_cases {c : AudioChunk} {t : UInt32} (h : m.place cfg c t = .ok m') :
    PlaceCases m cfg c t m' := by
  unfold place at h
  split at h
  · rename_i hw
    split at h
    · exact .first ‹_› hw h
    · cases h
      exact .skip ‹_› (fun h => h.1 hw) (.refl m) (.refl m)
  rename_i hw
  split at h
  · rename_i hf
    obtain ⟨m₁, h₁, h⟩ := Except.bind_eq_ok.1 h
    refine .store m₁ hw hf h₁ ?_
    split at h
    · exact .inr ⟨‹_›, h⟩
    · cases h
      exact .inl ⟨not_lt.1 ‹_›, rfl⟩
  rename_i hf
  simp only [manageOutOfRangeTimestamp] at h
  split at h
  · obtain ⟨m₁, h₁, h⟩ := Except.bind_eq_ok.1 h
    obtain ⟨m₂, h₂, h⟩ := Except.bind_eq_ok.1 h
    cases h
    exact .reset m₁ m₂ ‹_› hw hf h₁ h₂ rfl
  rename_i hc
  have hskip : SameRing m m' ∧ SameChannels m m' := by
    split at h
    · cases h
      exact ⟨⟨rfl, rfl, rfl, rfl, rfl, rfl, rfl, rfl, rfl⟩, .of_eq rfl rfl rfl⟩
    split at h
    · exact ⟨modifyChannel_sameRing h, modifyChannel_sameChannels h fun _ => rfl⟩
    · cases h
      exact ⟨.refl _, .refl _⟩
  exact .skip hc (fun h => hf h.2) hskip.1 hskip.2

/-- **The cases of a call**, for a mixer and whatever it is given. -/
theorem audioChunkIn_cases {chunk : Option AudioChunk} (h : m.audioChunkIn cfg chunk = .ok m') :
    CallCases m cfg chunk m' := by
  have hnone (hp : m.placed cfg chunk = none) (c : AudioChunk) (t : UInt32) :
      ¬ m.Stores cfg chunk c t ∧ ¬ m.Opens cfg chunk c t := by
    refine ⟨fun hs => ?_, fun hs => ?_⟩
    · cases hp.symm.trans hs.1
    · cases hp.symm.trans hs.1
  cases audioChunkIn_call h with
  | ignored hp he => exact .idle (he ▸ .refl m) (hnone hp)
  | tooBig c hc hbig hp he => exact .tooBig c hc hbig hp he
  | flush he hp hs => exact .flush he hp hs
  | place c₀ m₁ c t ha hp hplace =>
    obtain ⟨hr, -, hlen, ht⟩ := accept_some ha
    cases place_cases hplace with
    | skip hc hs hr' _ =>
      refine .idle (hr.trans hr') fun c' t' => ⟨fun h => ?_, fun h => ?_⟩
      · cases hp.symm.trans h.1
        rw [hr.writeTimestamp, hr.fits] at hs
        exact hs ⟨h.2.1, h.2.2.1⟩
      · cases hp.symm.trans h.1
        exact hc h.2.1
    | first hc hw hstore =>
      rw [hr.writeTimestamp] at hw
      exact .first m₁ c t hr ⟨hp, hc, .inl hw⟩ hw hstore
    | store m₂ hw hf hstore hship =>
      rw [hr.writeTimestamp] at hw
      exact .store m₁ m₂ c t hr hp hlen hw (hr.fits.1 hf) hstore hship
    | reset m₂ m₃ hc hw hf hship hstore he =>
      rw [hr.writeTimestamp] at hw
      rw [← ht hc] at hstore
      exact .reset m₁ m₂ m₃ c t hr ⟨hp, hc, .inr (mt hr.fits.2 hf)⟩ hw hship hstore he

/-! ## The three routines that move the pointers -/

namespace RingInv

theorem of_sameRing (hi : RingInv m) (h : SameRing m m') : RingInv m' where
  readPtr := h.readPtr ▸ hi.readPtr
  le := by rw [h.readTimestamp, h.writeTimestamp]; exact hi.le
  writePtr := by
    rw [h.writePtr, h.readPtr, hi.writePtr, window, window, h.readTimestamp, h.writeTimestamp]
  trigger := h.numSampleTrigger ▸ hi.trigger
  holdoff := h.numSampleShipmentHoldoff ▸ hi.holdoff

theorem writePtr_lt (hi : RingInv m) : m.writePtr < bufferEnd := by
  rw [hi.writePtr]
  exact Nat.mod_lt _ (by decide)

theorem usedSpace_eq (hi : RingInv m) : m.usedSpace = m.window % bufferEnd := by
  have hr := hi.readPtr
  have hw := hi.writePtr
  unfold usedSpace
  simp only [bufferEnd, numSamplesCircularBuffer] at *
  split <;> omega

/-- A window that starts empty. -/
theorem of_empty (hp : m.readPtr < bufferEnd) (hw : m.writePtr = m.readPtr)
    (ht : m.writeTimestamp = m.readTimestamp) (htr : m.numSampleTrigger = numSamplesTrigger)
    (hh : m.numSampleShipmentHoldoff = numSamplesShipmentHoldoff) : RingInv m where
  readPtr := hp
  le := ht ▸ Nat.le_refl _
  writePtr := by rw [window, ht, Nat.sub_self, Nat.add_zero, Nat.mod_eq_of_lt hp, hw]
  trigger := htr
  holdoff := hh

theorem store (hi : RingInv m) {c : AudioChunk} {t : UInt32}
    (h : m.storeRtpPacket c t = .ok m') :
    RingInv m' ∧ m'.readTimestamp = m.readTimestamp ∧
      (m'.writeTimestamp.toNat = if m.dismisses c t then m.writeTimestamp.toNat else
        max m.writeTimestamp.toNat (t.toNat + c.pcm.length)) ∧
      m'.outputQueue = m.outputQueue ∧ m'.error = m.error := by
  rcases storeRtpPacket_cases hi.writePtr_lt h with ⟨hd, rfl⟩ | ⟨hd, chs, w, rfl, rfl⟩
  · exact ⟨hi, rfl, by rw [if_pos hd], rfl, rfl⟩
  · have hw := store_toNat hd
    refine ⟨⟨hi.readPtr, ?_, ?_, hi.trigger, hi.holdoff⟩, rfl, by rw [if_neg hd, hw],
      rfl, rfl⟩
    · rw [hw]
      exact hi.le.trans (Nat.le_max_left ..)
    · have hle := hi.le
      rw [window, hw, hi.writePtr, Nat.mod_add_mod, window]
      dsimp only
      congr 1
      omega

/-- Where the samples of a piece go that starts at `t`, in a window that the piece ends in or before. -/
theorem storePtr_eq (hi : RingInv m) {w t : Nat} (hw : m.writeTimestamp.toNat ≤ w)
    (ht : m.readTimestamp.toNat ≤ t) (htw : t ≤ w) (hreach : w - t < bufferEnd) :
    circularPointerSubtractOffset ((m.writePtr + (w - m.writeTimestamp.toNat)) % bufferEnd) (w - t) =
      (m.readPtr + (t - m.readTimestamp.toNat)) % bufferEnd := by
  have hle := hi.le
  have hwin : m.window = m.writeTimestamp.toNat - m.readTimestamp.toNat := rfl
  rw [circularPointerSubtractOffset_eq (Nat.mod_lt _ (by decide)) hreach, hi.writePtr, Nat.mod_add_mod,
    Nat.add_assoc, Nat.mod_add_mod]
  rw [show m.readPtr + m.window + (w - m.writeTimestamp.toNat + (bufferEnd - (w - t))) =
    m.readPtr + (t - m.readTimestamp.toNat) + bufferEnd by omega, Nat.add_mod_right]

theorem shipSize_eq (hi : RingInv m) {force : Bool}
    (hf : force = true ∨ m.numSampleTrigger < m.usedSpace) :
    m.shipSize force = m.usedSpace - (if force then 0 else numSamplesShipmentHoldoff) ∧
      m.shipStop force = (m.readPtr + m.shipSize force) % bufferEnd := by
  have hr := hi.readPtr
  have hw := hi.writePtr
  have hu := hi.usedSpace_eq
  have hh := hi.holdoff
  have ht := hi.trigger
  unfold shipSize shipStop
  cases force with
  | true =>
    simp only [if_true, bufferEnd, numSamplesCircularBuffer] at *
    omega
  | false =>
    have hf : m.numSampleTrigger < m.usedSpace := by simpa using hf
    rw [circularPointerSubtractOffset_eq hi.writePtr_lt (by rw [hh]; decide)]
    simp only [Bool.false_eq_true, if_false, bufferEnd, numSamplesCircularBuffer,
      numSamplesShipmentHoldoff, numSamplesTrigger] at *
    omega

/-- **A shipment under the invariant**: it ships the next `n` slots, where `n` is at most the used
space, and the window shrinks by `n` at its start. -/
theorem ship (hi : RingInv m) {force : Bool}
    (hf : force = true ∨ m.numSampleTrigger < m.usedSpace)
    (h : m.createShipment cfg force = .ok m') :
    ∃ n, n = m.usedSpace - (if force then 0 else numSamplesShipmentHoldoff) ∧ RingInv m' ∧
      m'.shipped = m.shipped ++ Ring.read bufferEnd m.buffer m.readPtr n ∧
      m'.readPtr = (m.readPtr + n) % bufferEnd ∧
      m'.readTimestamp.toNat = m.readTimestamp.toNat + n ∧
      m'.writeTimestamp = m.writeTimestamp ∧ m'.buffer = m.buffer ∧ m'.error = m.error := by
  obtain ⟨hsize, hstop⟩ := hi.shipSize_eq hf
  have hn : m.shipSize force ≤ m.window := by
    rw [hsize, hi.usedSpace_eq]
    exact (Nat.sub_le ..).trans (Nat.mod_le ..)
  have hle := hi.le
  have hlt := m.writeTimestamp.toNat_lt
  have hwin : m.window = m.writeTimestamp.toNat - m.readTimestamp.toNat := rfl
  obtain ⟨q, ts, hts, hship, rfl⟩ := createShipment_ok hi.readPtr
    (hstop ▸ Nat.mod_lt _ (by decide)) (by omega) h
  refine ⟨m.shipSize force, hsize, ⟨?_, ?_, ?_, hi.trigger, hi.holdoff⟩, hship, hstop, hts, rfl,
    rfl, rfl⟩
  · exact hstop ▸ Nat.mod_lt _ (by decide)
  · dsimp only
    omega
  · rw [window, hts, hstop, Nat.mod_add_mod, hi.writePtr]
    dsimp only
    congr 1
    omega

/-- A shipment takes from the window only what the buffer holds. -/
theorem ship_window (hi : RingInv m) {force : Bool}
    (hf : force = true ∨ m.numSampleTrigger < m.usedSpace)
    (h : m.createShipment cfg force = .ok m') :
    RingInv m' ∧ (m'.window < bufferEnd ↔ m.window < bufferEnd) := by
  obtain ⟨n, hn, hi', -, -, hrt, hwt, -⟩ := hi.ship hf h
  refine ⟨hi', ?_⟩
  have hu := hi.usedSpace_eq
  unfold window at *
  rw [hrt, hwt]
  simp only [bufferEnd, numSamplesCircularBuffer] at *
  omega

end RingInv

/-- A call that throws had nothing to place. -/
theorem placed_of_error {chunk : Option AudioChunk} {e : MixerError}
    (h : m.audioChunkIn cfg chunk = .error e) : m.placed cfg chunk = none := by
  unfold audioChunkIn at h
  split at h
  · cases h
  rename_i he
  split at h
  · cases h
  split at h
  · rename_i hm
    simp [placed, hm]
  rename_i hm
  simp only [placed, he, hm]
  cases ha : m.accept cfg _ with
  | error e => simp
  | ok mo =>
    obtain ⟨m₁, o⟩ := mo
    rw [ha] at h
    cases o with
    | none => cases h
    | some ct =>
      obtain ⟨m', hm'⟩ := place_isOk cfg ct.2 (accept_validIdx ha)
      cases hm'.symm.trans h

/-! ## The size test -/

theorem asInt_sub {x y : UInt32} (h : y.toNat ≤ x.toNat) (h' : x.toNat < y.toNat + 2147483648) :
    asInt (x - y) = x.toNat - y.toNat := by
  have hs : (x - y).toNat = x.toNat - y.toNat := UInt32.toNat_sub_of_le _ _ h
  unfold asInt
  rw [hs, if_pos (by omega)]
  omega

/-- A chunk that is stored ends within one buffer of the read timestamp. -/
theorem fits_end (hi : RingInv m) (hw : m.window < bufferEnd) {c : AudioChunk} {t : UInt32}
    (hf : m.fits c t) (hd : ¬ m.dismisses c t) :
    m.readTimestamp.toNat ≤ t.toNat ∧
      t.toNat + c.pcm.length ≤ m.readTimestamp.toNat + numSamplesCircularBuffer := by
  obtain ⟨hrt, hfree, -⟩ := hf
  simp only [dismisses, not_or, not_le] at hd
  refine ⟨UInt32.le_iff_toNat_le.1 hrt, ?_⟩
  have hle := hi.le
  rw [freeSpace, hi.usedSpace_eq, Nat.mod_eq_of_lt hw, ← AudioChunk.length_pcm] at hfree
  have hend := add_ofNat_toNat hd.1
  have hwin : m.window = m.writeTimestamp.toNat - m.readTimestamp.toNat := rfl
  simp only [bufferEnd, numSamplesCircularBuffer] at *
  by_cases hlast : t.toNat + c.pcm.length ≤ m.writeTimestamp.toNat
  · omega
  · rw [asInt_sub (by omega) (by omega), hend] at hfree
    omega

/-! ## One call -/

theorem Stores.unique {chunk : Option AudioChunk} {c c' : AudioChunk} {t t' : UInt32}
    (h : m.Stores cfg chunk c' t') (hp : m.placed cfg chunk = some (c, t)) : c' = c ∧ t' = t := by
  cases hp.symm.trans h.1
  exact ⟨rfl, rfl⟩

/-- A chunk stored at the start of an empty window leaves room in the buffer. -/
theorem RingInv.store_empty (hi : RingInv m) {c : AudioChunk} {t : UInt32}
    (hw : m.writeTimestamp = t) (hr : m.readTimestamp = t) (h : m.storeRtpPacket c t = .ok m') :
    RingInv m' ∧ m'.window < bufferEnd := by
  obtain ⟨hi', hrt, hwt, -⟩ := hi.store h
  refine ⟨hi', ?_⟩
  rw [window, hrt, hwt, hr, hw]
  split
  · simp
  · rename_i hd
    simp only [dismisses, not_or, not_le, hw] at hd
    have hN : 0 < bufferEnd := by decide
    omega

/-- The mixer that a first chunk is stored into. -/
theorem RingInv.first (hi : RingInv m) (hw : m.writeTimestamp = 0) (t : UInt32) (b : Bool) :
    RingInv { m with writeTimestamp := t, readTimestamp := t, oneS1PacketState := b } := by
  refine .of_empty hi.readPtr ?_ rfl hi.trigger hi.holdoff
  have hwin : m.window = 0 := by
    rw [window, hw]
    exact Nat.zero_sub _
  show m.writePtr = m.readPtr
  rw [hi.writePtr, hwin, Nat.add_zero, Nat.mod_eq_of_lt hi.readPtr]

theorem RingInv.reset (hi : RingInv m) (t : UInt32) : RingInv (m.reset t) :=
  .of_empty (Nat.zero_lt_succ _) rfl rfl hi.trigger hi.holdoff

theorem Opens.not_exactFit {chunk : Option AudioChunk} {c : AudioChunk} {t : UInt32}
    (h : m.Opens cfg chunk c t) : ¬ m.ExactFit cfg chunk :=
  fun ⟨_, _, hs, _⟩ => h.fits_false hs

/-- **The step lemma**: a call keeps the invariant; a window smaller than the buffer stays so exactly
when the call is not an exact fit, and one that is not stays that way until the next one is opened. -/
theorem audioChunkIn_ringInv (hi : RingInv m) {chunk : Option AudioChunk}
    (h : m.audioChunkIn cfg chunk = .ok m') :
    RingInv m' ∧ (m.window < bufferEnd → (m'.window < bufferEnd ↔ ¬ m.ExactFit cfg chunk)) ∧
      (bufferEnd ≤ m.window → (∀ c t, ¬ m.Opens cfg chunk c t) → bufferEnd ≤ m'.window) := by
  cases audioChunkIn_cases h with
  | idle hr hno =>
    have hwin : m'.window = m.window := by rw [window, hr.writeTimestamp, hr.readTimestamp, window]
    rw [hwin]
    exact ⟨hi.of_sameRing hr, fun hw => iff_of_true hw fun ⟨c, t, hs, _⟩ => (hno c t).1 hs,
      fun hw _ => hw⟩
  | tooBig c hc hbig hp he =>
    subst he
    refine ⟨⟨hi.1, hi.2, hi.3, hi.4, hi.5⟩, fun hw => iff_of_true hw fun ⟨c, t, hs, _⟩ => ?_,
      fun hw _ => hw⟩
    cases hp.symm.trans hs.1
  | flush _ hp h =>
    obtain ⟨hi', hw⟩ := hi.ship_window (.inl rfl) h
    refine ⟨hi', fun hlt => iff_of_true (hw.2 hlt) fun ⟨c, t, hs, _⟩ => ?_, fun hge _ => ?_⟩
    · cases hp.symm.trans hs.1
    · exact not_lt.1 fun hlt => not_lt.2 hge (hw.1 hlt)
  | first m₁ c t hr ho hw0 h =>
    have hi₁ := (hi.of_sameRing hr).first (hr.writeTimestamp.trans hw0) t true
    obtain ⟨hi', hw'⟩ := hi₁.store_empty rfl rfl h
    exact ⟨hi', fun _ => iff_of_true hw' ho.not_exactFit, fun _ hno => absurd ho (hno c t)⟩
  | reset m₁ m₂ m₃ c t hr ho hw0 h₂ h₃ he =>
    obtain ⟨-, -, hi₂, -⟩ := (hi.of_sameRing hr).ship (.inl rfl) h₂
    obtain ⟨hi₃, hw₃⟩ := (hi₂.reset t).store_empty rfl rfl h₃
    subst he
    exact ⟨⟨hi₃.1, hi₃.2, hi₃.3, hi₃.4, hi₃.5⟩, fun _ => iff_of_true hw₃ ho.not_exactFit,
      fun _ hno => absurd ho (hno c t)⟩
  | store m₁ m₂ c t hr hp hlen hw0 hf h₂ h =>
    have hi₁ := hi.of_sameRing hr
    obtain ⟨hi₂, hrt, hwt, -⟩ := hi₁.store h₂
    have hship : RingInv m' ∧ (m'.window < bufferEnd ↔ m₂.window < bufferEnd) := by
      rcases h with ⟨-, rfl⟩ | ⟨htr, h⟩
      · exact ⟨hi₂, Iff.rfl⟩
      · exact hi₂.ship_window (.inr htr) h
    have hdis : m₁.dismisses c t ↔ m.dismisses c t := by
      unfold dismisses
      rw [hr.writeTimestamp]
    simp only [hdis, hr.writeTimestamp] at hwt
    rw [hr.readTimestamp] at hrt
    refine ⟨hship.1, fun hw => hship.2.trans ?_, fun hge _ => ?_⟩
    · rw [window, hrt, hwt]
      split
      · -- dismissed: the window stays
        rename_i hd
        exact iff_of_true hw fun ⟨c', t', hs, _⟩ => by
          obtain ⟨rfl, rfl⟩ := hs.unique hp
          exact hs.2.2.2 hd
      · rename_i hd
        obtain ⟨hlo, hhi⟩ := fits_end hi hw hf hd
        have hexact : m.ExactFit cfg chunk ↔
            t.toNat + c.pcm.length = m.readTimestamp.toNat + numSamplesCircularBuffer := by
          constructor
          · rintro ⟨c', t', hs, he⟩
            obtain ⟨rfl, rfl⟩ := hs.unique hp
            exact he
          · intro he
            exact ⟨c, t, ⟨hp, hw0, hf, hd⟩, he⟩
        have hle := hi.le
        rw [hexact]
        unfold window at hw
        simp only [bufferEnd, numSamplesCircularBuffer] at *
        omega
    · refine not_lt.1 fun hlt => not_lt.2 hge (lt_of_le_of_lt ?_ (hship.2.1 hlt))
      rw [window, window, hrt, hwt]
      split
      · exact le_rfl
      · exact Nat.sub_le_sub_right (Nat.le_max_left ..) _

theorem step_ringInv (cfg : MixerConfig) (hi : RingInv m) (chunk : Option AudioChunk) :
    RingInv (m.step cfg chunk) ∧
      (m.window < bufferEnd → ((m.step cfg chunk).window < bufferEnd ↔ ¬ m.ExactFit cfg chunk)) ∧
      (bufferEnd ≤ m.window → (∀ c t, ¬ m.Opens cfg chunk c t) →
        bufferEnd ≤ (m.step cfg chunk).window) := by
  unfold step
  cases h : m.audioChunkIn cfg chunk with
  | ok m' => exact audioChunkIn_ringInv hi h
  | error e =>
    refine ⟨hi, fun hw => iff_of_true hw fun ⟨c, t, hs, _⟩ => ?_, fun hw _ => hw⟩
    cases (placed_of_error h).symm.trans hs.1

theorem consistent_iff (hi : RingInv m) : m.Consistent ↔ m.window < bufferEnd := by
  have hwin : (m.writeTimestamp - m.readTimestamp).toNat = m.window :=
    UInt32.toNat_sub_of_le _ _ (UInt32.le_iff_toNat_le.2 hi.le)
  unfold Consistent
  rw [hi.usedSpace_eq, hwin]
  constructor
  · rintro ⟨-, -, h⟩
    rw [← h]
    exact Nat.mod_lt _ (by decide)
  · intro h
    exact ⟨hi.writePtr_lt, hi.readPtr, Nat.mod_eq_of_lt h⟩

theorem fresh_ringInv (stale : Nat → Int) (numOutputChannels : Nat) :
    RingInv (fresh stale numOutputChannels) :=
  .of_empty (Nat.zero_lt_succ _) rfl rfl rfl rfl

/-- **The used space is the window, in every state of a run, exactly when no call of the run is an
exact fit.** After an exact fit the write pointer has caught up with the read pointer, and the full
buffer reads as an empty one. -/
theorem consistent_iff_no_exactFit (cfg : MixerConfig) (stale : Nat → Int) (numOutputChannels : Nat)
    (chunks : List (Option AudioChunk)) :
    Run.Always (fun m => step m cfg) Consistent (fresh stale numOutputChannels) chunks ↔
      Run.Meets (fun m => step m cfg) (fun m chunk => ¬ m.ExactFit cfg chunk)
        (fresh stale numOutputChannels) chunks := by
  have hfresh := fresh_ringInv stale numOutputChannels
  refine Run.always_iff_meets (I := RingInv) (fun m chunk hi => (step_ringInv cfg hi chunk).1)
    (fun m chunk hi hc => ?_) hfresh ?_
  · obtain ⟨hi', hw, -⟩ := step_ringInv cfg hi chunk
    rw [consistent_iff hi', hw ((consistent_iff hi).1 hc)]
  · rw [consistent_iff hfresh]
    exact Nat.zero_lt_succ _

/-- A PCM chunk of `n` samples of value `x`. -/
def pcmChunk (channel : UInt8) (timestamp : UInt32) (n : Nat) (x : Int) : AudioChunk where
  details := { encoding := .pcmAudio, numBytes := UInt32.ofNat (2 * n), timestamp, channel }
  buffer := List.replicate n x

/-- Two packets of 20 ms on channel 1, the second one ending 16000 samples after the start of the
first: the mixer takes its full buffer for an empty one. -/
theorem exactFit_inconsistent :
    ¬ Consistent (run (fresh (fun _ => 0) 1) {}
      [some (pcmChunk 1 1000 160 100), some (pcmChunk 1 16840 160 100)]) := by
  have hfresh := fresh_ringInv (fun _ => 0) 1
  obtain ⟨hi₁, hw₁, -⟩ := step_ringInv {} hfresh (some (pcmChunk 1 1000 160 100))
  obtain ⟨hi₂, hw₂, -⟩ := step_ringInv {} hi₁ (some (pcmChunk 1 16840 160 100))
  have hlt := (hw₁ (Nat.zero_lt_succ _)).2 (by decide)
  rw [run, List.foldl_cons, List.foldl_cons, List.foldl_nil, consistent_iff hi₂, hw₂ hlt, not_not]
  decide +kernel

end RtpMixer

end Oreka.Mixer
