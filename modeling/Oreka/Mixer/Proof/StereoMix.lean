import Oreka.Mixer.Proof.ChannelRings
import Oreka.Mixer.Proof.ReferenceMix

/-!
# The stereo mixer refines the mix of its input channels

For a mixer with two output channels and more than one tape channel. An `Epoch` has what was stored
since a window was opened, and the chunks shipped since then with their timestamps. Every shipped
chunk of a run is a `Stereo` chunk of its epoch when no call is an exact fit: it has a buffer for each
tape channel, the first two with the sums over the even and over the odd input channels of what each
of them stored last.
-/

namespace Oreka.Mixer

namespace RtpMixer

variable {cfg : MixerConfig} {m m' : RtpMixer}

/-! ## The reference -/

/-- Samples that a channel stored, from a timestamp on. -/
structure Piece where
  channel : Nat
  start : Nat
  samples : List Int

/-- A chunk on the output queue and the timestamp it has. -/
structure Shipped where
  timestamp : Nat
  chunk : AudioChunk

def Shipped.samples (s : Shipped) : Nat := s.chunk.details.numBytes.toNat / 2

/-- What a channel stored, as a timeline. -/
def ofChannel (stored : List Piece) (channel : Nat) : List (Nat × List Int) :=
  (stored.filter fun p => p.channel = channel).map fun p => (p.start, p.samples)

/-- The sample that a channel stored last at a timestamp; 0 where it stored none. -/
def channelReference (stored : List Piece) (channel t : Nat) : Int :=
  Timeline.at (fun _ x => x) 0 (ofChannel stored channel) t

/-- The saturating sum over the channels of a parity, in increasing order. -/
def parityReference (stored : List Piece) (parity t : Nat) : Int :=
  (List.range 255).foldl
    (fun acc i =>
      if (i + 1) % 2 = parity then saturate (acc + channelReference stored (i + 1) t) else acc) 0

/-- The even channels on the first tape channel, the odd ones on the second, silence on the others. -/
def tapeReference (stored : List Piece) (tape t : Nat) : Int :=
  if tape = 0 then parityReference stored 0 t
  else if tape = 1 then parityReference stored 1 t
  else 0

/-- A chunk with a buffer of all its bytes for each tape channel, which holds the reference. -/
structure Stereo (cfg : MixerConfig) (stored : List Piece) (s : Shipped) : Prop where
  numChannels : s.chunk.numChannels = cfg.tapeNumChannels
  numBytes : s.chunk.details.numBytes.toNat = 2 * s.samples
  buffers : s.chunk.channelAudio = (List.range cfg.tapeNumChannels).map fun tape =>
    some ((List.range s.samples).map fun j => tapeReference stored tape (s.timestamp + j))

/-! ## Epochs of a run -/

structure Epoch where
  stored : List Piece := []
  shipped : List Shipped := []

/-- Consecutive chunks, the first one at `t`. -/
def stamp : Nat → List AudioChunk → List Shipped
  | _, [] => []
  | t, c :: cs => ⟨t, c⟩ :: stamp (t + c.details.numBytes.toNat / 2) cs

/-- What a call ships. -/
def shippedBy (m : RtpMixer) (cfg : MixerConfig) (chunk : Option AudioChunk) : List Shipped :=
  stamp m.readTimestamp.toNat ((m.step cfg chunk).outputQueue.drop m.outputQueue.length)

/-- The pieces of a channel. -/
def onChannel (c : AudioChunk) (pieces : List (Nat × List Int)) : List Piece :=
  pieces.map fun p => ⟨c.details.channel.toNat, p.1, p.2⟩

/-- The epoch after a call, when it opens another one the epoch before that too: what is shipped then
belongs to it. -/
def Epoch.call (e : Epoch) (m : RtpMixer) (cfg : MixerConfig) (chunk : Option AudioChunk) :
    Option Epoch × Epoch :=
  let shipped := e.shipped ++ m.shippedBy cfg chunk
  match m.placed cfg chunk with
  | none => (none, { e with shipped })
  | some (c, t) =>
    if c.details.channel = 1 ∧ (m.writeTimestamp = 0 ∨ ¬ m.fits c t) then
      (some { e with shipped }, { stored := onChannel c (openedBy c t) })
    else (none, { stored := e.stored ++ onChannel c (m.storedBy cfg chunk), shipped })

/-- The epochs of a run. -/
def epochs (cfg : MixerConfig) : RtpMixer → Epoch → List (Option AudioChunk) → List Epoch
  | _, e, [] => [e]
  | m, e, chunk :: chunks =>
    (e.call m cfg chunk).1.toList ++ epochs cfg (m.step cfg chunk) (e.call m cfg chunk).2 chunks

/-! ## The reference of a channel -/

theorem ofChannel_append (stored : List Piece) (p : Piece) (channel : Nat) :
    ofChannel (stored ++ [p]) channel =
      ofChannel stored channel ++ if p.channel = channel then [(p.start, p.samples)] else [] := by
  unfold ofChannel
  by_cases h : p.channel = channel
  · simp [h]
  · simp [h]

theorem channelReference_append (stored : List Piece) (p : Piece) (channel t : Nat) :
    channelReference (stored ++ [p]) channel t =
      if p.channel = channel then
        Timeline.combine (fun _ x => x) (channelReference stored channel t)
          (Timeline.sampleAt (p.start, p.samples) t)
      else channelReference stored channel t := by
  unfold channelReference
  rw [ofChannel_append]
  split
  · rw [Timeline.at_append]
  · rw [List.append_nil]

/-- A piece changes nothing before it. -/
theorem channelReference_before (stored : List Piece) (p : Piece) (channel : Nat) {t : Nat}
    (ht : t < p.start) :
    channelReference (stored ++ [p]) channel t = channelReference stored channel t := by
  have hnone : Timeline.sampleAt (p.start, p.samples) t = none := if_neg (by dsimp only; omega)
  rw [channelReference_append, hnone]
  split <;> rfl

/-- A channel is silent where all pieces have ended. -/
theorem channelReference_of_ended {stored : List Piece} {t : Nat}
    (h : ∀ p ∈ stored, p.start + p.samples.length ≤ t) (channel : Nat) :
    channelReference stored channel t = 0 := by
  induction stored using List.reverseRecOn with
  | nil => rfl
  | append_singleton stored p ih =>
    have hp := h p (by simp)
    rw [channelReference_append, ih fun q hq => h q (by simp [hq]),
      Timeline.sampleAt_eq_none hp]
    split <;> rfl

/-- A channel without a piece is silent. -/
theorem channelReference_of_absent {stored : List Piece} {channel : Nat}
    (h : ∀ p ∈ stored, p.channel ≠ channel) (t : Nat) : channelReference stored channel t = 0 := by
  unfold channelReference ofChannel
  rw [List.filter_eq_nil_iff.2 fun p hp => by simpa using h p hp]
  rfl

/-! ## The tape channels -/

theorem saturate_range (x : Int) : -32768 ≤ saturate x ∧ saturate x ≤ 32767 := by
  unfold saturate
  split
  · omega
  split
  · omega
  · omega

theorem saturate_of_range {x : Int} (h : -32768 ≤ x ∧ x ≤ 32767) : saturate x = x := by
  unfold saturate
  rw [if_neg (by omega), if_neg (by omega)]

/-- The sum over the first `n` channels. -/
def paritySum (f : Nat → Int) (parity n : Nat) : Int :=
  (List.range n).foldl
    (fun acc i => if (i + 1) % 2 = parity then saturate (acc + f i) else acc) 0

theorem paritySum_succ (f : Nat → Int) (parity n : Nat) :
    paritySum f parity (n + 1) =
      if (n + 1) % 2 = parity then saturate (paritySum f parity n + f n)
      else paritySum f parity n := by
  simp [paritySum, List.range_succ]

theorem paritySum_range (f : Nat → Int) (parity : Nat) : ∀ n,
    -32768 ≤ paritySum f parity n ∧ paritySum f parity n ≤ 32767
  | 0 => by simp [paritySum]
  | n + 1 => by
    rw [paritySum_succ]
    split
    · exact saturate_range _
    · exact paritySum_range f parity n

/-- Silent channels do not count. -/
theorem paritySum_silent {f : Nat → Int} (parity : Nat) {n : Nat} (hf : ∀ i, n ≤ i → f i = 0) :
    ∀ k, paritySum f parity (n + k) = paritySum f parity n
  | 0 => rfl
  | k + 1 => by
    rw [← Nat.add_assoc, paritySum_succ, paritySum_silent parity hf k, hf _ (Nat.le_add_right ..),
      Int.add_zero, saturate_of_range (paritySum_range ..), ite_self]

theorem paritySum_congr {f g : Nat → Int} {parity n : Nat} (h : ∀ i < n, f i = g i) :
    paritySum f parity n = paritySum g parity n := by
  induction n with
  | zero => rfl
  | succ n ih =>
    rw [paritySum_succ, paritySum_succ, ih fun i hi => h i (by omega), h n (by omega)]

theorem tapeSample_eq (m : RtpMixer) (parity slot : Nat) :
    m.tapeSample parity slot = paritySum (fun i => m.chanBuffer i slot) parity m.numInputChannels :=
  rfl

theorem parityReference_eq (stored : List Piece) (parity t : Nat) :
    parityReference stored parity t =
      paritySum (fun i => channelReference stored (i + 1) t) parity 255 := rfl

/-! ## Shipments -/

/-- What a tape channel gets of a slot. -/
def tapeSlot (m : RtpMixer) (tape slot : Nat) : Int :=
  if tape = 0 then m.tapeSample 0 slot else if tape = 1 then m.tapeSample 1 slot else 0

/-- The channel buffers of a shipment of `n` samples from `ptr` on. -/
def tapeBuffers (m : RtpMixer) (cfg : MixerConfig) (ptr n : Nat) : List (Option (List Int)) :=
  (List.range cfg.tapeNumChannels).map fun tape =>
    some ((List.range n).map fun j => m.tapeSlot tape (ptr + j))

theorem setChannelBuffer_ok {c c' : AudioChunk} {xs : List Int} {d : AudioChunkDetails} {chan : Nat}
    (hd : d.numBytes ≠ 0) (h : c.setChannelBuffer xs d chan = .ok c') :
    c' = { c with channelAudio := c.channelAudio.set (chan - 1) (some xs) } := by
  unfold AudioChunk.setChannelBuffer at h
  split at h
  · cases h
  · cases h
    rfl

theorem setChannelBuffers_ok {xs : List Int} {d : AudioChunkDetails} (hd : d.numBytes ≠ 0) :
    ∀ {is : List Nat} {c c' : AudioChunk},
      is.foldlM (fun c i => c.setChannelBuffer xs d (i + 1)) c = .ok c' →
      ∃ audio, c' = { c with channelAudio := audio } ∧
        audio.length = c.channelAudio.length ∧
        ∀ k < audio.length, audio[k]? = if k ∈ is then some (some xs) else c.channelAudio[k]?
  | [], c, _, h => by
    cases h
    exact ⟨c.channelAudio, rfl, rfl, fun k _ => by simp⟩
  | i :: is, c, c', h => by
    rw [List.foldlM_cons] at h
    obtain ⟨c₁, h₁, h⟩ := Except.bind_eq_ok.1 h
    obtain rfl := setChannelBuffer_ok hd h₁
    obtain ⟨audio, rfl, hlen, hget⟩ := setChannelBuffers_ok hd h
    rw [List.length_set] at hlen
    refine ⟨audio, rfl, hlen, fun k hk => ?_⟩
    rw [hget k hk, Nat.add_sub_cancel]
    by_cases his : k ∈ is
    · simp [his]
    · by_cases hi : k = i
      · subst hi
        simp [his, List.getElem?_set_self (by omega : k < c.channelAudio.length)]
      · simp [his, hi, List.getElem?_set_ne (Ne.symm hi)]

/-- The separate channels of a shipment. -/
theorem handleMixedOutput_tape {c c' : AudioChunk} {d : AudioChunkDetails} {ptr n : Nat}
    (ho : m.numOutputChannels = 2) (ht : 1 < cfg.tapeNumChannels) (hd : d.numBytes ≠ 0)
    (hc : c.numChannels = m.numInputChannels) (hl : c.channelAudio.length = m.numInputChannels)
    (hcd : c.details = d) (h : m.handleMixedOutput cfg c d ptr n = .ok c') :
    c'.numChannels = cfg.tapeNumChannels ∧ c'.details = d ∧
      c'.channelAudio = m.tapeBuffers cfg ptr n := by
  unfold handleMixedOutput at h
  rw [if_neg (by omega)] at h
  dsimp only at h
  generalize hchunk : (if cfg.tapeNumChannels ≠ m.numInputChannels then
    (AudioChunk.new cfg.tapeNumChannels).setBuffer
      ((List.range n).map fun j => m.buffer (ptr + j)) d else c) = c₀ at h
  have h₀ : c₀.numChannels = cfg.tapeNumChannels ∧ c₀.details = d ∧
      c₀.channelAudio.length = cfg.tapeNumChannels := by
    rw [← hchunk]
    split
    · simp [AudioChunk.setBuffer, hd, AudioChunk.new]
    · rename_i heq
      rw [not_not.1 heq]
      exact ⟨hc, hcd, hl⟩
  obtain ⟨hn₀, hd₀, hl₀⟩ := h₀
  obtain ⟨c₁, h₁, h⟩ := Except.bind_eq_ok.1 h
  obtain ⟨c₂, h₂, h⟩ := Except.bind_eq_ok.1 h
  obtain rfl := setChannelBuffer_ok hd h₁
  obtain rfl := setChannelBuffer_ok hd h₂
  obtain ⟨audio, rfl, hlen, hget⟩ := setChannelBuffers_ok hd h
  refine ⟨hn₀, hd₀, ?_⟩
  simp only [List.length_set] at hlen
  apply List.ext_getElem?
  intro k
  dsimp only
  by_cases hk : k < audio.length
  · rw [hget k hk, tapeBuffers, List.getElem?_map, List.getElem?_range (by omega)]
    dsimp only [Option.map_some]
    by_cases hk0 : k = 0
    · subst hk0
      rw [if_neg (by simp), List.getElem?_set_ne (by omega), List.getElem?_set_self (by omega)]
      rfl
    by_cases hk1 : k = 1
    · subst hk1
      rw [if_neg (by simp), List.getElem?_set_self (by simp; omega)]
      rfl
    · rw [if_pos (by rw [List.mem_range']; exact ⟨k - 2, by omega, by omega⟩)]
      simp [tapeSlot, hk0, hk1]
  · rw [List.getElem?_eq_none (by omega), List.getElem?_eq_none (by simp [tapeBuffers]; omega)]

/-- What is shipped of `n` samples from `ptr` on. -/
structure TapeChunk (m : RtpMixer) (cfg : MixerConfig) (ptr n : Nat) (c : AudioChunk) : Prop where
  nonempty : n ≠ 0
  numChannels : c.numChannels = cfg.tapeNumChannels
  numBytes : c.details.numBytes.toNat = 2 * n
  channelAudio : c.channelAudio = m.tapeBuffers cfg ptr n

theorem ship_tape {ptr n : Nat} (ho : m.numOutputChannels = 2) (ht : 1 < cfg.tapeNumChannels)
    (hn : n ≤ bufferEnd) (h : m.ship cfg ptr n = .ok m') :
    n = 0 ∧ m'.outputQueue = m.outputQueue ∨
      ∃ c, m'.outputQueue = m.outputQueue ++ [c] ∧ m.TapeChunk cfg ptr n c := by
  obtain ⟨q, rfl, ⟨rfl, rfl⟩ | ⟨c, d, hd, hb, hc, rfl⟩⟩ := ship_run hn h
  · exact .inl ⟨rfl, rfl⟩
  · simp only [shipmentChunk, if_pos ho] at hc
    obtain ⟨hnum, hdet, haudio⟩ := handleMixedOutput_tape ho ht hd (setBuffer_numChannels ..)
      (by simp [AudioChunk.setBuffer, hd, AudioChunk.new]) (by simp [AudioChunk.setBuffer, hd])
      (Except.mapError_eq_ok.1 hc)
    refine .inr ⟨c, rfl, fun h0 => hd ?_, hnum, by rw [hdet, hb], haudio⟩
    exact UInt32.toNat_inj.1 (by rw [hb, h0]; rfl)

/-- A chunk that holds what the ring has from the read pointer on, at its timestamp. -/
structure FromRing (m : RtpMixer) (cfg : MixerConfig) (stop : Nat) (s : Shipped) : Prop where
  start : m.readTimestamp.toNat ≤ s.timestamp
  stop : s.timestamp + s.samples ≤ stop
  nonempty : s.samples ≠ 0
  numChannels : s.chunk.numChannels = cfg.tapeNumChannels
  numBytes : s.chunk.details.numBytes.toNat = 2 * s.samples
  buffers : s.chunk.channelAudio = (List.range cfg.tapeNumChannels).map fun tape =>
    some ((List.range s.samples).map fun j => m.tapeSlot tape
      ((m.readPtr + (s.timestamp - m.readTimestamp.toNat + j)) % bufferEnd))

theorem TapeChunk.fromRing {ptr n t stop : Nat} {c : AudioChunk} (h : m.TapeChunk cfg ptr n c)
    (hslot : ∀ j < n, ptr + j = (m.readPtr + (t - m.readTimestamp.toNat + j)) % bufferEnd)
    (hstart : m.readTimestamp.toNat ≤ t) (hstop : t + n ≤ stop) : FromRing m cfg stop ⟨t, c⟩ := by
  have hn : (Shipped.mk t c).samples = n := by
    unfold Shipped.samples
    rw [h.numBytes]
    omega
  refine ⟨hstart, by rw [hn]; exact hstop, by rw [hn]; exact h.nonempty, h.numChannels,
    by rw [hn]; exact h.numBytes, ?_⟩
  rw [hn, h.channelAudio]
  refine List.map_congr_left fun tape _ => congrArg some (List.map_congr_left fun j hj => ?_)
  rw [hslot j (List.mem_range.1 hj)]

theorem TapeChunk.of_channels {ptr n : Nat} {c : AudioChunk} (h : m'.TapeChunk cfg ptr n c)
    (hi : m'.numInputChannels = m.numInputChannels)
    (hc : m'.rtpMixerChannels = m.rtpMixerChannels) : m.TapeChunk cfg ptr n c := by
  refine ⟨h.nonempty, h.numChannels, h.numBytes, ?_⟩
  rw [h.channelAudio]
  unfold tapeBuffers tapeSlot tapeSample
  rw [hi, hc]

/-- **What a shipment ships.** -/
theorem createShipment_tape (hi : RingInv m) {force : Bool} (ho : m.numOutputChannels = 2)
    (ht : 1 < cfg.tapeNumChannels) (hf : force = true ∨ m.numSampleTrigger < m.usedSpace)
    (h : m.createShipment cfg force = .ok m') :
    ∃ cs, m'.outputQueue = m.outputQueue ++ cs ∧
      ∀ s ∈ stamp m.readTimestamp.toNat cs, FromRing m cfg m'.readTimestamp.toNat s := by
  obtain ⟨hsize, hstop⟩ := hi.shipSize_eq hf
  obtain ⟨n, hn, -, -, -, hrt, -⟩ := hi.ship hf h
  rw [← hsize] at hn
  have hr := hi.readPtr
  have hlt : m.shipStop force < bufferEnd := hstop ▸ Nat.mod_lt _ (by decide)
  unfold shipSize at hn
  unfold createShipment at h
  generalize m.shipStop force = stop at *
  split at h
  · -- wrapped: the end of the buffer, then its start
    rename_i hw
    obtain ⟨m₁, h₁, h₂⟩ := Except.bind_eq_ok.1 h
    have hlen : n = bufferEnd - m.readPtr + stop := by
      simp only [bufferEnd, numSamplesCircularBuffer] at *
      omega
    rcases ship_tape ho ht (Nat.sub_le _ _) h₁ with ⟨h0, -⟩ | ⟨c₁, hq₁, ht₁⟩
    · omega
    have hs₁ : FromRing m cfg m'.readTimestamp.toNat ⟨m.readTimestamp.toNat, c₁⟩ := by
      refine ht₁.fromRing (fun j hj => ?_) le_rfl (by omega)
      rw [Nat.sub_self, Nat.zero_add, Nat.mod_eq_of_lt (by omega)]
    have hsamples : c₁.details.numBytes.toNat / 2 = bufferEnd - m.readPtr := by
      rw [ht₁.numBytes]
      omega
    obtain ⟨hin₁, hch₁, hout₁⟩ := ship_channels h₁
    rcases ship_tape (hout₁.trans ho) ht hlt.le h₂ with ⟨h0, hq₂⟩ | ⟨c₂, hq₂, ht₂⟩
    · refine ⟨[c₁], by rw [hq₂, hq₁], fun s hs => ?_⟩
      rw [stamp, stamp, List.mem_singleton] at hs
      exact hs ▸ hs₁
    · refine ⟨[c₁, c₂], by rw [hq₂, hq₁, List.append_assoc]; rfl, fun s hs => ?_⟩
      rw [stamp, stamp, stamp, hsamples, List.mem_cons, List.mem_singleton] at hs
      rcases hs with rfl | rfl
      · exact hs₁
      · refine (ht₂.of_channels hin₁ hch₁).fromRing (fun j hj => ?_) (Nat.le_add_right ..)
          (by omega)
        rw [show m.readPtr + (m.readTimestamp.toNat + (bufferEnd - m.readPtr) -
          m.readTimestamp.toNat + j) = j + bufferEnd by omega, Nat.add_mod_right, Nat.zero_add,
          Nat.mod_eq_of_lt (by omega)]
  · rename_i hw
    have hlen : n = stop - m.readPtr := by
      rw [hn, show stop + (bufferEnd - m.readPtr) = stop - m.readPtr + bufferEnd by omega,
        Nat.add_mod_right, Nat.mod_eq_of_lt (by omega)]
    rcases ship_tape ho ht (by omega) h with ⟨h0, hq⟩ | ⟨c, hq, htc⟩
    · exact ⟨[], by rw [hq, List.append_nil], fun s hs => by cases hs⟩
    · refine ⟨[c], hq, fun s hs => ?_⟩
      rw [stamp, stamp, List.mem_singleton] at hs
      subst hs
      refine htc.fromRing (fun j hj => ?_) le_rfl (by omega)
      rw [Nat.sub_self, Nat.zero_add, Nat.mod_eq_of_lt (by omega)]

/-! ## The invariant of an epoch -/

/-- The rings of the channels show what each of them stored last, between the read and the write
timestamp, and what was shipped is stereo. -/
structure EpochInv (m : RtpMixer) (cfg : MixerConfig) (e : Epoch) : Prop where
  ring : RingInv m
  window : m.window < bufferEnd
  outputs : m.numOutputChannels = 2
  separate : m.Separate
  inputs : m.writeTimestamp ≠ 0 → m.numInputChannels ≠ 0
  ended : ∀ p ∈ e.stored, p.start + p.samples.length ≤ m.writeTimestamp.toNat
  present : ∀ p ∈ e.stored, 1 ≤ p.channel ∧ p.channel ≤ m.numInputChannels
  shows : ∀ i, Timeline.Shows bufferEnd (channelReference e.stored (i + 1)) (m.chanBuffer i)
    m.readPtr m.readTimestamp.toNat m.window
  stereo : ∀ s ∈ e.shipped, s.timestamp + s.samples ≤ m.readTimestamp.toNat ∧
    Stereo cfg e.stored s

theorem tapeReference_congr {stored stored' : List Piece} {t : Nat}
    (h : ∀ channel, channelReference stored channel t = channelReference stored' channel t)
    (tape : Nat) : tapeReference stored tape t = tapeReference stored' tape t := by
  unfold tapeReference
  rw [parityReference_eq, parityReference_eq, parityReference_eq, parityReference_eq,
    paritySum_congr fun i _ => h (i + 1), paritySum_congr fun i _ => h (i + 1)]

/-- A chunk stays stereo when a piece is stored behind it. -/
theorem Stereo.append {stored : List Piece} {s : Shipped} (h : Stereo cfg stored s) {p : Piece}
    (hp : s.timestamp + s.samples ≤ p.start) : Stereo cfg (stored ++ [p]) s := by
  refine ⟨h.numChannels, h.numBytes, ?_⟩
  rw [h.buffers]
  refine List.map_congr_left fun tape _ => congrArg some (List.map_congr_left fun j hj => ?_)
  rw [List.mem_range] at hj
  refine tapeReference_congr (fun channel => ?_) tape
  exact (channelReference_before stored p channel (by omega)).symm

namespace EpochInv

variable {e : Epoch}

theorem of_same (h : EpochInv m cfg e) (hr : SameRing m m') (hc : SameChannels m m') :
    EpochInv m' cfg e where
  ring := h.ring.of_sameRing hr
  window := by
    have hw := h.window
    unfold RtpMixer.window at hw ⊢
    rwa [hr.writeTimestamp, hr.readTimestamp]
  outputs := hc.numOutputChannels.trans h.outputs
  separate := hc.separate h.separate
  inputs h0 := by
    have := h.inputs (hr.writeTimestamp ▸ h0)
    have := hc.le
    omega
  ended := hr.writeTimestamp ▸ h.ended
  present p hp := ⟨(h.present p hp).1, (h.present p hp).2.trans hc.le⟩
  shows i := by
    unfold RtpMixer.window
    rw [hc.chanBuffer, hr.readPtr, hr.readTimestamp, hr.writeTimestamp]
    exact h.shows i
  stereo := hr.readTimestamp ▸ h.stereo

/-- The ring has the reference on every tape channel. -/
theorem tapeSlot_eq (h : EpochInv m cfg e) {x : Nat} (hx : x < m.window) (tape : Nat) :
    m.tapeSlot tape ((m.readPtr + x) % bufferEnd) =
      tapeReference e.stored tape (m.readTimestamp.toNat + x) := by
  have hsum (parity : Nat) : m.tapeSample parity ((m.readPtr + x) % bufferEnd) =
      parityReference e.stored parity (m.readTimestamp.toNat + x) := by
    have hsilent (i : Nat) (hi : m.numInputChannels ≤ i) :
        channelReference e.stored (i + 1) (m.readTimestamp.toNat + x) = 0 := by
      refine channelReference_of_absent (fun p hp => ?_) _
      have := (h.present p hp).2
      omega
    have hall := paritySum_silent parity hsilent (255 - m.numInputChannels)
    rw [Nat.add_sub_cancel' h.separate.le] at hall
    rw [tapeSample_eq, parityReference_eq, hall]
    exact paritySum_congr fun i _ => h.shows i x hx
  unfold tapeSlot tapeReference
  rw [hsum, hsum]

theorem stereo_of_fromRing (h : EpochInv m cfg e) {s : Shipped} {stop : Nat}
    (hs : FromRing m cfg stop s) (hstop : stop ≤ m.writeTimestamp.toNat) : Stereo cfg e.stored s := by
  refine ⟨hs.numChannels, hs.numBytes, ?_⟩
  rw [hs.buffers]
  refine List.map_congr_left fun tape _ => congrArg some (List.map_congr_left fun j hj => ?_)
  rw [List.mem_range] at hj
  have hstart := hs.start
  have hend := hs.stop
  rw [h.tapeSlot_eq (by unfold RtpMixer.window; omega)]
  congr 1
  omega

/-- A shipment. -/
theorem ship (h : EpochInv m cfg e) (ht : 1 < cfg.tapeNumChannels) {force : Bool}
    (hf : force = true ∨ m.numSampleTrigger < m.usedSpace)
    (hs : m.createShipment cfg force = .ok m') :
    ∃ cs, m'.outputQueue = m.outputQueue ++ cs ∧
      EpochInv m' cfg { e with shipped := e.shipped ++ stamp m.readTimestamp.toNat cs } := by
  obtain ⟨cs, hq, hring⟩ := createShipment_tape h.ring h.outputs ht hf hs
  obtain ⟨n, hn, hi', -, hrp, hrt, hwt, -⟩ := h.ring.ship hf hs
  have hwin := (h.ring.ship_window hf hs).2.2 h.window
  obtain ⟨hin, hch, hout⟩ := createShipment_channels hs
  have hnw : n ≤ m.window := by
    rw [hn, h.ring.usedSpace_eq]
    exact (Nat.sub_le ..).trans (Nat.mod_le ..)
  have hle := h.ring.le
  have hwdef : m.window = m.writeTimestamp.toNat - m.readTimestamp.toNat := rfl
  refine ⟨cs, hq, hi', hwin, hout.trans h.outputs, ⟨hch ▸ hin ▸ h.separate.1, hin ▸ h.separate.2⟩,
    fun h0 => hin ▸ h.inputs (hwt ▸ h0), hwt ▸ h.ended, hin ▸ h.present, fun i => ?_,
    fun s hs => ?_⟩
  · have hbuf : m'.chanBuffer i = m.chanBuffer i := by
      unfold chanBuffer
      rw [hch]
    have hwin' : m'.window = m.window - n := by
      unfold RtpMixer.window
      rw [hrt, hwt]
      omega
    rw [hbuf, hrp, hrt, hwin']
    exact (h.shows i).drop n
  · rcases List.mem_append.1 hs with hs | hs
    · have hold := h.stereo s hs
      exact ⟨by omega, hold.2⟩
    · exact ⟨(hring s hs).stop, h.stereo_of_fromRing (hring s hs) (by omega)⟩

/-- A store that is not dismissed adds a piece. -/
theorem store (h : EpochInv m cfg e) (h0 : m.numInputChannels ≠ 0) {c : AudioChunk} {t : UInt32}
    (ht : m.readTimestamp.toNat ≤ t.toNat) (hd : ¬ m.dismisses c t)
    (hs : m.storeRtpPacket c t = .ok m') (hwin : m'.window < bufferEnd) :
    EpochInv m' cfg { e with
      stored := e.stored ++ [⟨c.details.channel.toNat, t.toNat, c.pcm⟩] } := by
  obtain ⟨hi', hrt, hwt, -⟩ := h.ring.store hs
  rw [if_neg hd] at hwt
  obtain ⟨hch, hsep, hin, hout, hbuf⟩ :=
    storeRtpPacket_channels h.ring.writePtr_lt h.separate h0 hs
  have hrp : m'.readPtr = m.readPtr := by
    rcases storeRtpPacket_cases h.ring.writePtr_lt hs with ⟨-, rfl⟩ | ⟨-, _, _, -, rfl⟩
    · rfl
    · rfl
  have hwdef : m'.window = max m.writeTimestamp.toNat (t.toNat + c.pcm.length) -
      m.readTimestamp.toNat := by
    unfold RtpMixer.window
    rw [hrt, hwt]
  refine ⟨hi', hwin, hout.trans h.outputs, hsep, fun _ => hin ▸ h0, fun p hp => ?_, fun p hp => ?_,
    fun i => ?_, fun s hs => ?_⟩
  · rw [hwt]
    rcases List.mem_append.1 hp with hp | hp
    · exact (h.ended p hp).trans (Nat.le_max_left ..)
    · obtain rfl := List.mem_singleton.1 hp
      exact Nat.le_max_right ..
  · rw [hin]
    rcases List.mem_append.1 hp with hp | hp
    · exact h.present p hp
    · obtain rfl := List.mem_singleton.1 hp
      exact hch
  · rw [hwdef] at hwin
    rw [hrp, hrt, hwdef, hbuf, if_neg hd, storeChannel]
    have hz (s : Nat) (hs : m.writeTimestamp.toNat ≤ s) : channelReference e.stored (i + 1) s = 0 :=
      channelReference_of_ended (fun p hp => (h.ended p hp).trans hs) _
    have hzero := silence_shows h.ring (h.shows i) hz (Nat.le_max_left _ (t.toNat + c.pcm.length))
      hwin
    have hreach : max m.writeTimestamp.toNat (t.toNat + c.pcm.length) - t.toNat < bufferEnd := by
      omega
    rw [show channelReference (e.stored ++ [⟨c.details.channel.toNat, t.toNat, c.pcm⟩]) (i + 1) = _
      from funext fun s => channelReference_append e.stored _ (i + 1) s]
    by_cases hi : c.details.channel.toNat = i + 1
    · simp only [hreach, hi, and_self, if_true]
      exact samples_shows h.ring c.pcm hzero (Nat.le_max_left ..) hwin ht (Nat.le_max_right ..)
    · simp only [hi, and_false, if_false]
      exact hzero
  · have hold := h.stereo s hs
    exact ⟨hrt ▸ hold.1, hold.2.append (hold.1.trans ht)⟩

theorem store_cases (h : EpochInv m cfg e) (h0 : m.numInputChannels ≠ 0) {c : AudioChunk}
    {t : UInt32} (ht : m.readTimestamp.toNat ≤ t.toNat) (hs : m.storeRtpPacket c t = .ok m')
    (hwin : m'.window < bufferEnd) :
    EpochInv m' cfg { e with
      stored := e.stored ++ onChannel c (if m.dismisses c t then [] else [(t.toNat, c.pcm)]) } := by
  by_cases hd : m.dismisses c t
  · rcases storeRtpPacket_run hs with ⟨-, rfl⟩ | ⟨hd', -⟩
    · rw [if_pos hd]
      simpa [onChannel] using h
    · exact absurd hd hd'
  · rw [if_neg hd]
    exact h.store h0 ht hd hs hwin

/-- An epoch starts with nothing stored and nothing shipped. -/
theorem start (h : EpochInv m cfg e) (h0 : m.numInputChannels ≠ 0) {t : UInt32}
    (hi : RingInv m') (hr : m'.readTimestamp = t) (hw : m'.writeTimestamp = t)
    (hin : m'.numInputChannels = m.numInputChannels)
    (hch : m'.rtpMixerChannels = m.rtpMixerChannels)
    (hout : m'.numOutputChannels = m.numOutputChannels) : EpochInv m' cfg {} := by
  have hwin : m'.window = 0 := by
    unfold RtpMixer.window
    rw [hr, hw, Nat.sub_self]
  exact {
    ring := hi
    window := by rw [hwin]; decide
    outputs := hout.trans h.outputs
    separate := ⟨hch ▸ hin ▸ h.separate.1, hin ▸ h.separate.2⟩
    inputs := fun _ => hin ▸ h0
    ended := fun _ hp => absurd hp List.not_mem_nil
    present := fun _ hp => absurd hp List.not_mem_nil
    shows := fun _ j hj => absurd (hwin ▸ hj) (Nat.not_lt_zero j)
    stereo := fun _ hs => absurd hs List.not_mem_nil }

/-- The chunk that starts an epoch. -/
theorem opened (h : EpochInv m cfg {}) (h0 : m.numInputChannels ≠ 0) {c : AudioChunk} {t : UInt32}
    (hr : m.readTimestamp = t) (hw : m.writeTimestamp = t) (hs : m.storeRtpPacket c t = .ok m') :
    EpochInv m' cfg { stored := onChannel c (openedBy c t) } := by
  have hwin := (h.ring.store_empty hw hr hs).2
  have hst := h.store_cases h0 (hr ▸ le_rfl) hs hwin
  have hopened : openedBy c t = if m.dismisses c t then [] else [(t.toNat, c.pcm)] := by
    have hdis : m.dismisses c t ↔
        4294967296 ≤ t.toNat + c.pcm.length ∨ bufferEnd ≤ c.pcm.length := by
      unfold dismisses
      rw [hw]
      omega
    unfold openedBy
    by_cases hd : m.dismisses c t
    · have := hdis.1 hd
      rw [if_pos hd, if_neg (by omega)]
    · have := mt hdis.2 hd
      rw [if_neg hd, if_pos (by omega)]
  rw [hopened]
  exact hst

end EpochInv

/-! ## One call -/

def Epoch.chunks (e : Epoch) : List AudioChunk := e.shipped.map (·.chunk)

@[simp] theorem stamp_chunks : ∀ (t : Nat) (cs : List AudioChunk),
    (stamp t cs).map (·.chunk) = cs
  | _, [] => rfl
  | t, c :: cs => by rw [stamp, List.map_cons, stamp_chunks]

theorem shippedBy_eq {chunk : Option AudioChunk} {cs : List AudioChunk}
    (h : (m.step cfg chunk).outputQueue = m.outputQueue ++ cs) :
    m.shippedBy cfg chunk = stamp m.readTimestamp.toNat cs := by
  rw [shippedBy, h, List.drop_left]

/-- What a call keeps: the epoch that goes on or starts, the epoch that ends, and that the chunks of
the epochs are the ones that are queued. -/
structure Kept (cfg : MixerConfig) (e : Epoch) (m m' : RtpMixer) (r : Option Epoch × Epoch) :
    Prop where
  inv : EpochInv m' cfg r.2
  ended : ∀ e' ∈ r.1, ∀ s ∈ e'.shipped, Stereo cfg e'.stored s
  queue : ∃ cs, m'.outputQueue = m.outputQueue ++ cs ∧
    (r.1.toList ++ [r.2]).flatMap Epoch.chunks = e.chunks ++ cs

theorem Kept.of_goesOn {e : Epoch} {pieces : List Piece} {cs : List AudioChunk}
    (hq : m'.outputQueue = m.outputQueue ++ cs)
    (h : EpochInv m' cfg { stored := e.stored ++ pieces
                           shipped := e.shipped ++ stamp m.readTimestamp.toNat cs }) :
    Kept cfg e m m' (none, { stored := e.stored ++ pieces
                             shipped := e.shipped ++ stamp m.readTimestamp.toNat cs }) where
  inv := h
  ended e' he := by cases he
  queue := ⟨cs, hq, by simp [Epoch.chunks]⟩

theorem Epoch.call_none {e : Epoch} {chunk : Option AudioChunk} {cs : List AudioChunk}
    (hp : m.placed cfg chunk = none) (hq : (m.step cfg chunk).outputQueue = m.outputQueue ++ cs) :
    e.call m cfg chunk =
      (none, { e with shipped := e.shipped ++ stamp m.readTimestamp.toNat cs }) := by
  unfold Epoch.call
  rw [hp, shippedBy_eq hq]

theorem Epoch.call_opens {e : Epoch} {chunk : Option AudioChunk} {c : AudioChunk} {t : UInt32}
    {cs : List AudioChunk} (ho : m.Opens cfg chunk c t)
    (hq : (m.step cfg chunk).outputQueue = m.outputQueue ++ cs) :
    e.call m cfg chunk =
      (some { e with shipped := e.shipped ++ stamp m.readTimestamp.toNat cs },
        { stored := onChannel c (openedBy c t) }) := by
  unfold Epoch.call
  rw [ho.1, shippedBy_eq hq]
  exact if_pos ho.2

theorem Epoch.call_goesOn {e : Epoch} {chunk : Option AudioChunk} {c : AudioChunk} {t : UInt32}
    {cs : List AudioChunk} (hp : m.placed cfg chunk = some (c, t))
    (ho : ¬ (c.details.channel = 1 ∧ (m.writeTimestamp = 0 ∨ ¬ m.fits c t)))
    (hq : (m.step cfg chunk).outputQueue = m.outputQueue ++ cs) :
    e.call m cfg chunk =
      (none, { stored := e.stored ++ onChannel c (m.storedBy cfg chunk)
               shipped := e.shipped ++ stamp m.readTimestamp.toNat cs }) := by
  unfold Epoch.call
  rw [hp, shippedBy_eq hq]
  exact if_neg ho

/-- A call that opens a window ends one epoch and starts another. -/
theorem Kept.of_opens {e e' : Epoch} {cs : List AudioChunk}
    (hq : m'.outputQueue = m.outputQueue ++ cs) (h : EpochInv m' cfg e') (he' : e'.shipped = [])
    (hs : ∀ s ∈ e.shipped ++ stamp m.readTimestamp.toNat cs, Stereo cfg e.stored s) :
    Kept cfg e m m'
      (some { e with shipped := e.shipped ++ stamp m.readTimestamp.toNat cs }, e') where
  inv := h
  ended e'' he := by
    cases he
    exact hs
  queue := ⟨cs, hq, by simp [Epoch.chunks, he']⟩

/-- A chunk that was accepted is placed. -/
theorem EpochInv.kept_place {e : Epoch} (h : EpochInv m cfg e) (ht : 1 < cfg.tapeNumChannels)
    {chunk : Option AudioChunk} {c₀ c : AudioChunk} {m₁ : RtpMixer} {t : UInt32}
    (hstep : m.step cfg chunk = m') (ha : m.accept cfg c₀ = .ok (m₁, some (c, t)))
    (hp : m.placed cfg chunk = some (c, t)) (hplace : m₁.place cfg c t = .ok m')
    (hwin : m'.window < bufferEnd) : Kept cfg e m m' (e.call m cfg chunk) := by
  obtain ⟨hr, -, -, hsame⟩ := accept_some ha
  obtain ⟨hc, hnum⟩ := accept_sameChannels h.outputs ht ha
  have h₁ := h.of_same hr hc
  have h0 (hc1 : c.details.channel = 1) : m₁.numInputChannels ≠ 0 := by
    rw [hc1] at hnum
    exact Nat.one_le_iff_ne_zero.1 hnum
  cases place_cases hplace with
  | skip hc1 hs hr' hc' =>
    have hq : m'.outputQueue = m.outputQueue ++ [] := by
      rw [List.append_nil, hr'.outputQueue, hr.outputQueue]
    rw [hr.writeTimestamp, hr.fits] at hs
    have hstored : m.storedBy cfg chunk = [] := by
      unfold storedBy
      rw [hp]
      exact if_neg fun h => hs ⟨h.1, h.2.1⟩
    rw [Epoch.call_goesOn hp (fun ho => hc1 ho.1) (hstep ▸ hq), hstored]
    refine Kept.of_goesOn hq ?_
    have h' := h₁.of_same hr' hc'
    simpa [onChannel, stamp] using h'
  | first hc1 hw hstore =>
    have hi := h₁.ring.first hw t true
    obtain ⟨-, -, -, hq', -⟩ := hi.store hstore
    have hq : m'.outputQueue = m.outputQueue ++ [] := by
      rw [List.append_nil, hq', ← hr.outputQueue]
    rw [Epoch.call_opens ⟨hp, hc1, .inl (hr.writeTimestamp ▸ hw)⟩ (hstep ▸ hq)]
    have hstart := h₁.start (h0 hc1) hi rfl rfl rfl rfl rfl
    refine Kept.of_opens hq (hstart.opened (h0 hc1) rfl rfl hstore) rfl fun s hs => ?_
    rw [stamp, List.append_nil] at hs
    exact (h.stereo s hs).2
  | store m₂ hw hf hstore hship =>
    have hfits : m.fits c t := hr.fits.1 hf
    have hw' : m.writeTimestamp ≠ 0 := hr.writeTimestamp ▸ hw
    obtain ⟨hi₂, hrt, -, hq₂, -⟩ := h₁.ring.store hstore
    have hdis : m₁.dismisses c t ↔ m.dismisses c t := by
      unfold dismisses
      rw [hr.writeTimestamp]
    have hstored : m.storedBy cfg chunk =
        if m₁.dismisses c t then [] else [(t.toNat, c.pcm)] := by
      unfold storedBy
      rw [hp]
      by_cases hd : m.dismisses c t
      · rw [if_pos (hdis.2 hd)]
        exact if_neg fun h => h.2.2 hd
      · rw [if_neg (mt hdis.1 hd)]
        exact if_pos ⟨hw', hfits, hd⟩
    have hno : ¬ (c.details.channel = 1 ∧ (m.writeTimestamp = 0 ∨ ¬ m.fits c t)) :=
      fun ho => ho.2.elim hw' fun hn => hn hfits
    have hle : m₁.readTimestamp.toNat ≤ t.toNat := UInt32.le_iff_toNat_le.1 hf.1
    have hstored₂ (hwin₂ : m₂.window < bufferEnd) :=
      h₁.store_cases (h₁.inputs hw) hle hstore hwin₂
    rcases hship with ⟨-, rfl⟩ | ⟨htr, hship⟩
    · have hq : m'.outputQueue = m.outputQueue ++ [] := by
        rw [List.append_nil, hq₂, hr.outputQueue]
      rw [Epoch.call_goesOn hp hno (hstep ▸ hq), hstored]
      refine Kept.of_goesOn hq ?_
      rw [stamp, List.append_nil]
      exact hstored₂ hwin
    · obtain ⟨cs, hq, hi⟩ := (hstored₂ ((hi₂.ship_window (.inr htr) hship).2.1 hwin)).ship ht
        (.inr htr) hship
      rw [hq₂, hr.outputQueue] at hq
      rw [hrt, hr.readTimestamp] at hi
      rw [Epoch.call_goesOn hp hno (hstep ▸ hq), hstored]
      exact Kept.of_goesOn hq hi
  | reset m₂ m₃ hc1 hw hf hship hstore he =>
    have hts : t = c.details.timestamp := hsame hc1
    obtain ⟨cs, hq, hi⟩ := h₁.ship ht (.inl rfl) hship
    have hreset := hi.ring.reset t
    rw [← hts] at hstore
    obtain ⟨-, -, -, hq₃, -⟩ := hreset.store hstore
    have hq' : m'.outputQueue = m.outputQueue ++ cs := by
      subst he
      rw [← hr.outputQueue, ← hq]
      exact hq₃
    have hin : m₂.numInputChannels ≠ 0 := by
      rw [(createShipment_channels hship).1]
      exact h0 hc1
    have hstart := hi.start hin hreset rfl rfl rfl rfl rfl
    have hopened := hstart.opened hin rfl rfl hstore
    rw [Epoch.call_opens ⟨hp, hc1, .inr (mt hr.fits.2 hf)⟩ (hstep ▸ hq')]
    refine Kept.of_opens hq' ?_ rfl fun s hs => (hi.stereo s (hr.readTimestamp ▸ hs)).2
    subst he
    exact ⟨⟨hopened.ring.1, hopened.ring.2, hopened.ring.3, hopened.ring.4, hopened.ring.5⟩,
      hopened.window, hopened.outputs, ⟨hopened.separate.1, hopened.separate.2⟩, hopened.inputs,
      hopened.ended, hopened.present, hopened.shows, hopened.stereo⟩

theorem EpochInv.kept {e : Epoch} (h : EpochInv m cfg e) (ht : 1 < cfg.tapeNumChannels)
    {chunk : Option AudioChunk} (hx : ¬ m.ExactFit cfg chunk) :
    Kept cfg e m (m.step cfg chunk) (e.call m cfg chunk) := by
  have hwin := ((step_ringInv cfg h.ring chunk).2.1 h.window).2 hx
  -- a call that places nothing
  have hnone {cs : List AudioChunk} (hp : m.placed cfg chunk = none)
      (hq : (m.step cfg chunk).outputQueue = m.outputQueue ++ cs)
      (hi : EpochInv (m.step cfg chunk) cfg
        { e with shipped := e.shipped ++ stamp m.readTimestamp.toNat cs }) :
      Kept cfg e m (m.step cfg chunk) (e.call m cfg chunk) := by
    rw [Epoch.call_none hp hq]
    rw [← List.append_nil e.stored] at hi ⊢
    exact Kept.of_goesOn hq hi
  have hidle (hp : m.placed cfg chunk = none)
      (hq : (m.step cfg chunk).outputQueue = m.outputQueue)
      (hi : EpochInv (m.step cfg chunk) cfg e) :
      Kept cfg e m (m.step cfg chunk) (e.call m cfg chunk) := by
    have hq' : (m.step cfg chunk).outputQueue = m.outputQueue ++ [] := by rw [hq, List.append_nil]
    refine hnone hp hq' ?_
    rw [stamp, List.append_nil]
    exact hi
  cases hc : m.audioChunkIn cfg chunk with
  | error err =>
    have hstep : m.step cfg chunk = m := by rw [step, hc]
    exact hidle (placed_of_error hc) (by rw [hstep]) (by rw [hstep]; exact h)
  | ok m' =>
    have hstep : m.step cfg chunk = m' := by rw [step, hc]
    rw [hstep] at hwin
    cases audioChunkIn_call hc with
    | ignored hp he =>
      refine hidle hp (by rw [hstep, he]) ?_
      rw [hstep, he]
      exact h
    | tooBig c hc hbig hp he =>
      refine hidle hp (by rw [hstep, he]) ?_
      rw [hstep, he]
      exact ⟨⟨h.ring.1, h.ring.2, h.ring.3, h.ring.4, h.ring.5⟩, h.window, h.outputs,
        ⟨h.separate.1, h.separate.2⟩, h.inputs, h.ended, h.present, h.shows, h.stereo⟩
    | flush _ hp hs =>
      obtain ⟨cs, hq, hi⟩ := h.ship ht (.inl rfl) hs
      exact hnone hp (by rw [hstep, hq]) (by rw [hstep]; exact hi)
    | place c₀ m₁ c t ha hp hplace =>
      rw [hstep]
      exact h.kept_place ht hstep ha hp hplace hwin

/-! ## A whole run -/

theorem fresh_epochInv (cfg : MixerConfig) (stale : Nat → Int) :
    EpochInv (fresh stale 2) cfg {} where
  ring := fresh_ringInv stale 2
  window := Nat.zero_lt_succ _
  outputs := rfl
  separate := ⟨rfl, Nat.zero_le _⟩
  inputs h := absurd rfl h
  ended _ hp := absurd hp List.not_mem_nil
  present _ hp := absurd hp List.not_mem_nil
  shows _ j hj := absurd hj (Nat.not_lt_zero j)
  stereo _ hs := absurd hs List.not_mem_nil

/-- **The run lemma.** -/
theorem EpochInv.run (ht : 1 < cfg.tapeNumChannels) :
    ∀ {chunks : List (Option AudioChunk)} {m : RtpMixer} {e : Epoch}, EpochInv m cfg e →
      Run.Meets (fun m => RtpMixer.step m cfg) (fun m chunk => ¬ m.ExactFit cfg chunk) m chunks →
      (∀ e' ∈ epochs cfg m e chunks, ∀ s ∈ e'.shipped, Stereo cfg e'.stored s) ∧
        ∃ cs, (m.run cfg chunks).outputQueue = m.outputQueue ++ cs ∧
          (epochs cfg m e chunks).flatMap Epoch.chunks = e.chunks ++ cs
  | [], m, e, h, _ => by
    refine ⟨fun e' he s hs => ?_, [], (List.append_nil _).symm, by simp [epochs]⟩
    obtain rfl := List.mem_singleton.1 he
    exact (h.stereo s hs).2
  | chunk :: chunks, m, e, h, hx => by
    obtain ⟨hi, hended, cs, hq, hcs⟩ := h.kept ht hx.1
    obtain ⟨hrun, cs', hq', hcs'⟩ := EpochInv.run ht hi hx.2
    refine ⟨fun e' he => ?_, cs ++ cs', ?_, ?_⟩
    · rcases List.mem_append.1 he with he | he
      · exact hended e' (Option.mem_toList.1 he)
      · exact hrun e' he
    · rw [run_cons, hq', hq, List.append_assoc]
    · rw [epochs, List.flatMap_append, hcs', ← List.append_assoc, ← List.append_assoc, ← hcs,
        List.flatMap_append, List.flatMap_singleton]

/-- **Stereo mixing**: in a run without an exact fit, every chunk that is shipped is a stereo chunk of
its epoch; the chunks of the epochs are the ones on the output queue, in order. -/
theorem stereo_of_no_exactFit (cfg : MixerConfig) (ht : 1 < cfg.tapeNumChannels)
    (stale : Nat → Int) (chunks : List (Option AudioChunk))
    (hx : Run.Meets (fun m => step m cfg) (fun m chunk => ¬ m.ExactFit cfg chunk) (fresh stale 2)
      chunks) :
    (∀ e ∈ epochs cfg (fresh stale 2) {} chunks, ∀ s ∈ e.shipped, Stereo cfg e.stored s) ∧
      (epochs cfg (fresh stale 2) {} chunks).flatMap Epoch.chunks =
        ((fresh stale 2).run cfg chunks).outputQueue := by
  obtain ⟨hs, cs, hq, hcs⟩ := (fresh_epochInv cfg stale).run ht hx
  exact ⟨hs, by rw [hcs, hq]; rfl⟩

/-! ## A full buffer -/

/-- What a call that stores does to the channels. -/
theorem Stores.channels {chunk : Option AudioChunk} {c : AudioChunk} {t : UInt32}
    (hst : m.Stores cfg chunk c t) (hi : RingInv m) (ho : m.numOutputChannels = 2)
    (hs : m.Separate) (h0 : m.numInputChannels ≠ 0) (ht : 1 < cfg.tapeNumChannels) :
    (m.step cfg chunk).Separate ∧ (m.step cfg chunk).numOutputChannels = 2 ∧
      (m.step cfg chunk).numInputChannels ≠ 0 ∧ ∀ i, (m.step cfg chunk).chanBuffer i =
        m.storeChannel c (max m.writeTimestamp.toNat (t.toNat + c.pcm.length)) t.toNat i := by
  obtain ⟨hp, hw, hf, hd⟩ := hst
  have hcall : ∃ m', m.audioChunkIn cfg chunk = .ok m' := by
    cases hc : m.audioChunkIn cfg chunk with
    | ok m' => exact ⟨m', rfl⟩
    | error err => cases (placed_of_error hc).symm.trans hp
  obtain ⟨m', hc⟩ := hcall
  rw [show m.step cfg chunk = m' by rw [step, hc]]
  cases audioChunkIn_call hc with
  | ignored hp' => cases hp.symm.trans hp'
  | tooBig _ _ _ hp' => cases hp.symm.trans hp'
  | flush _ hp' => cases hp.symm.trans hp'
  | place c₀ m₁ c' t' ha hp' hplace =>
    cases hp.symm.trans hp'
    obtain ⟨hr, -⟩ := accept_some ha
    have hsame := (accept_sameChannels ho ht ha).1
    have hle := hsame.le
    cases place_cases hplace with
    | skip _ hs' =>
      rw [hr.writeTimestamp, hr.fits] at hs'
      exact absurd ⟨hw, hf⟩ hs'
    | first _ hw' => exact absurd (hr.writeTimestamp ▸ hw') hw
    | reset _ _ _ _ hf' => exact absurd (hr.fits.2 hf) hf'
    | store m₂ _ _ hstore hship =>
      obtain ⟨-, hsep, hin, hout, hbuf⟩ := storeRtpPacket_channels (hi.of_sameRing hr).writePtr_lt
        (hsame.separate hs) (by omega) hstore
      have hkept : m'.numInputChannels = m₂.numInputChannels ∧
          m'.rtpMixerChannels = m₂.rtpMixerChannels ∧
          m'.numOutputChannels = m₂.numOutputChannels := by
        rcases hship with ⟨-, rfl⟩ | ⟨-, hship⟩
        · exact ⟨rfl, rfl, rfl⟩
        · exact createShipment_channels hship
      have hdis : ¬ m₁.dismisses c t := by
        unfold dismisses at hd ⊢
        rwa [hr.writeTimestamp]
      obtain ⟨hkin, hkch, hkout⟩ := hkept
      refine ⟨⟨hkch ▸ hkin ▸ hsep.1, hkin ▸ hsep.2⟩, ?_, by omega, fun i => ?_⟩
      · rw [hkout, hout, hsame.numOutputChannels, ho]
      · have hb := hbuf i
        rw [if_neg hdis] at hb
        unfold storeChannel at hb ⊢
        rw [hsame.chanBuffer, hr.writeTimestamp, hr.writePtr] at hb
        unfold chanBuffer at hb ⊢
        rw [hkch]
        exact hb

theorem createChannels_eq (m : RtpMixer) (cfg : MixerConfig) (n : Nat) : ∃ chs k,
    m.createChannels cfg n = { m with rtpMixerChannels := chs, numInputChannels := k } ∧
      (n ≤ m.numInputChannels → k = m.numInputChannels) := by
  unfold createChannels
  split
  · exact ⟨m.rtpMixerChannels, m.numInputChannels, rfl, fun _ => rfl⟩
  · exact ⟨_, _, rfl, fun h => by omega⟩

/-- A chunk of channel 1 that the mixer does not turn down. -/
structure OnChannel1 (c : AudioChunk) : Prop where
  marker : c.details.marker ≠ mediaChunkEosMarker
  samples : ∃ n, c.getNumSamples = .ok n ∧ n ≠ 0
  small : ¬ c.getNumBytes > 100000
  pcm : c.details.encoding = .pcmAudio
  channel : c.details.channel = 1

/-- Its timestamp is not corrected. -/
theorem OnChannel1.accept {c : AudioChunk} (h : OnChannel1 c) (ho : m.numOutputChannels = 2)
    (hs : m.Separate) (ht : 1 < cfg.tapeNumChannels) {ts : UInt32}
    (hmillis : correctMillis c m.lastChunkS1 m.lastTimestampS1 = (c, ts)) :
    ∃ chs k, (1 ≤ m.numInputChannels → k = m.numInputChannels) ∧ m.accept cfg c =
      .ok ({ m with rtpMixerChannels := chs, numInputChannels := k, lastTimestampS1 := ts
                    lastChunkS1 := some c }, some (c, c.details.timestamp)) := by
  obtain ⟨n, hn, hn0⟩ := h.samples
  have hc := h.channel
  obtain ⟨hsame, hnum⟩ := createChannels_sameChannels m cfg (n := 1) (by decide)
  obtain ⟨chs, k, hcreate, hkeep⟩ := createChannels_eq m cfg 1
  have hsep := hsame.separate hs
  have hk := hnum (by omega) ht
  rw [hcreate] at hsep hk
  have hvalid : ({ m with rtpMixerChannels := chs, numInputChannels := k } : RtpMixer).validIdx 0 := by
    have hlen := hsep.length
    unfold validIdx
    dsimp only at hlen hk ⊢
    omega
  have hk0 : k ≠ 0 := Nat.one_le_iff_ne_zero.1 hk
  have hlast : ({ m with rtpMixerChannels := chs, numInputChannels := k } : RtpMixer).setLastChunk 0 c =
      .ok { m with rtpMixerChannels := chs.modify 0 fun ch => { ch with lastChunk := some c }
                   numInputChannels := k } := by
    rw [setLastChunk, if_pos hk0, modifyChannel, if_pos hvalid]
    rfl
  have hcorrect : ({ m with rtpMixerChannels := chs, numInputChannels := k } : RtpMixer).correctTimestamp
      cfg c = .ok ({ m with rtpMixerChannels := chs.modify 0 fun ch => { ch with lastChunk := some c }
                            numInputChannels := k, lastTimestampS1 := ts, lastChunkS1 := some c },
        c, c.details.timestamp) := by
    rw [correctTimestamp, if_pos hc, correctS1]
    dsimp only
    rw [hmillis, hlast]
    rfl
  refine ⟨chs.modify 0 fun ch => { ch with lastChunk := some c }, k, hkeep,
    Except.bind_eq_ok.2 ⟨n, by rw [hn]; rfl, ?_⟩⟩
  rw [if_neg hn0, if_neg h.small, if_neg (not_not.2 h.pcm), if_pos ho, hc]
  exact Except.bind_eq_ok.2 ⟨_, by rw [← hcorrect, ← hcreate]; rfl, rfl⟩

/-- It fits into the window and does not trigger a shipment. -/
theorem OnChannel1.step {c : AudioChunk} (h : OnChannel1 c) (hi : RingInv m)
    (ho : m.numOutputChannels = 2) (hs : m.Separate) (ht : 1 < cfg.tapeNumChannels)
    (he : m.error = false) (hw : m.writeTimestamp ≠ 0) {ts : UInt32}
    (hmillis : correctMillis c m.lastChunkS1 m.lastTimestampS1 = (c, ts))
    (hf : m.fits c c.details.timestamp) (hd : ¬ m.dismisses c c.details.timestamp)
    (hused : (max m.writeTimestamp.toNat (c.details.timestamp.toNat + c.pcm.length) -
      m.readTimestamp.toNat) % bufferEnd ≤ numSamplesTrigger) :
    m.Stores cfg (some c) c c.details.timestamp ∧ ∃ buffer chs k p,
      (1 ≤ m.numInputChannels → k = m.numInputChannels) ∧ m.step cfg (some c) = { m with
        buffer, rtpMixerChannels := chs, numInputChannels := k, lastTimestampS1 := ts
        lastChunkS1 := some c, writePtr := p
        writeTimestamp := UInt32.ofNat
          (max m.writeTimestamp.toNat (c.details.timestamp.toNat + c.pcm.length)) } := by
  obtain ⟨chs, k, hkeep, ha⟩ := h.accept ho hs ht hmillis
  have hp : m.placed cfg (some c) = some (c, c.details.timestamp) := by
    simp [placed, he, h.marker, ha]
  refine ⟨⟨hp, hw, hf, hd⟩, ?_⟩
  have hr : SameRing m { m with rtpMixerChannels := chs, numInputChannels := k, lastTimestampS1 := ts
                                lastChunkS1 := some c } := (accept_some ha).1
  have hvalid := accept_validIdx ha
  obtain ⟨m₂, h₂⟩ := storeRtpPacket_isOk c.details.timestamp hvalid
  obtain ⟨hi₂, hrt, hwt, -⟩ := (hi.of_sameRing hr).store h₂
  have hd' : ¬ ({ m with rtpMixerChannels := chs, numInputChannels := k, lastTimestampS1 := ts
                         lastChunkS1 := some c } : RtpMixer).dismisses c c.details.timestamp := hd
  rw [if_neg hd'] at hwt
  have hquiet : ¬ m₂.usedSpace > m₂.numSampleTrigger := by
    rw [hi₂.usedSpace_eq, hi₂.trigger, RtpMixer.window, hrt, hwt]
    exact not_lt.2 hused
  have hstep : m.step cfg (some c) = m₂ := by
    have hplace : RtpMixer.place { m with rtpMixerChannels := chs, numInputChannels := k
                                          lastTimestampS1 := ts, lastChunkS1 := some c } cfg c
        c.details.timestamp = .ok m₂ := by
      unfold place
      rw [if_neg hw, if_pos (hr.fits.2 hf)]
      refine Except.bind_eq_ok.2 ⟨m₂, h₂, ?_⟩
      rw [if_neg hquiet]
    have hcall : m.audioChunkIn cfg (some c) = .ok m₂ := by
      unfold audioChunkIn
      rw [he]
      simp only [Bool.false_eq_true, if_false, if_neg h.marker, ha]
      exact hplace
    rw [RtpMixer.step, hcall]
  rcases storeRtpPacket_cases (hi.of_sameRing hr).writePtr_lt h₂ with ⟨hdis, -⟩ | ⟨-, chs', w, rfl, rfl⟩
  · exact absurd hdis hd'
  · exact ⟨_, chs', k, _, hkeep, hstep⟩

theorem pcmChunk_onChannel1 (t : UInt32) {n : Nat} (hn0 : 0 < n) (hn : n ≤ 50000) (x : Int) :
    OnChannel1 (pcmChunk 1 t n x) := by
  have hb : (UInt32.ofNat (2 * n)).toNat = 2 * n :=
    UInt32.toNat_ofNat_of_lt' (by simp only [UInt32.size]; omega)
  refine ⟨show mediaChunkMarker ≠ mediaChunkEosMarker by decide, ⟨n, ?_, by omega⟩, ?_, rfl, rfl⟩
  · simp only [AudioChunk.getNumSamples, pcmChunk, hb]
    congr 1
    omega
  · simp only [AudioChunk.getNumBytes, pcmChunk, asInt, hb]
    split
    · omega
    · omega

abbrev stereoConfig : MixerConfig := { tapeNumChannels := 2 }

/-- A mixer whose window starts at timestamp 1000 and which has shipped nothing. -/
structure Quiet (m : RtpMixer) (writeTimestamp : UInt32) (last : AudioChunk) : Prop where
  ring : RingInv m
  outputs : m.numOutputChannels = 2
  separate : m.Separate
  inputs : m.numInputChannels = 1
  error : m.error = false
  readPtr : m.readPtr = 0
  readTimestamp : m.readTimestamp = 1000
  writeTimestamp : m.writeTimestamp = writeTimestamp
  outputQueue : m.outputQueue = []
  lastTimestampS1 : m.lastTimestampS1 = 1000
  lastChunkS1 : m.lastChunkS1 = some last

theorem Quiet.usedSpace {w : UInt32} {last : AudioChunk} (h : Quiet m w last) :
    m.usedSpace = (w.toNat - 1000) % bufferEnd := by
  rw [h.ring.usedSpace_eq, window, h.readTimestamp, h.writeTimestamp]
  rfl

/-- A packet that is stored and not shipped yet. -/
theorem Quiet.step {w t : UInt32} {last : AudioChunk} (h : Quiet m w last) {n : Nat} {x : Int}
    (hn0 : 0 < n) (hn : n ≤ 50000) (hw : w ≠ 0) (ht : t - 1000 ≠ 20)
    (hf : 1000 ≤ t ∧ asInt (t + UInt32.ofNat ((UInt32.ofNat (2 * n)).toNat / 2) - w) ≤
        (16000 - (w.toNat - 1000) % bufferEnd : Nat) ∧
      asInt (w - t) ≤ ((w.toNat - 1000) % bufferEnd : Nat))
    (hd : t.toNat + n < 4294967296 ∧ t.toNat + n < w.toNat + bufferEnd)
    (hused : (max w.toNat (t.toNat + n) - 1000) % bufferEnd ≤ numSamplesTrigger) :
    m.Stores stereoConfig (some (pcmChunk 1 t n x)) (pcmChunk 1 t n x) t ∧
      Quiet (m.step stereoConfig (some (pcmChunk 1 t n x))) (UInt32.ofNat (max w.toNat (t.toNat + n)))
        (pcmChunk 1 t n x) := by
  have hlen : (pcmChunk 1 t n x).pcm.length = n := by
    have hb : (UInt32.ofNat (2 * n)).toNat = 2 * n :=
      UInt32.toNat_ofNat_of_lt' (by simp only [UInt32.size]; omega)
    rw [AudioChunk.length_pcm, pcmChunk, hb]
    omega
  have htape : 1 < stereoConfig.tapeNumChannels := by decide
  have hmillis : correctMillis (pcmChunk 1 t n x) m.lastChunkS1 m.lastTimestampS1 =
      (pcmChunk 1 t n x, 1000) := by
    rw [h.lastChunkS1, h.lastTimestampS1]
    exact if_neg ht
  have hfits : m.fits (pcmChunk 1 t n x) t := by
    unfold fits freeSpace
    rw [h.readTimestamp, h.writeTimestamp, h.usedSpace]
    exact hf
  have hdis : ¬ m.dismisses (pcmChunk 1 t n x) t := by
    unfold dismisses
    rw [h.writeTimestamp, hlen]
    omega
  obtain ⟨hst, _, _, k, p, hkeep, hstep⟩ := (pcmChunk_onChannel1 t hn0 hn x).step h.ring h.outputs
    h.separate htape h.error (h.writeTimestamp ▸ hw) hmillis hfits hdis
    (by rw [h.readTimestamp, h.writeTimestamp, hlen]; exact hused)
  obtain ⟨hs, ho, -⟩ := hst.channels h.ring h.outputs h.separate (by rw [h.inputs]; decide) htape
  have hi := (step_ringInv stereoConfig h.ring (some (pcmChunk 1 t n x))).1
  exact ⟨hst, {
    ring := hi
    outputs := ho
    separate := hs
    inputs := by rw [hstep]; exact (hkeep h.inputs.ge).trans h.inputs
    error := by rw [hstep]; exact h.error
    readPtr := by rw [hstep]; exact h.readPtr
    readTimestamp := by rw [hstep]; exact h.readTimestamp
    writeTimestamp := by rw [hstep, h.writeTimestamp, hlen]; rfl
    outputQueue := by rw [hstep]; exact h.outputQueue
    lastTimestampS1 := by rw [hstep]
    lastChunkS1 := by rw [hstep] }⟩

theorem quiet_first :
    Quiet ((fresh (fun _ => 0) 2).step stereoConfig (some (pcmChunk 1 1000 2 100))) 1002
      (pcmChunk 1 1000 2 100) := by
  have hx : ¬ (fresh (fun _ => 0) 2).ExactFit stereoConfig (some (pcmChunk 1 1000 2 100)) := by
    decide
  have h := ((fresh_epochInv stereoConfig fun _ => 0).kept (by decide) hx).inv
  exact ⟨h.ring, h.outputs, h.separate, by decide, by decide,
    by decide, by decide, by decide, by decide, by decide,
    by decide⟩

/-- A packet, one that fills the buffer to its last slot, and one more behind it. -/
def fullBuffer : List (Option AudioChunk) :=
  [some (pcmChunk 1 1000 2 100), some (pcmChunk 1 16998 2 200), some (pcmChunk 1 17000 1 300)]

/-- The packet behind a full buffer is stored over the first one. -/
theorem Quiet.overwrites {last : AudioChunk} (h : Quiet m 17000 last) :
    m.Stores stereoConfig (some (pcmChunk 1 17000 1 300)) (pcmChunk 1 17000 1 300) 17000 ∧
      Quiet (m.step stereoConfig (some (pcmChunk 1 17000 1 300))) 17001 (pcmChunk 1 17000 1 300) ∧
      (m.step stereoConfig (some (pcmChunk 1 17000 1 300))).tapeSlot 1 0 = 300 := by
  obtain ⟨hst, h'⟩ := h.step (t := 17000) (n := 1) (x := 300) (by decide) (by decide) (by decide)
    (by decide) (by decide) (by decide) (by decide)
  rw [show UInt32.ofNat (max (17000 : UInt32).toNat ((17000 : UInt32).toNat + 1)) = 17001 by decide] at h'
  refine ⟨hst, h', ?_⟩
  obtain ⟨-, -, -, hb⟩ := hst.channels h.ring h.outputs h.separate (by rw [h.inputs]; decide) (by decide)
  have hwin : m.window = 16000 := by
    rw [window, h.writeTimestamp, h.readTimestamp]
    rfl
  have hptr : m.writePtr = 0 := by
    rw [h.ring.writePtr, hwin, h.readPtr]
    decide
  have hslot (buf : Nat → Int) :
      (Ring.fold bufferEnd (fun _ x => x) (pcmChunk 1 17000 1 300).pcm buf 0).1 0 = 300 :=
    Ring.fold_hit (pcmChunk 1 17000 1 300).pcm (j := 0) (by decide) (by decide) (by decide)
  have hlen : (pcmChunk 1 17000 1 300).pcm.length = 1 := by decide
  have hmax : max (17000 : UInt32).toNat ((17000 : UInt32).toNat + 1) = 17001 := by decide
  have hchan := congrFun (hb 0) 0
  rw [h.writeTimestamp, hlen, hmax, storeChannel, h.writeTimestamp, hptr, if_pos (by decide)] at hchan
  have hchan : (m.step stereoConfig (some (pcmChunk 1 17000 1 300))).chanBuffer 0 0 = 300 :=
    hchan.trans (hslot _)
  rw [tapeSlot, if_neg (by decide), if_pos rfl, tapeSample_eq, h'.inputs, paritySum_succ,
    if_pos rfl, hchan]
  rfl

theorem Epoch.call_stores {e : Epoch} {chunk : Option AudioChunk} {c : AudioChunk} {t : UInt32}
    {cs : List AudioChunk} (hst : m.Stores cfg chunk c t)
    (hq : (m.step cfg chunk).outputQueue = m.outputQueue ++ cs) :
    e.call m cfg chunk =
      (none, { stored := e.stored ++ onChannel c [(t.toNat, c.pcm)]
               shipped := e.shipped ++ stamp m.readTimestamp.toNat cs }) := by
  obtain ⟨hp, hw, hf, hd⟩ := hst
  have hstored : m.storedBy cfg chunk = [(t.toNat, c.pcm)] := by
    unfold storedBy
    rw [hp]
    exact if_pos ⟨hw, hf, hd⟩
  rw [Epoch.call_goesOn hp (fun ho => ho.2.elim hw fun hn => hn hf) hq, hstored]

/-- The end of the stream ships what a quiet mixer has. -/
theorem Quiet.flush {last : AudioChunk} (h : Quiet m 17001 last) :
    ∃ c cs, (m.step stereoConfig (some eosChunk)).outputQueue = m.outputQueue ++ c :: cs ∧
      FromRing m stereoConfig 1001 ⟨1000, c⟩ := by
  obtain ⟨m', hs⟩ := m.createShipment_isOk stereoConfig true
  have hstep : m.step stereoConfig (some eosChunk) = m' := by
    unfold RtpMixer.step audioChunkIn
    rw [h.error]
    simp only [Bool.false_eq_true, if_false, eosChunk, if_true, hs]
  obtain ⟨n, hn, -, hship, -, hrt, -⟩ := h.ring.ship (.inl rfl) hs
  obtain ⟨cs, hq, hring⟩ := createShipment_tape h.ring h.outputs (by decide) (.inl rfl) hs
  have hn1 : n = 1 := by
    rw [hn, h.usedSpace]
    decide
  rw [hn1, h.readTimestamp] at hrt
  rw [h.readTimestamp, hrt] at hring
  cases cs with
  | nil =>
    have hlen := congrArg List.length hship
    simp [shipped, hq, h.outputQueue, hn1] at hlen
  | cons c cs => exact ⟨c, cs, hstep ▸ hq, hring ⟨1000, c⟩ (by simp [stamp])⟩

/-- The sample at timestamp 1000 is 300 and not 100. -/
theorem not_stereo_fullBuffer :
    ¬ ∀ e ∈ epochs stereoConfig (fresh (fun _ => 0) 2) {} (fullBuffer ++ [some eosChunk]),
      ∀ s ∈ e.shipped, Stereo stereoConfig e.stored s := by
  intro hall
  have ho : (fresh (fun _ => 0) 2).Opens stereoConfig (some (pcmChunk 1 1000 2 100))
      (pcmChunk 1 1000 2 100) 1000 := ⟨rfl, rfl, .inl rfl⟩
  have h₁ := quiet_first
  have hq₁ : ((fresh (fun _ => 0) 2).step stereoConfig
      (some (pcmChunk 1 1000 2 100))).outputQueue = (fresh (fun _ => 0) 2).outputQueue ++ [] := by
    rw [h₁.outputQueue]
    rfl
  rw [fullBuffer, List.cons_append, epochs, Epoch.call_opens ho hq₁] at hall
  generalize (fresh (fun _ => 0) 2).step stereoConfig _ = m₁ at h₁ hall
  obtain ⟨hst₂, h₂⟩ := h₁.step (t := 16998) (n := 2) (x := 200) (by decide) (by decide) (by decide)
    (by decide) (by decide) (by decide) (by decide)
  rw [show UInt32.ofNat (max (1002 : UInt32).toNat ((16998 : UInt32).toNat + 2)) = 17000 by decide] at h₂
  have hq₂ : (m₁.step stereoConfig (some (pcmChunk 1 16998 2 200))).outputQueue =
      m₁.outputQueue ++ [] := by
    rw [h₂.outputQueue, h₁.outputQueue]
    rfl
  rw [List.cons_append, epochs, Epoch.call_stores hst₂ hq₂] at hall
  generalize m₁.step stereoConfig _ = m₂ at h₂ hall
  obtain ⟨hst₃, h₃, hslot⟩ := h₂.overwrites
  have hq₃ : (m₂.step stereoConfig (some (pcmChunk 1 17000 1 300))).outputQueue =
      m₂.outputQueue ++ [] := by
    rw [h₃.outputQueue, h₂.outputQueue]
    rfl
  rw [List.cons_append, epochs, Epoch.call_stores hst₃ hq₃] at hall
  generalize m₂.step stereoConfig _ = m₃ at h₃ hslot hall
  obtain ⟨c, cs, hq, hring⟩ := h₃.flush
  have hnone : m₃.placed stereoConfig (some eosChunk) = none := by simp [placed, eosChunk]
  simp only [List.nil_append, epochs, Epoch.call_none hnone hq, h₃.readTimestamp] at hall
  have hlast := hall _ (List.mem_append_right _ (List.mem_append_right _ (List.mem_append_right _
    (List.mem_append_right _ (List.mem_singleton_self _)))))
  have hstereo := hlast ⟨1000, c⟩ (List.mem_append_right _ List.mem_cons_self)
  have hpos : 0 < (Shipped.mk 1000 c).samples := Nat.pos_of_ne_zero hring.nonempty
  have hbuf := hring.buffers.symm.trans hstereo.buffers
  have hsome := congrArg (fun l => l[1]?) hbuf
  simp only [List.getElem?_map, List.getElem?_range (show 1 < 2 by decide),
    Option.map_some, Option.some.injEq] at hsome
  have hhead := congrArg (fun l => l[0]?) hsome
  simp only [List.getElem?_map, List.getElem?_range hpos, Option.map_some, Option.some.injEq,
    h₃.readPtr, h₃.readTimestamp] at hhead
  rw [show (0 + (1000 - (1000 : UInt32).toNat + 0)) % bufferEnd = 0 by decide, hslot] at hhead
  exact absurd hhead (by decide +kernel)

/-- Three channels on three tape channels, the third one from the middle of the call on. -/
theorem stereo_threeChannels :
    ((fresh (fun _ => 9) 2).run { tapeNumChannels := 3 } [some (pcmChunk 1 1000 2 100),
      some (pcmChunk 2 50 1 7), some (pcmChunk 3 1000 1 32700), some eosChunk]).outputQueue.length = 1 ∧
    ∀ e ∈ epochs { tapeNumChannels := 3 } (fresh (fun _ => 9) 2) {} [some (pcmChunk 1 1000 2 100),
      some (pcmChunk 2 50 1 7), some (pcmChunk 3 1000 1 32700), some eosChunk],
        ∀ s ∈ e.shipped, Stereo { tapeNumChannels := 3 } e.stored s :=
  ⟨by decide, (stereo_of_no_exactFit { tapeNumChannels := 3 } (by decide) (fun _ => 9) _
    (by decide)).1⟩

end RtpMixer

end Oreka.Mixer
