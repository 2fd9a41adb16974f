import Oreka.Lib.Timeline
import Oreka.Mixer.Proof.RingInv

/-!
# The mixer refines a plain mix on an unbounded timeline

An epoch starts when a call opens a window. From then on the mixer is compared with the list of the
pieces it stored (`reference`: the left-to-right saturating sum of what was stored at a timestamp):
it `Tracks` them when the ring shows the reference between the read and the write timestamp and the
samples shipped since the epoch started are the reference up to the read timestamp. A store and a
shipment keep this as long as the window fits into the buffer (`Tracks.store`, `Tracks.ship`), so at
the end of the stream the whole mix has been shipped; it has not, when some chunk was an exact fit
(`Tracks.flush_iff`).
-/

namespace Oreka.Mixer

namespace RtpMixer

variable {cfg : MixerConfig} {m m' : RtpMixer}

/-- The sum at a timestamp of the pieces stored so far, oldest first; 0 where none was stored. -/
def reference (stored : List (Nat × List Int)) (t : Nat) : Int :=
  Timeline.at (fun a x => saturate (a + x)) 0 stored t

/-- The timestamp after the last one written in an epoch that starts at `first`. -/
def lastWrite (first : Nat) (stored : List (Nat × List Int)) : Nat := Timeline.last first stored

/-- `n` timestamps of the reference from `first` on. -/
def mixdown (stored : List (Nat × List Int)) (first n : Nat) : List Int :=
  (List.range n).map fun j => reference stored (first + j)

/-- What a call stores into the window there is. -/
def storedBy (m : RtpMixer) (cfg : MixerConfig) (chunk : Option AudioChunk) :
    List (Nat × List Int) :=
  match m.placed cfg chunk with
  | some (c, t) =>
    if m.writeTimestamp ≠ 0 ∧ m.fits c t ∧ ¬ m.dismisses c t then [(t.toNat, c.pcm)] else []
  | none => []

/-- What the calls of a run store. -/
def storedIn (cfg : MixerConfig) : RtpMixer → List (Option AudioChunk) → List (Nat × List Int)
  | _, [] => []
  | m, chunk :: chunks => m.storedBy cfg chunk ++ storedIn cfg (m.step cfg chunk) chunks

/-- What the call that opens the epoch stores: its chunk, unless it has a buffer or more. -/
def openedBy (c : AudioChunk) (t : UInt32) : List (Nat × List Int) :=
  if t.toNat + c.pcm.length < 4294967296 ∧ c.pcm.length < bufferEnd then
    [(t.toNat, c.pcm)]
  else []

/-- The mixer tracks the pieces stored in an epoch that started at `first`, with `base` shipped
before. -/
structure Tracks (m : RtpMixer) (base : List Int) (first : Nat) (stored : List (Nat × List Int)) :
    Prop where
  ring : RingInv m
  first_le : first ≤ m.readTimestamp.toNat
  last : m.writeTimestamp.toNat = lastWrite first stored
  length : m.shipped.length = base.length + (m.readTimestamp.toNat - first)
  mixed : m.window < bufferEnd →
    m.shipped = base ++ mixdown stored first (m.readTimestamp.toNat - first) ∧
      Timeline.Shows bufferEnd (reference stored) m.buffer m.readPtr m.readTimestamp.toNat m.window

theorem mixdown_add (stored : List (Nat × List Int)) (first a b : Nat) :
    mixdown stored first (a + b) = mixdown stored first a ++ mixdown stored (first + a) b := by
  unfold mixdown
  rw [List.range_add, List.map_append, List.map_map]
  congr 1
  refine List.map_congr_left fun j _ => ?_
  rw [Function.comp_apply, Nat.add_assoc]

theorem mixdown_congr {stored stored' : List (Nat × List Int)} {first n : Nat}
    (h : ∀ t < first + n, reference stored t = reference stored' t) :
    mixdown stored first n = mixdown stored' first n :=
  List.map_congr_left fun j hj => h _ (by rw [List.mem_range] at hj; omega)

/-- The silence of a store, up to `w`, in a ring that shares the pointers of the mixer. -/
theorem silence_shows (hi : RingInv m) {f : Nat → Int} {buf : Nat → Int} {w : Nat}
    (hf : Timeline.Shows bufferEnd f buf m.readPtr m.readTimestamp.toNat m.window)
    (hz : ∀ s, m.writeTimestamp.toNat ≤ s → f s = 0) (hw : m.writeTimestamp.toNat ≤ w)
    (hfit : w - m.readTimestamp.toNat < bufferEnd) :
    Timeline.Shows bufferEnd f
      (Ring.fold bufferEnd (fun _ _ => 0) (List.replicate (w - m.writeTimestamp.toNat) ()) buf
        m.writePtr).1 m.readPtr m.readTimestamp.toNat (w - m.readTimestamp.toNat) := by
  have hle := hi.le
  have hwin : m.window = m.writeTimestamp.toNat - m.readTimestamp.toNat := rfl
  have hext := hf.extend (k := w - m.writeTimestamp.toNat) (by omega)
    (fun s hs => hz s (by omega))
  rwa [← hi.writePtr, show m.window + (w - m.writeTimestamp.toNat) = w - m.readTimestamp.toNat by
    omega] at hext

/-- The samples of a store, for a piece that ends at `w` or before, in such a ring. -/
theorem samples_shows (hi : RingInv m) {g : Int → Int → Int} {f : Nat → Int} {buf : Nat → Int}
    (samples : List Int) {w t : Nat}
    (hf : Timeline.Shows bufferEnd f buf m.readPtr m.readTimestamp.toNat
      (w - m.readTimestamp.toNat)) (hw : m.writeTimestamp.toNat ≤ w)
    (hfit : w - m.readTimestamp.toNat < bufferEnd) (ht : m.readTimestamp.toNat ≤ t)
    (htw : t + samples.length ≤ w) :
    Timeline.Shows bufferEnd
      (fun s => Timeline.combine g (f s) (Timeline.sampleAt (t, samples) s))
      (Ring.fold bufferEnd g samples buf (circularPointerSubtractOffset
        ((m.writePtr + (w - m.writeTimestamp.toNat)) % bufferEnd) (w - t))).1
      m.readPtr m.readTimestamp.toNat (w - m.readTimestamp.toNat) := by
  rw [hi.storePtr_eq hw ht (by omega) (by omega)]
  exact hf.combine hfit.le ht (by omega)

/-- What a store makes of the buffer, for a piece that ends at `w` or before. -/
theorem storeBuffer_shows (hi : RingInv m) {f : Nat → Int} (samples : List Int) {w t : Nat}
    (hf : Timeline.Shows bufferEnd f m.buffer m.readPtr m.readTimestamp.toNat m.window)
    (hz : ∀ s, m.writeTimestamp.toNat ≤ s → f s = 0) (hw : m.writeTimestamp.toNat ≤ w)
    (hfit : w - m.readTimestamp.toNat < bufferEnd) (ht : m.readTimestamp.toNat ≤ t)
    (htw : t + samples.length ≤ w) :
    Timeline.Shows bufferEnd
      (fun s => Timeline.combine (fun a x => saturate (a + x)) (f s)
        (Timeline.sampleAt (t, samples) s))
      (m.storeBuffer samples w t) m.readPtr m.readTimestamp.toNat (w - m.readTimestamp.toNat) := by
  unfold storeBuffer
  dsimp only
  rw [if_pos (by omega)]
  exact samples_shows hi samples (silence_shows hi hf hz hw hfit) hw hfit ht htw

namespace Tracks

variable {base : List Int} {first : Nat} {stored : List (Nat × List Int)}

theorem of_sameRing (h : Tracks m base first stored) (hr : SameRing m m') :
    Tracks m' base first stored where
  ring := h.ring.of_sameRing hr
  first_le := hr.readTimestamp ▸ h.first_le
  last := hr.writeTimestamp ▸ h.last
  length := by
    unfold shipped
    rw [hr.outputQueue, hr.readTimestamp]
    exact h.length
  mixed := by
    unfold window shipped
    rw [hr.outputQueue, hr.readTimestamp, hr.writeTimestamp, hr.buffer, hr.readPtr]
    exact h.mixed

/-- A shipment hands over the part of the reference that leaves the window. -/
theorem ship (h : Tracks m base first stored) {force : Bool}
    (hf : force = true ∨ m.numSampleTrigger < m.usedSpace)
    (hs : m.createShipment cfg force = .ok m') : Tracks m' base first stored := by
  obtain ⟨hi', hwin⟩ := h.ring.ship_window hf hs
  obtain ⟨n, hn, -, hship, hrp, hrt, hwt, hbuf, -⟩ := h.ring.ship hf hs
  have hfirst := h.first_le
  have hnu : n ≤ m.window := by
    rw [hn, h.ring.usedSpace_eq]
    exact (Nat.sub_le ..).trans (Nat.mod_le ..)
  have hadd : m.readTimestamp.toNat + n - first = m.readTimestamp.toNat - first + n := by omega
  refine ⟨hi', by omega, hwt ▸ h.last, ?_, fun hlt => ?_⟩
  · rw [hship, hrt, hadd, List.length_append, Ring.length_read, h.length, Nat.add_assoc]
  · obtain ⟨hmix, hshows⟩ := h.mixed (hwin.1 hlt)
    have hwin' : m'.window = m.window - n := by
      unfold window
      rw [hrt, hwt]
      omega
    rw [hship, hmix, hrt, hrp, hbuf, hwin', hadd, mixdown_add, hshows.read hnu, List.append_assoc]
    refine ⟨?_, hshows.drop n⟩
    rw [Nat.add_sub_cancel' hfirst]
    rfl

/-- A store adds its piece to the reference. -/
theorem store (h : Tracks m base first stored) {c : AudioChunk} {t : UInt32}
    (ht : m.readTimestamp.toNat ≤ t.toNat) (hd : ¬ m.dismisses c t)
    (hs : m.storeRtpPacket c t = .ok m') :
    Tracks m' base first (stored ++ [(t.toNat, c.pcm)]) := by
  have hi := h.ring
  obtain ⟨hi', hrt, hwt, hq, -⟩ := hi.store hs
  rw [if_neg hd] at hwt
  have hship : m'.shipped = m.shipped := by
    unfold shipped
    rw [hq]
  refine ⟨hi', hrt ▸ h.first_le, ?_, by rw [hship, hrt]; exact h.length, fun hlt => ?_⟩
  · rw [hwt, lastWrite, Timeline.last_append, h.last]
    rfl
  have hle := hi.le
  have hwin' : m'.window = m.window + (m'.writeTimestamp.toNat - m.writeTimestamp.toNat) := by
    unfold window
    rw [hrt]
    omega
  obtain ⟨hmix, hshows⟩ := h.mixed (by omega)
  constructor
  · -- the piece lies behind what is shipped
    rw [hship, hrt, hmix]
    congr 1
    refine mixdown_congr fun s hs => ?_
    have hfirst := h.first_le
    have hnone : Timeline.sampleAt (t.toNat, c.pcm) s = none := if_neg (by dsimp only; omega)
    rw [reference, reference, Timeline.at_append, hnone, Timeline.combine]
  · rcases storeRtpPacket_cases hi.writePtr_lt hs with ⟨hd', -⟩ | ⟨-, chs, w, hw, rfl⟩
    · exact absurd hd' hd
    have hlast : (UInt32.ofNat w).toNat = w := hwt.trans hw.symm
    have hz (s : Nat) (hs : m.writeTimestamp.toNat ≤ s) : reference stored s = 0 :=
      Timeline.at_of_last_le (h.last ▸ hs)
    unfold window at hlt ⊢
    dsimp only at hlt ⊢
    rw [hlast] at hlt ⊢
    have hb := storeBuffer_shows hi c.pcm hshows hz (by omega) hlt ht (by omega)
    rwa [show reference (stored ++ [(t.toNat, c.pcm)]) = _ from
      funext fun s => Timeline.at_append 0 stored _ s]

/-- The start of an epoch. -/
theorem of_empty (hi : RingInv m) {t : UInt32} (hr : m.readTimestamp = t)
    (hw : m.writeTimestamp = t) : Tracks m m.shipped t.toNat [] := by
  have hwin : m.window = 0 := by
    unfold window
    rw [hr, hw, Nat.sub_self]
  refine ⟨hi, hr ▸ le_rfl, hw ▸ rfl, by rw [hr, Nat.sub_self]; rfl, fun _ => ?_⟩
  rw [hwin, hr, Nat.sub_self]
  exact ⟨(List.append_nil _).symm, fun j hj => absurd hj (Nat.not_lt_zero j)⟩

end Tracks

/-! ## One call of an epoch -/

theorem storedBy_eq_nil {chunk : Option AudioChunk} (h : ∀ c t, ¬ m.Stores cfg chunk c t) :
    m.storedBy cfg chunk = [] := by
  unfold storedBy
  split
  · rename_i c t hp
    exact if_neg fun hs => h c t ⟨hp, hs⟩
  · rfl

theorem storedBy_of_placed_none {chunk : Option AudioChunk} (h : m.placed cfg chunk = none) :
    m.storedBy cfg chunk = [] := by
  unfold storedBy
  rw [h]

/-- **The step lemma**: within an epoch the mixer tracks what the call stores. -/
theorem Tracks.step {base : List Int} {first : Nat} {stored : List (Nat × List Int)}
    (h : Tracks m base first stored) (he : m.error = false) {chunk : Option AudioChunk}
    (hno : ∀ c t, ¬ m.Opens cfg chunk c t) (hsz : ∀ c, chunk = some c → ¬ c.getNumBytes > 100000) :
    Tracks (m.step cfg chunk) base first (stored ++ m.storedBy cfg chunk) ∧
      (m.step cfg chunk).error = false := by
  unfold RtpMixer.step
  cases hc : m.audioChunkIn cfg chunk with
  | error e =>
    rw [storedBy_of_placed_none (placed_of_error hc), List.append_nil]
    exact ⟨h, he⟩
  | ok m' =>
    cases audioChunkIn_cases hc with
    | idle hr hidle =>
      rw [storedBy_eq_nil fun c t => (hidle c t).1, List.append_nil]
      exact ⟨h.of_sameRing hr, hr.error.trans he⟩
    | tooBig c hc hbig => exact absurd hbig (hsz c hc)
    | flush _ hp hs =>
      rw [storedBy_of_placed_none hp, List.append_nil]
      obtain ⟨-, -, -, -, -, -, -, -, he'⟩ := h.ring.ship (.inl rfl) hs
      exact ⟨h.ship (.inl rfl) hs, he'.trans he⟩
    | first m₁ c t hr ho => exact absurd ho (hno c t)
    | reset m₁ m₂ m₃ c t hr ho => exact absurd ho (hno c t)
    | store m₁ m₂ c t hr hp hlen hw0 hf h₂ hship =>
      have h₁ := h.of_sameRing hr
      have hdis : m₁.dismisses c t ↔ m.dismisses c t := by
        unfold dismisses
        rw [hr.writeTimestamp]
      obtain ⟨-, -, -, -, he₂⟩ := h₁.ring.store h₂
      have hstored : Tracks m₂ base first (stored ++ m.storedBy cfg chunk) := by
        unfold storedBy
        rw [hp]
        dsimp only
        by_cases hd : m.dismisses c t
        · rw [if_neg fun h => h.2.2 hd, List.append_nil]
          rcases storeRtpPacket_cases h₁.ring.writePtr_lt h₂ with ⟨-, rfl⟩ | ⟨hd', -⟩
          · exact h₁
          · exact absurd (hdis.2 hd) hd'
        · rw [if_pos ⟨hw0, hf, hd⟩]
          exact h₁.store (hr.readTimestamp ▸ UInt32.le_iff_toNat_le.1 hf.1) (fun h => hd (hdis.1 h)) h₂
      have he₂' := he₂.trans (hr.error.trans he)
      rcases hship with ⟨-, rfl⟩ | ⟨htr, hship⟩
      · exact ⟨hstored, he₂'⟩
      · obtain ⟨-, -, -, -, -, -, -, -, he'⟩ := hstored.ring.ship (.inr htr) hship
        exact ⟨hstored.ship (.inr htr) hship, he'.trans he₂'⟩

/-- A chunk stored into an empty window at its own timestamp starts an epoch. -/
theorem tracks_openedBy (hi : RingInv m) {c : AudioChunk} {t : UInt32} (hr : m.readTimestamp = t)
    (hw : m.writeTimestamp = t) (h : m.storeRtpPacket c t = .ok m') :
    Tracks m' m'.shipped t.toNat (openedBy c t) := by
  obtain ⟨-, -, -, hq, -⟩ := hi.store h
  have hship : m'.shipped = m.shipped := by
    unfold shipped
    rw [hq]
  have h₀ := Tracks.of_empty hi hr hw
  rw [hship, openedBy]
  by_cases hd : m.dismisses c t
  · rw [if_neg]
    · rcases storeRtpPacket_cases hi.writePtr_lt h with ⟨-, rfl⟩ | ⟨hd', -⟩
      · exact h₀
      · exact absurd hd hd'
    · unfold dismisses at hd
      rw [hw] at hd
      omega
  · rw [if_pos]
    · exact h₀.store (hr ▸ le_rfl) hd h
    · unfold dismisses at hd
      rw [hw] at hd
      omega

/-- The call that opens a window starts an epoch. -/
theorem Opens.tracks (hi : RingInv m) {chunk : Option AudioChunk} {c : AudioChunk} {t : UInt32}
    (ho : m.Opens cfg chunk c t) :
    Tracks (m.step cfg chunk) (m.step cfg chunk).shipped t.toNat (openedBy c t) ∧
      (m.step cfg chunk).error = false ∧ (m.step cfg chunk).window < bufferEnd := by
  have hcall : ∃ m', m.audioChunkIn cfg chunk = .ok m' := by
    cases hc : m.audioChunkIn cfg chunk with
    | ok m' => exact ⟨m', rfl⟩
    | error e => cases (placed_of_error hc).symm.trans ho.1
  obtain ⟨m', hc⟩ := hcall
  have he : m.error = false := by
    by_contra he
    have hp := ho.1
    unfold placed at hp
    split at hp
    · cases hp
    · rw [if_pos (.inl (by simpa using he))] at hp
      cases hp
  rw [show m.step cfg chunk = m' by rw [RtpMixer.step, hc]]
  cases audioChunkIn_cases hc with
  | idle hr hidle => exact absurd ho (hidle c t).2
  | tooBig _ _ _ hp => cases hp.symm.trans ho.1
  | flush _ hp => cases hp.symm.trans ho.1
  | first m₁ c' t' hr ho' hw0 h =>
    cases ho'.1.symm.trans ho.1
    have hi₁ := (hi.of_sameRing hr).first (hr.writeTimestamp.trans hw0) t true
    obtain ⟨-, -, -, -, he'⟩ := hi₁.store h
    exact ⟨tracks_openedBy hi₁ rfl rfl h, he'.trans (hr.error.trans he),
      (hi₁.store_empty rfl rfl h).2⟩
  | reset m₁ m₂ m₃ c' t' hr ho' hw0 h₂ h₃ heq =>
    cases ho'.1.symm.trans ho.1
    obtain ⟨-, -, hi₂, -, -, -, -, -, he₂⟩ := (hi.of_sameRing hr).ship (.inl rfl) h₂
    have hi₂' := hi₂.reset t
    obtain ⟨-, -, -, -, he₃⟩ := hi₂'.store h₃
    obtain ⟨⟨h1, h2, h3, h4, h5⟩, h6, h7, h8, h9⟩ := tracks_openedBy hi₂' rfl rfl h₃
    subst heq
    exact ⟨⟨⟨h1, h2, h3, h4, h5⟩, h6, h7, h8, h9⟩, he₃.trans (he₂.trans (hr.error.trans he)),
      (hi₂'.store_empty rfl rfl h₃).2⟩
  | store m₁ m₂ c' t' hr hp hlen hw0 hf =>
    cases hp.symm.trans ho.1
    exact absurd ho.2.2 (not_or.2 ⟨hw0, not_not.2 hf⟩)

/-! ## A whole epoch -/

/-- The calls of an epoch: none opens another window, and none has a chunk that is too big. -/
def InEpoch (cfg : MixerConfig) (m : RtpMixer) (chunk : Option AudioChunk) : Prop :=
  (∀ c t, ¬ m.Opens cfg chunk c t) ∧ ∀ c, chunk = some c → ¬ c.getNumBytes > 100000

instance (cfg : MixerConfig) (m : RtpMixer) (chunk : Option AudioChunk) :
    Decidable (InEpoch cfg m chunk) :=
  decidable_of_iff ((∀ ct ∈ m.placed cfg chunk, ¬ (ct.1.details.channel = 1 ∧
      (m.writeTimestamp = 0 ∨ ¬ m.fits ct.1 ct.2))) ∧ ∀ c ∈ chunk, ¬ c.getNumBytes > 100000)
    (and_congr ⟨fun h c t ho => h (c, t) ho.1 ho.2, fun h ct hp ho => h ct.1 ct.2 ⟨hp, ho⟩⟩ Iff.rfl)

/-- **The run lemma.** -/
theorem Tracks.run {base : List Int} {first : Nat} :
    ∀ {chunks : List (Option AudioChunk)} {m : RtpMixer} {stored : List (Nat × List Int)},
      Tracks m base first stored → m.error = false →
      Run.Meets (fun m => RtpMixer.step m cfg) (InEpoch cfg) m chunks →
      Tracks (m.run cfg chunks) base first (stored ++ storedIn cfg m chunks) ∧
        (m.run cfg chunks).error = false
  | [], m, stored, h, he, _ => ⟨by rwa [storedIn, List.append_nil], he⟩
  | chunk :: chunks, m, stored, h, he, hin => by
    obtain ⟨h', he'⟩ := h.step he hin.1.1 hin.1.2
    rw [storedIn, ← List.append_assoc]
    exact Tracks.run h' he' hin.2

/-- The window fits into the buffer at the end of an epoch exactly when no call was an exact fit. -/
theorem window_run : ∀ {chunks : List (Option AudioChunk)} {m : RtpMixer}, RingInv m →
    Run.Meets (fun m => RtpMixer.step m cfg) (InEpoch cfg) m chunks →
    ((m.run cfg chunks).window < bufferEnd ↔ m.window < bufferEnd ∧
      Run.Meets (fun m => RtpMixer.step m cfg) (fun m chunk => ¬ m.ExactFit cfg chunk) m chunks)
  | [], m, _, _ => ⟨fun h => ⟨h, trivial⟩, fun h => h.1⟩
  | chunk :: chunks, m, hi, hin => by
    obtain ⟨hi', hlt, hge⟩ := step_ringInv cfg hi chunk
    have hstep : (m.step cfg chunk).window < bufferEnd ↔
        m.window < bufferEnd ∧ ¬ m.ExactFit cfg chunk := by
      by_cases hw : m.window < bufferEnd
      · rw [hlt hw]
        exact ⟨fun h => ⟨hw, h⟩, fun h => h.2⟩
      · exact ⟨fun h => absurd (hge (not_lt.1 hw) hin.1.1) (not_le.2 h), fun h => absurd h.1 hw⟩
    have ih := window_run hi' hin.2
    rw [hstep, and_assoc] at ih
    exact ih

/-- The end-of-stream chunk ships the rest of the mix, if the window fits into the buffer; if not,
part of the mix is lost. -/
theorem Tracks.flush_iff {base : List Int} {first : Nat} {stored : List (Nat × List Int)}
    (h : Tracks m base first stored) (he : m.error = false) {eos : AudioChunk}
    (hm : eos.details.marker = mediaChunkEosMarker) :
    (m.step cfg (some eos)).shipped =
      base ++ mixdown stored first (lastWrite first stored - first) ↔ m.window < bufferEnd := by
  obtain ⟨m', hs⟩ := m.createShipment_isOk cfg true
  have hstep : m.step cfg (some eos) = m' := by
    unfold RtpMixer.step audioChunkIn
    rw [he]
    simp only [Bool.false_eq_true, if_false, hm, if_true, hs]
  rw [hstep]
  obtain ⟨n, hn, -, -, -, hrt, hwt, -⟩ := h.ring.ship (.inl rfl) hs
  have h' := h.ship (.inl rfl) hs
  have hwin := (h.ring.ship_window (.inl rfl) hs).2
  have hu := h.ring.usedSpace_eq
  have hle := h.ring.le
  have hwdef : m.window = m.writeTimestamp.toNat - m.readTimestamp.toNat := rfl
  rw [if_pos rfl, Nat.sub_zero, hu] at hn
  constructor
  · intro hship
    have hlen := congrArg List.length hship
    rw [h'.length, List.length_append, mixdown, List.length_map, List.length_range, ← h.last] at hlen
    have hfirst := h.first_le
    by_contra hge
    have hlt : n < m.window := by
      rw [hn]
      exact lt_of_lt_of_le (Nat.mod_lt _ (by decide)) (not_lt.1 hge)
    omega
  · intro hlt
    rw [Nat.mod_eq_of_lt hlt] at hn
    rw [(h'.mixed (hwin.2 hlt)).1, ← h.last]
    congr 3
    omega

theorem run_append (m : RtpMixer) (cfg : MixerConfig) (l l' : List (Option AudioChunk)) :
    m.run cfg (l ++ l') = (m.run cfg l).run cfg l' := List.foldl_append ..

theorem run_cons (m : RtpMixer) (cfg : MixerConfig) (chunk : Option AudioChunk)
    (l : List (Option AudioChunk)) : m.run cfg (chunk :: l) = (m.step cfg chunk).run cfg l := rfl

theorem run_ringInv (cfg : MixerConfig) (chunks : List (Option AudioChunk)) (hi : RingInv m) :
    RingInv (m.run cfg chunks) :=
  Run.inv_foldl (P := RingInv) (fun _ chunk hi => (step_ringInv cfg hi chunk).1) chunks hi

/-- An epoch that starts with the call `opening` of a mixer `m`: what it ships by its end. -/
theorem epoch_iff (hi : RingInv m) {opening : Option AudioChunk} {c : AudioChunk} {t : UInt32}
    (ho : m.Opens cfg opening c t) (chunks : List (Option AudioChunk))
    (hin : Run.Meets (fun m => step m cfg) (InEpoch cfg) (m.step cfg opening) chunks)
    (eos : AudioChunk) (heos : eos.details.marker = mediaChunkEosMarker) :
    let stored := openedBy c t ++ storedIn cfg (m.step cfg opening) chunks
    ((m.step cfg opening).run cfg (chunks ++ [some eos])).shipped =
        (m.step cfg opening).shipped ++
          mixdown stored t.toNat (lastWrite t.toNat stored - t.toNat) ↔
      Run.Meets (fun m => step m cfg) (fun m chunk => ¬ m.ExactFit cfg chunk) (m.step cfg opening)
        chunks := by
  intro stored
  obtain ⟨htr, he, hw⟩ := ho.tracks hi
  obtain ⟨htr', he'⟩ := htr.run he hin
  rw [run_append, show ∀ m : RtpMixer, m.run cfg [some eos] = m.step cfg (some eos) from
    fun _ => rfl, htr'.flush_iff he' heos, window_run htr.ring hin]
  exact ⟨fun h => h.2, fun h => ⟨hw, h⟩⟩

/-- **The shipped audio of an epoch is the reference mix, from its first to its last timestamp, once
each and in order, exactly when no chunk of it was an exact fit.** -/
theorem shipped_eq_mixdown_iff (cfg : MixerConfig) (stale : Nat → Int) (numOutputChannels : Nat)
    (before : List (Option AudioChunk)) (opening : Option AudioChunk) (c : AudioChunk) (t : UInt32)
    (chunks : List (Option AudioChunk)) (eos : AudioChunk)
    (ho : ((fresh stale numOutputChannels).run cfg before).Opens cfg opening c t)
    (hin : Run.Meets (fun m => step m cfg) (InEpoch cfg)
      ((fresh stale numOutputChannels).run cfg (before ++ [opening])) chunks)
    (heos : eos.details.marker = mediaChunkEosMarker) :
    let m₁ := (fresh stale numOutputChannels).run cfg (before ++ [opening])
    let stored := openedBy c t ++ storedIn cfg m₁ chunks
    (m₁.run cfg (chunks ++ [some eos])).shipped =
        m₁.shipped ++ mixdown stored t.toNat (lastWrite t.toNat stored - t.toNat) ↔
      Run.Meets (fun m => step m cfg) (fun m chunk => ¬ m.ExactFit cfg chunk) m₁ chunks := by
  have hi := run_ringInv cfg before (fresh_ringInv stale numOutputChannels)
  rw [run_append] at hin ⊢
  exact epoch_iff hi ho chunks hin eos heos

def eosChunk : AudioChunk where
  details := { marker := mediaChunkEosMarker }

/-- Two overlapping chunks. -/
theorem shipped_eq_mixdown_overlap :
    ((fresh (fun _ => 9) 1).run {} [some (pcmChunk 1 1000 2 100), some (pcmChunk 1 1001 2 32700),
      some eosChunk]).shipped = [100, 32767, 32700] := by
  have h := (shipped_eq_mixdown_iff {} (fun _ => 9) 1 [] (some (pcmChunk 1 1000 2 100))
    (pcmChunk 1 1000 2 100) 1000 [some (pcmChunk 1 1001 2 32700)] eosChunk
    ⟨rfl, rfl, .inl rfl⟩ (by decide) rfl).2 (by decide)
  exact h.trans (by decide)

/-- The second packet fills the buffer: the mix has 16000 samples, and nothing is shipped. -/
theorem exactFit_ships_nothing :
    ((fresh (fun _ => 0) 1).run {} [some (pcmChunk 1 1000 160 100), some (pcmChunk 1 16840 160 100),
      some eosChunk]).shipped ≠
    mixdown [(1000, (pcmChunk 1 1000 160 100).pcm), (16840, (pcmChunk 1 16840 160 100).pcm)] 1000
      16000 := by
  have ho : (fresh (fun _ => 0) 1).Opens {} (some (pcmChunk 1 1000 160 100))
      (pcmChunk 1 1000 160 100) 1000 := ⟨rfl, rfl, .inl rfl⟩
  have h := epoch_iff (fresh_ringInv (fun _ => 0) 1) ho [some (pcmChunk 1 16840 160 100)]
    (by decide +kernel) eosChunk rfl
  have hbase : ((fresh (fun _ => 0) 1).step {} (some (pcmChunk 1 1000 160 100))).shipped = [] := by
    decide
  have hstored : openedBy (pcmChunk 1 1000 160 100) 1000 ++
      storedIn {} ((fresh (fun _ => 0) 1).step {} (some (pcmChunk 1 1000 160 100)))
        [some (pcmChunk 1 16840 160 100)] =
      [(1000, (pcmChunk 1 1000 160 100).pcm), (16840, (pcmChunk 1 16840 160 100).pcm)] := by
    decide +kernel
  have hlast : lastWrite 1000
      [(1000, (pcmChunk 1 1000 160 100).pcm), (16840, (pcmChunk 1 16840 160 100).pcm)] = 17000 := by
    decide +kernel
  rw [run_cons]
  simp only [hbase, hstored, List.nil_append, show (1000 : UInt32).toNat = 1000 from rfl, hlast,
    List.cons_append] at h
  exact fun hship => absurd (h.1 hship) (by decide +kernel)

end RtpMixer

end Oreka.Mixer
