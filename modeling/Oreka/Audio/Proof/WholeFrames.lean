import Mathlib.Tactic.Ring
import Oreka.Audio.OggOpusFile

/-!
# What the Opus writer encodes

`OggOpusFile.Inv`: the frames that have been encoded, followed by the samples in the side buffer, are
the samples of the chunks so far. A write keeps it as long as the writer's count of held samples is
the number it holds, and `close` then pads and encodes the rest. The count goes wrong where a short
chunk is stored behind another one: the leftover is added twice. In stereo `close` reads the mono side
buffer, which holds nothing.
-/

namespace Oreka

open Memory

namespace PcmChunk

/-- The samples of a chunk as the encoder is to get them: interleaved in stereo. -/
def audio (chan : Nat) (c : PcmChunk) : List Int :=
  if chan = 2 then c.interleave 0 c.numSamples else c.samples

/-- In stereo a chunk has its two channels. -/
def IsConfigured (chan : Nat) (c : PcmChunk) : Prop := chan = 2 → c.numChannels = 2

instance (chan : Nat) (c : PcmChunk) : Decidable (c.IsConfigured chan) :=
  inferInstanceAs (Decidable (_ → _))

theorem interleave_append (c : PcmChunk) {p q r : Nat} (hpq : p ≤ q) (hqr : q ≤ r) :
    c.interleave p q ++ c.interleave q r = c.interleave p r := by
  obtain ⟨a, rfl⟩ := Nat.exists_eq_add_of_le hpq
  obtain ⟨b, rfl⟩ := Nat.exists_eq_add_of_le hqr
  simp only [interleave, ← List.flatMap_append]
  congr 1
  rw [show p + a - p = a by omega, show p + a + b - (p + a) = b by omega,
    show p + a + b - p = a + b by omega, ← List.range'_append_1]

theorem length_interleave (c : PcmChunk) (p q : Nat) :
    (c.interleave p q).length = (q - p) * c.numChannels := by
  simp [interleave, List.length_flatMap, numChannels]

theorem copied_append (c : PcmChunk) (stereo : Bool) {p q r : Nat} (hpq : p ≤ q) (hqr : q ≤ r) :
    c.copied stereo p q ++ c.copied stereo q r = c.copied stereo p r := by
  cases stereo with
  | true => exact c.interleave_append hpq hqr
  | false =>
    obtain ⟨a, rfl⟩ := Nat.exists_eq_add_of_le hpq
    obtain ⟨b, rfl⟩ := Nat.exists_eq_add_of_le hqr
    simp only [copied, Bool.false_eq_true, if_false]
    rw [show p + a - p = a by omega, show p + a + b - (p + a) = b by omega,
      show p + a + b - p = a + b by omega, List.take_add, List.drop_drop]

section
variable {chan : Nat} (hchan : chan = 1 ∨ chan = 2)
include hchan

theorem copied_all (c : PcmChunk) : c.copied (chan == 2) 0 c.numSamples = c.audio chan := by
  obtain rfl | rfl := hchan
  · simp [copied, audio, numSamples]
  · simp [copied, audio]

theorem length_copied {c : PcmChunk} (hc : c.IsConfigured chan) {p q : Nat} (hq : q ≤ c.numSamples) :
    (c.copied (chan == 2) p q).length = chan * (q - p) := by
  obtain rfl | rfl := hchan
  · have : c.samples.length = c.numSamples := rfl
    simp [copied]
    omega
  · have : c.numChannels = 2 := hc rfl
    simp [copied, length_interleave, this, Nat.mul_comm]

end

end PcmChunk

namespace OggOpusFile

/-- The samples in the side buffer. -/
def held (s : OggOpusFile) : List Int := read (s.extraBuf (s.chan == 2)) 0 (s.extraPcmBufLen / 2)

/-- The invariant of a writer for `chan` channels that has been fed `fed`. -/
structure Inv (chan : Nat) (fed : List Int) (s : OggOpusFile) : Prop where
  configured : s.chan = chan
  isOpen : s.isOpen = true
  split : s.encoded.flatten ++ s.held = fed
  whole : PCM_SAMPLES_IN_FRAME * chan ∣ s.encoded.flatten.length
  short : ∃ e, s.extraPcmBufLen = 2 * (chan * e) ∧ e < PCM_SAMPLES_IN_FRAME ∧
    e ≤ s.extraSamplesFromLastChunk

/-- The condition on a write: where it makes frames, these fit `m_pcmBuf`, and the samples in the side
buffer are as many as the writer counts. -/
def CountsHeld (s : OggOpusFile) (c : PcmChunk) : Prop :=
  c.numSamples ≠ 0 → PCM_SAMPLES_IN_FRAME ≤ c.numSamples + s.extraSamplesFromLastChunk →
    s.extraPcmBufLen = 2 * (s.chan * s.extraSamplesFromLastChunk) ∧
    s.chan * ((c.numSamples + s.extraSamplesFromLastChunk) / PCM_SAMPLES_IN_FRAME *
      PCM_SAMPLES_IN_FRAME) ≤ pcmBufSize

instance (s : OggOpusFile) (c : PcmChunk) : Decidable (s.CountsHeld c) :=
  inferInstanceAs (Decidable (_ → _ → _))

/-- Every write meets the condition, and in stereo nothing is left for `close`. -/
def Sound : OggOpusFile → List (Option PcmChunk) → Prop
  | s, [] => s.chan = 2 → s.extraPcmBufLen = 0
  | s, c :: cs => (∀ d ∈ c, s.CountsHeld d) ∧ ∀ s' ∈ s.writeChunk c, s'.Sound cs

instance decidableSound : ∀ (s : OggOpusFile) (cs : List (Option PcmChunk)), Decidable (s.Sound cs)
  | _, [] => inferInstanceAs (Decidable (_ → _))
  | _, _ :: cs =>
    have := fun s' : OggOpusFile => decidableSound s' cs
    inferInstanceAs (Decidable (_ ∧ _))

/-! ## One write -/

section
variable {chan : Nat} {fed : List Int} {s : OggOpusFile} {c : PcmChunk}

theorem width_eq (hchan : chan = 1 ∨ chan = 2) : width (chan == 2) = chan := by
  obtain rfl | rfl := hchan <;> rfl

theorem stereo_eq (hs : s.chan = chan) (hc : c.IsConfigured chan) : s.stereo c = (chan == 2) := by
  by_cases h : chan = 2
  · simp [stereo, hs, h, hc h]
  · simp [stereo, hs, h]

theorem store_eq {size : Nat} (buf : Nat → Int) {p : Nat} {d : List Int}
    (h : p + d.length ≤ size) : store size buf p d = some (put buf p d) := by
  simp [store, h]

theorem Inv.storeSamples (hchan : chan = 1 ∨ chan = 2) (h : Inv chan fed s)
    (hc : c.IsConfigured chan)
    (hlt : c.numSamples + s.extraSamplesFromLastChunk < PCM_SAMPLES_IN_FRAME) :
    ∃ s', s.storeSamples c = some s' ∧ Inv chan (fed ++ c.audio chan) s' := by
  obtain ⟨e, hlen, he, hcount⟩ := h.short
  have hst := stereo_eq h.configured hc
  have hn : (c.audio chan).length = chan * c.numSamples := by
    rw [← PcmChunk.copied_all hchan, PcmChunk.length_copied hchan hc (Nat.le_refl _), Nat.sub_zero]
  have hfit : chan * e + (c.audio chan).length ≤ extraBufSize (chan == 2) := by
    rw [hn, ← Nat.mul_add, extraBufSize, width_eq hchan, Nat.mul_comm]
    apply Nat.mul_le_mul_right
    omega
  have hhalf : s.extraPcmBufLen / 2 = chan * e := by omega
  have hlen' : s.extraPcmBufLen + c.numSamples * 2 * chan = 2 * (chan * (e + c.numSamples)) := by
    rw [hlen]
    ring
  simp only [OggOpusFile.storeSamples, hst, PcmChunk.copied_all hchan, hhalf, store_eq _ hfit,
    width_eq hchan, hlen', Option.bind_eq_bind, Option.bind_some, Option.pure_def]
  refine ⟨_, rfl, h.configured, h.isOpen, ?_, h.whole, e + c.numSamples, rfl, by omega, by
    dsimp only; omega⟩
  have hread : 2 * (chan * (e + c.numSamples)) / 2 = chan * e + (c.audio chan).length := by
    rw [hn, ← Nat.mul_add]
    omega
  rw [← h.split]
  simp only [held, h.configured, hhalf, hread, setExtraBuf, if_true, List.append_assoc]
  rw [read_put_append]

/-- The main buffer begins with what was held, and with the samples of the chunk up to the position
that ends the last frame. -/
theorem Inv.fillPcmBuf (hchan : chan = 1 ∨ chan = 2) (h : Inv chan fed s) (hc : c.IsConfigured chan)
    (hcount : s.extraPcmBufLen = 2 * (chan * s.extraSamplesFromLastChunk)) {full pos : Nat}
    (hfull : full = s.extraSamplesFromLastChunk + pos) (hpos : pos ≤ c.numSamples)
    (hfit : chan * full ≤ pcmBufSize) :
    ∃ s', s.fillPcmBuf c full pos = some s' ∧ s'.chan = chan ∧ s'.isOpen = true ∧
      s'.encoded = s.encoded ∧ s'.extraPcmBufLen = 0 ∧
      read s'.pcmBuf 0 (chan * full) = s.held ++ c.copied (chan == 2) 0 pos := by
  have hst := stereo_eq h.configured hc
  have hn := PcmChunk.length_copied (p := 0) hchan hc hpos
  have hhalf : s.extraPcmBufLen / 2 = chan * s.extraSamplesFromLastChunk := by omega
  rw [Nat.sub_zero] at hn
  rw [hfull, Nat.mul_add] at hfit
  by_cases hzero : s.extraSamplesFromLastChunk = 0
  · have hheld : s.held = [] := by simp [held, hhalf, hzero]
    rw [hzero, Nat.mul_zero, Nat.zero_add] at hfit
    rw [hzero, Nat.zero_add] at hfull
    subst hfull
    have hst' : 0 + (c.copied (chan == 2) 0 full).length ≤ pcmBufSize := by omega
    simp only [OggOpusFile.fillPcmBuf, hst, hzero, Nat.lt_irrefl, if_false, store_eq _ hst',
      Option.bind_eq_bind, Option.bind_some, Option.pure_def, gt_iff_lt]
    refine ⟨_, rfl, h.configured, h.isOpen, rfl, by simp [hcount, hzero], ?_⟩
    rw [hheld, List.nil_append, ← hn, read_put]
  · have hlen : s.extraPcmBufLen / 2 = s.held.length := by simp [held]
    have hheld : read (s.extraBuf (chan == 2)) 0 s.held.length = s.held := by
      rw [← hlen, held, h.configured]
    rw [hlen] at hhalf
    have hfit₁ : 0 + s.held.length ≤ pcmBufSize := by omega
    have hfit₂ : s.held.length + (c.copied (chan == 2) 0 pos).length ≤ pcmBufSize := by omega
    simp only [OggOpusFile.fillPcmBuf, hst, hlen, hheld, gt_iff_lt, Nat.pos_of_ne_zero hzero, if_true,
      Int.not_lt.2 (Int.natCast_nonneg pos), if_false, Int.toNat_natCast, store_eq _ hfit₁,
      store_eq _ hfit₂, Option.bind_eq_bind, Option.bind_some, Option.pure_def]
    refine ⟨_, rfl, h.configured, h.isOpen, rfl, rfl, ?_⟩
    have hread := read_put_put s.pcmBuf 0 s.held (c.copied (chan == 2) 0 pos)
    rw [hn, hhalf, ← Nat.mul_add, ← hfull, ← hhalf, Nat.zero_add] at hread
    exact hread

/-- What is left of the chunk goes into the side buffer. -/
theorem keepExtra_spec (hchan : chan = 1 ∨ chan = 2) (hs : s.chan = chan) (hc : c.IsConfigured chan)
    (hempty : s.extraPcmBufLen = 0) {extra pos : Nat} (hpos : pos + extra = c.numSamples)
    (hlt : extra < PCM_SAMPLES_IN_FRAME) :
    ∃ s', s.keepExtra c extra pos = some s' ∧ s'.chan = chan ∧ s'.isOpen = s.isOpen ∧
      s'.encoded = s.encoded ∧ s'.pcmBuf = s.pcmBuf ∧ s'.extraPcmBufLen = 2 * (chan * extra) ∧
      s'.held = c.copied (chan == 2) pos c.numSamples := by
  have hst := stereo_eq hs hc
  have hn := PcmChunk.length_copied (p := pos) hchan hc (Nat.le_refl _)
  rw [← hpos, Nat.add_sub_cancel_left] at hn
  by_cases hzero : extra = 0
  · subst hzero
    rw [Nat.mul_zero] at hn
    refine ⟨s, by simp [OggOpusFile.keepExtra], hs, rfl, rfl, rfl, by simp [hempty], ?_⟩
    rw [← hpos, List.eq_nil_of_length_eq_zero hn]
    simp [held, hempty]
  · have hfit : 0 + (c.copied (chan == 2) pos (pos + extra)).length ≤ extraBufSize (chan == 2) := by
      rw [hn, Nat.zero_add, extraBufSize, width_eq hchan, Nat.mul_comm]
      apply Nat.mul_le_mul_right
      omega
    simp only [OggOpusFile.keepExtra, hst, gt_iff_lt, Nat.pos_of_ne_zero hzero, if_true,
      Int.not_lt.2 (Int.natCast_nonneg pos), if_false, Int.toNat_natCast, store_eq _ hfit,
      width_eq hchan, hempty, Nat.zero_add, Option.bind_eq_bind, Option.bind_some, Option.pure_def]
    refine ⟨_, rfl, hs, rfl, rfl, rfl, ?_, ?_⟩
    · ring
    · have hhalf : extra * 2 * chan / 2 = (c.copied (chan == 2) pos (pos + extra)).length := by
        rw [hn, Nat.mul_right_comm, Nat.mul_div_cancel _ Nat.two_pos, Nat.mul_comm]
      simp only [held, hs, hhalf, setExtraBuf, if_true]
      rw [read_put, hpos]

/-- The frames are the first samples of the buffer. -/
theorem flatten_frames (buf : Nat → Int) (k chan : Nat) :
    (frames buf (k * PCM_SAMPLES_IN_FRAME) chan).flatten =
      read buf 0 (chan * (k * PCM_SAMPLES_IN_FRAME)) := by
  have hblock (j : Nat) : j * PCM_SAMPLES_IN_FRAME * chan = j * (PCM_SAMPLES_IN_FRAME * chan) :=
    Nat.mul_assoc ..
  rw [frames, Nat.mul_div_cancel _ (by decide)]
  simp only [hblock]
  rw [flatten_read_blocks, ← hblock, Nat.mul_comm chan]

/-- **A write that counts what is held loses and invents nothing.** -/
theorem Inv.writeChunk (hchan : chan = 1 ∨ chan = 2) (h : Inv chan fed s) (hc : c.IsConfigured chan)
    (hcount : s.CountsHeld c) :
    ∃ s', s.writeChunk (some c) = some s' ∧ Inv chan (fed ++ c.audio chan) s' := by
  by_cases hempty : c.numSamples = 0
  · have hbytes : c.numBytes = 0 := by simp [PcmChunk.numBytes, hempty]
    have haudio : c.audio chan = [] := by
      rw [← PcmChunk.copied_all hchan]
      apply List.eq_nil_of_length_eq_zero
      rw [PcmChunk.length_copied hchan hc (Nat.le_refl _), hempty, Nat.sub_zero, Nat.mul_zero]
    refine ⟨s, by simp [OggOpusFile.writeChunk, hbytes], ?_⟩
    simpa [haudio] using h
  have hbytes : c.numBytes ≠ 0 := by simp [PcmChunk.numBytes, hempty]
  by_cases hlt : c.numSamples + s.extraSamplesFromLastChunk < PCM_SAMPLES_IN_FRAME
  · simpa [OggOpusFile.writeChunk, hbytes, h.isOpen, hlt] using h.storeSamples hchan hc hlt
  obtain ⟨hheld, hfit⟩ := hcount hempty (by omega)
  rw [h.configured] at hheld hfit
  obtain ⟨e, hlen, he, -⟩ := h.short
  have hlast : s.extraSamplesFromLastChunk < PCM_SAMPLES_IN_FRAME := by
    obtain rfl | rfl := hchan <;> omega
  obtain ⟨n, hn⟩ : ∃ n, n = c.numSamples + s.extraSamplesFromLastChunk := ⟨_, rfl⟩
  rw [← hn] at hlt hfit
  have hdiv := Nat.div_add_mod' n PCM_SAMPLES_IN_FRAME
  have hmod : n % PCM_SAMPLES_IN_FRAME < PCM_SAMPLES_IN_FRAME := Nat.mod_lt _ (by decide)
  have hone : PCM_SAMPLES_IN_FRAME ≤ n / PCM_SAMPLES_IN_FRAME * PCM_SAMPLES_IN_FRAME :=
    Nat.le_mul_of_pos_left _ (Nat.div_pos (by omega) (by decide))
  have hfull : n / PCM_SAMPLES_IN_FRAME * PCM_SAMPLES_IN_FRAME =
      s.extraSamplesFromLastChunk + (c.numSamples - n % PCM_SAMPLES_IN_FRAME) := by omega
  have hpos : c.numSamples - n % PCM_SAMPLES_IN_FRAME + n % PCM_SAMPLES_IN_FRAME = c.numSamples := by
    omega
  have hextra : n - n / PCM_SAMPLES_IN_FRAME * PCM_SAMPLES_IN_FRAME = n % PCM_SAMPLES_IN_FRAME := by
    omega
  have hcast : (c.numSamples : Int) - (n % PCM_SAMPLES_IN_FRAME : Nat) =
      (c.numSamples - n % PCM_SAMPLES_IN_FRAME : Nat) := by omega
  obtain ⟨s₁, hs₁, hchan₁, hopen₁, henc₁, hempty₁, hbuf₁⟩ :=
    h.fillPcmBuf hchan hc hheld hfull (by omega) hfit
  obtain ⟨s₂, hs₂, hchan₂, hopen₂, henc₂, hbuf₂, hlen₂, hheld₂⟩ :=
    keepExtra_spec hchan hchan₁ hc hempty₁ hpos hmod
  have hwrite : s.writeChunk (some c) = some { s₂ with
      extraSamplesFromLastChunk := n % PCM_SAMPLES_IN_FRAME
      encoded := s₂.encoded ++
        frames s₂.pcmBuf (n / PCM_SAMPLES_IN_FRAME * PCM_SAMPLES_IN_FRAME) s₂.chan } := by
    simp only [OggOpusFile.writeChunk, hbytes, h.isOpen, ← hn, hlt, hextra, hcast, hs₁, hs₂, if_false,
      Bool.not_true, Bool.false_eq_true, Option.bind_eq_bind, Option.bind_some, Option.pure_def]
  have hframes : (frames s₂.pcmBuf (n / PCM_SAMPLES_IN_FRAME * PCM_SAMPLES_IN_FRAME) chan).flatten =
      s.held ++ c.copied (chan == 2) 0 (c.numSamples - n % PCM_SAMPLES_IN_FRAME) := by
    rw [flatten_frames, hbuf₂, hbuf₁]
  refine ⟨_, hwrite, hchan₂, hopen₂.trans hopen₁, ?_, ?_, n % PCM_SAMPLES_IN_FRAME, hlen₂, hmod,
    Nat.le_refl _⟩
  · have hrest : c.copied (chan == 2) 0 (c.numSamples - n % PCM_SAMPLES_IN_FRAME) ++ s₂.held =
        c.audio chan := by
      rw [hheld₂, PcmChunk.copied_append _ _ (Nat.zero_le _) (by omega), PcmChunk.copied_all hchan]
    show (s₂.encoded ++ frames s₂.pcmBuf _ s₂.chan).flatten ++ s₂.held = _
    rw [henc₂, henc₁, hchan₂, List.flatten_append, hframes, ← h.split]
    simp only [List.append_assoc, hrest]
  · show _ ∣ (s₂.encoded ++ frames s₂.pcmBuf _ s₂.chan).flatten.length
    rw [henc₂, henc₁, hchan₂, List.flatten_append, List.length_append, flatten_frames, length_read]
    apply Nat.dvd_add h.whole
    exact ⟨n / PCM_SAMPLES_IN_FRAME, by ring⟩

end

/-! ## The whole file -/

/-- Zeros behind the last samples, to a whole frame of `size`. -/
def pad (size : Nat) (l : List Int) : List Int :=
  l ++ List.replicate ((size - l.length % size) % size) 0

/-- The samples of all chunks. -/
def fedTo (chan : Nat) (cs : List (Option PcmChunk)) : List Int :=
  cs.flatMap fun c => (c.map (·.audio chan)).getD []

@[simp] theorem fedTo_cons (chan : Nat) (c : Option PcmChunk) (cs : List (Option PcmChunk)) :
    fedTo chan (c :: cs) = (c.map (·.audio chan)).getD [] ++ fedTo chan cs := rfl

theorem inv_new (chan : Nat) (pcmBuf extraStreoPcmBuf : Nat → Int) :
    Inv chan [] (new chan pcmBuf extraStreoPcmBuf) :=
  ⟨rfl, rfl, by simp [new, held], by simp [new], 0, by simp [new], by decide, by simp [new]⟩

section
variable {chan : Nat} {fed : List Int} {s : OggOpusFile}

/-- Whole frames are not padded. -/
theorem pad_append {size : Nat} {l held : List Int} (hl : size ∣ l.length)
    (hheld : held.length < size) :
    pad size (l ++ held) =
      l ++ held ++ List.replicate (if held.length = 0 then 0 else size - held.length) 0 := by
  have hmod : (l ++ held).length % size = held.length := by
    rw [List.length_append, Nat.add_mod, Nat.mod_eq_zero_of_dvd hl, Nat.zero_add, Nat.mod_mod,
      Nat.mod_eq_of_lt hheld]
  rw [pad, hmod]
  by_cases h : held.length = 0
  · simp [h]
  · simp [h, Nat.mod_eq_of_lt (show size - held.length < size by omega)]

/-- **`Close` pads and encodes what is held**, in mono. -/
theorem Inv.close (hchan : chan = 1 ∨ chan = 2) (h : Inv chan fed s)
    (hstereo : s.chan = 2 → s.extraPcmBufLen = 0) :
    s.close.encoded.flatten = pad (PCM_SAMPLES_IN_FRAME * chan) fed := by
  obtain ⟨e, hlen, he, -⟩ := h.short
  have hheld : s.held.length = chan * e := by
    simp only [held, length_read]
    omega
  have hlt : s.held.length < PCM_SAMPLES_IN_FRAME * chan := by
    rw [hheld, Nat.mul_comm]
    obtain rfl | rfl := hchan <;> omega
  rw [← h.split, pad_append h.whole hlt]
  by_cases hzero : s.extraPcmBufLen = 0
  · have hnil : s.held = [] := by simp [held, hzero]
    simp [OggOpusFile.close, hzero, hnil]
  obtain rfl : chan = 1 := hchan.resolve_right fun h2 => hzero (hstereo (h.configured.trans h2))
  have hhalf : s.extraPcmBufLen / 2 = s.held.length := by omega
  have hne : s.held.length ≠ 0 := by omega
  have hmono : read s.extraMemory 0 s.held.length = s.held := by
    conv_rhs => rw [held, h.configured, hhalf]
    refine read_congr fun i hi => ?_
    have hlt' : 0 + i < extraBufSize false := by
      have : extraBufSize false = PCM_SAMPLES_IN_FRAME * 1 := rfl
      omega
    rw [extraMemory, if_pos hlt']
    rfl
  obtain ⟨k, hk⟩ : ∃ k, PCM_SAMPLES_IN_FRAME * 1 = s.held.length + k :=
    Nat.exists_eq_add_of_le (Nat.le_of_lt hlt)
  have hpad : read (put s.extraMemory s.held.length (List.replicate k 0)) 0
      (PCM_SAMPLES_IN_FRAME * 1) = s.held ++ List.replicate k 0 := by
    have hread := read_put_append s.extraMemory s.held.length (List.replicate k 0)
    rw [List.length_replicate, ← hk, hmono] at hread
    exact hread
  have hframes := flatten_frames (put s.extraMemory s.held.length (List.replicate k 0)) 1 1
  rw [Nat.mul_comm 1 (1 * PCM_SAMPLES_IN_FRAME), Nat.one_mul, hpad] at hframes
  have hsize : PCM_SAMPLES_IN_FRAME * 1 - s.held.length = k := by omega
  simp only [OggOpusFile.close, Nat.pos_of_ne_zero hzero, if_true, h.configured, hhalf,
    List.flatten_append, hsize, hframes, hne, if_false, List.append_assoc]

/-- Every run whose writes meet the condition keeps the invariant. -/
theorem Inv.writeChunks (hchan : chan = 1 ∨ chan = 2) {cs : List (Option PcmChunk)}
    (hcs : ∀ c, some c ∈ cs → c.IsConfigured chan) :
    ∀ {fed : List Int} {s : OggOpusFile}, Inv chan fed s → s.Sound cs →
      ∃ s', s.writeChunks cs = some s' ∧ Inv chan (fed ++ fedTo chan cs) s' ∧
        (s'.chan = 2 → s'.extraPcmBufLen = 0) := by
  induction cs with
  | nil =>
    intro fed s h hsound
    exact ⟨s, rfl, by simpa [fedTo] using h, hsound⟩
  | cons c cs ih =>
    intro fed s h hsound
    obtain ⟨s₁, hs₁, h₁⟩ : ∃ s₁, s.writeChunk c = some s₁ ∧
        Inv chan (fed ++ (c.map (·.audio chan)).getD []) s₁ := by
      cases c with
      | none => exact ⟨s, rfl, by simpa using h⟩
      | some c => exact h.writeChunk hchan (hcs c List.mem_cons_self) (hsound.1 c rfl)
    obtain ⟨s', hs', h', hend⟩ :=
      ih (fun d hd => hcs d (List.mem_cons_of_mem _ hd)) h₁ (hsound.2 s₁ hs₁)
    refine ⟨s', ?_, by simpa using h', hend⟩
    simp only [OggOpusFile.writeChunks, hs₁, hs', Option.bind_eq_bind, Option.bind_some]

end

/-- **The writer loses and invents no audio**: what the encoder is given by the time the file is
closed is what the chunks hold, padded at the end. -/
theorem encode_eq_pad {chan : Nat} (hchan : chan = 1 ∨ chan = 2) (pcmBuf extraStreoPcmBuf : Nat → Int)
    (cs : List (Option PcmChunk)) (hcs : ∀ c, some c ∈ cs → c.IsConfigured chan)
    (hsound : (new chan pcmBuf extraStreoPcmBuf).Sound cs) :
    (new chan pcmBuf extraStreoPcmBuf).encode cs =
      some (pad (PCM_SAMPLES_IN_FRAME * chan) (fedTo chan cs)) := by
  obtain ⟨s, hs, h, hend⟩ := (inv_new chan pcmBuf extraStreoPcmBuf).writeChunks hchan hcs hsound
  rw [encode, hs, Option.map_some, h.close hchan hend, List.nil_append]

/-- A mono chunk of `n` samples. -/
def ones (n : Nat) : Option PcmChunk :=
  some { samples := List.replicate n 1, length_eq := by simp }

/-- A leftover carried into the next frames, and one that `Close` pads. -/
theorem encode_eq_pad_mono : (new 1 (fun _ => 7) fun _ => 7).encode [ones 200, none, ones 300] =
    some (pad (PCM_SAMPLES_IN_FRAME * 1) (fedTo 1 [ones 200, none, ones 300])) :=
  encode_eq_pad (.inl rfl) _ _ _ (fun c _ h => absurd h (by decide)) (by decide +kernel)

/-- Three chunks of 50, 50 and 100 samples: the second leftover is counted twice, so that 50 samples
of silence stand among the 200. -/
theorem encode_ne_pad : (new 1 (fun _ => 0) fun _ => 0).encode [ones 50, ones 50, ones 100] ≠
    some (pad (PCM_SAMPLES_IN_FRAME * 1) (fedTo 1 [ones 50, ones 50, ones 100])) := by
  decide +kernel

end OggOpusFile

end Oreka
