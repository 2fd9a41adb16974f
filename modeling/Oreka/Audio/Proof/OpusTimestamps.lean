import Oreka.Audio.OpusCodec
import Oreka.Lib.Wrapping
import Mathlib.RingTheory.Coprime.Lemmas

/-!
# The timestamps of decoded Opus

The clock rate of a stream is read off two packets in a row, and a sequence number or a timestamp of 0 stands
for none so far. `rescaled_iff` says which streams come out on one scale: none of their packets but the last has
a 0, the timestamps have wrapped a multiple of the clock rate between those that are divided by it, and those
before the rate is known are at one of few places.
-/

namespace Oreka

/-- A stream of packets of 20 ms whose clock runs so many times at 8 kHz. -/
structure OpusStream where
  multiplier : Nat
  firstSeqNum : UInt16
  firstTimestamp : UInt32
  multiplier_mem : multiplier ∈ [1, 2, 4, 6]

namespace OpusStream

variable (s : OpusStream)

def seqNum (n : Nat) : Nat := (s.firstSeqNum.toNat + n) % 65536

/-- The timestamp at a position if it did not wrap. -/
def ticks (n : Nat) : Nat := s.firstTimestamp.toNat + s.multiplier * (160 * n)

def timestamp (n : Nat) : Nat := s.ticks n % 4294967296

def wraps (n : Nat) : Nat := s.ticks n / 4294967296

/-- A packet at a position in the stream, as a chunk. -/
structure Packet where
  position : Nat
  chunk : AudioChunk
  encoding : chunk.details.encoding = .alawAudio
  payload : chunk.details.numBytes ≠ 0
  payloadType : chunk.details.rtpPayloadType = pt_OPUS
  seqNum : chunk.details.sequenceNumber = UInt32.ofNat (s.seqNum position)
  timestamp : chunk.details.timestamp = UInt32.ofNat (s.timestamp position)

/-- What is received of the stream: some packets are lost. -/
structure Received where
  packets : List s.Packet
  order : packets.Pairwise (·.position < ·.position)

/-- The packet is not taken for none. -/
def Usable (n : Nat) : Prop := s.seqNum n ≠ 0 ∧ s.timestamp n ≠ 0

/-- The second packet has the next sequence number, and the clock rate can be read off the timestamps: the
packets are next to each other, or a multiple of 65536 packets between them has left no trace. -/
def TellsRate (n' n : Nat) : Prop :=
  s.seqNum n = s.seqNum n' + 1 ∧ s.multiplier * (160 * (n - n')) % 4294967296 / 160 = s.multiplier

instance (n' n : Nat) : Decidable (s.TellsRate n' n) := inferInstanceAs (Decidable (_ ∧ _))

/-- The packets behind one at a position, each with whether the clock rate is known then. -/
def marked (n' : Nat) (known : Bool) : List s.Packet → List (s.Packet × Bool)
  | [] => []
  | p :: packets =>
    let known := known || s.TellsRate n' p.position
    (p, known) :: marked p.position known packets

/-- The packets behind the first. -/
def behindFirst : List s.Packet → List (s.Packet × Bool)
  | [] => []
  | p :: packets => s.marked p.position false packets

/-- The timestamp of the first packet as it is happens to be where the one of the second is that is divided. -/
def Coincide (n n' : Nat) : Prop :=
  let r := ((s.wraps n : Int) - s.wraps n') % s.multiplier
  (s.multiplier - 1) * s.timestamp n ≤ 4294967296 * r ∧
    4294967296 * r < (s.multiplier - 1) * s.timestamp n + s.multiplier

/-- When two packets are on one scale. -/
def Agree (x y : s.Packet × Bool) : Prop :=
  match x.2, y.2 with
  | true, true => s.wraps x.1.position ≡ s.wraps y.1.position [MOD s.multiplier]
  | false, false => s.multiplier = 1 ∨ x.1.position ≡ y.1.position [MOD 134217728]
  | false, true => s.Coincide x.1.position y.1.position
  | true, false => s.Coincide y.1.position x.1.position

/-- Every packet behind the first has a chunk, and the timestamps of the chunks are as far from each other as
the packets. -/
structure Rescaled (packets : List s.Packet) (outputs : List (Option AudioChunk)) : Prop where
  given : ∀ output ∈ outputs.tail, output.isSome
  differ : ∀ x ∈ packets.zip outputs, ∀ y ∈ packets.zip outputs, ∀ a b, x.2 = some a → y.2 = some b →
    (b.details.timestamp.toNat : Int) - a.details.timestamp.toNat ≡
      160 * (y.1.position - x.1.position) [ZMOD 4294967296]

/-! ## Two timestamps -/

variable {s} {n n' : Nat}

/-- The timestamp that a chunk is given. -/
def scaled (s : OpusStream) (n : Nat) (known : Bool) : Nat :=
  if known then s.timestamp n / s.multiplier else s.timestamp n

theorem multiplier_pos : 0 < s.multiplier := by
  have h := s.multiplier_mem
  simp only [List.mem_cons, List.not_mem_nil, or_false] at h
  omega

theorem ticks_eq (n n' : Nat) :
    (s.ticks n' : Int) = s.ticks n + s.multiplier * (160 * ((n' : Int) - n)) := by
  simp only [ticks]
  push_cast
  ring

theorem coprime (h : s.multiplier ≠ 1) : IsCoprime (134217728 : Int) (5 * (s.multiplier - 1)) := by
  have hmem := s.multiplier_mem
  simp only [List.mem_cons, List.not_mem_nil, or_false, h, false_or] at hmem
  rcases hmem with hm | hm | hm <;> rw [hm, Int.isCoprime_iff_gcd_eq_one] <;> decide

/-- 27 of the 32 bits are left of a distance of 160. -/
theorem dvd_iff (k : Int) : (4294967296 : Int) ∣ (s.multiplier - 1) * (160 * k) ↔
    s.multiplier = 1 ∨ (134217728 : Int) ∣ k := by
  by_cases h : s.multiplier = 1
  · simp [h]
  · have hsplit : ((s.multiplier : Int) - 1) * (160 * k) = 32 * (5 * (s.multiplier - 1) * k) := by ring
    have hmod : (4294967296 : Int) = 32 * 134217728 := by norm_num
    rw [hsplit, hmod, Int.mul_dvd_mul_iff_left (by norm_num), or_iff_right h]
    exact ⟨(coprime h).dvd_of_dvd_mul_left, fun hk => hk.mul_left _⟩

theorem multiplier_le : (s.multiplier : Int) ≤ 4294967296 := by
  have h := s.multiplier_mem
  simp only [List.mem_cons, List.not_mem_nil, or_false] at h
  omega

theorem scaled_true (n : Nat) : (s.scaled n true : Int) = s.ticks n % 4294967296 / s.multiplier := by
  rw [scaled, if_pos rfl, timestamp]
  push_cast
  rfl

theorem scaled_false (n : Nat) : (s.scaled n false : Int) = s.ticks n % 4294967296 := by
  rw [scaled, if_neg Bool.false_ne_true, timestamp]
  push_cast
  rfl

theorem coincide_iff (n n' : Nat) : (s.scaled n' true : Int) - s.scaled n false ≡
    160 * ((n' : Int) - n) [ZMOD 4294967296] ↔ s.Coincide n n' := by
  have hm : (0 : Int) < s.multiplier := by exact_mod_cast multiplier_pos
  rw [scaled_true, scaled_false, Wrapping.mixed_iff hm multiplier_le (ticks_eq n n'), Coincide, timestamp,
    wraps, wraps]
  push_cast
  rfl

/-- **When two timestamps are on one scale.** -/
theorem agree_pair_iff (x y : s.Packet × Bool) :
    (s.scaled y.1.position y.2 : Int) - s.scaled x.1.position x.2 ≡
      160 * (y.1.position - x.1.position) [ZMOD 4294967296] ↔ s.Agree x y := by
  obtain ⟨p, known⟩ := x
  obtain ⟨q, known'⟩ := y
  have hm : (0 : Int) < s.multiplier := by exact_mod_cast multiplier_pos
  have hticks := ticks_eq (s := s) p.position q.position
  cases known with
  | true =>
    cases known' with
    | true =>
      rw [scaled_true, scaled_true, Wrapping.scaled_iff hm multiplier_le hticks]
      have hwraps : (s.wraps q.position : Int) ≡ s.wraps p.position [ZMOD s.multiplier] ↔
          s.wraps q.position ≡ s.wraps p.position [MOD s.multiplier] := Int.natCast_modEq_iff
      rw [wraps, wraps] at hwraps
      push_cast at hwraps
      exact hwraps.trans ⟨Nat.ModEq.symm, Nat.ModEq.symm⟩
    | false =>
      have hneg : ((s.scaled q.position false : Int) - s.scaled p.position true ≡
          160 * (q.position - p.position) [ZMOD 4294967296]) ↔
          (s.scaled p.position true : Int) - s.scaled q.position false ≡
            160 * (p.position - q.position) [ZMOD 4294967296] := by
        rw [← Int.neg_modEq_neg, neg_sub, ← mul_neg, neg_sub]
      exact hneg.trans (coincide_iff q.position p.position)
  | false =>
    cases known' with
    | true => exact coincide_iff p.position q.position
    | false =>
      rw [scaled_false, scaled_false, Wrapping.unscaled_iff hticks, dvd_iff]
      exact or_congr Iff.rfl Nat.modEq_iff_dvd.symm

/-! ## The clock rate -/

theorem seqNum_lt (n : Nat) : s.seqNum n < 65536 := Nat.mod_lt _ (by decide)

theorem timestamp_lt (n : Nat) : s.timestamp n < 4294967296 := Nat.mod_lt _ (by decide)

theorem timestamp_sub (h : n' ≤ n) :
    (UInt32.ofNat (s.timestamp n) - UInt32.ofNat (s.timestamp n')).toNat =
      s.multiplier * (160 * (n - n')) % 4294967296 := by
  have hn := s.timestamp_lt n
  have hn' := s.timestamp_lt n'
  have hticks : s.ticks n = s.ticks n' + s.multiplier * (160 * (n - n')) := by
    rw [ticks, ticks, Nat.add_assoc, ← Nat.mul_add, ← Nat.mul_add, Nat.add_sub_cancel' h]
  rw [UInt32.toNat_sub, UInt32.toNat_ofNat_of_lt' hn, UInt32.toNat_ofNat_of_lt' hn']
  simp only [timestamp, hticks]
  omega

/-- A clock rate that is read off is that of the stream. -/
theorem rate_eq (hlt : n' < n) (hseq : s.seqNum n = s.seqNum n' + 1)
    (hrate : s.multiplier * (160 * (n - n')) % 4294967296 / 160 ∈ [1, 2, 4, 6]) :
    s.multiplier * (160 * (n - n')) % 4294967296 / 160 = s.multiplier := by
  have hsteps : ∃ j, n - n' = 1 + 65536 * j := by
    refine ⟨(n - n') / 65536, ?_⟩
    simp only [seqNum] at hseq
    omega
  obtain ⟨j, hj⟩ := hsteps
  have hm := s.multiplier_mem
  simp only [List.mem_cons, List.not_mem_nil, or_false] at hm hrate
  rw [hj] at hrate ⊢
  rcases hm with hm | hm | hm | hm <;> rw [hm] at hrate ⊢ <;> omega

theorem sampleRate_eq {δ : Type} {d : OpusCodecDecoder δ} {known : Bool} (hlt : n' < n)
    (hts : d.lastRtpTs = UInt32.ofNat (s.timestamp n'))
    (hrate : d.sampleRate8KhzMultiplier = if known then s.multiplier else 1)
    (hseq : s.seqNum n = s.seqNum n' + 1) :
    d.sampleRate (UInt32.ofNat (s.timestamp n)) = if known || s.TellsRate n' n then s.multiplier else 1 := by
  have hread : ((UInt32.ofNat (s.timestamp n) - d.lastRtpTs) / 160).toNat =
      s.multiplier * (160 * (n - n')) % 4294967296 / 160 := by
    rw [UInt32.toNat_div, hts, timestamp_sub hlt.le]
    rfl
  have hmem : s.multiplier = 1 ∨ s.multiplier = 2 ∨ s.multiplier = 4 ∨ s.multiplier = 6 := by
    simpa using s.multiplier_mem
  rw [OpusCodecDecoder.sampleRate, hread]
  by_cases htells : s.multiplier * (160 * (n - n')) % 4294967296 / 160 = s.multiplier
  · have hknown : s.TellsRate n' n := ⟨hseq, htells⟩
    simp only [htells, if_pos hmem, hknown, decide_true, Bool.or_true, if_true]
  · have hknown : ¬ s.TellsRate n' n := fun h => htells h.2
    have hnone : ¬ (s.multiplier * (160 * (n - n')) % 4294967296 / 160 ∈ [1, 2, 4, 6]) :=
      fun h => htells (rate_eq hlt hseq h)
    simp only [List.mem_cons, List.not_mem_nil, or_false] at hnone
    simp only [if_neg hnone, hrate, hknown, decide_false, Bool.or_false]

/-! ## A packet -/

section

variable {δ : Type} (opus_decode : OpusDecode δ) {d : OpusCodecDecoder δ} {known : Bool}

/-- The packet at a position was read last, and the clock rate is known or not. -/
structure Reads (s : OpusStream) (d : OpusCodecDecoder δ) (n : Nat) (known : Bool) : Prop where
  initialized : d.initialized = false
  lastRtpSeq : d.lastRtpSeq = UInt32.ofNat (s.seqNum n)
  lastRtpTs : d.lastRtpTs = UInt32.ofNat (s.timestamp n)
  rate : d.sampleRate8KhzMultiplier = if known then s.multiplier else 1

/-- The chunk of a packet, with its timestamp. -/
def Stamped (s : OpusStream) (x : s.Packet × Bool) (output : Option AudioChunk) : Prop :=
  ∃ c, output = some c ∧ c.details.timestamp.toNat = s.scaled x.1.position x.2

theorem ofNat_eq_zero {k : Nat} (h : k < 4294967296) : UInt32.ofNat k = 0 ↔ k = 0 := by
  rw [← UInt32.toNat_inj, UInt32.toNat_ofNat_of_lt' h]
  rfl

theorem scaled_eq (n : Nat) (known : Bool) :
    s.scaled n known = s.timestamp n / (if known then s.multiplier else 1) := by
  cases known with
  | true => rfl
  | false => exact (Nat.div_one _).symm

theorem decode_spec (p : s.Packet) (h : Reads s d p.position known) :
    Reads s (d.decode opus_decode p.chunk) p.position known ∧
      s.Stamped (p, known) (d.decode opus_decode p.chunk).outputChunk := by
  have hrate : (UInt32.ofNat d.sampleRate8KhzMultiplier).toNat = if known then s.multiplier else 1 := by
    have hm := s.multiplier_mem
    simp only [List.mem_cons, List.not_mem_nil, or_false] at hm
    rw [h.rate, UInt32.toNat_ofNat']
    split <;> omega
  have hstamp : (p.chunk.details.timestamp / UInt32.ofNat d.sampleRate8KhzMultiplier).toNat =
      s.scaled p.position known := by
    rw [UInt32.toNat_div, p.timestamp, UInt32.toNat_ofNat_of_lt' (s.timestamp_lt _), hrate, scaled_eq]
  refine ⟨⟨h.initialized, h.lastRtpSeq, h.lastRtpTs, h.rate⟩, _, rfl, ?_⟩
  split <;> exact hstamp

theorem getNumSamples_ne_zero (p : s.Packet) : ∃ k, p.chunk.getNumSamples = .ok k ∧ k ≠ 0 := by
  have hpos : p.chunk.details.numBytes.toNat ≠ 0 := fun h => p.payload (UInt32.toNat_inj.1 h)
  have hlt := p.chunk.details.numBytes.toNat_lt
  refine ⟨asInt p.chunk.details.numBytes, by rw [AudioChunk.getNumSamples, p.encoding], ?_⟩
  unfold asInt
  split <;> omega

/-- The decoder when it has read a packet. -/
def read (d : OpusCodecDecoder δ) (p : s.Packet) : OpusCodecDecoder δ :=
  { d with
    outputChunk := none
    lastRtpSeq := p.chunk.details.sequenceNumber
    lastRtpTs := p.chunk.details.timestamp }

/-- A packet passes every check. -/
theorem audioChunkIn_eq (hinit : d.initialized = false) (p : s.Packet) :
    d.audioChunkIn opus_decode (some p.chunk) = .ok (
      if d.lastRtpSeq = 0 ∨ d.lastRtpTs = 0 then read d p
      else if p.chunk.details.sequenceNumber - d.lastRtpSeq = 1 then
        { read d p with sampleRate8KhzMultiplier := d.sampleRate p.chunk.details.timestamp }.decode
          opus_decode p.chunk
      else (read d p).decode opus_decode p.chunk) := by
  obtain ⟨k, hk, hk0⟩ := getNumSamples_ne_zero p
  have htype : OpusCodecDecoder.supportsInputRtpPayloadType p.chunk.details.rtpPayloadType = true := by
    rw [p.payloadType]
    rfl
  obtain ⟨decoder, initialized, lastRtpSeq, lastRtpTs, rate, outputChunk⟩ := d
  subst hinit
  simp only [OpusCodecDecoder.audioChunkIn, hk, htype, Bool.false_eq_true, if_false, not_true_eq_false]
  simp only [bind, Except.bind, hk0, if_false, pure, Except.pure]
  split
  · rfl
  · split <;> rfl

/-- A packet behind one that is not taken for none. -/
theorem audioChunkIn_usable (h : Reads s d n known) (p : s.Packet) (hlt : n < p.position) (hn : s.Usable n) :
    ∃ d', d.audioChunkIn opus_decode (some p.chunk) = .ok d' ∧
      Reads s d' p.position (known || s.TellsRate n p.position) ∧
        s.Stamped (p, known || s.TellsRate n p.position) d'.outputChunk := by
  have hzero : ¬ (d.lastRtpSeq = 0 ∨ d.lastRtpTs = 0) := by
    rw [h.lastRtpSeq, h.lastRtpTs, ofNat_eq_zero ((s.seqNum_lt n).trans (by decide)),
      ofNat_eq_zero (s.timestamp_lt n)]
    exact not_or.2 hn
  have hseq : p.chunk.details.sequenceNumber - d.lastRtpSeq = 1 ↔ s.seqNum p.position = s.seqNum n + 1 := by
    have hlt := s.seqNum_lt p.position
    have hlt' := s.seqNum_lt n
    rw [p.seqNum, h.lastRtpSeq, ← UInt32.toNat_inj, UInt32.toNat_sub, UInt32.toNat_ofNat', UInt32.toNat_ofNat',
      UInt32.toNat_one]
    omega
  refine ⟨_, audioChunkIn_eq opus_decode h.initialized p, ?_⟩
  rw [if_neg hzero, if_congr hseq rfl rfl]
  by_cases hnext : s.seqNum p.position = s.seqNum n + 1
  · have hrate := sampleRate_eq hlt h.lastRtpTs h.rate hnext
    rw [← p.timestamp] at hrate
    rw [if_pos hnext]
    exact decode_spec opus_decode p ⟨h.initialized, p.seqNum, p.timestamp, hrate⟩
  · have hnot : ¬ s.TellsRate n p.position := fun htells => hnext htells.1
    rw [if_neg hnext, decide_eq_false hnot, Bool.or_false]
    exact decode_spec opus_decode p ⟨h.initialized, p.seqNum, p.timestamp, h.rate⟩

/-- A packet behind one that is. -/
theorem audioChunkIn_unusable (hinit : d.initialized = false) (hzero : d.lastRtpSeq = 0 ∨ d.lastRtpTs = 0)
    (hrate : d.sampleRate8KhzMultiplier = if known then s.multiplier else 1) (p : s.Packet) :
    ∃ d', d.audioChunkIn opus_decode (some p.chunk) = .ok d' ∧ Reads s d' p.position known ∧
      d'.outputChunk = none := by
  refine ⟨_, audioChunkIn_eq opus_decode hinit p, ?_⟩
  rw [if_pos hzero]
  exact ⟨⟨hinit, p.seqNum, p.timestamp, hrate⟩, rfl⟩

/-! ## The stream -/

theorem decodeAll_cons {d' : OpusCodecDecoder δ} {chunk : AudioChunk} {chunks : List AudioChunk}
    {outputs : List (Option AudioChunk)} (h : d.audioChunkIn opus_decode (some chunk) = .ok d')
    (hall : d'.decodeAll opus_decode chunks = .ok outputs) :
    d.decodeAll opus_decode (chunk :: chunks) = .ok (d'.outputChunk :: outputs) := by
  rw [OpusCodecDecoder.decodeAll, h]
  simp only [bind, Except.bind, hall]
  rfl

/-- The packets behind one are decoded: all of them if none but the last is taken for none, and only then. -/
theorem decodeAll_spec (h : Reads s d n known) {packets : List s.Packet}
    (horder : (n :: packets.map (·.position)).Pairwise (· < ·)) :
    ∃ outputs, d.decodeAll opus_decode (packets.map (·.chunk)) = .ok outputs ∧
      ((∀ output ∈ outputs, output.isSome) → ∀ k ∈ (n :: packets.map (·.position)).dropLast, s.Usable k) ∧
      ((∀ k ∈ (n :: packets.map (·.position)).dropLast, s.Usable k) →
        List.Forall₂ s.Stamped (s.marked n known packets) outputs) := by
  induction packets generalizing d n known with
  | nil => exact ⟨[], rfl, fun _ k hk => absurd hk List.not_mem_nil, fun _ => .nil⟩
  | cons p packets ih =>
    obtain ⟨hhead, htail⟩ := List.pairwise_cons.1 horder
    have hdrop : (n :: (p :: packets).map (·.position)).dropLast =
        n :: (p.position :: packets.map (·.position)).dropLast := rfl
    rw [hdrop]
    by_cases hn : s.Usable n
    · obtain ⟨d', hd', hreads, hstamped⟩ :=
        audioChunkIn_usable opus_decode h p (hhead _ List.mem_cons_self) hn
      obtain ⟨outputs, hall, hgiven, hmarked⟩ := ih hreads htail
      refine ⟨d'.outputChunk :: outputs, decodeAll_cons opus_decode hd' hall, ?_, ?_⟩
      · intro hsome k hk
        rcases List.mem_cons.1 hk with rfl | hk
        · exact hn
        · exact hgiven (fun output ho => hsome output (List.mem_cons_of_mem _ ho)) k hk
      · intro husable
        exact .cons hstamped (hmarked fun k hk => husable k (List.mem_cons_of_mem _ hk))
    · have hzero : d.lastRtpSeq = 0 ∨ d.lastRtpTs = 0 := by
        rw [h.lastRtpSeq, h.lastRtpTs, ofNat_eq_zero ((s.seqNum_lt n).trans (by decide)),
          ofNat_eq_zero (s.timestamp_lt n)]
        exact or_iff_not_and_not.2 hn
      obtain ⟨d', hd', hreads, hnone⟩ :=
        audioChunkIn_unusable opus_decode h.initialized hzero h.rate p
      obtain ⟨outputs, hall, -, -⟩ := ih hreads htail
      refine ⟨d'.outputChunk :: outputs, decodeAll_cons opus_decode hd' hall, ?_, ?_⟩
      · intro hsome
        have h := hsome _ List.mem_cons_self
        rw [hnone] at h
        exact absurd h (by decide)
      · exact fun husable => absurd (husable n List.mem_cons_self) hn

theorem marked_fst (n : Nat) (known : Bool) (packets : List s.Packet) :
    (s.marked n known packets).map Prod.fst = packets := by
  induction packets generalizing n known with
  | nil => rfl
  | cons p packets ih => exact congrArg (p :: ·) (ih _ _)

theorem exists_marked {marked : List (s.Packet × Bool)} {outputs : List (Option AudioChunk)}
    (h : List.Forall₂ s.Stamped marked outputs) {x : s.Packet × Option AudioChunk}
    (hx : x ∈ (marked.map Prod.fst).zip outputs) : ∃ e ∈ marked, e.1 = x.1 ∧ s.Stamped e x.2 := by
  induction h with
  | nil => cases hx
  | cons hstamped _ ih =>
    rcases List.mem_cons.1 hx with rfl | hx
    · exact ⟨_, List.mem_cons_self, rfl, hstamped⟩
    · obtain ⟨e, he, hfst, hstamped⟩ := ih hx
      exact ⟨e, List.mem_cons_of_mem _ he, hfst, hstamped⟩

theorem exists_output {marked : List (s.Packet × Bool)} {outputs : List (Option AudioChunk)}
    (h : List.Forall₂ s.Stamped marked outputs) {e : s.Packet × Bool} (he : e ∈ marked) :
    ∃ output, (e.1, output) ∈ (marked.map Prod.fst).zip outputs ∧ s.Stamped e output := by
  induction h with
  | nil => cases he
  | cons hstamped _ ih =>
    rcases List.mem_cons.1 he with rfl | he
    · exact ⟨_, List.mem_cons_self, hstamped⟩
    · obtain ⟨output, hmem, hstamped⟩ := ih he
      exact ⟨output, List.mem_cons_of_mem _ hmem, hstamped⟩

theorem isSome_of_stamped {marked : List (s.Packet × Bool)} {outputs : List (Option AudioChunk)}
    (h : List.Forall₂ s.Stamped marked outputs) {output : Option AudioChunk} (ho : output ∈ outputs) :
    output.isSome := by
  induction h with
  | nil => cases ho
  | cons hstamped _ ih =>
    rcases List.mem_cons.1 ho with rfl | ho
    · obtain ⟨c, rfl, -⟩ := hstamped
      rfl
    · exact ih ho

/-- The distances of timestamps are right where the packets agree. -/
theorem differ_iff {marked : List (s.Packet × Bool)} {outputs : List (Option AudioChunk)}
    (h : List.Forall₂ s.Stamped marked outputs) :
    (∀ x ∈ (marked.map Prod.fst).zip outputs, ∀ y ∈ (marked.map Prod.fst).zip outputs, ∀ a b,
      x.2 = some a → y.2 = some b → (b.details.timestamp.toNat : Int) - a.details.timestamp.toNat ≡
        160 * (y.1.position - x.1.position) [ZMOD 4294967296]) ↔
      ∀ x ∈ marked, ∀ y ∈ marked, s.Agree x y := by
  constructor
  · intro hdiffer x hx y hy
    obtain ⟨_, hx', a, rfl, ha⟩ := exists_output h hx
    obtain ⟨_, hy', b, rfl, hb⟩ := exists_output h hy
    have hab := hdiffer _ hx' _ hy' a b rfl rfl
    rw [ha, hb] at hab
    exact (agree_pair_iff x y).1 hab
  · intro hagree x hx y hy a b hxa hyb
    obtain ⟨e, he, hex, a', ha', ha⟩ := exists_marked h hx
    obtain ⟨f, hf, hfy, b', hb', hb⟩ := exists_marked h hy
    cases hxa.symm.trans ha'
    cases hyb.symm.trans hb'
    rw [ha, hb, ← hex, ← hfy]
    exact (agree_pair_iff e f).2 (hagree e he f hf)

/-- The first packet has no chunk. -/
theorem rescaled_cons {p : s.Packet} {packets : List s.Packet} {outputs : List (Option AudioChunk)} :
    s.Rescaled (p :: packets) (none :: outputs) ↔
      (∀ output ∈ outputs, output.isSome) ∧
        ∀ x ∈ packets.zip outputs, ∀ y ∈ packets.zip outputs, ∀ a b, x.2 = some a → y.2 = some b →
          (b.details.timestamp.toNat : Int) - a.details.timestamp.toNat ≡
            160 * (y.1.position - x.1.position) [ZMOD 4294967296] := by
  constructor
  · intro h
    exact ⟨h.given, fun x hx y hy =>
      h.differ x (List.mem_cons_of_mem _ hx) y (List.mem_cons_of_mem _ hy)⟩
  · intro ⟨hgiven, hdiffer⟩
    refine ⟨hgiven, fun x hx y hy a b ha hb => ?_⟩
    rcases List.mem_cons.1 hx with rfl | hx
    · cases ha
    · rcases List.mem_cons.1 hy with rfl | hy
      · cases hb
      · exact hdiffer x hx y hy a b ha hb

/-- **Which streams are put out on one scale.** -/
theorem rescaled_iff (opus_decode : OpusDecode δ) (decoder : δ) (s : OpusStream) (r : s.Received) :
    (∃ outputs, (OpusCodecDecoder.new decoder).decodeAll opus_decode (r.packets.map (·.chunk)) = .ok outputs ∧
      s.Rescaled r.packets outputs) ↔
      (∀ n ∈ (r.packets.map (·.position)).dropLast, s.Usable n) ∧
        ∀ x ∈ s.behindFirst r.packets, ∀ y ∈ s.behindFirst r.packets, s.Agree x y := by
  obtain ⟨packets, horder⟩ := r
  cases packets with
  | nil =>
    constructor
    · exact fun _ => ⟨fun n hn => (List.not_mem_nil hn).elim, fun x hx => (List.not_mem_nil hx).elim⟩
    · exact fun _ => ⟨[], rfl, ⟨fun o ho => (List.not_mem_nil ho).elim, fun x hx => (List.not_mem_nil hx).elim⟩⟩
  | cons p packets =>
    have hrate : (OpusCodecDecoder.new decoder).sampleRate8KhzMultiplier =
        if false then s.multiplier else 1 := rfl
    obtain ⟨d, hd, hreads, hnone⟩ := audioChunkIn_unusable opus_decode rfl (Or.inl rfl) hrate p
    obtain ⟨outputs, hall, hgiven, hmarked⟩ := decodeAll_spec opus_decode hreads (List.pairwise_map.2 horder)
    have hrun := decodeAll_cons opus_decode hd hall
    rw [hnone] at hrun
    have hfst := marked_fst p.position false packets
    constructor
    · rintro ⟨outputs', hrun', hrescaled⟩
      cases hrun.symm.trans hrun'
      obtain ⟨hsome, hdiffer⟩ := rescaled_cons.1 hrescaled
      have husable := hgiven hsome
      refine ⟨husable, (differ_iff (hmarked husable)).1 ?_⟩
      rwa [hfst]
    · intro ⟨husable, hagree⟩
      have hdiffer := (differ_iff (hmarked husable)).2 hagree
      rw [hfst] at hdiffer
      exact ⟨none :: outputs, hrun,
        rescaled_cons.2 ⟨fun output => isSome_of_stamped (hmarked husable), hdiffer⟩⟩

end

/-! ## A sequence number that wraps -/

/-- A stream that begins with the sequence number 65535. -/
def wrapping : OpusStream where
  multiplier := 6
  firstSeqNum := 65535
  firstTimestamp := 1000
  multiplier_mem := by decide

def wrappingChunk (n : Nat) : AudioChunk where
  details := {
    encoding := .alawAudio
    numBytes := 40
    timestamp := UInt32.ofNat (wrapping.timestamp n)
    sequenceNumber := UInt32.ofNat (wrapping.seqNum n)
    rtpPayloadType := pt_OPUS
    channel := 1
  }

def wrappingPacket (n : Nat) : wrapping.Packet where
  position := n
  chunk := wrappingChunk n
  encoding := rfl
  payload := by
    show (40 : UInt32) ≠ 0
    decide
  payloadType := rfl
  seqNum := rfl
  timestamp := rfl

/-- Three packets in a row. -/
def receivedWrapping : wrapping.Received where
  packets := [wrappingPacket 0, wrappingPacket 1, wrappingPacket 2]
  order := by decide

/-- 160 silent samples for each payload. -/
def decodeSilence : OpusDecode Unit := fun decoder _ _ _ => (160, List.replicate 160 0, decoder)

/-- Behind the packet with the sequence number 0, one has no chunk. -/
theorem not_rescaled_wrapping :
    ¬ ∃ outputs, (OpusCodecDecoder.new ()).decodeAll decodeSilence
      (receivedWrapping.packets.map (·.chunk)) = .ok outputs ∧
        wrapping.Rescaled receivedWrapping.packets outputs := by
  intro ⟨outputs, hrun, hrescaled⟩
  have hgiven : ((OpusCodecDecoder.new ()).decodeAll decodeSilence
      (receivedWrapping.packets.map (·.chunk))).map (·.map Option.isSome) = .ok [false, true, false] := rfl
  rw [hrun] at hgiven
  have houtputs : outputs.map Option.isSome = [false, true, false] := Except.ok.inj hgiven
  have hmem : false ∈ outputs.tail.map Option.isSome := by
    rw [List.map_tail, houtputs]
    decide
  obtain ⟨output, ho, hnone⟩ := List.mem_map.1 hmem
  exact absurd ((hrescaled.given output ho).symm.trans hnone) (by decide)

end OpusStream

end Oreka
