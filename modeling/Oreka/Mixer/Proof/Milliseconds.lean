import Oreka.Mixer.Proof.ChannelIndices

/-!
# Timestamps in milliseconds

A user agent that counts milliseconds is recognised packet by packet: each timestamp is compared with the one that
was remembered last, and only a packet 20 after that is stamped anew and remembered. So the packets of a side are
restamped for as long as none is lost (`Received.restamps_iff`), whatever comes on the other side.
-/

namespace Oreka.Mixer

/-- The sides whose timestamps are compared: channels 1 and 2. -/
inductive Side
  | s1 | s2
  deriving DecidableEq, Repr

def Side.channel : Side → UInt8
  | .s1 => 1
  | .s2 => 2

/-- The packet of a side with a number: it is stamped 20 for each packet before it. -/
structure MillisPacket (t0 : Side → UInt32) where
  side : Side
  number : Nat
  chunk : AudioChunk
  audible : RtpMixer.Audible chunk
  not_eos : chunk.details.marker ≠ mediaChunkEosMarker
  channel : chunk.details.channel = side.channel
  timestamp : chunk.details.timestamp = t0 side + 20 * UInt32.ofNat number

namespace RtpMixer

variable {cfg : MixerConfig} {m m' : RtpMixer} {t0 : Side → UInt32}

/-- What is remembered of a side: a timestamp as received, and the last chunk as restamped. -/
def last (m : RtpMixer) : Side → UInt32 × Option AudioChunk
  | .s1 => (m.lastTimestampS1, m.lastChunkS1)
  | .s2 => (m.lastTimestampS2, m.lastChunkS2)

theorem SameStreams.last (h : SameStreams m m') (s : Side) : m'.last s = m.last s := by
  cases s with
  | s1 => exact Prod.ext h.lastTimestampS1 h.lastChunkS1
  | s2 => exact Prod.ext h.lastTimestampS2 h.lastChunkS2

theorem setLastChunk_sameStreams {idx : Int} {c : AudioChunk} (h : m.setLastChunk idx c = .ok m') :
    SameStreams m m' := by
  unfold setLastChunk modifyChannel at h
  split at h
  · split at h
    · cases h
      exact ⟨List.length_modify .., rfl, rfl, rfl, rfl, rfl, rfl⟩
    · cases h
  · cases h
    exact .refl m

theorem withChannels_rest (m : RtpMixer) (cfg : MixerConfig) (c : AudioChunk) :
    (∀ s, (m.withChannels cfg c).last s = m.last s) ∧ SameRing m (m.withChannels cfg c) := by
  unfold withChannels
  split
  · refine ⟨fun s => ?_, createChannels_sameRing m cfg _⟩
    unfold createChannels
    split
    · rfl
    · cases s <;> rfl
  · exact ⟨fun _ => rfl, .refl m⟩

/-- **The correction of a packet** of either side. -/
theorem correctTimestamp_last {c₀ c : AudioChunk} {t : UInt32} {s : Side} (hc : c₀.details.channel = s.channel)
    (h : m.correctTimestamp cfg c₀ = .ok (m', c, t)) :
    let r := correctMillis c₀ (m.last s).2 (m.last s).1
    c = r.1 ∧ m'.last s = (r.2, some r.1) ∧ ∀ s' ≠ s, m'.last s' = m.last s' := by
  unfold correctTimestamp at h
  cases s with
  | s1 =>
    rw [if_pos (show c₀.details.channel = 1 from hc)] at h
    unfold correctS1 at h
    generalize hr : correctMillis c₀ m.lastChunkS1 m.lastTimestampS1 = r at h
    obtain ⟨m₁, h₁, h⟩ := Except.bind_eq_ok.1 h
    have hs := setLastChunk_sameStreams h₁
    cases h
    have hr' : correctMillis c₀ (m.last .s1).2 (m.last .s1).1 = r := hr
    rw [hr']
    refine ⟨rfl, rfl, fun s' hne => ?_⟩
    cases s' with
    | s1 => exact absurd rfl hne
    | s2 => exact hs.last .s2
  | s2 =>
    have h1 : c₀.details.channel ≠ 1 := by
      rw [hc]
      decide
    rw [if_neg h1, if_pos (show c₀.details.channel = 2 from hc)] at h
    unfold correctS2 at h
    generalize hr : correctMillis c₀ m.lastChunkS2 m.lastTimestampS2 = r at h
    obtain ⟨m₁, h₁, h⟩ := Except.bind_eq_ok.1 h
    have hs := setLastChunk_sameStreams h₁
    cases h
    have hr' : correctMillis c₀ (m.last .s2).2 (m.last .s2).1 = r := hr
    rw [hr']
    refine ⟨rfl, rfl, fun s' hne => ?_⟩
    cases s' with
    | s1 => exact hs.last .s1
    | s2 => exact absurd rfl hne

/-- Placing a chunk never ends in the error state. -/
theorem place_error (hi : RingInv m) {c : AudioChunk} {t : UInt32} (h : m.place cfg c t = .ok m') :
    m'.error = m.error := by
  cases place_cases h with
  | skip _ _ hr _ => exact hr.error
  | first _ hw h =>
    obtain ⟨-, -, -, -, herr⟩ := (hi.first hw t true).store h
    exact herr
  | store m₁ _ _ h₁ h =>
    obtain ⟨hi₁, -, -, -, herr⟩ := hi.store h₁
    rcases h with ⟨-, rfl⟩ | ⟨htr, h⟩
    · exact herr
    · obtain ⟨n, -, -, -, -, -, -, -, herr'⟩ := hi₁.ship (.inr htr) h
      exact herr'.trans herr
  | reset m₁ m₂ _ _ _ h₁ h₂ he =>
    obtain ⟨n, -, hi₁, -, -, -, -, -, herr⟩ := hi.ship (.inl rfl) h₁
    obtain ⟨-, -, -, -, herr'⟩ := (hi₁.reset c.details.timestamp).store h₂
    rw [he]
    exact herr'.trans herr

/-- A mixer that takes up packets. -/
structure Receiving (cfg : MixerConfig) (m : RtpMixer) : Prop where
  ring : RingInv m
  indexed : Indexed cfg m
  error : m.error = false

/-- **What becomes of a packet**: it is placed, as its side makes of it, and the other side remembers what it did. -/
theorem Receiving.packet (hi : Receiving cfg m) (p : MillisPacket t0) :
    let r := correctMillis p.chunk (m.last p.side).2 (m.last p.side).1
    (∃ t, m.placed cfg (some p.chunk) = some (r.1, t)) ∧ Receiving cfg (m.step cfg (some p.chunk)) ∧
      (m.step cfg (some p.chunk)).last p.side = (r.2, some r.1) ∧
      ∀ s ≠ p.side, (m.step cfg (some p.chunk)).last s = m.last s := by
  have hcount := hi.indexed.withChannels p.chunk
  obtain ⟨hlast, hring⟩ := withChannels_rest m cfg p.chunk
  have hmono : ¬ (p.chunk.details.channel = 0 ∧ (m.withChannels cfg p.chunk).numInputChannels ≠ 0) := by
    rintro ⟨h0, -⟩
    rw [p.channel] at h0
    cases hs : p.side <;> rw [hs] at h0 <;> cases h0
  have hok : ∃ r, (m.withChannels cfg p.chunk).correctTimestamp cfg p.chunk = .ok r :=
    (correctTimestamp_isOk_iff hcount.1.counted p.chunk hcount.2).2 hmono
  obtain ⟨⟨m₁, c, t⟩, hr⟩ := hok
  obtain ⟨hc, hside, hother⟩ := correctTimestamp_last p.channel hr
  rw [hlast] at hc hside
  have hacc : m.accept cfg p.chunk = .ok (m₁, some (c, t)) := by
    rw [accept_of_audible p.audible, hr]
    rfl
  have hgo : ¬ (m.error = true ∨ p.chunk.details.marker = mediaChunkEosMarker) := by
    rintro (he | hm)
    · rw [hi.error] at he
      cases he
    · exact p.not_eos hm
  have hplaced : m.placed cfg (some p.chunk) = some (c, t) := by
    unfold placed
    dsimp only
    rw [if_neg hgo, hacc]
  have haccepted : m.accepted cfg (some p.chunk) = some (m₁, c, t) := by
    unfold accepted
    dsimp only
    rw [if_neg hgo, hacc]
  obtain ⟨c₀, -, hplace⟩ := accepted_some haccepted
  have hstreams := SameStreams.place hplace
  have hring₁ : SameRing m m₁ := (accept_some hacc).1
  have herr := place_error (hi.ring.of_sameRing hring₁) hplace
  have hring' := (step_ringInv cfg hi.ring (some p.chunk)).1
  refine ⟨⟨t, by rw [hplaced, hc]⟩, ⟨hring', hi.indexed.step _, ?_⟩, ?_, fun s hs => ?_⟩
  · exact herr.trans (hring₁.error.trans hi.error)
  · exact (hstreams.last _).trans hside
  · exact (hstreams.last s).trans ((hother s hs).trans (hlast s))

/-! ## Packets by number -/

/-- The packet is restamped as the numbers of its side want it. -/
def Restamped (cfg : MixerConfig) (m : RtpMixer) (p : MillisPacket t0) : Prop :=
  ∃ c t, m.placed cfg (some p.chunk) = some (c, t) ∧ c.details.timestamp = t0 p.side + 160 * UInt32.ofNat p.number

/-- The numbers that a side has come to: of its last packet, and of the last one that followed on. -/
structure Numbers where
  last : Nat
  remembered : Nat

/-- `number` is one more than that of the packet that is remembered. Numbers count modulo 2^30, where the timestamps
begin again. -/
def Numbers.follows (n : Numbers) (number : Nat) : Prop := number ≡ n.remembered + 1 [MOD 2 ^ 30]

instance (n : Numbers) (number : Nat) : Decidable (n.follows number) := inferInstanceAs (Decidable (_ ≡ _ [MOD _]))

/-- The numbers after a packet. -/
def Numbers.next (n : Option Numbers) (number : Nat) : Numbers where
  last := number
  remembered := n.elim number fun u => if u.follows number then number else u.remembered

def received (n : Side → Option Numbers) (p : MillisPacket t0) : Side → Option Numbers :=
  Function.update n p.side (some (.next (n p.side) p.number))

/-- No packet is lost: the first one of a side has number 0, and each one follows on from the one before. The numbers
count modulo 2^30, and so does a step modulo 2^27, where the new timestamps begin again; a number that is 0 stands for
the same timestamp in both scales. -/
def InTurn (n : Side → Option Numbers) (p : MillisPacket t0) : Prop :=
  match n p.side with
  | none => p.number ≡ 0 [MOD 2 ^ 30]
  | some u => if u.follows p.number then p.number ≡ u.last + 1 [MOD 2 ^ 27] else p.number ≡ 0 [MOD 2 ^ 30]

theorem ofNat_eq_iff {x y : Nat} : UInt32.ofNat x = UInt32.ofNat y ↔ x ≡ y [MOD 2 ^ 32] := by
  rw [← UInt32.toNat_inj, UInt32.toNat_ofNat', UInt32.toNat_ofNat']
  rfl

/-- A step of `a` after `k` of them. -/
theorem mul_ofNat_add (t : UInt32) (a k : Nat) :
    t + UInt32.ofNat a * UInt32.ofNat k + UInt32.ofNat a = t + UInt32.ofNat a * UInt32.ofNat (k + 1) := by
  rw [UInt32.add_assoc, ← UInt32.ofNat_mul, ← UInt32.ofNat_mul, ← UInt32.ofNat_add, Nat.mul_succ]

/-- A common factor `d * c` of which the modulus takes `d`. -/
theorem modEq_mul_iff {d c n : Nat} (hd : d ≠ 0) (hc : Nat.gcd n c = 1) (x y : Nat) :
    d * c * x ≡ d * c * y [MOD d * n] ↔ x ≡ y [MOD n] := by
  rw [mul_assoc, mul_assoc, Nat.ModEq.mul_left_cancel_iff' hd]
  exact ⟨fun h => h.cancel_left_of_coprime hc, fun h => h.mul_left c⟩

/-- Two multiples of `d * c` agree when the numbers do modulo `n`. -/
theorem mul_ofNat_eq_iff {d c n : Nat} (hd : d ≠ 0) (hc : Nat.gcd n c = 1) (hn : d * n = 2 ^ 32) (t : UInt32)
    (x y : Nat) : t + UInt32.ofNat (d * c) * UInt32.ofNat x = t + UInt32.ofNat (d * c) * UInt32.ofNat y ↔
      x ≡ y [MOD n] := by
  rw [UInt32.add_right_inj, ← UInt32.ofNat_mul, ← UInt32.ofNat_mul, ofNat_eq_iff, ← hn]
  exact modEq_mul_iff hd hc x y

theorem unstamped_iff (t : UInt32) (k : Nat) :
    t + 20 * UInt32.ofNat k = t + 160 * UInt32.ofNat k ↔ k ≡ 0 [MOD 2 ^ 30] := by
  have h160 : t + 160 * UInt32.ofNat k = t + UInt32.ofNat (4 * 5) * UInt32.ofNat (k + 7 * k) := by
    rw [← UInt32.ofNat_mul, show 4 * 5 * (k + 7 * k) = 160 * k by omega, UInt32.ofNat_mul]
    rfl
  rw [h160]
  calc t + 20 * UInt32.ofNat k = t + UInt32.ofNat (4 * 5) * UInt32.ofNat (k + 7 * k)
      ↔ k ≡ k + 7 * k [MOD 2 ^ 30] :=
        mul_ofNat_eq_iff (d := 4) (c := 5) (by decide) (by decide) (by decide) t _ _
    _ ↔ 1 * 7 * 0 ≡ 1 * 7 * k [MOD 1 * 2 ^ 30] :=
        ⟨fun h => Nat.ModEq.add_left_cancel' k (by simpa using h), fun h => by simpa using Nat.ModEq.add_left k h⟩
    _ ↔ 0 ≡ k [MOD 2 ^ 30] := modEq_mul_iff (by decide) (by decide) _ _
    _ ↔ k ≡ 0 [MOD 2 ^ 30] := Nat.ModEq.comm

theorem follows_iff (t : UInt32) (n : Numbers) (k : Nat) :
    (t + 20 * UInt32.ofNat k) - (t + 20 * UInt32.ofNat n.remembered) = 20 ↔ n.follows k := by
  have hsub (x y : UInt32) : x - y = 20 ↔ x = y + 20 := by
    constructor
    · intro h
      rw [← h, UInt32.add_comm, UInt32.sub_add_cancel]
    · rintro rfl
      rw [UInt32.add_comm, UInt32.add_sub_cancel]
  rw [hsub]
  have hnext := mul_ofNat_add t 20 n.remembered
  exact (Eq.congr_right hnext).trans (mul_ofNat_eq_iff (d := 4) (c := 5) (by decide) (by decide) (by decide) t _ _)

theorem restamped_next_iff (t : UInt32) (b k : Nat) :
    t + 160 * UInt32.ofNat b + 160 = t + 160 * UInt32.ofNat k ↔ k ≡ b + 1 [MOD 2 ^ 27] := by
  have hnext := mul_ofNat_add t 160 b
  exact ((Eq.congr_left hnext).trans
    (mul_ofNat_eq_iff (d := 32) (c := 5) (by decide) (by decide) (by decide) t _ _)).trans Nat.ModEq.comm

/-- What a side remembers when all its packets were in turn. -/
def Remembers (t : UInt32) (memory : UInt32 × Option AudioChunk) : Option Numbers → Prop
  | none => memory.2 = none
  | some u => memory.1 = t + 20 * UInt32.ofNat u.remembered ∧
      ∃ c ∈ memory.2, c.details.timestamp = t + 160 * UInt32.ofNat u.last

/-- A mixer that has received packets in turn. -/
structure Received (cfg : MixerConfig) (t0 : Side → UInt32) (m : RtpMixer) (n : Side → Option Numbers) :
    Prop where
  receiving : Receiving cfg m
  remembers : ∀ s, Remembers (t0 s) (m.last s) (n s)

theorem Received.restamps_iff {n : Side → Option Numbers} (hi : Received cfg t0 m n) (p : MillisPacket t0) :
    Restamped cfg m p ↔ InTurn n p := by
  obtain ⟨⟨t, hplaced⟩, -⟩ := hi.receiving.packet p
  have hmemory := hi.remembers p.side
  have hiff : Restamped cfg m p ↔ (correctMillis p.chunk (m.last p.side).2 (m.last p.side).1).1.details.timestamp =
      t0 p.side + 160 * UInt32.ofNat p.number := by
    constructor
    · rintro ⟨c, t', hp, hc⟩
      cases hplaced.symm.trans hp
      exact hc
    · intro hc
      exact ⟨_, t, hplaced, hc⟩
  rw [hiff]
  unfold correctMillis InTurn
  generalize m.last p.side = memory at hmemory ⊢
  cases hn : n p.side with
  | none =>
    rw [hn] at hmemory
    rw [show memory.2 = none from hmemory]
    dsimp only
    rw [p.timestamp]
    exact unstamped_iff _ _
  | some u =>
    rw [hn] at hmemory
    obtain ⟨hremembered, c, hc, hlast⟩ := hmemory
    rw [Option.mem_def.1 hc]
    dsimp only
    rw [hremembered, p.timestamp]
    have hfollows := follows_iff (t0 p.side) u p.number
    by_cases hf : u.follows p.number
    · rw [if_pos (hfollows.2 hf), if_pos hf]
      show c.details.timestamp + 160 = _ ↔ _
      rw [hlast]
      exact restamped_next_iff _ _ _
    · rw [if_neg fun h => hf (hfollows.1 h), if_neg hf, p.timestamp]
      exact unstamped_iff _ _

theorem Received.step {n : Side → Option Numbers} (hi : Received cfg t0 m n) (p : MillisPacket t0)
    (h : Restamped cfg m p) : Received cfg t0 (m.step cfg (some p.chunk)) (received n p) := by
  obtain ⟨⟨t, hplaced⟩, hreceiving, hside, hother⟩ := hi.receiving.packet p
  refine ⟨hreceiving, fun s => ?_⟩
  unfold received
  by_cases hs : s = p.side
  · obtain ⟨c, t', hp, hc⟩ := h
    cases hplaced.symm.trans hp
    have hmemory := hi.remembers p.side
    rw [hs, hside, Function.update_self]
    refine ⟨?_, _, rfl, hc⟩
    show (correctMillis _ _ _).2 = _
    unfold correctMillis Numbers.next
    generalize m.last p.side = memory at hmemory ⊢
    cases hn : n p.side with
    | none =>
      rw [hn] at hmemory
      rw [show memory.2 = none from hmemory]
      exact p.timestamp
    | some u =>
      rw [hn] at hmemory
      obtain ⟨hremembered, c, hc, -⟩ := hmemory
      rw [Option.mem_def.1 hc]
      dsimp only [Option.elim_some]
      have hfollows := follows_iff (t0 p.side) u p.number
      rw [← hremembered, ← p.timestamp] at hfollows
      by_cases hf : u.follows p.number
      · rw [if_pos (hfollows.2 hf), if_pos hf]
        exact p.timestamp
      · rw [if_neg fun h => hf (hfollows.1 h), if_neg hf]
        exact hremembered
  · rw [hother s hs, Function.update_of_ne hs]
    exact hi.remembers s

theorem fresh_received (cfg : MixerConfig) (t0 : Side → UInt32) (stale : Nat → Int) (numOutputChannels : Nat) :
    Received cfg t0 (fresh stale numOutputChannels) (fun _ => none) where
  receiving := ⟨fresh_ringInv stale numOutputChannels, fresh_indexed cfg stale numOutputChannels, rfl⟩
  remembers s := by cases s <;> rfl

/-- **Packets stamped in milliseconds**: all of them are restamped exactly when none is lost. -/
theorem restamped_iff (cfg : MixerConfig) (stale : Nat → Int) (numOutputChannels : Nat) (t0 : Side → UInt32)
    (packets : List (MillisPacket t0)) :
    Run.Meets (fun m p => step m cfg (some p.chunk)) (Restamped cfg) (fresh stale numOutputChannels) packets ↔
      Run.Meets received InTurn (fun _ => none) packets :=
  Run.meets_iff_of_related (R := Received cfg t0) (fun _ _ p hi => hi.restamps_iff p)
    (fun _ _ p hi h => hi.step p h) (fresh_received cfg t0 stale numOutputChannels)

theorem pcmChunk_audible (channel : UInt8) (t : UInt32) (x : Int) : Audible (pcmChunk channel t 160 x) := by
  refine ⟨⟨160, ?_, by decide⟩, ?_, rfl⟩
  · show Except.ok (((UInt32.ofNat (2 * 160)).toNat / 2 : Nat) : Int) = .ok 160
    decide
  · show asInt (UInt32.ofNat (2 * 160)) ≤ 100000
    decide

/-- A packet of side 1 with silence, where the first one has timestamp 0. -/
def silentPacket (number : Nat) : MillisPacket (fun _ => 0) where
  side := .s1
  number := number
  chunk := pcmChunk 1 (20 * UInt32.ofNat number) 160 0
  audible := pcmChunk_audible ..
  not_eos := by
    show mediaChunkMarker ≠ mediaChunkEosMarker
    decide
  channel := rfl
  timestamp := (UInt32.zero_add _).symm

/-- The second packet is lost: the third one keeps its timestamp, 40, and the fourth one its own. -/
theorem not_restamped : ¬ Run.Meets (fun m p => step m {} (some p.chunk)) (Restamped {}) (fresh (fun _ => 0) 1)
    [silentPacket 0, silentPacket 2, silentPacket 3] := by
  rintro ⟨h0, h2, -⟩
  have hi := (fresh_received {} (fun _ => 0) (fun _ => 0) 1).step (silentPacket 0) h0
  have hturn : if Numbers.follows ⟨0, 0⟩ 2 then 2 ≡ 0 + 1 [MOD 2 ^ 27] else 2 ≡ 0 [MOD 2 ^ 30] :=
    (hi.restamps_iff (silentPacket 2)).1 h2
  revert hturn
  decide

/-! ## Calls of fewer than 2^30 packets -/

/-- The last number of each side. -/
def lastNumber (k : Side → Option Nat) (p : MillisPacket t0) : Side → Option Nat :=
  Function.update k p.side (some p.number)

/-- In order, and before the numbers of a side begin again. -/
def InOrder (k : Side → Option Nat) (p : MillisPacket t0) : Prop :=
  p.number < 2 ^ 30 ∧ ∀ a ∈ k p.side, a < p.number

def NoneLost (k : Side → Option Nat) (p : MillisPacket t0) : Prop := p.number = (k p.side).elim 0 (· + 1)

theorem inTurn_iff_noneLost {packets : List (MillisPacket t0)} {n : Side → Option Numbers} {k : Side → Option Nat}
    (hn : ∀ s, n s = (k s).map fun a => ⟨a, a⟩) (ho : Run.Meets lastNumber InOrder k packets) :
    Run.Meets received InTurn n packets ↔ Run.Meets lastNumber NoneLost k packets := by
  induction packets generalizing n k with
  | nil => exact Iff.rfl
  | cons p packets ih =>
    obtain ⟨⟨hlt, horder⟩, hrest⟩ := ho
    have hzero : p.number ≡ 0 [MOD 2 ^ 30] ↔ p.number = 0 := by
      rw [Nat.modEq_zero_iff_dvd]
      exact ⟨fun h => Nat.eq_zero_of_dvd_of_lt h hlt, fun h => h ▸ Nat.dvd_zero _⟩
    have hp : InTurn n p ↔ NoneLost k p := by
      unfold InTurn NoneLost
      rw [hn]
      cases hk : k p.side with
      | none => exact hzero
      | some a =>
        have hlast := horder a hk
        dsimp only [Option.map_some, Option.elim_some]
        have hfollows : Numbers.follows ⟨a, a⟩ p.number ↔ p.number = a + 1 := by
          have hnext : (a + 1) % 2 ^ 30 = a + 1 := Nat.mod_eq_of_lt (by omega)
          unfold Numbers.follows Nat.ModEq
          rw [Nat.mod_eq_of_lt hlt, hnext]
        by_cases hf : p.number = a + 1
        · rw [if_pos (hfollows.2 hf), hf]
          exact iff_of_true rfl rfl
        · rw [if_neg fun h => hf (hfollows.1 h), hzero]
          omega
    unfold Run.Meets
    rw [hp]
    refine and_congr_right fun hnone => ih (fun s => ?_) hrest
    unfold received lastNumber
    by_cases hs : s = p.side
    · rw [hs, Function.update_self, Function.update_self, hn]
      unfold NoneLost at hnone
      unfold Numbers.next
      cases hk : k p.side with
      | none => rfl
      | some a =>
        rw [hk] at hnone
        have hf : Numbers.follows ⟨a, a⟩ p.number := hnone ▸ rfl
        dsimp only [Option.map_some, Option.elim_some]
        rw [if_pos hf]
    · rw [Function.update_of_ne hs, Function.update_of_ne hs]
      exact hn s

/-- In a call of fewer than 2^30 packets a side, the condition is that each one has the number after the one
before. -/
theorem restamped_iff_noneLost (cfg : MixerConfig) (stale : Nat → Int) (numOutputChannels : Nat)
    {packets : List (MillisPacket t0)} (ho : Run.Meets lastNumber InOrder (fun _ => none) packets) :
    Run.Meets (fun m p => step m cfg (some p.chunk)) (Restamped cfg) (fresh stale numOutputChannels) packets ↔
      Run.Meets lastNumber NoneLost (fun _ => none) packets :=
  (Run.meets_iff_of_related (R := Received cfg t0) (fun _ _ p hi => hi.restamps_iff p)
    (fun _ _ p hi h => hi.step p h) (fresh_received cfg t0 stale numOutputChannels)).trans
    (inTurn_iff_noneLost (fun _ => rfl) ho)

end RtpMixer

end Oreka.Mixer
