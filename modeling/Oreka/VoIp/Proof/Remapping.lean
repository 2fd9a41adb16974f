import Oreka.Lib.Run
import Oreka.VoIp.Proof.PacketPath

/-!
# Remapping a side to another stream

A packet whose SSRC is that of neither side is dismissed, until there have been enough of them: then `AddRtpPacket`
maps a side to it. The two sides have a counter each, but share the SSRC they count. `Watched` is a session beside
what became of the packets given to it, so that what a counter holds can be compared with the packets there were.

When one side is remapped, the counter of the other side stands, and so it does where the sides are swapped:
`Fresh` is the condition that neither goes wrong.
-/

namespace Oreka.VoIp.Remapping

/-- A packet, and what else is reported to the session since the packet before. -/
structure Arrival where
  meanwhile : VoIpCall → VoIpCall := id
  directory : Directory
  packet : RtpPacketInfo
  now : Int
  sides_meanwhile (c : VoIpCall) : (meanwhile c).sides = c.sides

/-- What became of a packet. -/
structure Seen where
  ssrc : UInt32
  /-- It matches neither side. -/
  unmatched : Bool
  /-- The side it is accepted on. -/
  accepted : Option Nat
  /-- The sides are swapped after it. -/
  swapped : Bool

/-- `AddRtpPacket` maps a side to the packet. -/
def Seen.Remaps (s : Seen) (side : Nat) : Prop := s.unmatched ∧ s.accepted = some side

def see (c : VoIpCall) (cfg : VoIpConfig) (d : Directory) (p : RtpPacketInfo) (now : Int) : Seen :=
  match c.toPlace cfg d p now with
  | none => ⟨p.ssrc, false, none, false⟩
  | some (c, d) =>
    let (c, _, channel, first) := { c with lastRtpPacket := some p }.detectChannel cfg d p now
    match c.verdict cfg p channel first now with
    | .kept c side => ⟨p.ssrc, channel == 0, some side, c.swaps cfg⟩
    | _ => ⟨p.ssrc, channel == 0, none, false⟩

/-- The unmatched packets of an SSRC since the last packet accepted on a side, the newest packet first. -/
def unmatchedSince (ssrc : UInt32) : Nat → List Seen → Nat
  | _, [] => 0
  | side, s :: earlier =>
    -- before a swap, the stream of this side was on the other one
    let was := if s.swapped then side % 2 + 1 else side
    if s.accepted = some was then 0
    else unmatchedSince ssrc was earlier + if s.unmatched ∧ s.ssrc = ssrc then 1 else 0

/-- A session beside the packets given to it, the newest first. -/
structure Watched where
  call : VoIpCall
  history : List Seen := []

def Watched.seen (w : Watched) (cfg : VoIpConfig) (a : Arrival) : Seen :=
  see (a.meanwhile w.call) cfg a.directory a.packet a.now

def Watched.next (cfg : VoIpConfig) (w : Watched) (a : Arrival) : Watched where
  call := ((a.meanwhile w.call).addRtpPacket cfg a.directory a.packet a.now).call
  history := w.seen cfg a :: w.history

/-- A side is mapped to the packet only after more than 10 unmatched ones of its SSRC, itself included. -/
def Earned (cfg : VoIpConfig) (w : Watched) (a : Arrival) : Prop :=
  ∀ side, (w.seen cfg a).Remaps side → 10 < unmatchedSince a.packet.ssrc side w.history + 1

/-- No count is left of another SSRC where an unmatched packet becomes the candidate, nor of the other side where
the sides are swapped. -/
def Fresh (cfg : VoIpConfig) (w : Watched) (a : Arrival) : Prop :=
  ((w.seen cfg a).unmatched → w.call.ssrcCandidate = -1 →
    w.call.numAlienRtpPacketsS1 = 0 ∧ w.call.numAlienRtpPacketsS2 = 0) ∧
  ((w.seen cfg a).swapped → (w.seen cfg a).unmatched = false → w.call.ssrcCandidate ≠ -1 →
    ((w.seen cfg a).accepted = some 1 → w.call.numAlienRtpPacketsS2 = 0) ∧
      ((w.seen cfg a).accepted = some 2 → w.call.numAlienRtpPacketsS1 = 0))

/-- What the counters hold is covered by the unmatched packets there were. -/
structure Inv (s : Sides) (history : List Seen) : Prop where
  counted1 : s.ssrcCandidate ≠ -1 → s.numAlienRtpPacketsS1 ≤ unmatchedSince s.ssrcCandidate 1 history
  counted2 : s.ssrcCandidate ≠ -1 → s.numAlienRtpPacketsS2 ≤ unmatchedSince s.ssrcCandidate 2 history
  few : s.ssrcCandidate ≠ -1 → s.numAlienRtpPacketsS1 ≤ 10 ∧ s.numAlienRtpPacketsS2 ≤ 10
  empty : s.lastRtpPacketSide1 = none ∨ s.lastRtpPacketSide2 = none →
    s.numAlienRtpPacketsS1 = 0 ∧ s.numAlienRtpPacketsS2 = 0

variable {s t : Sides} {p : RtpPacketInfo} {history : List Seen} {ssrc : UInt32}

theorem Inv.new {candidate : UInt32} (h : s = ⟨none, none, false, 0, 0, candidate⟩) : Inv s history := by
  subst h
  exact ⟨fun _ => Nat.zero_le _, fun _ => Nat.zero_le _, fun _ => ⟨Nat.zero_le _, Nat.zero_le _⟩,
    fun _ => ⟨rfl, rfl⟩⟩

/-- A packet that is of no account. -/
theorem Inv.aside (hi : Inv s history) (hc : t.ssrcCandidate = s.ssrcCandidate)
    (h1 : t.numAlienRtpPacketsS1 = s.numAlienRtpPacketsS1) (h2 : t.numAlienRtpPacketsS2 = s.numAlienRtpPacketsS2)
    (hn : t.lastRtpPacketSide1 = none ∨ t.lastRtpPacketSide2 = none →
      s.lastRtpPacketSide1 = none ∨ s.lastRtpPacketSide2 = none) :
    Inv t (⟨ssrc, false, none, false⟩ :: history) := by
  refine ⟨fun hne => ?_, fun hne => ?_, fun hne => ?_, fun h => ?_⟩
  · simpa [unmatchedSince, h1, hc] using hi.counted1 (hc ▸ hne)
  · simpa [unmatchedSince, h2, hc] using hi.counted2 (hc ▸ hne)
  · simpa [h1, h2] using hi.few (hc ▸ hne)
  · simpa [h1, h2] using hi.empty (hn h)

/-- A packet accepted on side 1. -/
theorem Inv.accept1 (hi : Inv s history) (hc : t.ssrcCandidate = s.ssrcCandidate)
    (h1 : t.numAlienRtpPacketsS1 = 0) (h2 : t.numAlienRtpPacketsS2 = s.numAlienRtpPacketsS2) {swapped : Bool}
    (hs : swapped → s.ssrcCandidate ≠ -1 → s.numAlienRtpPacketsS2 = 0)
    (hn : t.lastRtpPacketSide1 = none ∨ t.lastRtpPacketSide2 = none →
      s.lastRtpPacketSide1 = none ∨ s.lastRtpPacketSide2 = none) :
    Inv t (⟨ssrc, false, some 1, swapped⟩ :: history) := by
  refine ⟨fun _ => h1 ▸ Nat.zero_le _, fun hne => ?_, fun hne => ?_, fun h => ?_⟩
  · cases swapped with
    | true => simp [h2, hs rfl (hc ▸ hne)]
    | false => simpa [unmatchedSince, h2, hc] using hi.counted2 (hc ▸ hne)
  · simpa [h1, h2] using (hi.few (hc ▸ hne)).2
  · simpa [h1, h2] using (hi.empty (hn h)).2

/-- A packet accepted on side 2. -/
theorem Inv.accept2 (hi : Inv s history) (hc : t.ssrcCandidate = s.ssrcCandidate)
    (h1 : t.numAlienRtpPacketsS1 = s.numAlienRtpPacketsS1) (h2 : t.numAlienRtpPacketsS2 = 0) {swapped : Bool}
    (hs : swapped → s.ssrcCandidate ≠ -1 → s.numAlienRtpPacketsS1 = 0)
    (hn : t.lastRtpPacketSide1 = none ∨ t.lastRtpPacketSide2 = none →
      s.lastRtpPacketSide1 = none ∨ s.lastRtpPacketSide2 = none) :
    Inv t (⟨ssrc, false, some 2, swapped⟩ :: history) := by
  refine ⟨fun hne => ?_, fun _ => h2 ▸ Nat.zero_le _, fun hne => ?_, fun h => ?_⟩
  · cases swapped with
    | true => simp [h1, hs rfl (hc ▸ hne)]
    | false => simpa [unmatchedSince, h1, hc] using hi.counted1 (hc ▸ hne)
  · simpa [h1, h2] using (hi.few (hc ▸ hne)).1
  · simpa [h1, h2] using (hi.empty (hn h)).1

/-- A side is mapped to the packet: no candidate is left. -/
theorem Inv.remap {seen : Seen} (hc : t.ssrcCandidate = -1)
    (hn : ¬(t.lastRtpPacketSide1 = none ∨ t.lastRtpPacketSide2 = none)) : Inv t (seen :: history) :=
  ⟨fun h => (h hc).elim, fun h => (h hc).elim, fun h => (h hc).elim, fun h => (hn h).elim⟩

open VoIpCall

theorem unmatchedSince_unmatched {side : Nat} : unmatchedSince ssrc side (⟨p.ssrc, true, none, false⟩ :: history) =
    unmatchedSince ssrc side history + if p.ssrc = ssrc then 1 else 0 := by
  simp [unmatchedSince]

/-- Only a packet of the candidate takes a counter over 10. -/
theorem Inv.earned (hi : Inv s history) (hr : CountsAlien s p t)
    (h0 : s.ssrcCandidate = -1 → s.numAlienRtpPacketsS1 = 0 ∧ s.numAlienRtpPacketsS2 = 0) :
    (10 < t.numAlienRtpPacketsS1 → 10 < unmatchedSince p.ssrc 1 history + 1) ∧
      (10 < t.numAlienRtpPacketsS2 → 10 < unmatchedSince p.ssrc 2 history + 1) := by
  cases hr with
  | candidate hc =>
    obtain ⟨h1, h2⟩ := h0 hc
    simp [h1, h2]
  | counted hc hp =>
    have h1 := hi.counted1 hc
    have h2 := hi.counted2 hc
    rw [hp]
    exact ⟨fun h => lt_of_lt_of_le h (Nat.succ_le_succ h1), fun h => lt_of_lt_of_le h (Nat.succ_le_succ h2)⟩
  | stopped => exact ⟨fun h => absurd h (Nat.not_lt_zero _), fun h => absurd h (Nat.not_lt_zero _)⟩
  | ignored hc => exact ⟨fun h => absurd h (hi.few hc).1.not_gt, fun h => absurd h (hi.few hc).2.not_gt⟩

theorem Inv.dismiss (hi : Inv s history) (hr : CountsAlien s p t)
    (h0 : s.ssrcCandidate = -1 → s.numAlienRtpPacketsS1 = 0 ∧ s.numAlienRtpPacketsS2 = 0)
    (hn : ¬(s.lastRtpPacketSide1 = none ∨ s.lastRtpPacketSide2 = none))
    (h1 : t.numAlienRtpPacketsS1 ≤ 10) (h2 : t.numAlienRtpPacketsS2 ≤ 10) :
    Inv t (⟨p.ssrc, true, none, false⟩ :: history) := by
  cases hr with
  | candidate hc =>
    obtain ⟨hz1, hz2⟩ := h0 hc
    exact ⟨fun _ => by simp [hz1], fun _ => by simp [hz2], fun _ => ⟨h1, h2⟩, fun h => (hn h).elim⟩
  | counted hc hp =>
    refine ⟨fun _ => ?_, fun _ => ?_, fun _ => ⟨h1, h2⟩, fun h => (hn h).elim⟩
    · rw [unmatchedSince_unmatched, if_pos hp]
      exact Nat.succ_le_succ (hi.counted1 hc)
    · rw [unmatchedSince_unmatched, if_pos hp]
      exact Nat.succ_le_succ (hi.counted2 hc)
  | stopped => exact .remap rfl hn
  | ignored hc =>
    refine ⟨fun _ => ?_, fun _ => ?_, fun _ => ⟨h1, h2⟩, fun h => (hn h).elim⟩
    · rw [unmatchedSince_unmatched]
      exact (hi.counted1 hc).trans (Nat.le_add_right _ _)
    · rw [unmatchedSince_unmatched]
      exact (hi.counted2 hc).trans (Nat.le_add_right _ _)

/-! ## One packet -/

variable {w : Watched} {cfg : VoIpConfig} {a : Arrival}

/-- A packet that does not get to the choice of a channel. -/
theorem Inv.notPlaced (hi : Inv w.call.sides w.history)
    (h : (a.meanwhile w.call).toPlace cfg a.directory a.packet a.now = none) :
    Earned cfg w a ∧ Inv (w.next cfg a).call.sides (w.next cfg a).history := by
  have hseen : w.seen cfg a = ⟨a.packet.ssrc, false, none, false⟩ := by simp [Watched.seen, see, h]
  refine ⟨fun side hr => ?_, ?_⟩
  · rw [hseen] at hr
    cases hr.1
  · have hs := a.sides_meanwhile w.call
    simp only [Watched.next, hseen]
    rcases (addRtpPacket_of_not_toPlace h).2 with hsame | ⟨c', d', hc', hdet⟩
    · rw [sides_of_core hsame, hs]
      exact hi.aside rfl rfl rfl id
    · replace hc' := (sides_of_core hc').trans hs
      rw [sides_of_core hdet]
      have hn1 : c'.lastRtpPacketSide1 = w.call.lastRtpPacketSide1 := congrArg Sides.lastRtpPacketSide1 hc'
      have hn2 : c'.lastRtpPacketSide2 = w.call.lastRtpPacketSide2 := congrArg Sides.lastRtpPacketSide2 hc'
      rcases detectChannel_cases c' cfg d' a.packet a.now with ⟨h1, -, hr⟩ | ⟨-, -, -, -, hr⟩ |
          ⟨-, -, -, ⟨h2, -, hr⟩ | ⟨-, -, -, -, hr⟩ | ⟨-, -, -, -, hr⟩⟩ <;> rw [hr, hc']
      · exact hi.aside rfl rfl rfl fun _ => .inl (hn1.symm.trans h1)
      · exact hi.aside rfl rfl rfl id
      · exact hi.aside rfl rfl rfl fun _ => .inr (hn2.symm.trans h2)
      · exact hi.aside rfl rfl rfl id
      · exact hi.aside rfl rfl rfl id

/-- What a packet leaves by its verdict. -/
def Leaves (cfg : VoIpConfig) (w : Watched) (a : Arrival) (channel : Nat) : Verdict → Prop
  | .kept c side => w.seen cfg a = ⟨a.packet.ssrc, channel == 0, some side, c.swaps cfg⟩ ∧
      (w.next cfg a).call.sides = (c.mapDeterministic cfg).sides
  | .dismissed c => w.seen cfg a = ⟨a.packet.ssrc, channel == 0, none, false⟩ ∧
      (w.next cfg a).call.sides = c.sides
  | .rejected c => w.seen cfg a = ⟨a.packet.ssrc, channel == 0, none, false⟩ ∧
      (w.next cfg a).call.sides = c.sides

theorem leaves_verdict {c : VoIpCall} {d : Directory}
    (h : (a.meanwhile w.call).toPlace cfg a.directory a.packet a.now = some (c, d)) :
    let r := { c with lastRtpPacket := some a.packet }.detectChannel cfg d a.packet a.now
    Leaves cfg w a r.2.2.1 (r.1.verdict cfg a.packet r.2.2.1 r.2.2.2 a.now) := by
  have hadd := (addRtpPacket_of_toPlace h).1
  simp only [Leaves, Watched.seen, Watched.next, see, h, hadd, placePacket]
  generalize ({ c with lastRtpPacket := some a.packet } : VoIpCall).detectChannel cfg d a.packet a.now = r
  obtain ⟨c₁, d₁, channel, first⟩ := r
  dsimp only
  cases c₁.verdict cfg a.packet channel first a.now with
  | dismissed c' => exact ⟨rfl, rfl⟩
  | rejected c' => exact ⟨rfl, rfl⟩
  | kept c' side => exact ⟨rfl, (sides_of_core keepPacket_core)⟩

/-- A packet of one of the sides. -/
theorem Inv.matched (hi : Inv w.call.sides w.history) (hf : Fresh cfg w a) {v : Verdict} {channel : Nat}
    (hm : Matched w.call.sides a.packet channel v)
    (h : Leaves cfg w a channel v) :
    (w.seen cfg a).unmatched = false ∧ Inv (w.next cfg a).call.sides (w.next cfg a).history := by
  have hhist : (w.next cfg a).history = w.seen cfg a :: w.history := rfl
  have hswap := hf.2
  cases hm <;> obtain ⟨hseen, hnext⟩ := h <;> rw [hhist, hnext] <;> rw [hseen] at hswap ⊢
  case first1 c' hnone hc' =>
    obtain ⟨hc, h1, h2, -⟩ := c'.mapDeterministic_counters cfg
    rw [hc'] at hc h1 h2
    have hz : w.call.numAlienRtpPacketsS1 = 0 := (hi.empty (.inl hnone)).1
    exact ⟨rfl, hi.accept1 hc (h1.trans hz) h2 (fun hs hne => (hswap hs rfl hne).1 rfl) fun _ => .inl hnone⟩
  case first2 c' hnone hc' =>
    obtain ⟨hc, h1, h2, -⟩ := c'.mapDeterministic_counters cfg
    rw [hc'] at hc h1 h2
    have hz : w.call.numAlienRtpPacketsS2 = 0 := (hi.empty (.inr hnone)).2
    exact ⟨rfl, hi.accept2 hc h1 (h2.trans hz) (fun hs hne => (hswap hs rfl hne).2 rfl) fun _ => .inr hnone⟩
  case next1 c' hc' =>
    obtain ⟨hc, h1, h2, hn⟩ := c'.mapDeterministic_counters cfg
    rw [hc'] at hc h1 h2 hn
    exact ⟨rfl, hi.accept1 hc h1 h2 (fun hs hne => (hswap hs rfl hne).1 rfl) fun ht =>
      .inr ((hn ht).resolve_left (by simp))⟩
  case next2 c' hc' =>
    obtain ⟨hc, h1, h2, hn⟩ := c'.mapDeterministic_counters cfg
    rw [hc'] at hc h1 h2 hn
    exact ⟨rfl, hi.accept2 hc h1 h2 (fun hs hne => (hswap hs rfl hne).2 rfl) fun ht =>
      .inl ((hn ht).resolve_right (by simp))⟩
  case dismissed c' hc' hch =>
    rw [beq_false_of_ne hch, hc']
    exact ⟨rfl, hi.aside rfl rfl rfl id⟩
  case rejected c' hc' hch =>
    rw [beq_false_of_ne hch, hc']
    exact ⟨rfl, hi.aside rfl rfl rfl id⟩

theorem Inv.placed (hi : Inv w.call.sides w.history) (hf : Fresh cfg w a) {c : VoIpCall} {d : Directory}
    (h : (a.meanwhile w.call).toPlace cfg a.directory a.packet a.now = some (c, d)) :
    Earned cfg w a ∧ Inv (w.next cfg a).call.sides (w.next cfg a).history := by
  have hsides : ({ c with lastRtpPacket := some a.packet } : VoIpCall).sides = w.call.sides :=
    (addRtpPacket_of_toPlace h).2.1.trans (a.sides_meanwhile w.call)
  have hleaves := leaves_verdict h
  have hcases := verdict_cases { c with lastRtpPacket := some a.packet } cfg d a.packet a.now
  dsimp only at hleaves hcases
  generalize ({ c with lastRtpPacket := some a.packet } : VoIpCall).detectChannel cfg d a.packet a.now = r
    at hleaves hcases
  rcases hcases with hm | ⟨s1, s2, h1, h2, hch, hr, hv⟩
  · rw [hsides] at hm
    obtain ⟨hu, hinv⟩ := hi.matched hf hm hleaves
    refine ⟨fun side hr => ?_, hinv⟩
    rw [hr.1] at hu
    cases hu
  · rw [hsides] at hr
    rw [hv, hch] at hleaves
    have hn1 : w.call.sides.lastRtpPacketSide1 = some s1 := hsides ▸ h1
    have hn2 : w.call.sides.lastRtpPacketSide2 = some s2 := hsides ▸ h2
    have hcount := countAlien_counts r.1 a.packet a.now
    rw [hr] at hcount
    obtain ⟨hsame1, hsame2⟩ := hcount.same
    rcases remapSide_cases r.1 a.packet a.now with ⟨c', hk, hten, hc'⟩ | ⟨c', hk, hten, hc'⟩ | ⟨hk, hle1, hle2⟩ <;>
      rw [hk] at hleaves <;> obtain ⟨hseen, hnext⟩ := hleaves <;>
      have h0 := hf.1 (by rw [hseen]; rfl)
    · refine ⟨fun side hrem => ?_, ?_⟩
      · rw [hseen] at hrem
        cases hrem.2
        exact (hi.earned hcount h0).1 hten
      · obtain ⟨hc, -, -, hn⟩ := c'.mapDeterministic_counters cfg
        rw [hc'] at hc hn
        rw [hnext]
        exact .remap hc fun ht => by simpa [hsame2, hn2] using hn ht
    · refine ⟨fun side hrem => ?_, ?_⟩
      · rw [hseen] at hrem
        cases hrem.2
        exact (hi.earned hcount h0).2 hten
      · obtain ⟨hc, -, -, hn⟩ := c'.mapDeterministic_counters cfg
        rw [hc'] at hc hn
        rw [hnext]
        exact .remap hc fun ht => by simpa [hsame1, hn1] using hn ht
    · refine ⟨fun side hrem => ?_, ?_⟩
      · rw [hseen] at hrem
        cases hrem.2
      · have hhist : (w.next cfg a).history = w.seen cfg a :: w.history := rfl
        rw [hhist, hseen, hnext]
        exact hi.dismiss hcount h0 (by simp [hn1, hn2]) hle1 hle2

/-- Every step that is fresh earns its remapping, and keeps the counts covered. -/
theorem Inv.next (hi : Inv w.call.sides w.history) (hf : Fresh cfg w a) :
    Earned cfg w a ∧ Inv (w.next cfg a).call.sides (w.next cfg a).history := by
  cases h : (a.meanwhile w.call).toPlace cfg a.directory a.packet a.now with
  | none => exact hi.notPlaced h
  | some r => exact hi.placed hf h

/-! ## Every packet -/

instance : Decidable (Fresh cfg w a) :=
  inferInstanceAs (Decidable ((_ → _ → _ ∧ _) ∧ (_ → _ → _ → (_ → _) ∧ (_ → _))))

/-- A session with no packet yet; one that replaces another takes over its candidate. -/
def unwatched (cfg : VoIpConfig) (trackingId : String) (r : Ref) (now : Int) (candidate : UInt32) : Watched where
  call := { VoIpCall.new cfg trackingId r now with ssrcCandidate := candidate }

/-- **A side is remapped only after more than 10 packets of the stream it is mapped to**, in every run in which no
count stands that is of another stream. -/
theorem earned_of_fresh (cfg : VoIpConfig) (trackingId : String) (r : Ref) (now : Int) (candidate : UInt32)
    (arrivals : List Arrival) (h : Run.Meets (Watched.next cfg) (Fresh cfg)
      (unwatched cfg trackingId r now candidate) arrivals) :
    Run.Meets (Watched.next cfg) (Earned cfg) (unwatched cfg trackingId r now candidate) arrivals :=
  Run.meets_of_inv (I := fun w => Inv w.call.sides w.history) (fun _ _ hi hf => hi.next hf) (.new rfl) h

/-- A packet of a session that has only RTP. -/
def packetOf (ssrc : UInt32) : Arrival where
  meanwhile c := { c with protocol := .rawRtp }
  directory := {}
  packet := { ssrc := ssrc }
  now := 0
  sides_meanwhile _ := rfl

/-- Two streams, and twelve packets of a third one, which takes the place of the first. -/
def thirdStream : List Arrival := packetOf 1 :: packetOf 2 :: List.replicate 12 (packetOf 3)

theorem earned_thirdStream : Run.Meets (Watched.next {}) (Earned {}) (unwatched {} "" 0 0 (-1)) thirdStream ∧
    ((thirdStream.dropLast.foldl (Watched.next {}) (unwatched {} "" 0 0 (-1))).seen {} (packetOf 3)).Remaps 1 :=
  ⟨earned_of_fresh {} "" 0 0 (-1) thirdStream (by decide), by decide, by decide⟩

/-- One packet of a fourth stream takes the place of the second. -/
theorem not_earned : ¬∀ (cfg : VoIpConfig) (trackingId : String) (r : Ref) (now : Int) (candidate : UInt32)
    (arrivals : List Arrival),
    Run.Meets (Watched.next cfg) (Earned cfg) (unwatched cfg trackingId r now candidate) arrivals := by
  intro h
  have hlast : Earned {} (thirdStream.foldl (Watched.next {}) (unwatched {} "" 0 0 (-1))) (packetOf 4) :=
    (Run.meets_append.mp (h {} "" 0 0 (-1) (thirdStream ++ [packetOf 4]))).2.1
  exact absurd (hlast 2 ⟨by decide +kernel, by decide +kernel⟩) (by decide +kernel)

end Oreka.VoIp.Remapping
