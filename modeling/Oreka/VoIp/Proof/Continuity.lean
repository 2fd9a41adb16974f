import Oreka.VoIp.Proof.Remapping

/-!
# The continuity of a stream

A packet of a side is held against the last packet of it: against the jump of both counters
(`RtpDiscontinuityDetect`) and against a pause (`RtpBreakupOnStreamPause`). `continuity` is the verdict, for either
side; it differs between the sides in one test. A stream is followed over the packets a session gets
(`Undisturbed`), whatever else is reported to the session.
-/

namespace Oreka.VoIp.Continuity

open VoIpCall Remapping

/-- What becomes of a packet. -/
inductive Outcome
  | dismissed | rejected | kept
  deriving DecidableEq


/-- A packet of the stream, and what else is reported to the session since the packet before. -/
structure Arrival where
  meanwhile : VoIpCall → VoIpCall := id
  directory : Directory
  packet : RtpPacketInfo
  now : Int

variable (cfg : VoIpConfig)

def next (c : VoIpCall) (a : Arrival) : VoIpCall :=
  ((a.meanwhile c).addRtpPacket cfg a.directory a.packet a.now).call

/-- What `AddRtpPacket` makes of the packet; it returns false for a rejected one. -/
def outcome (c : VoIpCall) (a : Arrival) : Outcome :=
  if ((a.meanwhile c).addRtpPacket cfg a.directory a.packet a.now).ok = false then .rejected
  else if (see (a.meanwhile c) cfg a.directory a.packet a.now).accepted.isSome then .kept
  else .dismissed

/-- The packet of a side that its last packet is. -/
def OnSide (c : VoIpCall) (side : Nat) (last : RtpPacketInfo) : Prop :=
  (side = 1 ∧ c.lastRtpPacketSide1 = some last) ∨
  (side = 2 ∧ c.lastRtpPacketSide2 = some last ∧ ∃ s1, c.lastRtpPacketSide1 = some s1 ∧ ¬OfStream s1 last)

/-- The verdict on a packet of a side by its last packet. -/
def continuity (side : Nat) (p last : RtpPacketInfo) : Outcome :=
  if p.timestamp = last.timestamp then .dismissed
  else if isDiscontinuous cfg p last then .rejected
  else if cfg.rtpBreakupOnStreamPause ∧ resetSeqNumDelta p last * 160 < timestampStep p last ∧
      (side = 1 → ((p.seqNum.toNat : Int) - last.seqNum.toNat).natAbs * 160 < timestampStep p last) then .rejected
  else .kept

/-! ## One packet -/

variable {cfg} {c : VoIpCall} {d : Directory} {p last : RtpPacketInfo} {now : Int} {side : Nat}

theorem detectChannel_onSide (cfg : VoIpConfig) (d : Directory) (now : Int) (hon : OnSide c side last) (hp : OfStream last p) :
    (c.detectChannel cfg d p now).2.2 = (side, false) ∧ (c.detectChannel cfg d p now).1.sides = c.sides := by
  rcases detectChannel_cases c cfg d p now with ⟨h1, -⟩ | ⟨s1, h1, hs1, hr⟩ | ⟨s1, h1, hs1, h⟩
  · rcases hon with ⟨-, h⟩ | ⟨-, -, s1, h, -⟩ <;> cases h1.symm.trans h
  · rcases hon with ⟨rfl, -⟩ | ⟨-, -, s1', h1', hne⟩
    · exact hr
    · cases h1.symm.trans h1'
      exact (hne ⟨hp.1.symm.trans hs1.1, hs1.2.trans hp.2.symm⟩).elim
  · rcases hon with ⟨-, h1'⟩ | ⟨rfl, h2', -⟩
    · cases h1.symm.trans h1'
      exact (hs1 hp).elim
    · rcases h with ⟨h2, -⟩ | ⟨s2, -, -, hr⟩ | ⟨s2, h2, hs2, -⟩
      · cases h2.symm.trans h2'
      · exact hr
      · cases h2.symm.trans h2'
        exact (hs2 hp).elim

/-- A verdict is `o`, on a side whose packet it leaves to be `p` if it is kept. -/
def Decides (o : Outcome) (s : Sides) (p : RtpPacketInfo) (side : Nat) : Verdict → Prop
  | .dismissed c => o = .dismissed ∧ c.sides = s
  | .rejected c => o = .rejected ∧ c.sides = s
  | .kept c k => o = .kept ∧ k = side ∧
      (side = 1 → c.sides = { s with lastRtpPacketSide1 := some p, numAlienRtpPacketsS1 := 0 }) ∧
      (side = 2 → c.sides = { s with lastRtpPacketSide2 := some p, numAlienRtpPacketsS2 := 0 })

theorem continueSide1_decides : Decides (continuity cfg 1 p last) c.sides p 1 (c.continueSide1 cfg p last) := by
  unfold continueSide1 continuity
  dsimp only
  by_cases hts : p.timestamp = last.timestamp
  · rw [if_pos hts, if_pos hts]
    exact ⟨rfl, rfl⟩
  rw [if_neg hts, if_neg hts]
  by_cases hd : isDiscontinuous cfg p last = true
  · rw [if_pos hd, if_pos hd]
    exact ⟨rfl, rfl⟩
  rw [if_neg hd, if_neg hd]
  generalize hmay : (cfg.rtpBreakupOnStreamPause && decide (_ < timestampStep p last)) = mayPause
  have hpause : (mayPause = true ∧ resetSeqNumDelta p last * 160 < timestampStep p last) ↔
      (cfg.rtpBreakupOnStreamPause ∧ resetSeqNumDelta p last * 160 < timestampStep p last ∧
        (1 = 1 → (((p.seqNum.toNat : Int) - last.seqNum.toNat).natAbs : Int) * 160 < timestampStep p last)) := by
    rw [← hmay]
    simp [and_assoc, and_comm]
  by_cases hp : mayPause = true ∧ resetSeqNumDelta p last * 160 < timestampStep p last
  · rw [if_pos hp, if_pos (hpause.mp hp)]
    exact ⟨rfl, rfl⟩
  · rw [if_neg hp, if_neg (mt hpause.mpr hp)]
    refine ⟨rfl, rfl, fun _ => ?_, fun h => absurd h (by decide)⟩
    split <;> split <;> rfl

theorem continueSide2_decides : Decides (continuity cfg 2 p last) c.sides p 2 (c.continueSide2 cfg p last) := by
  unfold continueSide2 continuity
  dsimp only
  by_cases hts : p.timestamp = last.timestamp
  · rw [if_pos hts, if_pos hts]
    exact ⟨rfl, rfl⟩
  rw [if_neg hts, if_neg hts]
  by_cases hd : isDiscontinuous cfg p last = true
  · rw [if_pos hd, if_pos hd]
    exact ⟨rfl, rfl⟩
  rw [if_neg hd, if_neg hd]
  by_cases hp : cfg.rtpBreakupOnStreamPause ∧ resetSeqNumDelta p last * 160 < timestampStep p last
  · rw [if_pos hp, if_pos ⟨hp.1, hp.2, fun h => absurd h (by decide)⟩]
    exact ⟨rfl, rfl⟩
  · rw [if_neg hp, if_neg fun h => hp ⟨h.1, h.2.1⟩]
    exact ⟨rfl, rfl, fun h => absurd h (by decide), fun _ => rfl⟩

/-- The next packet of the stream of a side. -/
theorem verdict_onSide (cfg : VoIpConfig) (d : Directory) (now : Int) (hon : OnSide c side last) (hp : OfStream last p) :
    let r := c.detectChannel cfg d p now
    Decides (continuity cfg side p last) c.sides p side (r.1.verdict cfg p r.2.2.1 r.2.2.2 now) := by
  obtain ⟨hch, hsides⟩ := detectChannel_onSide cfg d now hon hp
  dsimp only
  rw [hch, ← hsides]
  rcases hon with ⟨rfl, h1⟩ | ⟨rfl, h2, -⟩
  · have h1' : (c.detectChannel cfg d p now).1.lastRtpPacketSide1 = some last :=
      (congrArg Sides.lastRtpPacketSide1 hsides).trans h1
    simp only [verdict, h1']
    exact continueSide1_decides
  · have h2' : (c.detectChannel cfg d p now).1.lastRtpPacketSide2 = some last :=
      (congrArg Sides.lastRtpPacketSide2 hsides).trans h2
    simp only [verdict, h2']
    exact continueSide2_decides

theorem OnSide.of_sides (h : OnSide c side last) {c' : VoIpCall} (hs : c'.sides = c.sides) : OnSide c' side last := by
  have h1 : c'.lastRtpPacketSide1 = c.lastRtpPacketSide1 := congrArg Sides.lastRtpPacketSide1 hs
  have h2 : c'.lastRtpPacketSide2 = c.lastRtpPacketSide2 := congrArg Sides.lastRtpPacketSide2 hs
  unfold OnSide at h ⊢
  rwa [h1, h2]

/-- A packet that is kept is the last one of its side, unless the sides are swapped. -/
theorem OnSide.kept (hon : OnSide c side last) (hp : OfStream last p) {c' : VoIpCall}
    (h1 : side = 1 → c'.sides = { c.sides with lastRtpPacketSide1 := some p, numAlienRtpPacketsS1 := 0 })
    (h2 : side = 2 → c'.sides = { c.sides with lastRtpPacketSide2 := some p, numAlienRtpPacketsS2 := 0 })
    (hsw : c'.swaps cfg = false) : OnSide (c'.mapDeterministic cfg) side p := by
  obtain ⟨mapped, hmap⟩ := mapDeterministic_sides c' cfg
  rw [hsw] at hmap
  rcases hon with ⟨rfl, -⟩ | ⟨rfl, -, s1, hs1, hne⟩
  · left
    rw [h1 rfl] at hmap
    exact ⟨rfl, congrArg Sides.lastRtpPacketSide1 hmap⟩
  · right
    rw [h2 rfl] at hmap
    refine ⟨rfl, congrArg Sides.lastRtpPacketSide2 hmap, s1, ?_, fun h => ?_⟩
    · exact (congrArg Sides.lastRtpPacketSide1 hmap).trans hs1
    · exact hne ⟨hp.1.symm.trans h.1, h.2.trans hp.2.symm⟩

variable {a : Arrival}

/-- A packet of the stream comes to the choice of a channel, and no swap follows. -/
structure Follows (cfg : VoIpConfig) (side : Nat) (c : VoIpCall) (last : RtpPacketInfo) (a : Arrival) : Prop where
  meanwhile : OnSide c side last → OnSide (a.meanwhile c) side last
  stream : OfStream last a.packet
  placed : ((a.meanwhile c).toPlace cfg a.directory a.packet a.now).isSome
  unswapped : (see (a.meanwhile c) cfg a.directory a.packet a.now).swapped = false

/-- The last packet of the stream that was kept. -/
def lastAfter (cfg : VoIpConfig) (c : VoIpCall) (last : RtpPacketInfo) (a : Arrival) : RtpPacketInfo :=
  if outcome cfg c a = .kept then a.packet else last

theorem Follows.spec (hf : Follows cfg side c last a) (hon : OnSide c side last) :
    outcome cfg c a = continuity cfg side a.packet last ∧
      OnSide (next cfg c a) side (lastAfter cfg c last a) := by
  obtain ⟨hm, hp, hplace, hsw⟩ := hf
  obtain ⟨⟨c₁, d₁⟩, h⟩ := Option.isSome_iff_exists.mp hplace
  obtain ⟨hadd, hsides, -⟩ := addRtpPacket_of_toPlace h
  have hon₁ : OnSide { c₁ with lastRtpPacket := some a.packet } side last := (hm hon).of_sides hsides
  have hv := verdict_onSide cfg d₁ a.now hon₁ hp
  unfold lastAfter outcome next
  simp only [see, h, hadd, placePacket] at hv hsw ⊢
  generalize ({ c₁ with lastRtpPacket := some a.packet } : VoIpCall).detectChannel cfg d₁ a.packet a.now = r
    at hv hsw ⊢
  obtain ⟨c₂, d₂, channel, first⟩ := r
  dsimp only at hv hsw ⊢
  cases hver : c₂.verdict cfg a.packet channel first a.now with
  | dismissed c' =>
    rw [hver] at hv
    exact ⟨hv.1.symm, hon₁.of_sides hv.2⟩
  | rejected c' =>
    rw [hver] at hv
    exact ⟨hv.1.symm, hon₁.of_sides hv.2⟩
  | kept c' k =>
    rw [hver] at hv hsw
    obtain ⟨hk, -, h1, h2⟩ := hv
    exact ⟨hk.symm, (hon₁.kept hp h1 h2 hsw).of_sides (sides_of_core keepPacket_core)⟩

/-! ## A stream in order -/

/-- How far the sequence numbers of a stream in order are apart after `seq`. -/
def seqJump (seq : UInt16) : Int := if seq = 65535 then 65535 else 1

/-- How far its timestamps are apart after `ts`. -/
def tsJump (ts step : UInt32) : Int :=
  if ts.toNat + step.toNat < 4294967296 then step.toNat else 4294967296 - step.toNat

/-- The packet after `seq` and `ts` is held for neither a jump nor a pause. -/
def Steady (cfg : VoIpConfig) (side : Nat) (step : UInt32) (seq : UInt16) (ts : UInt32) : Prop :=
  ¬(cfg.rtpDiscontinuityDetect ∧ cfg.rtpDiscontinuityMinSeqDelta < seqJump seq ∧
      cfg.rtpDiscontinuityMinSeqDelta * 160 < tsJump ts step) ∧
    ¬(cfg.rtpBreakupOnStreamPause ∧ 160 < step ∧ ¬(side = 1 ∧ seq = 65535))

theorem toNat_add_one (seq : UInt16) : (seq + 1).toNat = if seq = 65535 then 0 else seq.toNat + 1 := by
  split
  case isTrue h => rw [h]; rfl
  case isFalse h =>
    have hlt : seq.toNat ≠ 65535 := fun he => h (UInt16.toNat_inj.mp he)
    have := seq.toNat_lt
    rw [UInt16.toNat_add, UInt16.toNat_one]
    omega

theorem natAbs_seqNum (seq : UInt16) : ((((seq + 1).toNat : Int) - seq.toNat).natAbs : Int) = seqJump seq := by
  rw [toNat_add_one, seqJump]
  split
  case isTrue h => rw [h]; rfl
  case isFalse h => omega

theorem natAbs_timestamp (ts step : UInt32) :
    ((((ts + step).toNat : Int) - ts.toNat).natAbs : Int) = tsJump ts step := by
  have := ts.toNat_lt
  have := step.toNat_lt
  rw [UInt32.toNat_add, tsJump]
  split <;> omega

/-- The next packet of a stream in order. -/
structure InOrder (step : UInt32) (last p : RtpPacketInfo) : Prop where
  seqNum : p.seqNum = last.seqNum + 1
  timestamp : p.timestamp = last.timestamp + step

variable {step : UInt32}

theorem InOrder.isDiscontinuous (h : InOrder step last p) : isDiscontinuous cfg p last = true ↔
    cfg.rtpDiscontinuityDetect ∧ cfg.rtpDiscontinuityMinSeqDelta < seqJump last.seqNum ∧
      cfg.rtpDiscontinuityMinSeqDelta * 160 < tsJump last.timestamp step := by
  unfold VoIpCall.isDiscontinuous
  dsimp only
  rw [h.seqNum, h.timestamp, natAbs_seqNum, natAbs_timestamp]
  simp [and_assoc]

theorem InOrder.timestampStep (h : InOrder step last p) (hstep : step.toNat ≤ 480) :
    timestampStep p last = step.toNat := by
  have hsub : p.timestamp - last.timestamp = step := by
    rw [h.timestamp, UInt32.add_comm, UInt32.add_sub_cancel]
  rw [VoIpCall.timestampStep, hsub]
  exact BitVec.toInt_eq_toNat_of_lt (by rw [UInt32.toNat_toBitVec]; omega)

theorem InOrder.resetSeqNumDelta (h : InOrder step last p) : resetSeqNumDelta p last = 1 := by
  have hadd := toNat_add_one last.seqNum
  have := last.seqNum.toNat_lt
  unfold VoIpCall.resetSeqNumDelta
  rw [h.seqNum]
  split at hadd
  case isTrue hmax =>
    rw [hmax]
    rfl
  case isFalse =>
    rw [if_neg (by rw [UInt16.lt_iff_toNat_lt]; omega), hadd]
    omega

/-- The verdict on the next packet of a stream in order. -/
theorem InOrder.continuity (cfg : VoIpConfig) (side : Nat) (h : InOrder step last p) (h80 : 80 ≤ step.toNat)
    (h480 : step.toNat ≤ 480) : continuity cfg side p last ≠ .dismissed ∧
      (continuity cfg side p last ≠ .rejected ↔ Steady cfg side step last.seqNum last.timestamp) := by
  have hts : p.timestamp ≠ last.timestamp := by
    rw [h.timestamp]
    intro he
    have hz : (last.timestamp + step).toNat = last.timestamp.toNat := congrArg UInt32.toNat he
    rw [UInt32.toNat_add] at hz
    omega
  have hpause : (cfg.rtpBreakupOnStreamPause = true ∧ 1 * 160 < (step.toNat : Int) ∧
      (side = 1 → seqJump last.seqNum * 160 < (step.toNat : Int))) ↔
      cfg.rtpBreakupOnStreamPause = true ∧ 160 < step ∧ ¬(side = 1 ∧ last.seqNum = 65535) := by
    have hlt : 160 < step ↔ 160 < step.toNat := UInt32.lt_iff_toNat_lt
    rw [hlt, seqJump]
    refine and_congr_right fun _ => ?_
    by_cases hmax : last.seqNum = 65535
    · rw [if_pos hmax]
      simp only [hmax, and_true]
      omega
    · rw [if_neg hmax]
      simp only [hmax, and_false, not_false_iff, and_true]
      omega
  unfold Continuity.continuity Steady
  rw [if_neg hts, h.timestampStep h480, h.resetSeqNumDelta, h.seqNum, natAbs_seqNum, ← hpause,
    ← h.isDiscontinuous]
  by_cases hd : VoIpCall.isDiscontinuous cfg p last = true
  · simp [hd]
  rw [if_neg hd]
  split
  case isTrue hp => exact ⟨by decide, fun hne => (hne rfl).elim, fun hs => (hs.2 hp).elim⟩
  case isFalse hp => exact ⟨by decide, fun _ => ⟨hd, hp⟩, fun _ => by decide⟩

/-! ## Every packet -/

/-- What `AddRtpPacket` makes of the packets of a stream. -/
def outcomes (cfg : VoIpConfig) : VoIpCall → List Arrival → List Outcome
  | _, [] => []
  | c, a :: as => outcome cfg c a :: outcomes cfg (next cfg c a) as

/-- The packets are of the stream that `last` is of, and it stays on its side. -/
def Undisturbed (cfg : VoIpConfig) (side : Nat) : VoIpCall → RtpPacketInfo → List Arrival → Prop
  | _, _, [] => True
  | c, last, a :: as =>
    Follows cfg side c last a ∧ Undisturbed cfg side (next cfg c a) (lastAfter cfg c last a) as

/-- The packets go on from `last` with no gap. -/
def Uninterrupted (step : UInt32) : RtpPacketInfo → List Arrival → Prop
  | _, [] => True
  | last, a :: as => InOrder step last a.packet ∧ Uninterrupted step a.packet as

theorem steady_succ {seq : UInt16} {ts : UInt32} {n : Nat} :
    (∀ k < n + 1, Steady cfg side step (seq + UInt16.ofNat k) (ts + UInt32.ofNat (k * step.toNat))) ↔
      Steady cfg side step seq ts ∧
        ∀ k < n, Steady cfg side step (seq + 1 + UInt16.ofNat k) (ts + step + UInt32.ofNat (k * step.toNat)) := by
  have hseq (k : Nat) : seq + UInt16.ofNat (k + 1) = seq + 1 + UInt16.ofNat k := by
    rw [UInt16.ofNat_add, UInt16.add_comm (UInt16.ofNat k), ← UInt16.add_assoc]
    rfl
  have hts (k : Nat) : ts + UInt32.ofNat ((k + 1) * step.toNat) = ts + step + UInt32.ofNat (k * step.toNat) := by
    rw [Nat.succ_mul, UInt32.ofNat_add, UInt32.ofNat_toNat, UInt32.add_comm (UInt32.ofNat _), ← UInt32.add_assoc]
  constructor
  · intro h
    refine ⟨by simpa using h 0 (Nat.succ_pos n), fun k hk => ?_⟩
    have := h (k + 1) (Nat.succ_lt_succ hk)
    rwa [hseq, hts] at this
  · rintro ⟨h0, h⟩ k hk
    cases k with
    | zero => simpa using h0
    | succ k =>
      rw [hseq, hts]
      exact h k (Nat.lt_of_succ_lt_succ hk)

theorem accepted_iff (h80 : 80 ≤ step.toNat) (h480 : step.toNat ≤ 480) (as : List Arrival)
    (hon : OnSide c side last) (hu : Undisturbed cfg side c last as) (ho : Uninterrupted step last as) :
    Outcome.rejected ∉ outcomes cfg c as ↔ ∀ k < as.length,
      Steady cfg side step (last.seqNum + UInt16.ofNat k) (last.timestamp + UInt32.ofNat (k * step.toNat)) := by
  induction as generalizing c last with
  | nil => simp [outcomes]
  | cons a as ih =>
    obtain ⟨hf, hu⟩ := hu
    obtain ⟨hin, ho⟩ := ho
    obtain ⟨hout, hon'⟩ := hf.spec hon
    obtain ⟨hdis, hsteady⟩ := hin.continuity cfg side h80 h480
    rw [outcomes, List.mem_cons, not_or, List.length_cons, steady_succ, ← hsteady, ← hin.seqNum, ← hin.timestamp,
      ne_comm, hout]
    refine and_congr_right fun hne => ?_
    have hkept : lastAfter cfg c last a = a.packet := by
      rw [lastAfter, hout]
      cases hcont : continuity cfg side a.packet last with
      | dismissed => exact (hdis hcont).elim
      | rejected => exact (hne hcont.symm).elim
      | kept => rfl
    rw [hkept] at hon' hu
    exact ih hon' hu ho

/-- A packet that is behind `last`: between the two ways to count how far, only side 2 finds a pause. -/
def SidesDiffer (cfg : VoIpConfig) (p last : RtpPacketInfo) : Prop :=
  cfg.rtpBreakupOnStreamPause ∧ p.timestamp ≠ last.timestamp ∧ ¬isDiscontinuous cfg p last ∧
    p.seqNum < last.seqNum ∧ (65536 - (last.seqNum.toNat - p.seqNum.toNat : Int)) * 160 < timestampStep p last ∧
    timestampStep p last ≤ (last.seqNum.toNat - p.seqNum.toNat : Int) * 160

theorem continuity_eq_iff : continuity cfg 1 p last = continuity cfg 2 p last ↔ ¬SidesDiffer cfg p last := by
  unfold continuity SidesDiffer
  by_cases hts : p.timestamp = last.timestamp
  · simp [hts]
  rw [if_neg hts, if_neg hts]
  by_cases hd : isDiscontinuous cfg p last = true
  · simp [hd]
  rw [if_neg hd, if_neg hd]
  by_cases hb : cfg.rtpBreakupOnStreamPause = true
  swap
  · simp [hb]
  unfold resetSeqNumDelta
  by_cases hlt : p.seqNum < last.seqNum
  · have habs : ((((p.seqNum.toNat : Int) - last.seqNum.toNat).natAbs : Nat) : Int) =
        last.seqNum.toNat - p.seqNum.toNat := by
      have := UInt16.lt_iff_toNat_lt.mp hlt
      omega
    have hreset : 65536 - (last.seqNum.toNat : Int) + p.seqNum.toNat =
        65536 - (last.seqNum.toNat - p.seqNum.toNat : Int) := by omega
    rw [if_pos hlt, habs, hreset]
    by_cases hreset : (65536 - (last.seqNum.toNat - p.seqNum.toNat : Int)) * 160 < timestampStep p last
    · by_cases hpause : (last.seqNum.toNat - p.seqNum.toNat : Int) * 160 < timestampStep p last
      · simp [hreset, hpause]
      · simp [hb, hts, hd, hlt, hreset, hpause, Int.not_lt.mp hpause]
    · simp [hreset]
  · have habs : ((((p.seqNum.toNat : Int) - last.seqNum.toNat).natAbs : Nat) : Int) =
        p.seqNum.toNat - last.seqNum.toNat := by
      have := mt UInt16.lt_iff_toNat_lt.mpr hlt
      omega
    rw [if_neg hlt, habs]
    by_cases hpause : ((p.seqNum.toNat : Int) - last.seqNum.toNat) * 160 < timestampStep p last
    · simp [hlt, hpause]
    · simp [hlt, hpause]

theorem outcomes_eq_iff {c₁ c₂ : VoIpCall} (as₁ as₂ : List Arrival) (hon₁ : OnSide c₁ 1 last) (hon₂ : OnSide c₂ 2 last)
    (hu₁ : Undisturbed cfg 1 c₁ last as₁) (hu₂ : Undisturbed cfg 2 c₂ last as₂)
    (hp : as₁.map (·.packet) = as₂.map (·.packet)) :
    outcomes cfg c₁ as₁ = outcomes cfg c₂ as₂ ↔ Run.Meets (next cfg) (fun c a =>
      ∀ last, (a.meanwhile c).lastRtpPacketSide1 = some last → ¬SidesDiffer cfg a.packet last) c₁ as₁ := by
  induction as₁ generalizing c₁ c₂ last as₂ with
  | nil =>
    cases List.map_eq_nil_iff.mp hp.symm
    exact ⟨fun _ => trivial, fun _ => rfl⟩
  | cons a₁ as₁ ih =>
    obtain ⟨a₂, as₂, rfl, ha, has⟩ := List.map_eq_cons_iff.mp hp.symm
    obtain ⟨hf₁, hu₁⟩ := hu₁
    obtain ⟨hf₂, hu₂⟩ := hu₂
    obtain ⟨hout₁, hnext₁⟩ := hf₁.spec hon₁
    obtain ⟨hout₂, hnext₂⟩ := hf₂.spec hon₂
    have hlast : (a₁.meanwhile c₁).lastRtpPacketSide1 = some last :=
      ((hf₁.meanwhile hon₁).resolve_right fun h => absurd h.1 (by decide)).2
    have hhead : outcome cfg c₁ a₁ = outcome cfg c₂ a₂ ↔
        ∀ last, (a₁.meanwhile c₁).lastRtpPacketSide1 = some last → ¬SidesDiffer cfg a₁.packet last := by
      rw [hout₁, hout₂, ha, continuity_eq_iff, hlast]
      exact ⟨fun h l hl => Option.some.inj hl ▸ h, fun h => h last rfl⟩
    rw [outcomes, outcomes, List.cons_eq_cons, Run.Meets, ← hhead]
    refine and_congr_right fun heq => ?_
    have hafter : lastAfter cfg c₂ last a₂ = lastAfter cfg c₁ last a₁ := by
      rw [lastAfter, lastAfter, heq, ha]
    rw [hafter] at hu₂ hnext₂
    exact ih as₂ hnext₁ hnext₂ hu₁ hu₂ has.symm

/-- No packet of an uninterrupted stream, of 80 to 480 samples a packet, is rejected. -/
def StreamsAccepted (cfg : VoIpConfig) : Prop :=
  ∀ (side : Nat) (c : VoIpCall) (last : RtpPacketInfo) (step : UInt32) (as : List Arrival), 80 ≤ step.toNat →
    step.toNat ≤ 480 → OnSide c side last → Undisturbed cfg side c last as → Uninterrupted step last as →
    Outcome.rejected ∉ outcomes cfg c as

/-- The same packets get the same verdicts on side 1 and on side 2. -/
def SidesAgree (cfg : VoIpConfig) : Prop :=
  ∀ (c₁ c₂ : VoIpCall) (last : RtpPacketInfo) (as₁ as₂ : List Arrival), OnSide c₁ 1 last → OnSide c₂ 2 last →
    Undisturbed cfg 1 c₁ last as₁ → Undisturbed cfg 2 c₂ last as₂ → as₁.map (·.packet) = as₂.map (·.packet) →
    outcomes cfg c₁ as₁ = outcomes cfg c₂ as₂

/-- A session of RTP alone, with a stream of SSRC 7 on side 1. -/
def alone : VoIpCall :=
  { protocol := .rawRtp, metadataProcessed := true, lastRtpPacketSide1 := some { ssrc := 7 } }

/-- The stream of SSRC 7 on side 2. -/
def second : VoIpCall :=
  { protocol := .rawRtp, metadataProcessed := true, lastRtpPacketSide1 := some { ssrc := 5 }
    lastRtpPacketSide2 := some { ssrc := 7 } }

def packetAfter (step : UInt32) : Arrival where
  directory := {}
  packet := { ssrc := 7, seqNum := 1, timestamp := step }
  now := 0

end Oreka.VoIp.Continuity
