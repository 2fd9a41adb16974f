import Mathlib.Data.Option.Basic
import Oreka.Iax2.Iax2Parsers

/-!
# Sessions that keep different packet objects

A session keeps references to the packets it received last, one for each side, and of these packets it
reads no more than the destination and the timestamp. `Alike K` relates two sessions that differ in
the references they keep, and only in references that `K` relates: what does not look at them does
the same to both (`Alike.map`), and so does a packet as long as `K` relates packets with the same
destination and both sessions find it a duplicate or both do not (`Alike.addIax2Packet`).
-/

namespace Oreka.Iax2

namespace Iax2Session

/-! ## The references put aside -/

/-- The session with other references in the places of those it keeps. -/
def withKept (s : Iax2Session) (last side1 side2 : Option Ref) : Iax2Session :=
  { s with
    lastIax2Packet := last, lastIax2PacketSide1 := side1, lastIax2PacketSide2 := side2 }

variable {s t : Iax2Session} {cfg : Config} {l a b : Option Ref} {K K' : Ref → Ref → Prop}

/-- A function that neither reads nor writes the references. -/
def IgnoresKept (f : Iax2Session → Iax2Session) : Prop :=
  ∀ s l a b, f (s.withKept l a b) = (f s).withKept l a b

theorem stop_withKept (s : Iax2Session) (l a b : Option Ref) :
    (s.withKept l a b).stop = (s.stop.1.withKept l a b, s.stop.2) := by
  unfold stop withKept
  dsimp only
  split <;> rfl

theorem processMetadataIax2_withKept (s : Iax2Session) (cfg : Config) (pkt : Iax2PacketInfo)
    (l a b : Option Ref) :
    (s.withKept l a b).processMetadataIax2 cfg pkt =
      (s.processMetadataIax2 cfg pkt).withKept l a b := by
  unfold processMetadataIax2 withKept
  dsimp only
  cases s.newInfo with
  | none => rfl
  | some n =>
    dsimp only
    repeat' split
    all_goals rfl

theorem ensureLocalParty_withKept (s : Iax2Session) (l a b : Option Ref) :
    (s.withKept l a b).ensureLocalParty = s.ensureLocalParty.withKept l a b := by
  unfold ensureLocalParty withKept
  dsimp only
  split <;> rfl

theorem reportMetadata_withKept (s : Iax2Session) (l a b : Option Ref) :
    (s.withKept l a b).reportMetadata = (s.reportMetadata.1.withKept l a b, s.reportMetadata.2) := by
  unfold reportMetadata
  rw [ensureLocalParty_withKept]
  rfl

theorem startAtFirst_withKept (s : Iax2Session) (cfg : Config) (now : Int) (l a b : Option Ref) :
    (s.withKept l a b).startAtFirst cfg now =
      ((s.startAtFirst cfg now).1.withKept l a b, (s.startAtFirst cfg now).2) := by
  have hstart : (s.withKept l a b).start cfg now =
      ((s.start cfg now).1.withKept l a b, (s.start cfg now).2) := rfl
  unfold startAtFirst
  rw [hstart]
  dsimp only
  rw [reportMetadata_withKept]
  unfold withKept
  dsimp only
  split <;> rfl

theorem advance_withKept (s : Iax2Session) (channel : UInt8) (l a b : Option Ref) :
    (s.withKept l a b).advance channel = (s.advance channel).withKept l a b := by
  unfold advance withKept
  split <;> rfl

theorem deliver_withKept (s : Iax2Session) (pkt : Iax2PacketInfo) (channel : UInt8)
    (l a b : Option Ref) :
    (s.withKept l a b).deliver pkt channel =
      ((s.deliver pkt channel).1.withKept l a b, (s.deliver pkt channel).2) := by
  unfold deliver withKept rtpTimestamp
  dsimp only
  split <;> rfl

/-! ## A packet, step by step -/

/-- The states in which a session receives voice. -/
def TakesVoice (s : Iax2Session) : Prop := s.state = .linked ∨ s.state = .up

instance (s : Iax2Session) : Decidable s.TakesVoice := inferInstanceAs (Decidable (_ ∨ _))

/-- The packet that the next one to a destination is compared with. -/
def keptFor (s : Iax2Session) (packets : Ref → Iax2PacketInfo) (destIp : InAddr) : Option Ref :=
  match s.lastIax2PacketSide1 with
  | none => none
  | some l => if destIp = (packets l).destIp then some l else s.lastIax2PacketSide2

/-- The channel of the next packet to a destination. -/
def channelFor (s : Iax2Session) (packets : Ref → Iax2PacketInfo) (destIp : InAddr) : UInt8 :=
  match s.lastIax2PacketSide1 with
  | none => 1
  | some l => if destIp = (packets l).destIp then 1 else 2

/-- The timestamp that the next packet to a destination is compared with. -/
def keptTimestamp (s : Iax2Session) (packets : Ref → Iax2PacketInfo) (destIp : InAddr) :
    Option UInt32 :=
  (s.keptFor packets destIp).map fun l => (packets l).timestamp

/-- The packet is dismissed as a duplicate. -/
def Duplicate (s : Iax2Session) (cfg : Config) (packets : Ref → Iax2PacketInfo) (p : Ref) : Prop :=
  cfg.iax2RewriteTimestamps = false ∧
    s.keptTimestamp packets (packets p).destIp = some (packets p).timestamp

instance (s : Iax2Session) (cfg : Config) (packets : Ref → Iax2PacketInfo) (p : Ref) :
    Decidable (s.Duplicate cfg packets p) := inferInstanceAs (Decidable (_ ∧ _))

/-- The packet becomes the last one of its channel. -/
def keep (s : Iax2Session) (channel : UInt8) (p : Ref) : Iax2Session :=
  if channel = 1 then { s with lastIax2PacketSide1 := some p }
  else { s with lastIax2PacketSide2 := some p }

@[simp] theorem keep_one (s : Iax2Session) (p : Ref) :
    s.keep 1 p = { s with lastIax2PacketSide1 := some p } := if_pos rfl

@[simp] theorem keep_two (s : Iax2Session) (p : Ref) :
    s.keep 2 p = { s with lastIax2PacketSide2 := some p } := if_neg (by decide)

/-- What the session takes over of any packet, the first one included. -/
def readHeader (s : Iax2Session) (cfg : Config) (pkt : Iax2PacketInfo) (first : Bool) :
    Iax2Session :=
  let s := if first then { s.processMetadataIax2 cfg pkt with state := .up } else s
  if pkt.frameType = .full then { s with codec := pkt.payloadType.toNat } else s

/-- What the session does with a packet that it keeps. -/
def play (s : Iax2Session) (cfg : Config) (pkt : Iax2PacketInfo) (channel : UInt8) (now : Int) :
    Iax2Session × List Output :=
  let (s, started) := { s with numIax2Packets := s.numIax2Packets + 1 }.startAtFirst cfg now
  let (s, chunk) := (s.advance channel).deliver pkt channel
  (s, started ++ chunk)

theorem readHeader_withKept (s : Iax2Session) (cfg : Config) (pkt : Iax2PacketInfo) (first : Bool)
    (l a b : Option Ref) :
    (s.withKept l a b).readHeader cfg pkt first = (s.readHeader cfg pkt first).withKept l a b := by
  unfold readHeader
  rw [processMetadataIax2_withKept]
  unfold withKept
  dsimp only
  split <;> split <;> rfl

theorem play_withKept (s : Iax2Session) (cfg : Config) (pkt : Iax2PacketInfo) (channel : UInt8)
    (now : Int) (l a b : Option Ref) :
    (s.withKept l a b).play cfg pkt channel now =
      ((s.play cfg pkt channel now).1.withKept l a b, (s.play cfg pkt channel now).2) := by
  have hnum : ({ s.withKept l a b with
      numIax2Packets := (s.withKept l a b).numIax2Packets + 1 } : Iax2Session) =
      ({ s with numIax2Packets := s.numIax2Packets + 1 } : Iax2Session).withKept l a b := rfl
  unfold play
  rw [hnum, startAtFirst_withKept]
  dsimp only
  rw [advance_withKept, deliver_withKept]

/-- The packets differ at most in the timestamp of `p`, and only where timestamps are rewritten. -/
structure Rewritten (cfg : Config) (p : Ref) (packets packets' : Ref → Iax2PacketInfo) : Prop where
  other : ∀ x, x ≠ p → packets' x = packets x
  same : packets' p = { packets p with timestamp := (packets' p).timestamp }
  off : cfg.iax2RewriteTimestamps = false → packets' = packets

theorem Rewritten.rfl' {p : Ref} {packets : Ref → Iax2PacketInfo} :
    Rewritten cfg p packets packets := ⟨fun _ _ => rfl, rfl, fun _ => rfl⟩

theorem Rewritten.update {p : Ref} {packets : Ref → Iax2PacketInfo}
    (h : cfg.iax2RewriteTimestamps = true) (x : UInt32) :
    Rewritten cfg p packets (Function.update packets p { packets p with timestamp := x }) where
  other y hy := Function.update_of_ne hy ..
  same := by simp
  off h' := by simp [h] at h'

/-- The side of a packet: none for a duplicate; otherwise the packet is kept on its channel. -/
theorem side_cases (s : Iax2Session) (cfg : Config) (packets : Ref → Iax2PacketInfo) (p : Ref) :
    (s.Duplicate cfg packets p ∧ s.side cfg packets p = none) ∨
      (¬ s.Duplicate cfg packets p ∧ ∃ packets', Rewritten cfg p packets packets' ∧
        s.side cfg packets p = some (s.keep (s.channelFor packets (packets p).destIp) p, packets',
          s.channelFor packets (packets p).destIp)) := by
  unfold Duplicate keptTimestamp keptFor channelFor side
  cases h₁ : s.lastIax2PacketSide1 with
  | none => exact .inr ⟨by simp, packets, .rfl', rfl⟩
  | some l =>
    dsimp only
    by_cases hd : (packets p).destIp = (packets l).destIp
    · simp only [if_pos hd]
      cases hr : cfg.iax2RewriteTimestamps with
      | true => exact .inr ⟨by simp, _, .update hr _, rfl⟩
      | false =>
        by_cases ht : (packets p).timestamp = (packets l).timestamp
        · exact .inl ⟨by simp [ht], by simp [ht]⟩
        · exact .inr ⟨by simp [Ne.symm ht], packets, .rfl', by simp [ht]⟩
    · simp only [if_neg hd]
      cases s.lastIax2PacketSide2 with
      | none => exact .inr ⟨by simp, packets, .rfl', by rw [keep_two, h₁]⟩
      | some l' =>
        cases hr : cfg.iax2RewriteTimestamps with
        | true => exact .inr ⟨by simp, _, .update hr _, by rw [keep_two, h₁]; rfl⟩
        | false =>
          by_cases ht : (packets p).timestamp = (packets l').timestamp
          · exact .inl ⟨by simp [ht], by simp [ht]⟩
          · exact .inr ⟨by simp [Ne.symm ht], packets, .rfl', by simp [ht, h₁]⟩

/-- The session once it has read the header of a packet, the last one from now on. -/
def received (s : Iax2Session) (cfg : Config) (pkt : Iax2PacketInfo) (p : Ref) : Iax2Session :=
  { s.readHeader cfg pkt (s.lastIax2Packet = none) with lastIax2Packet := some p }

/-- The session has heard a full frame, or hears one now: a mini frame is no first packet. -/
def Hears (s : Iax2Session) (pkt : Iax2PacketInfo) : Prop :=
  s.lastIax2Packet = none → pkt.frameType = .full

instance (s : Iax2Session) (pkt : Iax2PacketInfo) : Decidable (s.Hears pkt) :=
  inferInstanceAs (Decidable (_ → _))

theorem readHeader_side1 (s : Iax2Session) (cfg : Config) (pkt : Iax2PacketInfo) (first : Bool) :
    (s.readHeader cfg pkt first).lastIax2PacketSide1 = s.lastIax2PacketSide1 :=
  congrArg (·.lastIax2PacketSide1) (readHeader_withKept s cfg pkt first s.lastIax2Packet
    s.lastIax2PacketSide1 s.lastIax2PacketSide2)

theorem readHeader_side2 (s : Iax2Session) (cfg : Config) (pkt : Iax2PacketInfo) (first : Bool) :
    (s.readHeader cfg pkt first).lastIax2PacketSide2 = s.lastIax2PacketSide2 :=
  congrArg (·.lastIax2PacketSide2) (readHeader_withKept s cfg pkt first s.lastIax2Packet
    s.lastIax2PacketSide1 s.lastIax2PacketSide2)

section
variable {packets : Ref → Iax2PacketInfo} {p : Ref} {now : Int}

theorem channelFor_received (s : Iax2Session) (cfg : Config) (pkt : Iax2PacketInfo) (p : Ref)
    (packets : Ref → Iax2PacketInfo) (d : InAddr) :
    (s.received cfg pkt p).channelFor packets d = s.channelFor packets d := by
  unfold channelFor received
  dsimp only
  rw [readHeader_side1]

theorem duplicate_received (s : Iax2Session) (cfg : Config) (pkt : Iax2PacketInfo)
    (packets : Ref → Iax2PacketInfo) (p : Ref) :
    (s.received cfg pkt p).Duplicate cfg packets p ↔ s.Duplicate cfg packets p := by
  unfold Duplicate keptTimestamp keptFor received
  dsimp only
  rw [readHeader_side1, readHeader_side2]

theorem addIax2Packet_refused (h : ¬ s.TakesVoice) :
    s.addIax2Packet cfg packets p now = ⟨s, packets, [], false⟩ :=
  if_pos (not_or.1 h)

theorem addIax2Packet_unheard (h : s.TakesVoice) (hh : ¬ s.Hears (packets p)) :
    s.addIax2Packet cfg packets p now = ⟨s, packets, [], true⟩ := by
  obtain ⟨hl, hf⟩ := Classical.not_imp.1 hh
  unfold addIax2Packet
  rw [if_neg (fun hn => (not_or.2 hn) h), if_pos hl, if_pos hf]

/-- A packet that the session hears goes to `acceptPacket` either way. -/
theorem addIax2Packet_hears (h : s.TakesVoice) (hh : s.Hears (packets p)) :
    s.addIax2Packet cfg packets p now =
      match (s.received cfg (packets p) p).side cfg packets p with
      | none => ⟨{ s.received cfg (packets p) p with hasDuplicateIax2 := true }, packets, [], true⟩
      | some (s', packets', channel) =>
        ⟨(s'.play cfg (packets' p) channel now).1, packets',
          (s'.play cfg (packets' p) channel now).2, true⟩ := by
  unfold addIax2Packet
  rw [if_neg (fun hn => (not_or.2 hn) h)]
  by_cases hl : s.lastIax2Packet = none
  · rw [if_pos hl, if_neg (not_not.2 (hh hl))]
    unfold acceptPacket received readHeader
    simp only [hl, decide_true, if_true]
    rfl
  · rw [if_neg hl]
    unfold acceptPacket received readHeader
    simp only [hl, decide_false, Bool.false_eq_true, if_false]
    rfl

theorem addIax2Packet_duplicate (h : s.TakesVoice) (hh : s.Hears (packets p))
    (hd : s.Duplicate cfg packets p) :
    s.addIax2Packet cfg packets p now =
      ⟨{ s.received cfg (packets p) p with hasDuplicateIax2 := true }, packets, [], true⟩ := by
  rw [addIax2Packet_hears h hh]
  obtain ⟨-, hside⟩ | ⟨hnd, -⟩ := side_cases (s.received cfg (packets p) p) cfg packets p
  · rw [hside]
  · exact absurd ((duplicate_received ..).2 hd) hnd

/-- The session after a packet that is no duplicate. -/
def kept (s : Iax2Session) (cfg : Config) (packets : Ref → Iax2PacketInfo) (p : Ref) : Iax2Session :=
  (s.received cfg (packets p) p).keep (s.channelFor packets (packets p).destIp) p

/-- The timestamp is not read when the packet is played. -/
theorem play_rewritten {packets' : Ref → Iax2PacketInfo} (h : Rewritten cfg p packets packets')
    (s : Iax2Session) (channel : UInt8) :
    s.play cfg (packets' p) channel now = s.play cfg (packets p) channel now := by
  rw [h.same]
  rfl

theorem addIax2Packet_kept (now : Int) (h : s.TakesVoice) (hh : s.Hears (packets p))
    (hd : ¬ s.Duplicate cfg packets p) :
    ∃ packets', Rewritten cfg p packets packets' ∧
      s.addIax2Packet cfg packets p now =
        ⟨((s.kept cfg packets p).play cfg (packets p)
            (s.channelFor packets (packets p).destIp) now).1, packets',
          ((s.kept cfg packets p).play cfg (packets p)
            (s.channelFor packets (packets p).destIp) now).2, true⟩ := by
  rw [addIax2Packet_hears h hh]
  obtain ⟨hdup, -⟩ | ⟨-, packets', hw, hside⟩ :=
    side_cases (s.received cfg (packets p) p) cfg packets p
  · exact absurd ((duplicate_received ..).1 hdup) hd
  · refine ⟨packets', hw, ?_⟩
    rw [hside, channelFor_received]
    dsimp only
    rw [play_rewritten hw]
    rfl

end

/-! ## Alike sessions -/

/-- The sessions agree in all but the packets they keep, and those are related by `K`. -/
structure Alike (K : Ref → Ref → Prop) (s t : Iax2Session) : Prop where
  rest : t = s.withKept t.lastIax2Packet t.lastIax2PacketSide1 t.lastIax2PacketSide2
  last : s.lastIax2Packet = none ↔ t.lastIax2Packet = none
  side1 : Option.Rel K s.lastIax2PacketSide1 t.lastIax2PacketSide1
  side2 : Option.Rel K s.lastIax2PacketSide2 t.lastIax2PacketSide2

theorem Alike.rfl' (hK : ∀ x, s.lastIax2PacketSide1 = some x ∨ s.lastIax2PacketSide2 = some x →
    K x x) : Alike K s s where
  rest := rfl
  last := Iff.rfl
  side1 := by
    cases h : s.lastIax2PacketSide1 with
    | none => exact .none
    | some x => exact .some (hK x (.inl h))
  side2 := by
    cases h : s.lastIax2PacketSide2 with
    | none => exact .none
    | some x => exact .some (hK x (.inr h))

theorem rel_mono {a b : Option Ref} (hK : ∀ x y, a = some x → b = some y → K x y → K' x y)
    (h : Option.Rel K a b) : Option.Rel K' a b := by
  cases h with
  | none => exact .none
  | some h => exact .some (hK _ _ rfl rfl h)

theorem Alike.map {f : Iax2Session → Iax2Session} (hf : IgnoresKept f) (h : Alike K s t) :
    Alike K (f s) (f t) := by
  have hs : f s = (f s).withKept s.lastIax2Packet s.lastIax2PacketSide1 s.lastIax2PacketSide2 :=
    hf s _ _ _
  have ht : f t = (f s).withKept t.lastIax2Packet t.lastIax2PacketSide1 t.lastIax2PacketSide2 := by
    conv_lhs => rw [h.rest]
    exact hf s _ _ _
  have hs0 := congrArg (·.lastIax2Packet) hs
  have hs1 := congrArg (·.lastIax2PacketSide1) hs
  have hs2 := congrArg (·.lastIax2PacketSide2) hs
  have ht0 := congrArg (·.lastIax2Packet) ht
  have ht1 := congrArg (·.lastIax2PacketSide1) ht
  have ht2 := congrArg (·.lastIax2PacketSide2) ht
  dsimp only [withKept] at hs0 hs1 hs2 ht0 ht1 ht2
  refine ⟨?_, ?_, ?_, ?_⟩
  · rw [ht0, ht1, ht2]
    exact ht
  · rw [hs0, ht0]
    exact h.last
  · rw [hs1, ht1]
    exact h.side1
  · rw [hs2, ht2]
    exact h.side2

/-- What a function reads of a session apart from the references. -/
theorem Alike.congr {β : Type} {g : Iax2Session → β} (hg : ∀ s l a b, g (s.withKept l a b) = g s)
    (h : Alike K s t) : g t = g s := by
  rw [h.rest]
  exact hg s _ _ _

theorem Alike.setLast (h : Alike K s t) (p q : Ref) :
    Alike K { s with lastIax2Packet := some p } { t with lastIax2Packet := some q } where
  rest := by
    conv_lhs => rw [h.rest]
    rfl
  last := by simp
  side1 := h.side1
  side2 := h.side2

theorem Alike.keep {p q : Ref} (h : Alike K s t) (hpq : K p q) (channel : UInt8) :
    Alike K (s.keep channel p) (t.keep channel q) := by
  unfold Iax2Session.keep
  by_cases hc : channel = 1
  · rw [if_pos hc, if_pos hc]
    refine ⟨?_, h.last, .some hpq, h.side2⟩
    conv_lhs => rw [h.rest]
    rfl
  · rw [if_neg hc, if_neg hc]
    refine ⟨?_, h.last, h.side1, .some hpq⟩
    conv_lhs => rw [h.rest]
    rfl

section
variable {P Q : Ref → Iax2PacketInfo} {p q : Ref} {info : Iax2PacketInfo} {now : Int}

theorem Alike.channelFor (h : Alike K s t) (hK : ∀ x y, K x y → (P x).destIp = (Q y).destIp)
    (d : InAddr) : s.channelFor P d = t.channelFor Q d := by
  unfold Iax2Session.channelFor
  have h₁ := h.side1
  generalize s.lastIax2PacketSide1 = a, t.lastIax2PacketSide1 = b at h₁
  cases h₁ with
  | none => rfl
  | some h₁ => simp only [hK _ _ h₁]

theorem Alike.keptFor (h : Alike K s t) (hK : ∀ x y, K x y → (P x).destIp = (Q y).destIp)
    (d : InAddr) : Option.Rel K (s.keptFor P d) (t.keptFor Q d) := by
  unfold Iax2Session.keptFor
  have h₁ := h.side1
  generalize s.lastIax2PacketSide1 = a, t.lastIax2PacketSide1 = b at h₁
  cases h₁ with
  | none => exact .none
  | some h₁ =>
    simp only [hK _ _ h₁]
    split
    · exact .some h₁
    · exact h.side2

theorem Alike.received (h : Alike K s t) (cfg : Config) (info : Iax2PacketInfo) (p q : Ref) :
    Alike K (s.received cfg info p) (t.received cfg info q) := by
  have hfirst : decide (s.lastIax2Packet = none) = decide (t.lastIax2Packet = none) :=
    decide_eq_decide.2 h.last
  have hread : Alike K (s.readHeader cfg info (decide (s.lastIax2Packet = none)))
      (t.readHeader cfg info (decide (s.lastIax2Packet = none))) :=
    h.map (f := fun s' => s'.readHeader cfg info (decide (s.lastIax2Packet = none)))
      fun s' l a b => readHeader_withKept s' cfg info _ l a b
  rw [hfirst] at hread
  unfold Iax2Session.received
  rw [hfirst]
  exact hread.setLast p q

/-- **A packet reaches two alike sessions**, in the object `p` of one and `q` of the other: it has the
same effect on both if both find it a duplicate or both do not. -/
theorem Alike.addIax2Packet (h : Alike K s t) (cfg : Config) (now : Int)
    (hK : ∀ x y, K x y → (P x).destIp = (Q y).destIp)
    (hpq : K p q) (hinfo : P p = Q q)
    (hdup : s.TakesVoice → s.Hears (P p) → (s.Duplicate cfg P p ↔ t.Duplicate cfg Q q)) :
    Alike K (s.addIax2Packet cfg P p now).session (t.addIax2Packet cfg Q q now).session ∧
      (s.addIax2Packet cfg P p now).outputs = (t.addIax2Packet cfg Q q now).outputs ∧
      (s.addIax2Packet cfg P p now).ok = (t.addIax2Packet cfg Q q now).ok := by
  have hstate : t.TakesVoice ↔ s.TakesVoice :=
    Eq.to_iff (h.congr (g := Iax2Session.TakesVoice) fun _ _ _ _ => rfl)
  by_cases hv : s.TakesVoice
  · have hv' := hstate.2 hv
    have hears : t.Hears (Q q) ↔ s.Hears (P p) := by
      unfold Hears
      rw [hinfo, h.last]
    by_cases hh : s.Hears (P p)
    · have hh' := hears.2 hh
      have hrec := h.received cfg (P p) p q
      by_cases hd : s.Duplicate cfg P p
      · have hd' := (hdup hv hh).1 hd
        rw [addIax2Packet_duplicate hv hh hd, addIax2Packet_duplicate hv' hh' hd', ← hinfo]
        exact ⟨hrec.map (f := fun s => { s with hasDuplicateIax2 := true })
          fun _ _ _ _ => rfl, rfl, rfl⟩
      · have hd' := fun hd' => hd ((hdup hv hh).2 hd')
        obtain ⟨P', hP', he⟩ := addIax2Packet_kept now hv hh hd
        obtain ⟨Q', hQ', he'⟩ := addIax2Packet_kept now hv' hh' hd'
        rw [he, he', ← hinfo]
        have hkept : Alike K (s.kept cfg P p) (t.kept cfg Q q) := by
          unfold Iax2Session.kept
          rw [← hinfo, ← h.channelFor hK]
          exact hrec.keep hpq _
        rw [← h.channelFor hK]
        set c := s.channelFor P (P p).destIp
        refine ⟨hkept.map (f := fun s => (s.play cfg (P p) c now).1) ?_, ?_, rfl⟩
        · intro s l a b
          exact congrArg (·.1) (play_withKept s cfg (P p) c now l a b)
        · refine (hkept.congr (g := fun s => (s.play cfg (P p) c now).2) ?_).symm
          intro s l a b
          exact congrArg (·.2) (play_withKept s cfg (P p) c now l a b)
    · rw [addIax2Packet_unheard hv hh, addIax2Packet_unheard hv' fun hh' => hh (hears.1 hh')]
      exact ⟨h, rfl, rfl⟩
  · rw [addIax2Packet_refused hv, addIax2Packet_refused fun hv' => hv (hstate.1 hv')]
    exact ⟨h, rfl, rfl⟩

end

/-- A packet changes no packet object but its own, and that one only in its timestamp. -/
theorem addIax2Packet_rewritten (s : Iax2Session) (cfg : Config) (packets : Ref → Iax2PacketInfo)
    (p : Ref) (now : Int) :
    Rewritten cfg p packets (s.addIax2Packet cfg packets p now).packets := by
  by_cases hv : s.TakesVoice
  · by_cases hh : s.Hears (packets p)
    · by_cases hd : s.Duplicate cfg packets p
      · rw [addIax2Packet_duplicate hv hh hd]
        exact .rfl'
      · obtain ⟨packets', h, he⟩ := addIax2Packet_kept now hv hh hd
        rw [he]
        exact h
    · rw [addIax2Packet_unheard hv hh]
      exact .rfl'
  · rw [addIax2Packet_refused hv]
    exact .rfl'

end Iax2Session

end Oreka.Iax2
