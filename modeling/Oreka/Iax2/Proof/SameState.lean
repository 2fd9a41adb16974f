import Oreka.Iax2.Proof.KeptPackets
import Oreka.Iax2.Proof.Tables

/-!
# States that no packet tells apart

`Agree K` relates two states of the session tables that differ in the packets their sessions keep,
by `K`: signalling keeps it, and a packet does where both sessions find it a duplicate or both do
not. `Plugin.Same` is the case where what is read of these packets is the same; every input keeps it
(`Same.run`), frames that share a packet object included.
-/

open Std

namespace Oreka.Iax2

namespace Iax2Sessions

variable {σ τ : Iax2Sessions} {cfg : Config} {K K' : Ref → Ref → Prop} {r : Ref}

/-! ## The tables -/

/-- The tables agree, and each session is alike. -/
structure Agree (K : Ref → Ref → Prop) (σ τ : Iax2Sessions) : Prop where
  sessions : ∀ r, (σ.sessions r).Alike K (τ.sessions r)
  created : τ.created = σ.created
  bySrc : τ.bySrcIpAndCallNo = σ.bySrcIpAndCallNo
  byDest : τ.byDestIpAndCallNo = σ.byDestIpAndCallNo
  alphaCounter : τ.alphaCounter = σ.alphaCounter
  outputs : τ.outputs = σ.outputs

theorem Agree.setSession (h : Agree K σ τ) {s t : Iax2Session} (hst : s.Alike K t) (r : Ref) :
    Agree K (σ.setSession r s) (τ.setSession r t) where
  sessions x := by
    unfold Iax2Sessions.setSession
    by_cases hx : x = r
    · subst hx
      simpa using hst
    · simpa [hx] using h.sessions x
  created := h.created
  bySrc := h.bySrc
  byDest := h.byDest
  alphaCounter := h.alphaCounter
  outputs := h.outputs

/-- An operation on the session `r` that does not look at the packets it keeps. -/
theorem Agree.update (h : Agree K σ τ) {f : Iax2Session → Iax2Session}
    (hf : Iax2Session.IgnoresKept f) (r : Ref) :
    Agree K (σ.setSession r (f (σ.sessions r))) (τ.setSession r (f (τ.sessions r))) :=
  h.setSession ((h.sessions r).map hf) r

theorem Agree.send (h : Agree K σ τ) {out out' : List Output} (ho : out' = out) :
    Agree K (σ.send out) (τ.send out') where
  sessions := h.sessions
  created := h.created
  bySrc := h.bySrc
  byDest := h.byDest
  alphaCounter := h.alphaCounter
  outputs := by rw [Iax2Sessions.send, Iax2Sessions.send, h.outputs, ho]

theorem Agree.withPackets (h : Agree K σ τ) (P Q : Ref → Iax2PacketInfo) :
    Agree K { σ with packets := P } { τ with packets := Q } :=
  ⟨h.sessions, h.created, h.bySrc, h.byDest, h.alphaCounter, h.outputs⟩

theorem Agree.srcKey (h : Agree K σ τ) (r : Ref) : τ.srcKey r = σ.srcKey r :=
  (h.sessions r).congr (g := (·.srcIpAndCallNo)) fun _ _ _ _ => rfl

theorem Agree.destKey (h : Agree K σ τ) (r : Ref) : τ.destKey r = σ.destKey r :=
  (h.sessions r).congr (g := (·.destIpAndCallNo)) fun _ _ _ _ => rfl

theorem Agree.stop (h : Agree K σ τ) (r : Ref) : Agree K (σ.stop r) (τ.stop r) := by
  have hf : Iax2Session.IgnoresKept fun s => s.stop.1 := fun s l a b =>
    congrArg (·.1) (Iax2Session.stop_withKept s l a b)
  have hout : (τ.sessions r).stop.2 = (σ.sessions r).stop.2 :=
    (h.sessions r).congr (g := fun s => s.stop.2) fun s l a b =>
      congrArg (·.2) (Iax2Session.stop_withKept s l a b)
  have hu := (h.update hf r).send hout
  refine ⟨hu.sessions, hu.created, ?_, ?_, hu.alphaCounter, hu.outputs⟩
  · rw [bySrc_stop, bySrc_stop, h.bySrc, h.srcKey]
  · rw [byDest_stop, byDest_stop, h.byDest, h.destKey]

theorem Agree.stopFound (h : Agree K σ τ) (found : Option Ref) :
    Agree K (σ.stopFound found) (τ.stopFound found) := by
  cases found with
  | none => exact h
  | some r => exact h.stop r

theorem Agree.stopEach (h : Agree K σ τ) (rs : List Ref) :
    Agree K (σ.stopEach rs) (τ.stopEach rs) := by
  induction rs generalizing σ τ with
  | nil => exact h
  | cons r rs ih => exact ih (h.stop r)

theorem Agree.toDismiss (h : Agree K σ τ) (m : TreeMap String Ref) (now : Int) :
    τ.toDismiss cfg m now = σ.toDismiss cfg m now := by
  unfold Iax2Sessions.toDismiss
  refine List.filter_congr fun r _ => ?_
  have hl : (τ.sessions r).lastUpdated = (σ.sessions r).lastUpdated :=
    (h.sessions r).congr (g := (·.lastUpdated)) fun _ _ _ _ => rfl
  rw [hl]

theorem Agree.hoover (h : Agree K σ τ) (now : Int) : Agree K (σ.hoover cfg now) (τ.hoover cfg now) := by
  unfold Iax2Sessions.hoover
  dsimp only
  rw [h.bySrc, h.toDismiss]
  have h' := h.stopEach (σ.toDismiss cfg σ.bySrcIpAndCallNo now)
  rw [h'.byDest, h'.toDismiss]
  exact h'.stopEach _

theorem Agree.stopSrc (h : Agree K σ τ) (key : String) :
    Agree K (σ.stopFound σ.bySrcIpAndCallNo[key]?) (τ.stopFound τ.bySrcIpAndCallNo[key]?) := by
  rw [h.bySrc]
  exact h.stopFound _

theorem Agree.stopDest (h : Agree K σ τ) (key : String) :
    Agree K (σ.stopFound σ.byDestIpAndCallNo[key]?) (τ.stopFound τ.byDestIpAndCallNo[key]?) := by
  rw [h.byDest]
  exact h.stopFound _

theorem Agree.reportIax2Hangup (h : Agree K σ τ) (bye : Iax2PeerInfo) :
    Agree K (σ.reportIax2Hangup bye) (τ.reportIax2Hangup bye) :=
  (((h.stopSrc _).stopSrc _).stopDest _).stopDest _

theorem newFor_kept (cfg : Config) (trackingId : String) (invite : Iax2NewInfo) (now : Int) :
    (Iax2Session.newFor cfg trackingId invite now).lastIax2PacketSide1 = none ∧
      (Iax2Session.newFor cfg trackingId invite now).lastIax2PacketSide2 = none := by
  unfold Iax2Session.newFor Iax2Session.reportIax2New Iax2Session.new
  cases cfg.iax2TreatCallerIdNameAsXUniqueId <;> exact ⟨rfl, rfl⟩

theorem Agree.create (h : Agree K σ τ) (invite : Iax2NewInfo) (now : Int) :
    Agree K (σ.create cfg invite now) (τ.create cfg invite now) := by
  unfold Iax2Sessions.create
  rw [h.alphaCounter, h.created]
  dsimp only
  set s := Iax2Session.newFor cfg σ.alphaCounter.getNext.2 invite now
  have hs : s.lastIax2PacketSide1 = none ∧ s.lastIax2PacketSide2 = none :=
    newFor_kept cfg _ invite now
  have hu := h.setSession (Iax2Session.Alike.rfl' (K := K) (s := s) (by simp [hs])) σ.created
  refine ⟨hu.sessions, rfl, ?_, hu.byDest, rfl, hu.outputs⟩
  change τ.bySrcIpAndCallNo.insertIfNew _ _ = σ.bySrcIpAndCallNo.insertIfNew _ _
  rw [h.bySrc]

theorem Agree.reportIax2New (h : Agree K σ τ) (invite : Iax2NewInfo) (now : Int) :
    Agree K (σ.reportIax2New cfg invite now) (τ.reportIax2New cfg invite now) := by
  unfold Iax2Sessions.reportIax2New
  rw [h.bySrc]
  split
  · exact h.create invite now
  · next r hr =>
    have hstate : (τ.sessions r).state = (σ.sessions r).state :=
      (h.sessions r).congr (g := (·.state)) fun _ _ _ _ => rfl
    rw [hstate]
    split
    · exact h
    · exact (h.stop r).create invite now

/-- The session `r` is entered under a destination key. -/
theorem Agree.register (h : Agree K σ τ) {f : Iax2Session → Iax2Session}
    (hf : Iax2Session.IgnoresKept f) (r : Ref) (dest : String) :
    Agree K
      { σ.setSession r (f (σ.sessions r)) with
        byDestIpAndCallNo := σ.byDestIpAndCallNo.insertIfNew dest r }
      { τ.setSession r (f (τ.sessions r)) with
        byDestIpAndCallNo := τ.byDestIpAndCallNo.insertIfNew dest r } := by
  have hu := h.update hf r
  refine ⟨hu.sessions, hu.created, hu.bySrc, ?_, hu.alphaCounter, hu.outputs⟩
  change τ.byDestIpAndCallNo.insertIfNew _ _ = σ.byDestIpAndCallNo.insertIfNew _ _
  rw [h.byDest]

theorem Agree.reportIax2Authreq (h : Agree K σ τ) (info : Iax2PeerInfo) :
    Agree K (σ.reportIax2Authreq info) (τ.reportIax2Authreq info) := by
  unfold Iax2Sessions.reportIax2Authreq
  dsimp only
  rw [h.bySrc]
  split
  · exact h
  · next r hr =>
    exact h.register (f := fun s => { s.reportIax2Authreq info with
      destIpAndCallNo := ipAndCallNo info.senderIp info.senderCallno, state := .waiting })
      (fun _ _ _ _ => rfl) r _

theorem Agree.reportIax2Accept (h : Agree K σ τ) (info : Iax2PeerInfo) :
    Agree K (σ.reportIax2Accept info) (τ.reportIax2Accept info) := by
  unfold Iax2Sessions.reportIax2Accept
  dsimp only
  rw [h.bySrc, h.byDest]
  split
  · exact h
  · next r hr =>
    split
    · next r' hr' =>
      exact h.update (f := fun s => { s with state := .linked }) (fun _ _ _ _ => rfl) r'
    · exact h.register (f := fun s => Iax2Session.reportIax2Accept
        { s with destIpAndCallNo := ipAndCallNo info.senderIp info.senderCallno, state := .linked }
        info) (fun _ _ _ _ => rfl) r (ipAndCallNo info.senderIp info.senderCallno)

/-- Signalling does not look at the packets that sessions keep. -/
theorem Agree.signal (h : Agree K σ τ) (op : Op) (hs : Plugin.IsSignal op) :
    Agree K (σ.step cfg op) (τ.step cfg op) := by
  cases op with
  | new invite now => exact h.reportIax2New invite now
  | authreq info => exact h.reportIax2Authreq info
  | accept info => exact h.reportIax2Accept info
  | hangup info => exact h.reportIax2Hangup info
  | packet p pkt now => exact hs.elim
  | hoover now => exact h.hoover now
  | stopAll now => exact h.hoover _

/-! ## A packet -/

/-- The session that a packet is for. -/
def lookup (σ : Iax2Sessions) (info : Iax2PacketInfo) : Option Ref :=
  let key := ipAndCallNo info.sourceIp info.sourcecallno
  match σ.bySrcIpAndCallNo[key]? with
  | some r => some r
  | none => σ.byDestIpAndCallNo[key]?

/-- `info` written into the packet object `p`. -/
def fill (σ : Iax2Sessions) (p : Ref) (info : Iax2PacketInfo) : Iax2Sessions :=
  { σ with packets := Function.update σ.packets p info }

section
variable {p q : Ref} {info : Iax2PacketInfo}

@[simp] theorem fill_packets_self (σ : Iax2Sessions) (p : Ref) (info : Iax2PacketInfo) :
    (σ.fill p info).packets p = info := Function.update_self ..

theorem fill_packets_of_ne (σ : Iax2Sessions) {x : Ref} (h : x ≠ p) (info : Iax2PacketInfo) :
    (σ.fill p info).packets x = σ.packets x := Function.update_of_ne h ..

theorem report_of_none (h : σ.lookup info = none) : σ.report cfg p info = (σ.fill p info, false) := by
  unfold lookup at h
  dsimp only at h
  unfold report reportIax2Packet
  simp only [Function.update_self]
  cases hsrc : σ.bySrcIpAndCallNo[ipAndCallNo info.sourceIp info.sourcecallno]? with
  | some r' =>
    rw [hsrc] at h
    cases h
  | none =>
    rw [hsrc] at h
    dsimp only at h ⊢
    rw [h]
    rfl

theorem report_of_some (h : σ.lookup info = some r) :
    σ.report cfg p info = (σ.fill p info).givePacket cfg r p info.arrivalTimestamp := by
  unfold lookup at h
  dsimp only at h
  unfold report reportIax2Packet
  simp only [Function.update_self]
  cases hsrc : σ.bySrcIpAndCallNo[ipAndCallNo info.sourceIp info.sourcecallno]? with
  | some r' =>
    rw [hsrc] at h
    cases h
    rfl
  | none =>
    rw [hsrc] at h
    dsimp only at h ⊢
    rw [h]
    rfl

/-- What `AddIax2Packet` leaves, back in the tables. -/
def take (σ : Iax2Sessions) (r : Ref) (a : Iax2Session.Added) : Iax2Sessions :=
  { (σ.setSession r a.session).send a.outputs with packets := a.packets }

theorem givePacket_fst (σ : Iax2Sessions) (cfg : Config) (r p : Ref) (now : Int) :
    (σ.givePacket cfg r p now).1 =
      if ((σ.sessions r).addIax2Packet cfg σ.packets p now).ok then
        σ.take r ((σ.sessions r).addIax2Packet cfg σ.packets p now)
      else (σ.take r ((σ.sessions r).addIax2Packet cfg σ.packets p now)).stop r := by
  unfold givePacket
  dsimp only
  split <;> rfl

theorem givePacket_packets (σ : Iax2Sessions) (cfg : Config) (r p : Ref) (now : Int) :
    (σ.givePacket cfg r p now).1.packets =
      ((σ.sessions r).addIax2Packet cfg σ.packets p now).packets := by
  rw [givePacket_fst]
  split <;> rfl

theorem Agree.take (h : Agree K σ τ) {a b : Iax2Session.Added} (hs : a.session.Alike K b.session)
    (ho : a.outputs = b.outputs) : Agree K (σ.take r a) (τ.take r b) :=
  ((h.setSession hs r).send ho.symm).withPackets _ _

/-- A packet is written into its object, and changes no packet object apart from that. -/
theorem report_packets (σ : Iax2Sessions) (cfg : Config) (p : Ref) (info : Iax2PacketInfo) :
    Iax2Session.Rewritten cfg p (σ.fill p info).packets (σ.report cfg p info).1.packets := by
  cases h : σ.lookup info with
  | none => rw [report_of_none h]; exact .rfl'
  | some r =>
    rw [report_of_some h, givePacket_packets]
    exact Iax2Session.addIax2Packet_rewritten ..

theorem Agree.lookup (h : Agree K σ τ) (info : Iax2PacketInfo) : τ.lookup info = σ.lookup info := by
  unfold Iax2Sessions.lookup
  rw [h.bySrc, h.byDest]

/-- **A packet reaches two states that agree**, in the object `p` of one and `q` of the other. -/
theorem Agree.report (h : Agree K σ τ)
    (hK : ∀ x y, K x y → ((σ.fill p info).packets x).destIp = ((τ.fill q info).packets y).destIp)
    (hpq : K p q)
    (hdup : ∀ r, σ.lookup info = some r → (σ.sessions r).TakesVoice → (σ.sessions r).Hears info →
      ((σ.sessions r).Duplicate cfg (σ.fill p info).packets p ↔
        (τ.sessions r).Duplicate cfg (τ.fill q info).packets q)) :
    Agree K (σ.report cfg p info).1 (τ.report cfg q info).1 := by
  have hf : Agree K (σ.fill p info) (τ.fill q info) := h.withPackets _ _
  cases hr : σ.lookup info with
  | none =>
    rw [report_of_none hr, report_of_none (by rw [h.lookup, hr])]
    exact hf
  | some r =>
    have hfill : (σ.fill p info).packets p = (τ.fill q info).packets q := by simp
    obtain ⟨hsession, hout, hok⟩ := (hf.sessions r).addIax2Packet cfg
      info.arrivalTimestamp hK hpq hfill fun hv hh => by
        rw [fill_packets_self] at hh
        exact hdup r hr hv hh
    rw [report_of_some hr, report_of_some (by rw [h.lookup, hr]), givePacket_fst, givePacket_fst,
      ← hok]
    split
    · exact hf.take hsession hout
    · exact (hf.take hsession hout).stop r

end

/-! ## States that no packet tells apart -/

/-- What a session reads of a packet it keeps is the same in both. -/
def SameKept (cfg : Config) (x y : Iax2PacketInfo) : Prop :=
  x.destIp = y.destIp ∧ (cfg.iax2RewriteTimestamps = false → x.timestamp = y.timestamp)

theorem Agree.mono (h : Agree K σ τ)
    (hK : ∀ r x y, (σ.sessions r).lastIax2PacketSide1 = some x ∧
        (τ.sessions r).lastIax2PacketSide1 = some y ∨
        (σ.sessions r).lastIax2PacketSide2 = some x ∧
        (τ.sessions r).lastIax2PacketSide2 = some y → K x y → K' x y) : Agree K' σ τ where
  sessions r :=
    { rest := (h.sessions r).rest
      last := (h.sessions r).last
      side1 := Iax2Session.rel_mono (fun x y hx hy => hK r x y (.inl ⟨hx, hy⟩)) (h.sessions r).side1
      side2 := Iax2Session.rel_mono (fun x y hx hy => hK r x y (.inr ⟨hx, hy⟩))
        (h.sessions r).side2 }
  created := h.created
  bySrc := h.bySrc
  byDest := h.byDest
  alphaCounter := h.alphaCounter
  outputs := h.outputs

/-- `x` and `y` are the objects `p` and `q`, or older ones that hold the same for the sessions. -/
structure Paired (cfg : Config) (P Q : Ref → Iax2PacketInfo) (p q x y : Ref) : Prop where
  left : x ≤ p
  right : y ≤ q
  both : x = p ↔ y = q
  same : x ≠ p → SameKept cfg (P x) (Q y)

/-- A duplicate depends on what is read of the packet that is kept. -/
theorem duplicate_congr {s t : Iax2Session} {P Q : Ref → Iax2PacketInfo} {p q : Ref}
    (h : s.Alike K t) (hpq : P p = Q q)
    (hK : ∀ x y, K x y → (P x).destIp = (Q y).destIp)
    (hts : cfg.iax2RewriteTimestamps = false → ∀ x y, K x y → (P x).timestamp = (Q y).timestamp) :
    s.Duplicate cfg P p ↔ t.Duplicate cfg Q q := by
  unfold Iax2Session.Duplicate Iax2Session.keptTimestamp
  rw [hpq]
  refine and_congr_right fun hr => ?_
  have hk := h.keptFor hK (Q q).destIp
  generalize s.keptFor P (Q q).destIp = a, t.keptFor Q (Q q).destIp = b at hk
  cases hk with
  | none => rfl
  | some hk => simp only [Option.map_some, hts hr _ _ hk]

section
variable {P Q : Ref → Iax2PacketInfo} {p q : Ref} {info : Iax2PacketInfo}

theorem Paired.destIp {x y : Ref} (h : Paired cfg P Q p q x y) (hP : ∀ x ≠ p, σ.packets x = P x)
    (hQ : ∀ y ≠ q, τ.packets y = Q y) (hpq : (σ.packets p).destIp = (τ.packets q).destIp) :
    (σ.packets x).destIp = (τ.packets y).destIp := by
  by_cases hx : x = p
  · rw [hx, h.both.1 hx]
    exact hpq
  · rw [hP x hx, hQ y fun hy => hx (h.both.2 hy)]
    exact (h.same hx).1

theorem Paired.timestamp {x y : Ref} (h : Paired cfg P Q p q x y) (hP : ∀ x ≠ p, σ.packets x = P x)
    (hQ : ∀ y ≠ q, τ.packets y = Q y) (hpq : (σ.packets p).timestamp = (τ.packets q).timestamp)
    (hr : cfg.iax2RewriteTimestamps = false) :
    (σ.packets x).timestamp = (τ.packets y).timestamp := by
  by_cases hx : x = p
  · rw [hx, h.both.1 hx]
    exact hpq
  · rw [hP x hx, hQ y fun hy => hx (h.both.2 hy)]
    exact (h.same hx).2 hr

/-- A packet in the objects `p` and `q` of two states whose sessions keep these two in the same
places. -/
structure Matched (cfg : Config) (P Q : Ref → Iax2PacketInfo) (p q : Ref) (σ τ : Iax2Sessions) :
    Prop where
  agree : Agree (Paired cfg P Q p q) σ τ
  left : ∀ x ≠ p, σ.packets x = P x
  right : ∀ y ≠ q, τ.packets y = Q y

theorem Matched.report (h : Matched cfg P Q p q σ τ) (info : Iax2PacketInfo) :
    Matched cfg P Q p q (σ.report cfg p info).1 (τ.report cfg q info).1 ∧
      SameKept cfg ((σ.report cfg p info).1.packets p) ((τ.report cfg q info).1.packets q) := by
  have hP (x : Ref) (hx : x ≠ p) : (σ.fill p info).packets x = P x :=
    (fill_packets_of_ne σ hx info).trans (h.left x hx)
  have hQ (y : Ref) (hy : y ≠ q) : (τ.fill q info).packets y = Q y :=
    (fill_packets_of_ne τ hy info).trans (h.right y hy)
  have hpq : (σ.fill p info).packets p = (τ.fill q info).packets q := by simp
  have hd (x y : Ref) (hxy : Paired cfg P Q p q x y) :
      ((σ.fill p info).packets x).destIp = ((τ.fill q info).packets y).destIp :=
    hxy.destIp hP hQ (congrArg (·.destIp) hpq)
  have hts (hr : cfg.iax2RewriteTimestamps = false) (x y : Ref) (hxy : Paired cfg P Q p q x y) :
      ((σ.fill p info).packets x).timestamp = ((τ.fill q info).packets y).timestamp :=
    hxy.timestamp hP hQ (congrArg (·.timestamp) hpq) hr
  have hp := report_packets σ cfg p info
  have hq := report_packets τ cfg q info
  refine ⟨⟨h.agree.report hd ⟨le_rfl, le_rfl, by simp, by simp⟩ fun r _ _ _ => ?_, ?_, ?_⟩, ?_, ?_⟩
  · exact duplicate_congr (h.agree.sessions r) hpq hd hts
  · intro x hx
    rw [hp.other x hx, hP x hx]
  · intro y hy
    rw [hq.other y hy, hQ y hy]
  · rw [hp.same, hq.same, hpq]
  · intro hr
    rw [hp.off hr, hq.off hr, hpq]

theorem Matched.reportShared (h : Matched cfg P Q p q σ τ)
    (hk : SameKept cfg (σ.packets p) (τ.packets q)) (infos : List Iax2PacketInfo) :
    Matched cfg P Q p q (σ.reportShared cfg p infos) (τ.reportShared cfg q infos) ∧
      SameKept cfg ((σ.reportShared cfg p infos).packets p)
        ((τ.reportShared cfg q infos).packets q) := by
  induction infos generalizing σ τ with
  | nil => exact ⟨h, hk⟩
  | cons info infos ih => exact ih (h.report info).1 (h.report info).2

end

/-! ## Signalling leaves the packet objects -/

theorem stopFound_packets (σ : Iax2Sessions) (found : Option Ref) :
    (σ.stopFound found).packets = σ.packets := by
  cases found <;> rfl

theorem stopEach_packets (σ : Iax2Sessions) (rs : List Ref) :
    (σ.stopEach rs).packets = σ.packets := by
  induction rs generalizing σ with
  | nil => rfl
  | cons r rs ih => exact ih (σ.stop r)

theorem hoover_packets (σ : Iax2Sessions) (cfg : Config) (now : Int) :
    (σ.hoover cfg now).packets = σ.packets := by
  unfold hoover
  rw [stopEach_packets, stopEach_packets]

theorem signal_packets {op : Op} (h : Plugin.IsSignal op) :
    (σ.step cfg op).packets = σ.packets := by
  cases op with
  | new invite now =>
    unfold step reportIax2New
    dsimp only
    split
    · rfl
    · split <;> rfl
  | authreq info =>
    unfold step reportIax2Authreq
    dsimp only
    split <;> rfl
  | accept info =>
    unfold step reportIax2Accept
    dsimp only
    split
    · rfl
    · split <;> rfl
  | hangup bye =>
    unfold step reportIax2Hangup
    dsimp only
    rw [stopFound_packets, stopFound_packets, stopFound_packets, stopFound_packets]
  | packet p pkt now => exact h.elim
  | hoover now => exact hoover_packets σ cfg now
  | stopAll now => exact hoover_packets σ cfg _

end Iax2Sessions

namespace Plugin

open Iax2Sessions

variable {cfg : Config} {π ρ : Plugin}

/-- **The same state, as far as any packet can tell**: the tables, what was handed over and the
sessions are the same, and so is what the sessions read of the packets they keep. -/
def Same (cfg : Config) (π ρ : Plugin) : Prop :=
  Agree (fun x y => x < π.allocated ∧ y < ρ.allocated ∧
    SameKept cfg (π.sessions.packets x) (ρ.sessions.packets y)) π.sessions ρ.sessions

theorem Same.alloc (h : Same cfg π ρ) : Same cfg π.alloc ρ.alloc :=
  Agree.mono h fun _ _ _ _ ⟨hx, hy, hk⟩ => ⟨Nat.lt_succ_of_lt hx, Nat.lt_succ_of_lt hy, hk⟩

theorem Same.matched (h : Same cfg π ρ) :
    Matched cfg π.sessions.packets ρ.sessions.packets π.allocated ρ.allocated π.sessions
      ρ.sessions where
  agree := Agree.mono h fun _ _ _ _ ⟨hx, hy, hk⟩ =>
    ⟨hx.le, hy.le, iff_of_false hx.ne hy.ne, fun _ => hk⟩
  left _ _ := rfl
  right _ _ := rfl

/-- Frames that went through the new packet objects of both. -/
theorem Same.of_matched {σ τ : Iax2Sessions} {P Q : Ref → Iax2PacketInfo}
    (h : Matched cfg P Q π.allocated ρ.allocated σ τ)
    (hk : SameKept cfg (σ.packets π.allocated) (τ.packets ρ.allocated)) :
    Same cfg { π.alloc with sessions := σ } { ρ.alloc with sessions := τ } := by
  refine Agree.mono h.agree fun _ x y _ hxy =>
    ⟨Nat.lt_succ_of_le hxy.left, Nat.lt_succ_of_le hxy.right, ?_⟩
  by_cases hx : x = π.allocated
  · rw [hx, hxy.both.1 hx]
    exact hk
  · rw [h.left x hx, h.right y fun hy => hx (hxy.both.2 hy)]
    exact hxy.same hx

theorem Same.report (h : Same cfg π ρ) (info : Iax2PacketInfo) :
    Same cfg { π.alloc with sessions := (π.sessions.report cfg π.allocated info).1 }
      { ρ.alloc with sessions := (ρ.sessions.report cfg ρ.allocated info).1 } :=
  .of_matched (h.matched.report info).1 (h.matched.report info).2

theorem Same.reportShared (h : Same cfg π ρ) (infos : List Iax2PacketInfo) :
    Same cfg { π.alloc with sessions := π.sessions.reportShared cfg π.allocated infos }
      { ρ.alloc with sessions := ρ.sessions.reportShared cfg ρ.allocated infos } := by
  cases infos with
  | nil => exact h.alloc
  | cons info infos =>
    obtain ⟨hm, hk⟩ := h.matched.report info
    obtain ⟨hm', hk'⟩ := hm.reportShared hk infos
    exact .of_matched hm' hk'

theorem Same.tryIax2MetaTrunkFrame (h : Same cfg π ρ) (u : UdpPacket) (clock : Nat → Int) :
    Same cfg (π.tryIax2MetaTrunkFrame cfg u clock).1 (ρ.tryIax2MetaTrunkFrame cfg u clock).1 :=
  h.reportShared _

theorem Same.tryIax2FullVoiceFrame (h : Same cfg π ρ) (u : UdpPacket) (now : Int) :
    Same cfg (π.tryIax2FullVoiceFrame cfg u now).1 (ρ.tryIax2FullVoiceFrame cfg u now).1 := by
  unfold Plugin.tryIax2FullVoiceFrame
  cases fullVoiceFrame u now with
  | none => exact h.alloc
  | some info => exact h.report info

theorem Same.tryIax2MiniVoiceFrame (h : Same cfg π ρ) (u : UdpPacket) (now : Int) :
    Same cfg (π.tryIax2MiniVoiceFrame cfg u now).1 (ρ.tryIax2MiniVoiceFrame cfg u now).1 := by
  unfold Plugin.tryIax2MiniVoiceFrame
  cases miniVoiceFrame u now with
  | none => exact h.alloc
  | some info => exact h.report info

theorem Same.detectVoice (h : Same cfg π ρ) (u : UdpPacket) (clock : Nat → Int) :
    Same cfg (π.detectVoice cfg u clock) (ρ.detectVoice cfg u clock) := by
  have hfull (π : Plugin) :
      (π.tryIax2FullVoiceFrame cfg u (clock 0)).2 = (fullVoiceFrame u (clock 0)).isSome := by
    unfold Plugin.tryIax2FullVoiceFrame
    cases fullVoiceFrame u (clock 0) <;> rfl
  have h₁ := h.tryIax2FullVoiceFrame u (clock 0)
  have h₂ := h₁.tryIax2MetaTrunkFrame u clock
  unfold Plugin.detectVoice
  dsimp only
  rw [hfull, hfull]
  split
  · exact h₁
  · unfold Plugin.tryIax2MetaTrunkFrame
    dsimp only
    split
    · exact h₂
    · exact h₂.tryIax2MiniVoiceFrame u (clock 0)

theorem Same.step (h : Same cfg π ρ) (i : Input) : Same cfg (π.step cfg i) (ρ.step cfg i) := by
  cases i with
  | signal op hop =>
    have hs : Agree _ (π.sessions.step cfg op) (ρ.sessions.step cfg op) := Agree.signal h op hop
    unfold Same Plugin.step
    rw [signal_packets hop, signal_packets hop]
    exact hs
  | udp u clock => exact h.detectVoice u clock

/-- **No later packet tells them apart.** -/
theorem Same.run (h : Same cfg π ρ) (inputs : List Input) :
    Same cfg (π.run cfg inputs) (ρ.run cfg inputs) := by
  induction inputs generalizing π ρ with
  | nil => exact h
  | cons i inputs ih => exact ih (h.step i)

/-- In a state that is reached, the sessions keep allocated packets. -/
theorem same_reached (cfg : Config) (inputs : List Input) :
    Same cfg (({} : Plugin).run cfg inputs) (({} : Plugin).run cfg inputs) := by
  refine Same.run ⟨fun r => ?_, rfl, rfl, rfl, rfl, rfl⟩ inputs
  exact Iax2Session.Alike.rfl' (by simp)

end Plugin

end Oreka.Iax2
