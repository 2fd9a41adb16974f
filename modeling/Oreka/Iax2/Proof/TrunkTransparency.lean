import Oreka.Iax2.Proof.Begun
import Oreka.Iax2.Proof.SteadyFrames

/-!
# Meta trunk frames against mini frames

`TrunkFrame.Transparent`: a meta trunk frame leaves the sessions in a state that no later input tells
from the one that its entries leave when each is a mini frame of its own. `NoEntryLost`: every entry
that is for a listening session is played. `transparent_iff` says exactly when a frame does what it
should: what goes wrong otherwise comes from the packet object that all entries share, and from the
timestamp 0 of an entry without one.
-/

namespace Oreka.Iax2

open Iax2Session Iax2Sessions

variable {cfg : Config} {π : Plugin}

namespace Iax2Sessions

variable {σ τ : Iax2Sessions} {p r x : Ref} {info : Iax2PacketInfo} {d : InAddr}
  {P : Ref → Iax2PacketInfo} {k T : Ref → Option UInt32} {n : Nat} {infos : List Iax2PacketInfo}

theorem mem_of_mem_heard {h : Ref × Iax2PacketInfo} (hh : h ∈ σ.heard infos) : h.2 ∈ infos := by
  induction infos generalizing σ with
  | nil => cases hh
  | cons i infos ih =>
    unfold heard at hh
    split at hh
    · exact List.mem_cons_of_mem _ (ih hh)
    · split at hh
      · split at hh
        · exact List.mem_cons_of_mem _ (ih hh)
        · obtain rfl | hh := List.mem_cons.1 hh
          · exact List.mem_cons_self
          · exact List.mem_cons_of_mem _ (ih hh)
      · exact List.mem_cons_of_mem _ (ih hh)

/-! ## Rewritten timestamps -/

/-- Where timestamps are rewritten, the shared object makes no difference. -/
theorem same_of_rewriting (hon : cfg.iax2RewriteTimestamps = true)
    (h : Agree (Stands cfg p d P n τ.packets) σ τ) (hP : ∀ x ≠ p, σ.packets x = P x)
    (hd : (σ.packets p).destIp = d) (hall : ∀ i ∈ infos, i.destIp = d) :
    Plugin.Same cfg ⟨σ.reportShared cfg p infos, p + 1⟩
      ⟨τ.reportFresh cfg n infos, n + infos.length⟩ := by
  induction infos generalizing σ τ n with
  | nil =>
    refine h.mono fun _ x y _ hK => ⟨Nat.lt_succ_of_le hK.left, hK.right, ?_,
      fun hoff => absurd (hon.symm.trans hoff) (by decide)⟩
    change (σ.packets x).destIp = (τ.packets y).destIp
    by_cases hx : x = p
    · rw [hx, hd, hK.shared hx]
    · rw [hP x hx]
      exact (hK.older hx).1
  | cons i infos ih =>
    have hid := hall i List.mem_cons_self
    have hnever (s : Iax2Session) (packets : Ref → Iax2PacketInfo) (q : Ref) :
        ¬ s.Duplicate cfg packets q := fun hd => absurd (hon.symm.trans hd.1) (by decide)
    have hstep := report_stands h hP hid fun r _ _ _ => iff_of_false (hnever _ _ _) (hnever _ _ _)
    have hself : ((σ.report cfg p i).1.packets p).destIp = d := by
      rw [report_destIp, fill_packets_self, hid]
    have hother (x : Ref) (hx : x ≠ p) : (σ.report cfg p i).1.packets x = P x := by
      rw [(report_packets σ cfg p i).other x hx, fill_packets_of_ne σ hx, hP x hx]
    have hsame := ih hstep hother hself fun j hj => hall j (List.mem_cons_of_mem _ hj)
    rwa [List.length_cons, Nat.add_comm infos.length, ← Nat.add_assoc]

/-! ## What is played of the frames -/

/-- A session takes in, and then plays, at most the frames that it hears. -/
theorem length_payloads_le (hall : ∀ i ∈ infos, i.frameType = .mini) (hb : AllBegun σ) :
    (voicePayloads (σ.reportShared cfg p infos).outputs).length ≤
      (voicePayloads σ.outputs).length + (σ.heard infos).length := by
  induction infos generalizing σ with
  | nil => exact Nat.le_refl _
  | cons i infos ih =>
    have hm := hall i List.mem_cons_self
    have hrest := ih (fun j hj => hall j (List.mem_cons_of_mem _ hj)) (hb.report cfg p i)
    cases hr : σ.hit i with
    | none =>
      rw [report_payloads_of_not_takes hm cfg p (not_takes_of_none hr)] at hrest
      rw [heard_of_hit_none hm σ cfg p hr]
      exact hrest
    | some r =>
      rw [heard_of_hit hm σ cfg p hr, List.length_cons]
      by_cases ht : σ.Takes cfg p i r
      · rw [report_payloads_of_takes hm cfg p hb ht, List.length_append, List.length_singleton]
          at hrest
        exact hrest.trans_eq (by omega)
      · have hn : (σ.sessions r).Duplicate cfg (σ.fill p i).packets p :=
          by_contra fun hn => ht ⟨hr, hn⟩
        rw [report_payloads_of_not_takes hm cfg p (not_takes_of_duplicate hr hn)] at hrest
        exact hrest.trans (by omega)

/-- What is to be played of the frames that sessions hear. -/
def played (hs : List (Ref × Iax2PacketInfo)) : List (List UInt8) :=
  hs.map fun h => h.2.payload.take h.2.payloadSize.toNat

/-- Where timestamps are rewritten, every frame that is heard is played. -/
theorem payloads_of_rewriting (hon : cfg.iax2RewriteTimestamps = true)
    (hall : ∀ i ∈ infos, i.frameType = .mini) (hb : AllBegun σ) :
    voicePayloads (σ.reportShared cfg p infos).outputs =
      voicePayloads σ.outputs ++ played (σ.heard infos) := by
  induction infos generalizing σ with
  | nil => exact (List.append_nil _).symm
  | cons i infos ih =>
    have hm := hall i List.mem_cons_self
    have hrest := ih (fun j hj => hall j (List.mem_cons_of_mem _ hj)) (hb.report cfg p i)
    cases hr : σ.hit i with
    | none =>
      rw [report_payloads_of_not_takes hm cfg p (not_takes_of_none hr)] at hrest
      rw [heard_of_hit_none hm σ cfg p hr]
      exact hrest
    | some r =>
      have ht : σ.Takes cfg p i r := ⟨hr, fun hd => absurd (hon.symm.trans hd.1) (by decide)⟩
      rw [report_payloads_of_takes hm cfg p hb ht, List.append_assoc] at hrest
      rw [heard_of_hit hm σ cfg p hr]
      exact hrest

/-- Otherwise every frame that is heard is played exactly where each is new to its session, and none
of its sessions hears two. -/
theorem payloads_iff (hσ : Shared p d P k T σ) (hPd : (P p).destIp = d)
    (hoff : cfg.iax2RewriteTimestamps = false)
    (hall : ∀ i ∈ infos, i.frameType = .mini ∧ i.destIp = d) (hb : AllBegun σ) :
    voicePayloads (σ.reportShared cfg p infos).outputs =
        voicePayloads σ.outputs ++ played (σ.heard infos) ↔
      (∀ h ∈ σ.heard infos, T h.1 = none ∧ k h.1 ≠ some h.2.timestamp) ∧
        (σ.heard infos).Pairwise fun h h' => h'.1 ≠ h.1 := by
  induction infos generalizing σ T with
  | nil => exact iff_of_true (List.append_nil _).symm ⟨by simp [heard], .nil⟩
  | cons i infos ih =>
    obtain ⟨hm, hid⟩ := hall i List.mem_cons_self
    have hall' : ∀ j ∈ infos, j.frameType = .mini ∧ j.destIp = d :=
      fun j hj => hall j (List.mem_cons_of_mem _ hj)
    have hb' := hb.report cfg p i
    cases hr : σ.hit i with
    | none =>
      have hrest := ih (hσ.report_idle hm hoff (not_takes_of_none hr)) hall' hb'
      rw [report_payloads_of_not_takes hm cfg p (not_takes_of_none hr)] at hrest
      rw [heard_of_hit_none hm σ cfg p hr]
      exact hrest
    | some r =>
      rw [heard_of_hit hm σ cfg p hr, List.forall_mem_cons, List.pairwise_cons]
      by_cases ht : σ.Takes cfg p i r
      · have hT : T r = none := by
          cases hT : T r with
          | none => rfl
          | some t =>
            exact absurd (Shared.duplicate_of_slot hσ.packets hPd hoff hid (hσ.slot r t hT)) ht.2
        have hk : k r ≠ some i.timestamp := fun hk =>
          ht.2 ((hσ.duplicate_iff hPd hoff hid hT).2 hk)
        have hrest := ih (hσ.report_takes hm hoff hPd hid ht hT) hall' hb'
        rw [report_payloads_of_takes hm cfg p hb ht, List.append_assoc] at hrest
        refine hrest.trans ⟨?_, ?_⟩
        · rintro ⟨hnew, honce⟩
          have hne (h : Ref × Iax2PacketInfo) (hh : h ∈ (σ.report cfg p i).1.heard infos) :
              h.1 ≠ r := by
            intro he
            have hnone := (hnew h hh).1
            rw [he, Function.update_self] at hnone
            cases hnone
          refine ⟨⟨⟨hT, hk⟩, fun h hh => ?_⟩, hne, honce⟩
          have hh' := hnew h hh
          rwa [Function.update_of_ne (hne h hh)] at hh'
        · rintro ⟨⟨-, hnew⟩, hne, honce⟩
          refine ⟨fun h hh => ?_, honce⟩
          rw [Function.update_of_ne (hne h hh)]
          exact hnew h hh
      · have hdup : (σ.sessions r).Duplicate cfg (σ.fill p i).packets p :=
          by_contra fun hn => ht ⟨hr, hn⟩
        refine iff_of_false (fun he => ?_) fun hc => ?_
        · have hle : (voicePayloads (σ.reportShared cfg p (i :: infos)).outputs).length ≤
              (voicePayloads (σ.report cfg p i).1.outputs).length +
                ((σ.report cfg p i).1.heard infos).length :=
            length_payloads_le (fun j hj => (hall' j hj).1) hb'
          rw [he, report_payloads_of_not_takes hm cfg p (not_takes_of_duplicate hr hdup),
            List.length_append, played, List.length_map, List.length_cons] at hle
          omega
        · exact hc.1.1.2 ((hσ.duplicate_iff hPd hoff hid hc.1.1.1).1 hdup)

end Iax2Sessions

/-! ## Frames -/

namespace Plugin

open TrunkFrame

/-- The frame as the trunk parser takes it. -/
def trunkFrame (π : Plugin) (cfg : Config) (f : TrunkFrame) (clock : Nat → Int) : Plugin :=
  (π.tryIax2MetaTrunkFrame cfg f.packet clock).1

/-- Its entries one by one as mini frames of the same sender, read at the same times. -/
def miniFrames (π : Plugin) (cfg : Config) (f : TrunkFrame) (clock : Nat → Int) : Plugin :=
  (f.entries.mapIdx fun i e => (e, clock i)).foldl
    (fun π e => (π.tryIax2MiniVoiceFrame cfg (f.miniPacket e.1) e.2).1) π

theorem trunkFrame_eq (π : Plugin) (cfg : Config) (f : TrunkFrame) (clock : Nat → Int) :
    π.trunkFrame cfg f clock =
      ⟨π.sessions.reportShared cfg π.allocated (f.infos clock), π.allocated + 1⟩ := by
  unfold trunkFrame tryIax2MetaTrunkFrame
  rw [metaTrunkFrame_packet]
  rfl

theorem foldl_mini (f : TrunkFrame) {es : List (TrunkEntry × Int)}
    (hes : ∀ e ∈ es, e.1.WellFormed) (π : Plugin) :
    es.foldl (fun π e => (π.tryIax2MiniVoiceFrame cfg (f.miniPacket e.1) e.2).1) π =
      ⟨π.sessions.reportFresh cfg π.allocated (es.map fun e => e.1.info f.packet e.2),
        π.allocated + es.length⟩ := by
  induction es generalizing π with
  | nil => rfl
  | cons e es ih =>
    have he : π.tryIax2MiniVoiceFrame cfg (f.miniPacket e.1) e.2 =
        ({ π.alloc with sessions :=
          (π.sessions.report cfg π.allocated (e.1.info f.packet e.2)).1 },
          (π.sessions.report cfg π.allocated (e.1.info f.packet e.2)).2) := by
      unfold tryIax2MiniVoiceFrame
      rw [miniVoiceFrame_miniPacket f (hes e List.mem_cons_self)]
    rw [List.foldl_cons, he, ih (fun e' he' => hes e' (List.mem_cons_of_mem _ he')), List.map_cons,
      List.length_cons]
    change Plugin.mk _ (π.allocated + 1 + es.length) = _
    rw [Nat.add_assoc, Nat.add_comm 1]
    rfl

theorem miniFrames_eq (π : Plugin) (cfg : Config) (f : TrunkFrame) (clock : Nat → Int) :
    π.miniFrames cfg f clock =
      ⟨π.sessions.reportFresh cfg π.allocated (f.infos clock),
        π.allocated + (f.infos clock).length⟩ := by
  have hes : ∀ e ∈ f.entries.mapIdx fun i e => (e, clock i), e.1.WellFormed := by
    intro e he
    obtain ⟨i, hi, rfl⟩ := List.mem_mapIdx.1 he
    exact f.wellFormed _ (List.getElem_mem hi)
  have hinfos : (f.entries.mapIdx fun i e => (e, clock i)).map (fun e => e.1.info f.packet e.2) =
      f.infos clock := by
    unfold infos
    apply List.ext_getElem <;> simp
  unfold miniFrames
  rw [foldl_mini f hes, hinfos]
  simp [infos]

end Plugin

namespace TrunkFrame

/-- The frame has the effect of its entries sent as mini frames, also as seen by all later
packets. -/
def Transparent (f : TrunkFrame) (cfg : Config) (π : Plugin) (clock : Nat → Int) : Prop :=
  ∀ later : List Plugin.Input, Plugin.Same cfg ((π.trunkFrame cfg f clock).run cfg later)
    ((π.miniFrames cfg f clock).run cfg later)

/-- Each entry for a listening session is handed over as a chunk. -/
def NoEntryLost (f : TrunkFrame) (cfg : Config) (π : Plugin) (clock : Nat → Int) : Prop :=
  voicePayloads (π.trunkFrame cfg f clock).sessions.outputs =
    voicePayloads π.sessions.outputs ++ (π.sessions.heard (f.infos clock)).map fun h => h.2.payload

/-- The entry does not have the timestamp that its session keeps for the frame's direction. -/
def New (f : TrunkFrame) (π : Plugin) (h : Ref × Iax2PacketInfo) : Prop :=
  (π.sessions.sessions h.1).keptTimestamp π.sessions.packets f.ipDest ≠ some h.2.timestamp

instance (f : TrunkFrame) (π : Plugin) (h : Ref × Iax2PacketInfo) : Decidable (f.New π h) :=
  inferInstanceAs (Decidable (_ ≠ _))

/-- Each entry that is new to its session has the timestamp of the frame's last entry, and none of
the same session has another one behind it. -/
def Undisturbed (f : TrunkFrame) (π : Plugin) (clock : Nat → Int) : Prop :=
  (∀ h ∈ π.sessions.heard (f.infos clock), f.New π h →
      ∀ l ∈ (f.infos clock).getLast?, h.2.timestamp = l.timestamp) ∧
    (π.sessions.heard (f.infos clock)).Pairwise fun h h' =>
      f.New π h → h'.1 = h.1 → h'.2.timestamp = h.2.timestamp

instance (f : TrunkFrame) (π : Plugin) (clock : Nat → Int) : Decidable (f.Undisturbed π clock) :=
  inferInstanceAs (Decidable (_ ∧ _))

/-- Each entry is new to its session, and no session hears two. -/
def Apart (f : TrunkFrame) (π : Plugin) (clock : Nat → Int) : Prop :=
  (∀ h ∈ π.sessions.heard (f.infos clock), f.New π h) ∧
    (π.sessions.heard (f.infos clock)).Pairwise fun h h' => h'.1 ≠ h.1

instance (f : TrunkFrame) (π : Plugin) (clock : Nat → Int) : Decidable (f.Apart π clock) :=
  inferInstanceAs (Decidable (_ ∧ _))

/-- The frames that do no harm, with and without timestamps. -/
def Harmless (f : TrunkFrame) (π : Plugin) (clock : Nat → Int) : Prop :=
  if f.timestamps then f.Undisturbed π clock else f.Apart π clock

instance (f : TrunkFrame) (π : Plugin) (clock : Nat → Int) : Decidable (f.Harmless π clock) :=
  inferInstanceAs (Decidable (ite _ _ _))

theorem infos_mini (f : TrunkFrame) (clock : Nat → Int) :
    ∀ i ∈ f.infos clock, i.frameType = .mini ∧ i.destIp = f.ipDest := by
  intro i hi
  obtain ⟨j, hj, rfl⟩ := List.mem_mapIdx.1 hi
  exact ⟨rfl, rfl⟩

/-- The payload of an entry is all of its data. -/
theorem infos_payload (f : TrunkFrame) (clock : Nat → Int) :
    ∀ i ∈ f.infos clock, i.payload.take i.payloadSize.toNat = i.payload := by
  intro i hi
  obtain ⟨j, hj, rfl⟩ := List.mem_mapIdx.1 hi
  have hfits := (f.wellFormed _ (List.getElem_mem hj)).fits
  have hsize : (UInt32.ofNat f.entries[j].data.length).toNat = f.entries[j].data.length := by
    rw [UInt32.toNat_ofNat']
    exact Nat.mod_eq_of_lt (hfits.trans (by decide))
  exact List.take_of_length_le hsize.ge

theorem played_heard (f : TrunkFrame) (clock : Nat → Int) (σ : Iax2Sessions) :
    played (σ.heard (f.infos clock)) = (σ.heard (f.infos clock)).map fun h => h.2.payload :=
  List.map_congr_left fun _ hh => f.infos_payload clock _ (mem_of_mem_heard hh)

/-- An entry without a timestamp is read as one with the timestamp 0. -/
theorem infos_timestamp (f : TrunkFrame) (hf : f.timestamps = false) (clock : Nat → Int) :
    ∀ i ∈ f.infos clock, i.timestamp = 0 := by
  intro i hi
  obtain ⟨j, hj, rfl⟩ := List.mem_mapIdx.1 hi
  have hts : f.entries[j].ts = 0 :=
    f.noTimestamps (by simpa [timestamps] using hf) _ (List.getElem_mem hj)
  change f.entries[j].ts.toUInt32 = 0
  rw [hts]
  rfl

/-! ## The first entry -/

section
variable {d : InAddr} {i : Iax2PacketInfo} {infos : List Iax2PacketInfo}

theorem keeps_lt (h : π.Same cfg π) {r x : Ref} (hx : (π.sessions.sessions r).Keeps x) :
    x < π.allocated := by
  obtain hx | hx := hx
  · have h₁ := (h.sessions r).side1
    rw [hx] at h₁
    cases h₁ with
    | some h₁ => exact h₁.1
  · have h₂ := (h.sessions r).side2
    rw [hx] at h₂
    cases h₂ with
    | some h₂ => exact h₂.1

theorem start_stands (h : π.Same cfg π) (i : Iax2PacketInfo) (d : InAddr) :
    Agree (Stands cfg π.allocated d (π.sessions.fill π.allocated i).packets π.allocated
      π.sessions.packets) (π.sessions.fill π.allocated i) π.sessions := by
  have hagree : Agree _ (π.sessions.fill π.allocated i) π.sessions :=
    Agree.withPackets h _ π.sessions.packets
  refine hagree.mono fun r x y _ hxy => ⟨hxy.1.le, hxy.2.1, fun hx => ?_, fun hx => ?_⟩
  · exact absurd hx hxy.1.ne
  · rw [fill_packets_of_ne π.sessions hx]
    exact hxy.2.2

/-- The timestamp that a session keeps for `d`. -/
def keptBefore (π : Plugin) (d : InAddr) (r : Ref) : Option UInt32 :=
  (π.sessions.sessions r).keptTimestamp π.sessions.packets d

theorem start_shared (h : π.Same cfg π) (i : Iax2PacketInfo) (d : InAddr) :
    Shared π.allocated d (π.sessions.fill π.allocated i).packets (keptBefore π d) (fun _ => none)
      (π.sessions.fill π.allocated i) where
  packets _ _ := rfl
  free r _ := by
    have hlt {x : Ref} (hx : (π.sessions.sessions r).Keeps x) := keeps_lt h hx
    refine ⟨fun hp => (hlt hp).ne rfl, keptTimestamp_congr (fun x hx => ?_) fun x hx => ?_⟩
    · rw [fill_packets_of_ne π.sessions (hlt hx).ne]
    · rw [fill_packets_of_ne π.sessions (hlt hx).ne]
  slot _ _ hT := by cases hT

theorem start_separate (h : π.Same cfg π) (d : InAddr) :
    Separate d π.allocated (fun r => (none : Option UInt32).or (keptBefore π d r)) π.sessions where
  kept_lt _ _ hx := keeps_lt h hx
  kept _ := by
    rw [Option.none_or]
    rfl

/-- Writing the first frame into the object beforehand changes nothing. -/
theorem reportShared_fill (σ : Iax2Sessions) (p : Ref) (i : Iax2PacketInfo)
    (infos : List Iax2PacketInfo) :
    (σ.fill p i).reportShared cfg p (i :: infos) = σ.reportShared cfg p (i :: infos) := by
  have hfill : (σ.fill p i).report cfg p i = σ.report cfg p i := by
    unfold report fill
    dsimp only
    rw [Function.update_idem]
  unfold reportShared
  rw [List.foldl_cons, List.foldl_cons, hfill]

theorem fill_heard (σ : Iax2Sessions) (p : Ref) (i : Iax2PacketInfo) (infos : List Iax2PacketInfo) :
    (σ.fill p i).heard infos = σ.heard infos :=
  SameOutline.heard (σ := σ) (τ := σ.fill p i) ⟨rfl, rfl, fun _ => .rfl'⟩ infos

end

theorem steady_iff_of_none {k : Ref → Option UInt32} {last : UInt32}
    {hs : List (Ref × Iax2PacketInfo)} :
    Steady k (fun _ => none) last hs ↔
      (∀ h ∈ hs, k h.1 ≠ some h.2.timestamp → h.2.timestamp = last) ∧
        hs.Pairwise fun h h' => k h.1 ≠ some h.2.timestamp → h'.1 = h.1 →
          h'.2.timestamp = h.2.timestamp := by
  constructor
  · rintro ⟨-, -, hnew, honce⟩
    exact ⟨fun h hh => hnew h hh rfl, honce.imp fun ho => ho rfl⟩
  · rintro ⟨hnew, honce⟩
    exact ⟨fun _ _ hT => absurd hT (by simp), fun _ _ _ hT => absurd hT (by simp),
      fun h hh _ => hnew h hh, honce.imp fun ho _ => ho⟩

theorem same_iff_undisturbed (h : π.Same cfg π) (hoff : cfg.iax2RewriteTimestamps = false)
    (f : TrunkFrame) (clock : Nat → Int) :
    Plugin.Same cfg (π.trunkFrame cfg f clock) (π.miniFrames cfg f clock) ↔
      f.Undisturbed π clock := by
  have hall := f.infos_mini clock
  rw [Plugin.trunkFrame_eq, Plugin.miniFrames_eq]
  unfold Undisturbed
  cases hinfos : f.infos clock with
  | nil =>
    exact iff_of_true (Agree.mono h fun _ _ _ _ hxy => ⟨Nat.lt_succ_of_lt hxy.1, hxy.2.1, hxy.2.2⟩)
      ⟨by simp [heard], .nil⟩
  | cons i infos =>
    rw [hinfos] at hall
    obtain ⟨-, hid⟩ := hall i List.mem_cons_self
    have hself : (π.sessions.fill π.allocated i).packets π.allocated = i := fill_packets_self ..
    have hsame := same_iff_steady (start_stands h i f.ipDest) (start_shared h i f.ipDest)
      (start_separate h f.ipDest) (by rw [hself, hid]) (by rw [hself, hid]) hoff hall rfl
    rw [reportShared_fill, fill_heard, steady_iff_of_none] at hsame
    rw [hsame, List.getLast?_cons]
    simp only [Option.mem_some_iff, forall_eq', Option.getD_some]
    rfl

theorem same_of_rewriting (h : π.Same cfg π) (hon : cfg.iax2RewriteTimestamps = true)
    (f : TrunkFrame) (clock : Nat → Int) :
    Plugin.Same cfg (π.trunkFrame cfg f clock) (π.miniFrames cfg f clock) := by
  have hall := f.infos_mini clock
  rw [Plugin.trunkFrame_eq, Plugin.miniFrames_eq]
  cases hinfos : f.infos clock with
  | nil => exact Agree.mono h fun _ _ _ _ hxy => ⟨Nat.lt_succ_of_lt hxy.1, hxy.2.1, hxy.2.2⟩
  | cons i infos =>
    rw [hinfos] at hall
    have hself : (π.sessions.fill π.allocated i).packets π.allocated = i := fill_packets_self ..
    have hsame := Iax2Sessions.same_of_rewriting hon (start_stands h i f.ipDest)
      (fun _ _ => rfl) (by rw [hself, (hall i List.mem_cons_self).2]) fun j hj => (hall j hj).2
    rwa [reportShared_fill] at hsame

/-- Later packets tell the states apart if anything does. -/
theorem transparent_iff_same (f : TrunkFrame) (cfg : Config) (π : Plugin) (clock : Nat → Int) :
    f.Transparent cfg π clock ↔
      Plugin.Same cfg (π.trunkFrame cfg f clock) (π.miniFrames cfg f clock) :=
  ⟨fun h => h [], fun h later => h.run later⟩

theorem noEntryLost_of_rewriting (hb : AllBegun π.sessions)
    (hon : cfg.iax2RewriteTimestamps = true) (f : TrunkFrame) (clock : Nat → Int) :
    f.NoEntryLost cfg π clock := by
  unfold NoEntryLost
  rw [Plugin.trunkFrame_eq, ← f.played_heard]
  exact payloads_of_rewriting hon (fun i hi => (f.infos_mini clock i hi).1) hb

theorem noEntryLost_iff (h : π.Same cfg π) (hb : AllBegun π.sessions)
    (hoff : cfg.iax2RewriteTimestamps = false) (f : TrunkFrame) (clock : Nat → Int) :
    f.NoEntryLost cfg π clock ↔ f.Apart π clock := by
  have hall := f.infos_mini clock
  unfold NoEntryLost Apart
  rw [Plugin.trunkFrame_eq, ← f.played_heard]
  cases hinfos : f.infos clock with
  | nil => exact iff_of_true (List.append_nil _).symm ⟨by simp [heard], .nil⟩
  | cons i infos =>
    rw [hinfos] at hall
    have hself : (π.sessions.fill π.allocated i).packets π.allocated = i := fill_packets_self ..
    have hplayed := payloads_iff (start_shared h i f.ipDest)
      (by rw [hself, (hall i List.mem_cons_self).2]) hoff hall hb
    rw [reportShared_fill, fill_heard] at hplayed
    refine hplayed.trans (and_congr_left' (forall₂_congr fun h _ => ?_))
    exact and_iff_right rfl

/-- **Trunk frames are transparent exactly where they do no harm**, and one without timestamps then
loses no entry. -/
theorem transparent_iff_harmless (cfg : Config) (before : List Plugin.Input) (f : TrunkFrame)
    (clock : Nat → Int) :
    (f.Transparent cfg (({} : Plugin).run cfg before) clock ∧
        (f.timestamps = false → f.NoEntryLost cfg (({} : Plugin).run cfg before) clock)) ↔
      cfg.iax2RewriteTimestamps = true ∨ f.Harmless (({} : Plugin).run cfg before) clock := by
  have h := Plugin.same_reached cfg before
  have hb := Plugin.allBegun_reached cfg before
  generalize ({} : Plugin).run cfg before = π at h hb
  rw [transparent_iff_same]
  cases hr : cfg.iax2RewriteTimestamps with
  | true =>
    exact iff_of_true ⟨same_of_rewriting h hr f clock,
      fun _ => noEntryLost_of_rewriting hb hr f clock⟩ (.inl rfl)
  | false =>
    rw [same_iff_undisturbed h hr, noEntryLost_iff h hb hr]
    unfold Harmless
    cases hts : f.timestamps with
    | true => simp
    | false =>
      have hzero (h : Ref × Iax2PacketInfo) (hh : h ∈ π.sessions.heard (f.infos clock)) :
          h.2.timestamp = 0 := f.infos_timestamp hts clock _ (mem_of_mem_heard hh)
      have hund : f.Undisturbed π clock := by
        refine ⟨fun h hh _ l hl => ?_, ?_⟩
        · rw [hzero h hh, f.infos_timestamp hts clock l (List.mem_of_getLast? hl)]
        · exact List.pairwise_of_forall_mem_list fun h hh h' hh' _ _ => by
            rw [hzero h hh, hzero h' hh']
      simp [hund]

/-- A call that is set up, and its first full frame (alaw, timestamp 1000). -/
def setUpCall : List Plugin.Input :=
  [.signal (.new { senderIp := ⟨10, 0, 0, 1⟩, receiverIp := ⟨10, 0, 0, 9⟩, callNo := 1 } 0) trivial,
   .signal (.accept ⟨⟨10, 0, 0, 9⟩, ⟨10, 0, 0, 1⟩, 5, 1⟩) trivial,
   .udp ⟨⟨10, 0, 0, 1⟩, ⟨10, 0, 0, 9⟩, [0x80, 1, 0, 5, 0, 0, 3, 232, 0, 0, 2, 8, 213, 213]⟩
    fun _ => 0]

/-- A frame with two entries for the call, 20 ms apart. -/
def twoEntries : TrunkFrame where
  ipSrc := ⟨10, 0, 0, 1⟩
  ipDest := ⟨10, 0, 0, 9⟩
  cmddata := 1
  ts := 1040
  entries := [⟨1, 1020, [1, 1]⟩, ⟨1, 1040, [2, 2]⟩]
  wellFormed e he := by
    obtain rfl | rfl : e = ⟨1, 1020, [1, 1]⟩ ∨ e = ⟨1, 1040, [2, 2]⟩ := by simpa using he
    all_goals exact ⟨by decide, by decide, by decide⟩
  noTimestamps h := absurd h (by decide)

/-- The second entry is dismissed: it is compared with itself. -/
theorem not_transparent_twoEntries :
    ¬ ∀ (before : List Plugin.Input) (f : TrunkFrame) (clock : Nat → Int),
      f.Transparent {} (({} : Plugin).run {} before) clock ∧
        (f.timestamps = false → f.NoEntryLost {} (({} : Plugin).run {} before) clock) := by
  intro h
  have hsame := (transparent_iff_same ..).1 (h setUpCall twoEntries fun _ => 0).1
  have hundisturbed := (same_iff_undisturbed (Plugin.same_reached {} setUpCall) rfl twoEntries
    fun _ => 0).1 hsame
  have hnot : ¬ twoEntries.Undisturbed (({} : Plugin).run {} setUpCall) fun _ => 0 := by
    decide
  exact hnot hundisturbed

end TrunkFrame

end Oreka.Iax2
