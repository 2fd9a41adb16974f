import Oreka.Iax2.Proof.MiniFrames

/-!
# One packet object for several frames

The mini frames of one sender, reported through one packet object (`reportShared`), against the same
frames each reported through its own (`reportFresh`). Through its own, a frame is dismissed if its
timestamp is that of the frame its session took in before. Through a shared one, a session that has
taken in a frame compares the next one with itself, so it takes in no other; and in the end it keeps
what was written last into the object, whoever that was for. `same_iff_steady` says when that makes
no difference.
-/

namespace Oreka.Iax2

open Iax2Session

namespace Iax2Sessions

variable {σ τ : Iax2Sessions} {cfg : Config} {p q r x : Ref} {info : Iax2PacketInfo}

/-! ## The two runs in step -/

theorem report_destIp (σ : Iax2Sessions) (cfg : Config) (p : Ref) (info : Iax2PacketInfo) (x : Ref) :
    ((σ.report cfg p info).1.packets x).destIp = ((σ.fill p info).packets x).destIp := by
  have h := report_packets σ cfg p info
  by_cases hx : x = p
  · rw [hx, h.same]
  · rw [h.other x hx]

/-- `y` stands for `x`, when the frames for `d` go through the one object `p` on the left and through
the objects before `n` on the right. -/
structure Stands (cfg : Config) (p : Ref) (d : InAddr) (P : Ref → Iax2PacketInfo) (n : Nat)
    (Q : Ref → Iax2PacketInfo) (x y : Ref) : Prop where
  left : x ≤ p
  right : y < n
  shared : x = p → (Q y).destIp = d
  older : x ≠ p → SameKept cfg (P x) (Q y)

section
variable {d : InAddr} {P : Ref → Iax2PacketInfo} {n : Nat}

/-- A frame that both take in, or neither, keeps the two runs in step. -/
theorem report_stands (h : Agree (Stands cfg p d P n τ.packets) σ τ)
    (hP : ∀ x ≠ p, σ.packets x = P x) (hd : info.destIp = d)
    (hdup : ∀ r, σ.lookup info = some r → (σ.sessions r).TakesVoice → (σ.sessions r).Hears info →
      ((σ.sessions r).Duplicate cfg (σ.fill p info).packets p ↔
        (τ.sessions r).Duplicate cfg (τ.fill n info).packets n)) :
    Agree (Stands cfg p d P (n + 1) (τ.report cfg n info).1.packets) (σ.report cfg p info).1
      (τ.report cfg n info).1 := by
  have hn : Agree (Stands cfg p d P (n + 1) (τ.fill n info).packets) σ τ := by
    refine h.mono fun _ x y _ hxy => ⟨hxy.left, Nat.lt_succ_of_lt hxy.right, ?_, ?_⟩
    · rw [fill_packets_of_ne τ hxy.right.ne]
      exact hxy.shared
    · rw [fill_packets_of_ne τ hxy.right.ne]
      exact hxy.older
  have hdest (x y : Ref) (hxy : Stands cfg p d P (n + 1) (τ.fill n info).packets x y) :
      ((σ.fill p info).packets x).destIp = ((τ.fill n info).packets y).destIp := by
    by_cases hx : x = p
    · rw [hxy.shared hx, hx, fill_packets_self, hd]
    · rw [fill_packets_of_ne σ hx, hP x hx]
      exact (hxy.older hx).1
  have hpn : Stands cfg p d P (n + 1) (τ.fill n info).packets p n := by
    refine ⟨le_rfl, Nat.lt_succ_self n, fun _ => ?_, fun hx => absurd rfl hx⟩
    rw [fill_packets_self, hd]
  refine (hn.report hdest hpn hdup).mono fun _ x y _ hxy => ⟨hxy.left, hxy.right, fun hx => ?_,
    fun hx => ?_⟩
  · rw [report_destIp]
    exact hxy.shared hx
  · refine ⟨?_, fun hr => ?_⟩
    · rw [report_destIp]
      exact (hxy.older hx).1
    · rw [(report_packets τ cfg n info).off hr]
      exact (hxy.older hx).2 hr

end

/-! ## The shared object -/

/-- The run through the shared object `p`: `T r` is the timestamp of the frame that the session `r` has
taken in, and `k r` what it kept before. -/
structure Shared (p : Ref) (d : InAddr) (P : Ref → Iax2PacketInfo) (k T : Ref → Option UInt32)
    (σ : Iax2Sessions) : Prop where
  packets : ∀ x ≠ p, σ.packets x = P x
  free : ∀ r, T r = none → ¬ (σ.sessions r).Keeps p ∧ (σ.sessions r).keptTimestamp P d = k r
  slot : ∀ r t, T r = some t → (σ.sessions r).Slot P d p

/-- The run through objects of its own, those before `n`: `k r` is the timestamp that the next frame
for `r` is compared with. -/
structure Separate (d : InAddr) (n : Nat) (k : Ref → Option UInt32) (τ : Iax2Sessions) : Prop where
  kept_lt : ∀ r x, (τ.sessions r).Keeps x → x < n
  kept : ∀ r, (τ.sessions r).keptTimestamp τ.packets d = k r

section
variable {d : InAddr} {P : Ref → Iax2PacketInfo} {k T : Ref → Option UInt32} {n : Nat}

theorem fill_destIp (hP : ∀ x ≠ p, σ.packets x = P x) (hPd : (P p).destIp = d)
    (hd : info.destIp = d) (x : Ref) : ((σ.fill p info).packets x).destIp = (P x).destIp := by
  by_cases hx : x = p
  · rw [hx, fill_packets_self, hd, hPd]
  · rw [fill_packets_of_ne σ hx, hP x hx]

/-- A session that has taken in a frame finds every other one a duplicate. -/
theorem Shared.duplicate_of_slot (hP : ∀ x ≠ p, σ.packets x = P x) (hPd : (P p).destIp = d)
    (hoff : cfg.iax2RewriteTimestamps = false) (hd : info.destIp = d)
    (hs : (σ.sessions r).Slot P d p) :
    (σ.sessions r).Duplicate cfg (σ.fill p info).packets p := by
  refine ⟨hoff, ?_⟩
  unfold Iax2Session.keptTimestamp
  rw [fill_packets_self, keptFor_congr fun x _ => fill_destIp hP hPd hd x, hd, hs.1]
  simp

theorem Shared.duplicate_iff (h : Shared p d P k T σ) (hPd : (P p).destIp = d)
    (hoff : cfg.iax2RewriteTimestamps = false) (hd : info.destIp = d) (hT : T r = none) :
    (σ.sessions r).Duplicate cfg (σ.fill p info).packets p ↔ k r = some info.timestamp := by
  obtain ⟨hfree, hk⟩ := h.free r hT
  have hkept : (σ.sessions r).keptTimestamp (σ.fill p info).packets d = k r := by
    rw [← hk]
    refine keptTimestamp_congr (fun x _ => fill_destIp h.packets hPd hd x) fun x hx => ?_
    have hxp : x ≠ p := fun he => hfree (he ▸ hx)
    rw [fill_packets_of_ne σ hxp, h.packets x hxp]
  unfold Duplicate
  rw [fill_packets_self, hd, hkept]
  exact and_iff_right hoff

theorem Separate.duplicate_iff (h : Separate d n k τ) (hoff : cfg.iax2RewriteTimestamps = false)
    (hd : info.destIp = d) :
    (τ.sessions r).Duplicate cfg (τ.fill n info).packets n ↔ k r = some info.timestamp := by
  have hkept : (τ.sessions r).keptTimestamp (τ.fill n info).packets d = k r := by
    rw [← h.kept r]
    exact keptTimestamp_congr
      (fun x hx => by rw [fill_packets_of_ne τ (h.kept_lt r x hx).ne])
      fun x hx => by rw [fill_packets_of_ne τ (h.kept_lt r x hx).ne]
  unfold Duplicate
  rw [fill_packets_self, hd, hkept]
  exact and_iff_right hoff

/-- A frame that no session takes in, through the shared object. -/
theorem Shared.report_idle (h : Shared p d P k T σ) (hm : info.frameType = .mini)
    (hoff : cfg.iax2RewriteTimestamps = false) (hn : ∀ x, ¬ σ.Takes cfg p info x) :
    Shared p d P k T (σ.report cfg p info).1 where
  packets x hx := by
    rw [(report_packets σ cfg p info).off hoff, fill_packets_of_ne σ hx, h.packets x hx]
  free r hT := by
    have hv := report_voice_of_not_takes hm σ cfg p (hn r)
    rw [keeps_of_voice hv, keptTimestamp_of_voice hv]
    exact h.free r hT
  slot r t hT := (slot_of_voice (report_voice_of_not_takes hm σ cfg p (hn r))).2 (h.slot r t hT)

/-- The first frame that a session takes in, through the shared object. -/
theorem Shared.report_takes (h : Shared p d P k T σ) (hm : info.frameType = .mini)
    (hoff : cfg.iax2RewriteTimestamps = false) (hPd : (P p).destIp = d) (hd : info.destIp = d)
    (ht : σ.Takes cfg p info r) (hT : T r = none) :
    Shared p d P k (Function.update T r (some info.timestamp)) (σ.report cfg p info).1 where
  packets x hx := by
    rw [(report_packets σ cfg p info).off hoff, fill_packets_of_ne σ hx, h.packets x hx]
  free x hx := by
    have hxr : x ≠ r := by
      rintro rfl
      simp at hx
    rw [Function.update_of_ne hxr] at hx
    have hv := report_voice_of_not_takes hm σ cfg p (x := x)
      fun hx' => hxr (Option.some.inj (hx'.1.symm.trans ht.1))
    rw [keeps_of_voice hv, keptTimestamp_of_voice hv]
    exact h.free x hx
  slot x t hx := by
    by_cases hxr : x = r
    · subst hxr
      have hv := report_voice_of_takes hm σ cfg p ht
      rw [channelFor_congr fun y _ => fill_destIp h.packets hPd hd y, hd] at hv
      have hs := slot_keep hPd (h.free x hT).1
      unfold Slot keptFor at hs ⊢
      rw [(Prod.mk.inj hv).1, (Prod.mk.inj (Prod.mk.inj hv).2).1]
      exact hs
    · rw [Function.update_of_ne hxr] at hx
      have hv := report_voice_of_not_takes hm σ cfg p (x := x)
        fun hx' => hxr (Option.some.inj (hx'.1.symm.trans ht.1))
      exact (slot_of_voice hv).2 (h.slot x t hx)

theorem Separate.kept_report (h : Separate d n k τ) (hoff : cfg.iax2RewriteTimestamps = false)
    (r : Ref) :
    (τ.sessions r).keptTimestamp (τ.report cfg n info).1.packets d = k r := by
  rw [(report_packets τ cfg n info).off hoff, ← h.kept r]
  exact keptTimestamp_congr
    (fun x hx => by rw [fill_packets_of_ne τ (h.kept_lt r x hx).ne])
    fun x hx => by rw [fill_packets_of_ne τ (h.kept_lt r x hx).ne]

/-- A frame that no session takes in, through its own object. -/
theorem Separate.report_idle (h : Separate d n k τ) (hm : info.frameType = .mini)
    (hoff : cfg.iax2RewriteTimestamps = false) (hn : ∀ x, ¬ τ.Takes cfg n info x) :
    Separate d (n + 1) k (τ.report cfg n info).1 where
  kept_lt r x hx :=
    Nat.lt_succ_of_lt (h.kept_lt r x
      ((keeps_of_voice (report_voice_of_not_takes hm τ cfg n (hn r))).1 hx))
  kept r := by
    rw [keptTimestamp_of_voice (report_voice_of_not_takes hm τ cfg n (hn r))]
    exact h.kept_report hoff r

/-- A frame that a session takes in, through its own object. -/
theorem Separate.report_takes (h : Separate d n k τ) (hm : info.frameType = .mini)
    (hoff : cfg.iax2RewriteTimestamps = false) (hd : info.destIp = d)
    (ht : τ.Takes cfg n info r) :
    Separate d (n + 1) (Function.update k r (some info.timestamp)) (τ.report cfg n info).1 := by
  have hother {x : Ref} (hxr : x ≠ r) := report_voice_of_not_takes hm τ cfg n (x := x)
    fun hx' => hxr (Option.some.inj (hx'.1.symm.trans ht.1))
  have hv := report_voice_of_takes hm τ cfg n ht
  rw [hd] at hv
  have hsides : ((τ.report cfg n info).1.sessions r).lastIax2PacketSide1 = _ ∧
      ((τ.report cfg n info).1.sessions r).lastIax2PacketSide2 = _ :=
    ⟨(Prod.mk.inj hv).1, (Prod.mk.inj (Prod.mk.inj hv).2).1⟩
  refine ⟨fun x y hy => ?_, fun x => ?_⟩
  · by_cases hxr : x = r
    · subst hxr
      unfold Keeps at hy
      rw [hsides.1, hsides.2] at hy
      obtain hy | hy := keeps_keep hy
      · exact Nat.lt_succ_of_lt (h.kept_lt x y hy)
      · exact hy ▸ Nat.lt_succ_self n
    · exact Nat.lt_succ_of_lt (h.kept_lt x y ((keeps_of_voice (hother hxr)).1 hy))
  · by_cases hxr : x = r
    · subst hxr
      rw [Function.update_self, (report_packets τ cfg n info).off hoff]
      have hp : ((τ.fill n info).packets n).destIp = d := by rw [fill_packets_self, hd]
      have hk := keptFor_keep hp (τ.sessions x)
      unfold keptTimestamp
      unfold keptFor at hk ⊢
      rw [hsides.1, hsides.2, hk]
      simp
    · rw [Function.update_of_ne hxr, keptTimestamp_of_voice (hother hxr)]
      exact h.kept_report hoff x

/-! ## Frames that are lost -/

theorem num_le_report (hm : info.frameType = .mini) (τ : Iax2Sessions) (cfg : Config) (q x : Ref) :
    (τ.sessions x).numIax2Packets ≤ ((τ.report cfg q info).1.sessions x).numIax2Packets := by
  by_cases ht : τ.Takes cfg q info x
  · have hv := report_voice_of_takes hm τ cfg q ht
    rw [(Prod.mk.inj (Prod.mk.inj hv).2).2]
    exact Nat.le_succ _
  · have hv := report_voice_of_not_takes hm τ cfg q ht
    exact (Prod.mk.inj (Prod.mk.inj hv).2).2.ge

/-- The session `r` has taken in a frame through the shared object, and more frames on the right. -/
structure Behind (p : Ref) (d : InAddr) (P : Ref → Iax2PacketInfo) (r : Ref)
    (σ τ : Iax2Sessions) : Prop where
  packets : ∀ x ≠ p, σ.packets x = P x
  slot : (σ.sessions r).Slot P d p
  lt : (σ.sessions r).numIax2Packets < (τ.sessions r).numIax2Packets

theorem Behind.report (h : Behind p d P r σ τ) (hm : info.frameType = .mini)
    (hoff : cfg.iax2RewriteTimestamps = false) (hPd : (P p).destIp = d) (hd : info.destIp = d)
    (q : Ref) : Behind p d P r (σ.report cfg p info).1 (τ.report cfg q info).1 := by
  have hv := report_voice_of_not_takes hm σ cfg p (x := r)
    fun ht => ht.2 (Shared.duplicate_of_slot h.packets hPd hoff hd h.slot)
  refine ⟨fun x hx => ?_, (slot_of_voice hv).2 h.slot, ?_⟩
  · rw [(report_packets σ cfg p info).off hoff, fill_packets_of_ne σ hx, h.packets x hx]
  · rw [(Prod.mk.inj (Prod.mk.inj hv).2).2]
    exact h.lt.trans_le (num_le_report hm τ cfg q r)

/-- What is lost stays lost. -/
theorem Behind.run {infos : List Iax2PacketInfo} (h : Behind p d P r σ τ)
    (hoff : cfg.iax2RewriteTimestamps = false) (hPd : (P p).destIp = d)
    (hall : ∀ i ∈ infos, i.frameType = .mini ∧ i.destIp = d) (n : Nat) :
    Behind p d P r (σ.reportShared cfg p infos) (τ.reportFresh cfg n infos) := by
  induction infos generalizing σ τ n with
  | nil => exact h
  | cons i infos ih =>
    obtain ⟨hm, hd⟩ := hall i List.mem_cons_self
    exact ih (h.report hm hoff hPd hd n) (fun j hj => hall j (List.mem_cons_of_mem _ hj)) _

theorem Behind.not_agree {K : Ref → Ref → Prop} (h : Behind p d P r σ τ) : ¬ Agree K σ τ := by
  intro ha
  have hnum : (τ.sessions r).numIax2Packets = (σ.sessions r).numIax2Packets :=
    (ha.sessions r).congr (g := (·.numIax2Packets)) fun _ _ _ _ => rfl
  exact h.lt.ne hnum.symm

/-! ## When the two runs end alike -/

/-- Nothing is lost, and what is kept in the end is right: the frames that a session has taken in or
takes in as new have the timestamp `last`, and no later frame for the session has another one. -/
structure Steady (k T : Ref → Option UInt32) (last : UInt32) (hs : List (Ref × Iax2PacketInfo)) :
    Prop where
  taken : ∀ r t, T r = some t → t = last
  again : ∀ h ∈ hs, ∀ t, T h.1 = some t → h.2.timestamp = t
  new : ∀ h ∈ hs, T h.1 = none → k h.1 ≠ some h.2.timestamp → h.2.timestamp = last
  once : hs.Pairwise fun h h' => T h.1 = none → k h.1 ≠ some h.2.timestamp → h'.1 = h.1 →
    h'.2.timestamp = h.2.timestamp

variable {last t : UInt32} {hs : List (Ref × Iax2PacketInfo)}

theorem steady_nil : Steady k T last [] ↔ ∀ r t, T r = some t → t = last :=
  ⟨(·.taken), fun h => ⟨h, by simp, by simp, .nil⟩⟩

theorem steady_cons_taken (hT : T r = some t) :
    Steady k T last ((r, info) :: hs) ↔ info.timestamp = t ∧ Steady k T last hs := by
  constructor
  · rintro ⟨htaken, hagain, hnew, honce⟩
    exact ⟨hagain _ List.mem_cons_self t hT, htaken, fun h hh => hagain h (List.mem_cons_of_mem _ hh),
      fun h hh => hnew h (List.mem_cons_of_mem _ hh), honce.of_cons⟩
  · rintro ⟨ht, htaken, hagain, hnew, honce⟩
    refine ⟨htaken, ?_, ?_, List.pairwise_cons.2 ⟨?_, honce⟩⟩
    · rintro h hh t' ht'
      obtain rfl | hh := List.mem_cons.1 hh
      · rw [ht, ← Option.some.inj (hT.symm.trans ht')]
      · exact hagain h hh t' ht'
    · rintro h hh hnone
      obtain rfl | hh := List.mem_cons.1 hh
      · rw [hT] at hnone
        cases hnone
      · exact hnew h hh hnone
    · intro h _ hnone
      rw [hT] at hnone
      cases hnone

theorem steady_cons_old (hT : T r = none) (hk : k r = some info.timestamp) :
    Steady k T last ((r, info) :: hs) ↔ Steady k T last hs := by
  constructor
  · rintro ⟨htaken, hagain, hnew, honce⟩
    exact ⟨htaken, fun h hh => hagain h (List.mem_cons_of_mem _ hh),
      fun h hh => hnew h (List.mem_cons_of_mem _ hh), honce.of_cons⟩
  · rintro ⟨htaken, hagain, hnew, honce⟩
    refine ⟨htaken, ?_, ?_, List.pairwise_cons.2 ⟨fun h _ _ hne => absurd hk hne, honce⟩⟩
    · rintro h hh t' ht'
      obtain rfl | hh := List.mem_cons.1 hh
      · rw [hT] at ht'
        cases ht'
      · exact hagain h hh t' ht'
    · rintro h hh hnone hne
      obtain rfl | hh := List.mem_cons.1 hh
      · exact absurd hk hne
      · exact hnew h hh hnone hne

theorem steady_cons_new (hT : T r = none) (hk : k r ≠ some info.timestamp) :
    Steady k T last ((r, info) :: hs) ↔
      Steady k (Function.update T r (some info.timestamp)) last hs := by
  have hother {x : Ref} (hx : x ≠ r) : Function.update T r (some info.timestamp) x = T x :=
    Function.update_of_ne hx ..
  constructor
  · rintro ⟨htaken, hagain, hnew, honce⟩
    obtain ⟨hhead, honce⟩ := List.pairwise_cons.1 honce
    refine ⟨fun x t' hx => ?_, fun h hh t' hx => ?_, fun h hh hx hne => ?_, ?_⟩
    · by_cases hxr : x = r
      · rw [hxr, Function.update_self] at hx
        rw [← Option.some.inj hx]
        exact hnew (r, info) List.mem_cons_self hT hk
      · exact htaken x t' (hother hxr ▸ hx)
    · by_cases hxr : h.1 = r
      · rw [hxr, Function.update_self] at hx
        rw [← Option.some.inj hx]
        exact hhead h hh hT hk hxr
      · exact hagain h (List.mem_cons_of_mem _ hh) t' (hother hxr ▸ hx)
    · have hxr : h.1 ≠ r := by
        intro he
        rw [he, Function.update_self] at hx
        cases hx
      exact hnew h (List.mem_cons_of_mem _ hh) (hother hxr ▸ hx) hne
    · refine honce.imp fun {h h'} ho hx hne he => ?_
      have hxr : h.1 ≠ r := by
        intro he
        rw [he, Function.update_self] at hx
        cases hx
      exact ho (hother hxr ▸ hx) hne he
  · rintro ⟨htaken, hagain, hnew, honce⟩
    have hself : Function.update T r (some info.timestamp) r = some info.timestamp :=
      Function.update_self ..
    refine ⟨fun x t' hx => ?_, fun h hh t' hx => ?_, fun h hh hx hne => ?_,
      List.pairwise_cons.2 ⟨fun h hh _ _ he => ?_, ?_⟩⟩
    · have hxr : x ≠ r := by
        rintro rfl
        rw [hT] at hx
        cases hx
      exact htaken x t' ((hother hxr).trans hx)
    · have hxr : h.1 ≠ r := by
        intro he
        rw [he, hT] at hx
        cases hx
      obtain rfl | hh := List.mem_cons.1 hh
      · exact absurd rfl hxr
      · exact hagain h hh t' ((hother hxr).trans hx)
    · obtain rfl | hh := List.mem_cons.1 hh
      · exact htaken r _ hself
      · by_cases hxr : h.1 = r
        · rw [hagain h hh info.timestamp (hxr ▸ hself)]
          exact htaken r _ hself
        · exact hnew h hh ((hother hxr).trans hx) hne
    · exact hagain h hh _ (he ▸ hself)
    · refine honce.imp_of_mem fun {h h'} hh hh' ho hx hne he => ?_
      by_cases hxr : h.1 = r
      · rw [hagain h hh info.timestamp (hxr ▸ hself),
          hagain h' hh' info.timestamp ((he.trans hxr) ▸ hself)]
      · exact ho ((hother hxr).trans hx) hne he

theorem agree_hit {K : Ref → Ref → Prop} (h : Agree K σ τ) (info : Iax2PacketInfo) :
    τ.hit info = σ.hit info := by
  unfold hit
  rw [h.lookup]
  cases σ.lookup info with
  | none => rfl
  | some r =>
    have hl : (τ.sessions r).Listening ↔ (σ.sessions r).Listening := by
      unfold Listening TakesVoice
      rw [(h.sessions r).congr (g := (·.state)) fun _ _ _ _ => rfl, ne_eq, ne_eq,
        (h.sessions r).last]
    simp only [hl]

/-- The packet that stands for the shared one is what the session on the right compares with. -/
theorem stands_keptFor {Q : Ref → Iax2PacketInfo} {s t : Iax2Session} {y : Ref}
    (h : s.Alike (Stands cfg p d P n Q) t) (hPd : (P p).destIp = d) (hs : s.Slot P d p)
    (hy : s.lastIax2PacketSide1 = some p ∧ t.lastIax2PacketSide1 = some y ∨
      s.lastIax2PacketSide2 = some p ∧ t.lastIax2PacketSide2 = some y) :
    t.keptFor Q d = some y := by
  obtain ⟨hk, hboth⟩ := hs
  have h₁ := h.side1
  unfold keptFor at hk ⊢
  obtain ⟨hp, hy⟩ | ⟨hp, hy⟩ := hy
  · rw [hp, hy] at h₁
    cases h₁ with
    | some h₁ => simp [hy, h₁.shared rfl]
  · generalize hl : s.lastIax2PacketSide1 = l at hk h₁ hboth
    generalize t.lastIax2PacketSide1 = l' at h₁ ⊢
    cases h₁ with
    | none => cases hk
    | @some l l' h₁ =>
      dsimp only at hk ⊢
      split at hk
      · exact absurd ⟨hk, hp⟩ hboth
      · next hd =>
        have hne : l ≠ p := by
          rintro rfl
          exact hd hPd.symm
        rw [if_neg (by rw [← (h₁.older hne).1]; exact hd), hy]

/-- The shared and the separate runs at an end. -/
theorem same_iff_of_nil (h : Agree (Stands cfg p d P n τ.packets) σ τ) (hσ : Shared p d P k T σ)
    (hτ : Separate d n (fun r => (T r).or (k r)) τ) (hPd : (P p).destIp = d)
    (hd : (σ.packets p).destIp = d) (hoff : cfg.iax2RewriteTimestamps = false) :
    Plugin.Same cfg ⟨σ, p + 1⟩ ⟨τ, n⟩ ↔
      ∀ r t, T r = some t → t = (σ.packets p).timestamp := by
  have hdest (x : Ref) : (σ.packets x).destIp = (P x).destIp := by
    by_cases hx : x = p
    · rw [hx, hd, hPd]
    · rw [hσ.packets x hx]
  constructor
  · intro hsame r t hT
    have hrel := (hsame.sessions r).keptFor (P := σ.packets) (Q := τ.packets)
      (fun x y hxy => hxy.2.2.1) d
    rw [keptFor_congr fun x _ => hdest x, (hσ.slot r t hT).1] at hrel
    have hkept := hτ.kept r
    unfold keptTimestamp at hkept
    rw [hT] at hkept
    generalize (τ.sessions r).keptFor τ.packets d = y at hrel hkept
    cases hrel with
    | some hrel =>
      rw [hrel.2.2.2 hoff]
      exact (Option.some.inj hkept).symm
  · intro hlast
    refine h.mono fun r x y hxy hK => ⟨Nat.lt_succ_of_le hK.left, hK.right, ?_⟩
    by_cases hx : x = p
    · subst hx
      have hkeeps : (σ.sessions r).Keeps x := hxy.imp (·.1) (·.1)
      cases hT : T r with
      | none => exact absurd hkeeps (hσ.free r hT).1
      | some t =>
        have hy := stands_keptFor (h.sessions r) hPd (hσ.slot r t hT) hxy
        have hkept := hτ.kept r
        unfold keptTimestamp at hkept
        rw [hT, hy] at hkept
        refine ⟨hd.trans (hK.shared rfl).symm, fun _ => ?_⟩
        rw [← hlast r t hT]
        exact (Option.some.inj hkept).symm
    · rw [hσ.packets x hx]
      exact hK.older hx

theorem report_packets_self (σ : Iax2Sessions) (p : Ref) (info : Iax2PacketInfo)
    (hoff : cfg.iax2RewriteTimestamps = false) : (σ.report cfg p info).1.packets p = info := by
  rw [(report_packets σ cfg p info).off hoff, fill_packets_self]

/-- **The shared object against separate ones**: the states after the frames are the same, for all
that a packet can tell, exactly where the frames are steady. -/
theorem same_iff_steady {infos : List Iax2PacketInfo}
    (h : Agree (Stands cfg p d P n τ.packets) σ τ) (hσ : Shared p d P k T σ)
    (hτ : Separate d n (fun r => (T r).or (k r)) τ) (hPd : (P p).destIp = d)
    (hd : (σ.packets p).destIp = d) (hoff : cfg.iax2RewriteTimestamps = false)
    (hall : ∀ i ∈ infos, i.frameType = .mini ∧ i.destIp = d)
    (hlast : (infos.getLast?.getD (σ.packets p)).timestamp = last) :
    Plugin.Same cfg ⟨σ.reportShared cfg p infos, p + 1⟩
        ⟨τ.reportFresh cfg n infos, n + infos.length⟩ ↔
      Steady k T last (σ.heard infos) := by
  induction infos generalizing σ τ T n with
  | nil =>
    subst hlast
    exact (same_iff_of_nil h hσ hτ hPd hd hoff).trans steady_nil.symm
  | cons i infos ih =>
    obtain ⟨hm, hid⟩ := hall i List.mem_cons_self
    have hall' : ∀ j ∈ infos, j.frameType = .mini ∧ j.destIp = d :=
      fun j hj => hall j (List.mem_cons_of_mem _ hj)
    have hself : (σ.report cfg p i).1.packets p = i := report_packets_self σ p i hoff
    rw [List.getLast?_cons, Option.getD_some, ← hself] at hlast
    have hd' : ((σ.report cfg p i).1.packets p).destIp = d := by rw [hself, hid]
    have hhit : τ.hit i = σ.hit i := agree_hit h i
    have hsize : n + (i :: infos).length = n + 1 + infos.length := by
      rw [List.length_cons]
      omega
    have hlookup {r : Ref} (hl : σ.lookup i = some r) (hv : (σ.sessions r).TakesVoice)
        (hh : (σ.sessions r).Hears i) : σ.hit i = some r :=
      hit_eq_some.2 ⟨hl, hv, hh.heard hm⟩
    -- the step where both or neither take the frame in
    have hstep (hdup : ∀ r, σ.hit i = some r →
        ((σ.sessions r).Duplicate cfg (σ.fill p i).packets p ↔
          (τ.sessions r).Duplicate cfg (τ.fill n i).packets n)) :=
      report_stands h hσ.packets hid fun r hl hv hh => hdup r (hlookup hl hv hh)
    rw [hsize]
    change Plugin.Same cfg ⟨(σ.report cfg p i).1.reportShared cfg p infos, p + 1⟩
      ⟨(τ.report cfg n i).1.reportFresh cfg (n + 1) infos, n + 1 + infos.length⟩ ↔ _
    cases hr : σ.hit i with
    | none =>
      rw [heard_of_hit_none hm σ cfg p hr]
      exact ih (hstep fun r hr' => by rw [hr] at hr'; cases hr')
        (hσ.report_idle hm hoff (not_takes_of_none hr))
        (hτ.report_idle hm hoff (not_takes_of_none (hhit.trans hr))) hd' hall' hlast
    | some r =>
      rw [heard_of_hit hm σ cfg p hr]
      have hone (hdup : (σ.sessions r).Duplicate cfg (σ.fill p i).packets p ↔
          (τ.sessions r).Duplicate cfg (τ.fill n i).packets n) :=
        hstep fun x hx => by
          obtain rfl := Option.some.inj (hr.symm.trans hx)
          exact hdup
      have hτdup := hτ.duplicate_iff (r := r) hoff hid
      cases hT : T r with
      | some t =>
        have hdup := Shared.duplicate_of_slot hσ.packets hPd hoff hid (hσ.slot r t hT)
        rw [hT, Option.some_or] at hτdup
        rw [steady_cons_taken hT]
        by_cases ht : i.timestamp = t
        · have hdup' := hτdup.2 (congrArg some ht.symm)
          rw [and_iff_right ht]
          exact ih (hone (iff_of_true hdup hdup'))
            (hσ.report_idle hm hoff (not_takes_of_duplicate hr hdup))
            (hτ.report_idle hm hoff (not_takes_of_duplicate (hhit.trans hr) hdup')) hd' hall' hlast
        · -- the frame is lost on the left
          have htakes : τ.Takes cfg n i r :=
            ⟨hhit.trans hr, fun hdup' => ht (Option.some.inj (hτdup.1 hdup')).symm⟩
          have hv := report_voice_of_not_takes hm σ cfg p (not_takes_of_duplicate hr hdup r)
          have hv' := report_voice_of_takes hm τ cfg n htakes
          have hnum : (τ.sessions r).numIax2Packets = (σ.sessions r).numIax2Packets :=
            (h.sessions r).congr (g := (·.numIax2Packets)) fun _ _ _ _ => rfl
          have hbehind : Behind p d P r (σ.report cfg p i).1 (τ.report cfg n i).1 := by
            refine ⟨(hσ.report_idle hm hoff (not_takes_of_duplicate hr hdup)).packets,
              (slot_of_voice hv).2 (hσ.slot r t hT), ?_⟩
            rw [(Prod.mk.inj (Prod.mk.inj hv).2).2, (Prod.mk.inj (Prod.mk.inj hv').2).2, hnum]
            exact Nat.lt_succ_self _
          exact iff_of_false (hbehind.run hoff hPd hall' (n + 1)).not_agree fun hs => ht hs.1
      | none =>
        have hσdup := hσ.duplicate_iff hPd hoff hid hT
        rw [hT, Option.none_or] at hτdup
        have hboth := hone (hσdup.trans hτdup.symm)
        by_cases hk : k r = some i.timestamp
        · rw [steady_cons_old hT hk]
          exact ih hboth (hσ.report_idle hm hoff (not_takes_of_duplicate hr (hσdup.2 hk)))
            (hτ.report_idle hm hoff (not_takes_of_duplicate (hhit.trans hr) (hτdup.2 hk))) hd'
            hall' hlast
        · rw [steady_cons_new hT hk]
          have htakes : σ.Takes cfg p i r := ⟨hr, fun hdup => hk (hσdup.1 hdup)⟩
          have htakes' : τ.Takes cfg n i r := ⟨hhit.trans hr, fun hdup => hk (hτdup.1 hdup)⟩
          have hnext := hτ.report_takes hm hoff hid htakes'
          have hkeys : Function.update (fun x => (T x).or (k x)) r (some i.timestamp) =
              fun x => (Function.update T r (some i.timestamp) x).or (k x) := by
            funext x
            by_cases hx : x = r
            · subst hx
              simp
            · simp [hx]
          rw [hkeys] at hnext
          exact ih hboth (hσ.report_takes hm hoff hPd hid htakes hT) hnext hd' hall' hlast

end

end Iax2Sessions

end Oreka.Iax2
