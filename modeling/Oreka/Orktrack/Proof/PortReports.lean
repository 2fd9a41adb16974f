import Oreka.Lib.BoundedCache
import Oreka.Lib.FirstRun
import Oreka.Orktrack.Port

/-!
# What is reported to a track port

A tape and a segment are each reported by two messages, a start and a stop. The messages of the tapes and those
of the segments come in any interleaving (`Reports`); what they leave in the port is what the completed tapes and
segments leave, in the order in which they are completed (`Reports.run_cache`). `addTape_tape` and
`addSegment_tape` say what one completion does to the associations.
-/

open BoundedCache

namespace Oreka.Orktrack

variable {μ : Type*}

/-- The start and the stop of a tape. -/
structure TapePair (μ : Type*) where
  start : TapeMessage μ
  stop : TapeMessage μ
  service : OrkService
  start_stage : start.stage = .START
  stop_stage : stop.stage = .STOP
  deriving DecidableEq

/-- The start and the stop of a segment. -/
structure MetadataPair (μ : Type*) where
  start : MetadataMessage μ
  stop : MetadataMessage μ
  service : OrkService
  start_stage : start.stage = .START
  stop_stage : stop.stage = .STOP
  deriving DecidableEq

def TapePair.tape (t : TapePair μ) (id : Nat) : OrkTape μ :=
  ⟨id, t.start.timestamp.toInt * 1000, t.stop.duration.toInt, t.service, t.stop.details⟩

def MetadataPair.segment (s : MetadataPair μ) : OrkSegment μ :=
  ⟨s.start.timestamp.toInt * 1000, (s.stop.timestamp.toInt - s.start.timestamp.toInt) * 1000, s.stop.details⟩

/-- `areTogether`, which does not ask for the id of the tape. -/
def Together (t : TapePair μ) (s : MetadataPair μ) : Prop :=
  areTogether (t.tape 0) s.segment = true
  deriving Decidable

/-- The messages `l` report the tapes and segments of `es` in this order. A tape and a segment may have been
started before. -/
inductive Reports : Option (TapePair μ) → Option (MetadataPair μ) → List (PortMessage μ) →
    List (TapePair μ ⊕ MetadataPair μ) → Prop
  | done : Reports none none [] []
  | tapeStart {s l es} (t : TapePair μ) :
    Reports (some t) s l es → Reports none s (.tape t.start t.service :: l) es
  | tapeStop {s l es} (t : TapePair μ) :
    Reports none s l es → Reports (some t) s (.tape t.stop t.service :: l) (.inl t :: es)
  | metadataStart {t l es} (s : MetadataPair μ) :
    Reports t (some s) l es → Reports t none (.metadata s.start s.service :: l) es
  | metadataStop {t l es} (s : MetadataPair μ) :
    Reports t none l es → Reports t (some s) (.metadata s.stop s.service :: l) (.inr s :: es)

/-- Each of them is stopped before the next is started. -/
def messages : List (TapePair μ ⊕ MetadataPair μ) → List (PortMessage μ)
  | [] => []
  | .inl t :: es => .tape t.start t.service :: .tape t.stop t.service :: messages es
  | .inr s :: es => .metadata s.start s.service :: .metadata s.stop s.service :: messages es

theorem reports_messages : ∀ es : List (TapePair μ ⊕ MetadataPair μ), Reports none none (messages es) es
  | [] => .done
  | .inl t :: es => .tapeStart t (.tapeStop t (reports_messages es))
  | .inr s :: es => .metadataStart s (.metadataStop s (reports_messages es))

/-! ## The walks -/

section Walk

variable {α σ : Type*} {together : α → Bool} {join : σ → α → σ}

theorem associate_true : ∀ {l : List α} {s : σ},
    associate together join l true s = (l.takeWhile together).foldl join s
  | [], _ => rfl
  | x :: l, s => by
    cases h : together x with
    | true => simp [associate, h, associate_true]
    | false => simp [associate, h]

theorem associate_false : ∀ {l : List α} {s : σ},
    associate together join l false s = (l.firstRun together).foldl join s
  | [], _ => rfl
  | x :: l, s => by
    cases h : together x with
    | true => simp [associate, h, associate_true, List.firstRun_cons_of_pos h]
    | false => simp [associate, h, associate_false, List.firstRun_cons_of_neg h]

end Walk

theorem areTogether_of_mem_tapes {tape : OrkTape μ} {seg : OrkSegment μ} {l : List (OrkTape μ)}
    (h : tape ∈ l.firstRun (areTogether · seg)) : areTogether tape seg = true :=
  List.pred_of_mem_firstRun (p := fun tape => areTogether tape seg) h

theorem areTogether_of_mem_segments {tape : OrkTape μ} {seg : Nat × OrkSegment μ}
    {l : List (Nat × OrkSegment μ)} (h : seg ∈ l.firstRun (areTogether tape ·.2)) :
    areTogether tape seg.2 = true :=
  List.pred_of_mem_firstRun (p := fun (seg : Nat × OrkSegment μ) => areTogether tape seg.2) h

namespace PortCache

/-- Nothing but associations differs. -/
structure SameCaches (c c' : PortCache μ) : Prop where
  recTapes : c'.recTapes = c.recTapes
  recSegments : c'.recSegments = c.recSegments
  numTapes : c'.numTapes = c.numTapes
  numSegments : c'.numSegments = c.numSegments

theorem SameCaches.refl (c : PortCache μ) : SameCaches c c := ⟨rfl, rfl, rfl, rfl⟩

theorem SameCaches.trans {c c' c'' : PortCache μ} (h : SameCaches c c') (h' : SameCaches c' c'') :
    SameCaches c c'' :=
  ⟨h'.1.trans h.1, h'.2.trans h.2, h'.3.trans h.3, h'.4.trans h.4⟩

theorem sameCaches_foldl {α : Type*} {join : PortCache μ → α → PortCache μ}
    (hj : ∀ c x, SameCaches c (join c x)) : ∀ (l : List α) (c : PortCache μ), SameCaches c (l.foldl join c)
  | [], c => .refl c
  | x :: l, c => (hj c x).trans (sameCaches_foldl hj l (join c x))

theorem sameCaches_joinTogether (c : PortCache μ) (tape : OrkTape μ) (seg : Nat × OrkSegment μ) :
    SameCaches c (c.joinTogether tape seg) := ⟨rfl, rfl, rfl, rfl⟩

theorem sameCaches_findAndAssociateTape (c : PortCache μ) (segment : Nat × OrkSegment μ) :
    SameCaches c (c.findAndAssociateTape segment) := by
  unfold findAndAssociateTape
  rw [associate_false]
  exact sameCaches_foldl (fun c _ => c.sameCaches_joinTogether _ _) _ _

theorem sameCaches_findAndAssociateSegment (c : PortCache μ) (tape : OrkTape μ) :
    SameCaches c (c.findAndAssociateSegment tape) := by
  unfold findAndAssociateSegment
  rw [associate_false]
  exact sameCaches_foldl (fun c _ => c.sameCaches_joinTogether _ _) _ _

/-- The last of the tapes overwrites the others. -/
theorem foldl_tapes_tape (segment : Nat × OrkSegment μ) : ∀ (l : List (OrkTape μ)) (c : PortCache μ),
    (l.foldl (fun c tape => c.joinTogether tape segment) c).tape =
      Function.update c.tape segment.1 (l.getLast?.or (c.tape segment.1))
  | [], c => by simp
  | tape :: l, c => by
    rw [List.foldl_cons, foldl_tapes_tape segment l, List.getLast?_cons]
    cases l.getLast? <;> simp [joinTogether]

open Classical in
theorem foldl_segments_tape (tape : OrkTape μ) (k : Nat) : ∀ (l : List (Nat × OrkSegment μ)) (c : PortCache μ),
    (l.foldl (fun c segment => c.joinTogether tape segment) c).tape k =
      if ∃ seg, (k, seg) ∈ l then some tape else c.tape k
  | [], c => by simp
  | segment :: l, c => by
    rw [List.foldl_cons, foldl_segments_tape tape k l]
    by_cases hl : ∃ seg, (k, seg) ∈ l
    · obtain ⟨seg, hseg⟩ := hl
      rw [if_pos ⟨seg, hseg⟩, if_pos ⟨seg, List.mem_cons_of_mem _ hseg⟩]
    · rw [if_neg hl]
      by_cases hk : k = segment.1
      · subst hk
        rw [if_pos ⟨segment.2, List.mem_cons_self⟩]
        simp [joinTogether]
      · rw [if_neg]
        · simp [joinTogether, hk]
        · rintro ⟨seg, hseg⟩
          rcases List.mem_cons.mp hseg with rfl | hseg
          · exact hk rfl
          · exact hl ⟨seg, hseg⟩

/-! ## A completed tape, a completed segment -/

theorem addSegment_tape (c : PortCache μ) (seg : OrkSegment μ) :
    (c.addSegment seg).tape = Function.update c.tape c.numSegments
      ((c.recTapes.firstRun (areTogether · seg)).getLast?.or (c.tape c.numSegments)) := by
  simp only [addSegment, findAndAssociateTape, associate_false, foldl_tapes_tape]
  rfl

open Classical in
theorem addTape_tape (c : PortCache μ) (tape : OrkTape μ) (k : Nat) :
    (c.addTape tape).tape k =
      if ∃ seg, (k, seg) ∈ c.recSegments.firstRun (areTogether tape ·.2) then some tape else c.tape k := by
  simp only [addTape, findAndAssociateSegment, associate_false, foldl_segments_tape]
  rfl

theorem addSegment_recTapes (c : PortCache μ) (seg : OrkSegment μ) : (c.addSegment seg).recTapes = c.recTapes :=
  (sameCaches_findAndAssociateTape _ _).recTapes

theorem addTape_recSegments (c : PortCache μ) (tape : OrkTape μ) :
    (c.addTape tape).recSegments = c.recSegments :=
  (sameCaches_findAndAssociateSegment _ _).recSegments

theorem addSegment_recSegments_push (c : PortCache μ) (seg : OrkSegment μ) :
    (c.addSegment seg).recSegments = push 50 (c.numSegments, seg) c.recSegments :=
  (sameCaches_findAndAssociateTape _ _).recSegments

theorem addTape_recTapes_push (c : PortCache μ) (tape : OrkTape μ) :
    (c.addTape tape).recTapes = push 50 tape c.recTapes :=
  (sameCaches_findAndAssociateSegment _ _).recTapes

theorem addSegment_recSegments (c : PortCache μ) (seg : OrkSegment μ) (h : c.recSegments.length < 50) :
    (c.addSegment seg).recSegments = (c.numSegments, seg) :: c.recSegments := by
  rw [addSegment_recSegments_push, push_of_length_le h.le]

theorem addTape_recTapes (c : PortCache μ) (tape : OrkTape μ) (h : c.recTapes.length < 50) :
    (c.addTape tape).recTapes = tape :: c.recTapes := by
  rw [addTape_recTapes_push, push_of_length_le h.le]

theorem addSegment_numTapes (c : PortCache μ) (seg : OrkSegment μ) : (c.addSegment seg).numTapes = c.numTapes :=
  (sameCaches_findAndAssociateTape _ _).numTapes

theorem addSegment_numSegments (c : PortCache μ) (seg : OrkSegment μ) :
    (c.addSegment seg).numSegments = c.numSegments + 1 :=
  (sameCaches_findAndAssociateTape _ _).numSegments

theorem addTape_numTapes (c : PortCache μ) (tape : OrkTape μ) : (c.addTape tape).numTapes = c.numTapes + 1 :=
  (sameCaches_findAndAssociateSegment _ _).numTapes

theorem addTape_numSegments (c : PortCache μ) (tape : OrkTape μ) :
    (c.addTape tape).numSegments = c.numSegments :=
  (sameCaches_findAndAssociateSegment _ _).numSegments

end PortCache

/-! ## The messages -/

section Messages

-- What the active programs retain.
variable (filterSegmentAgainstAllPrograms : OrkSegment μ → Bool)

/-- The segment is made: its service is a record master, and a program retains it. -/
def Kept (s : MetadataPair μ) : Prop :=
  s.service.recordMaster = true ∧ filterSegmentAgainstAllPrograms s.segment = true
  deriving Decidable

/-- What a completed tape or segment leaves in the caches where segments come from metadata messages. -/
def PortCache.complete (c : PortCache μ) : TapePair μ ⊕ MetadataPair μ → PortCache μ
  | .inl t => c.addTape (t.tape c.numTapes)
  | .inr s => if Kept filterSegmentAgainstAllPrograms s then c.addSegment s.segment else c

namespace TrackPort

variable {filterSegmentAgainstAllPrograms} {p : TrackPort μ}

theorem notify_tapeStart (t : TapePair μ) :
    p.notify filterSegmentAgainstAllPrograms (.tape t.start t.service) =
      { p with lastTapeMessage := some t.start } := by
  simp [notify, notifyTapeMessage, t.start_stage]

theorem notify_tapeStop {t : TapePair μ} (hp : p.portFaces.length ≠ 1) (ht : t.service.recordMaster = false)
    (h : p.lastTapeMessage = some t.start) :
    p.notify filterSegmentAgainstAllPrograms (.tape t.stop t.service) =
      { p with cache := p.cache.complete filterSegmentAgainstAllPrograms (.inl t) } := by
  simp [notify, notifyTapeMessage, h, hp, ht, t.start_stage, t.stop_stage, PortCache.complete, TapePair.tape]

theorem notify_metadataStart (s : MetadataPair μ) :
    p.notify filterSegmentAgainstAllPrograms (.metadata s.start s.service) =
      { p with lastMetadataMessage := some s.start } := by
  simp [notify, notifyMetadataMessage, segmentTimes, s.start_stage]

theorem notify_metadataStop {s : MetadataPair μ} (h : p.lastMetadataMessage = some s.start) :
    p.notify filterSegmentAgainstAllPrograms (.metadata s.stop s.service) =
      { p with cache := p.cache.complete filterSegmentAgainstAllPrograms (.inr s) } := by
  have htimes : p.segmentTimes s.stop = some (s.segment.timestamp, s.segment.duration) := by
    simp [segmentTimes, s.stop_stage, h, MetadataPair.segment]
  by_cases hk : Kept filterSegmentAgainstAllPrograms s
  · have hk' : (s.service.recordMaster && filterSegmentAgainstAllPrograms s.segment) = true :=
      Bool.and_eq_true_iff.mpr hk
    simp only [notify, notifyMetadataMessage, s.stop_stage, reduceCtorEq, if_false, htimes, PortCache.complete,
      if_pos hk]
    exact if_pos hk'
  · have hk' : ¬(s.service.recordMaster && filterSegmentAgainstAllPrograms s.segment) = true :=
      fun h' => hk (Bool.and_eq_true_iff.mp h')
    simp only [notify, notifyMetadataMessage, s.stop_stage, reduceCtorEq, if_false, htimes, PortCache.complete,
      if_neg hk]
    exact if_neg hk'

end TrackPort

variable {filterSegmentAgainstAllPrograms}

/-- Interleaving with what is started changes nothing: the port is left with what has been completed, in the
order of completion. -/
theorem Reports.run_cache {t : Option (TapePair μ)} {s : Option (MetadataPair μ)} {l : List (PortMessage μ)}
    {es : List (TapePair μ ⊕ MetadataPair μ)} (h : Reports t s l es) {p : TrackPort μ}
    (hp : p.portFaces.length ≠ 1) (hes : ∀ t', .inl t' ∈ es → t'.service.recordMaster = false)
    (ht : ∀ t', t = some t' → p.lastTapeMessage = some t'.start)
    (hs : ∀ s', s = some s' → p.lastMetadataMessage = some s'.start) :
    (p.run filterSegmentAgainstAllPrograms l).cache =
      es.foldl (PortCache.complete filterSegmentAgainstAllPrograms) p.cache := by
  induction h generalizing p with
  | done => rfl
  | tapeStart t _ ih =>
    rw [TrackPort.run, List.foldl_cons, TrackPort.notify_tapeStart]
    apply ih
    · exact hp
    · exact hes
    · rintro _ ⟨⟩
      rfl
    · exact hs
  | tapeStop t _ ih =>
    rw [TrackPort.run, List.foldl_cons,
      TrackPort.notify_tapeStop hp (hes t List.mem_cons_self) (ht t rfl), List.foldl_cons]
    apply ih
    · exact hp
    · exact fun t' ht' => hes t' (List.mem_cons_of_mem _ ht')
    · rintro _ ⟨⟩
    · exact hs
  | metadataStart s _ ih =>
    rw [TrackPort.run, List.foldl_cons, TrackPort.notify_metadataStart]
    apply ih
    · exact hp
    · exact hes
    · exact ht
    · rintro _ ⟨⟩
      rfl
  | metadataStop s _ ih =>
    rw [TrackPort.run, List.foldl_cons, TrackPort.notify_metadataStop (hs s rfl), List.foldl_cons]
    apply ih
    · exact hp
    · exact fun t' ht' => hes t' (List.mem_cons_of_mem _ ht')
    · exact ht
    · rintro _ ⟨⟩

end Messages

end Oreka.Orktrack
