import Oreka.Orktrack.Proof.PortReports

/-!
# The tape records of a port

Which messages create a record (`newTape`, `newSegment`), and what it does to the caches (`CacheStep`). A START
stays the last tape message of a port after it has been stopped: each further STOP makes one more tape of it.
There is one tape for a START, of it and the first STOP after it, in exactly the sequences in which from the
first START on no STOP follows another without a START between them (`oneTapePerStart_iff`).
-/

namespace Oreka.Orktrack

variable {μ : Type*}

def PortMessage.tapeStage : PortMessage μ → Option CaptureStage
  | .tape m _ => some m.stage
  | .metadata _ _ => none

namespace TrackPort

/-- The tape record that a message creates. -/
def newTape (p : TrackPort μ) : PortMessage μ → Option (OrkTape μ)
  | .tape m srv => p.lastTapeMessage.bind fun startMessage =>
      if startMessage.stage = .START ∧ m.stage = .STOP then
        some ⟨p.cache.numTapes, startMessage.timestamp.toInt * 1000, m.duration.toInt, srv, m.details⟩
      else none
  | .metadata _ _ => none

section

-- What the active programs retain.
variable (filterSegmentAgainstAllPrograms : OrkSegment μ → Bool)

/-- The segment record that a metadata message creates, if it is retained. -/
def newSegment (p : TrackPort μ) : PortMessage μ → Option (OrkSegment μ)
  | .tape _ _ => none
  | .metadata m srv => (p.segmentTimes m).bind fun times =>
      let recSegment : OrkSegment μ := ⟨times.1, times.2, m.details⟩
      if srv.recordMaster && filterSegmentAgainstAllPrograms recSegment then some recSegment else none

/-- What a message does to the caches. -/
inductive CacheStep (p : TrackPort μ) (m : PortMessage μ) : PortCache μ → Prop
  | nothing : p.newTape m = none → CacheStep p m p.cache
  | segment (seg : OrkSegment μ) : p.newTape m = none →
    p.newSegment filterSegmentAgainstAllPrograms m = some seg → CacheStep p m (p.cache.addSegment seg)
  | tape (t : OrkTape μ) : p.newTape m = some t → p.portFaces.length ≠ 1 →
    t.service.recordMaster = false → CacheStep p m (p.cache.addTape t)
  | tapeWithSegment (t : OrkTape μ) : p.newTape m = some t →
    p.portFaces.length = 1 ∨ t.service.recordMaster = true →
    CacheStep p m (p.cache.addTapeWithSegment t
      (filterSegmentAgainstAllPrograms ⟨t.timestamp, t.duration, t.details⟩))

end

variable {f : OrkSegment μ → Bool} {p : TrackPort μ}

theorem newTape_eq_some {m : PortMessage μ} {t : OrkTape μ} : p.newTape m = some t ↔
    ∃ start stop srv, p.lastTapeMessage = some start ∧ m = .tape stop srv ∧ start.stage = .START ∧
      stop.stage = .STOP ∧
      t = ⟨p.cache.numTapes, start.timestamp.toInt * 1000, stop.duration.toInt, srv, stop.details⟩ := by
  cases m with
  | tape m srv =>
    simp only [newTape, Option.bind_eq_some_iff, Option.ite_none_right_eq_some, Option.some.injEq,
      PortMessage.tape.injEq]
    grind
  | metadata m srv => simp [newTape]

theorem newTape_stage {m : PortMessage μ} {t : OrkTape μ} (h : p.newTape m = some t) :
    m.tapeStage = some .STOP := by
  obtain ⟨start, stop, srv, -, rfl, -, hstop, -⟩ := newTape_eq_some.mp h
  exact congrArg some hstop

theorem notifyTapeMessage_start {m : TapeMessage μ} (srv : OrkService) (h : m.stage = .START) :
    p.notifyTapeMessage f m srv = { p with lastTapeMessage := some m } := if_pos h

theorem notifyTapeMessage_of_newTape_none {m : TapeMessage μ} {srv : OrkService} (h : m.stage ≠ .START)
    (hnew : p.newTape (.tape m srv) = none) : p.notifyTapeMessage f m srv = p := by
  unfold notifyTapeMessage
  rw [if_neg h]
  split
  · rfl
  · rename_i startMessage hlast
    simp only [newTape, hlast, Option.bind_some] at hnew
    rw [if_neg]
    intro hstages
    rw [if_pos hstages] at hnew
    cases hnew

theorem notifyTapeMessage_of_newTape {m : TapeMessage μ} {srv : OrkService} {t : OrkTape μ}
    (hnew : p.newTape (.tape m srv) = some t) :
    p.notifyTapeMessage f m srv = { p with
      cache := if p.portFaces.length = 1 ∨ t.service.recordMaster = true then
          p.cache.addTapeWithSegment t (f ⟨t.timestamp, t.duration, t.details⟩)
        else p.cache.addTape t } := by
  obtain ⟨startMessage, stop, srv', hlast, hm, hstart, hstop, rfl⟩ := newTape_eq_some.mp hnew
  obtain ⟨rfl, rfl⟩ := (PortMessage.tape.injEq ..).mp hm
  have hne : m.stage ≠ .START := by simp [hstop]
  simp only [notifyTapeMessage, if_neg hne, hlast, if_pos (And.intro hstart hstop)]
  split <;> rfl

theorem segmentTimes_start {m : MetadataMessage μ} (h : m.stage = .START) : p.segmentTimes m = none := by
  simp [segmentTimes, h]

theorem notifyMetadataMessage_cache (m : MetadataMessage μ) (srv : OrkService) :
    (p.notifyMetadataMessage f m srv).cache =
      ((p.newSegment f (.metadata m srv)).map p.cache.addSegment).getD p.cache := by
  by_cases hstart : m.stage = .START
  · have htimes (p : TrackPort μ) : p.segmentTimes m = none := segmentTimes_start hstart
    simp only [notifyMetadataMessage, newSegment, if_pos hstart, htimes]
    rfl
  · simp only [notifyMetadataMessage, newSegment, if_neg hstart]
    cases p.segmentTimes m with
    | none => rfl
    | some times =>
      simp only [Option.bind_some]
      split <;> rfl

/-- A tape message replaces the last one, creates a record, or changes nothing. -/
theorem notifyTapeMessage_cases (m : TapeMessage μ) (srv : OrkService) :
    p.newTape (.tape m srv) = none ∧
      (m.stage = .START ∧ p.notifyTapeMessage f m srv = { p with lastTapeMessage := some m } ∨
        m.stage ≠ .START ∧ p.notifyTapeMessage f m srv = p) ∨
    ∃ t, p.newTape (.tape m srv) = some t ∧ p.notifyTapeMessage f m srv = { p with
      cache := if p.portFaces.length = 1 ∨ t.service.recordMaster = true then
          p.cache.addTapeWithSegment t (f ⟨t.timestamp, t.duration, t.details⟩)
        else p.cache.addTape t } := by
  cases hnew : p.newTape (.tape m srv) with
  | none =>
    by_cases hstart : m.stage = .START
    · exact .inl ⟨rfl, .inl ⟨hstart, notifyTapeMessage_start srv hstart⟩⟩
    · exact .inl ⟨rfl, .inr ⟨hstart, notifyTapeMessage_of_newTape_none hstart hnew⟩⟩
  | some t => exact .inr ⟨t, rfl, notifyTapeMessage_of_newTape hnew⟩

theorem notify_of_newTape {m : PortMessage μ} {t : OrkTape μ} (hnew : p.newTape m = some t)
    (hfaces : p.portFaces.length ≠ 1) (hmaster : t.service.recordMaster = false) :
    (p.notify f m).cache = p.cache.addTape t := by
  cases m with
  | tape m srv =>
    rw [notify, notifyTapeMessage_of_newTape hnew]
    exact if_neg (by simp [hfaces, hmaster])
  | metadata m srv => cases hnew

theorem notify_of_newSegment {m : PortMessage μ} {seg : OrkSegment μ} (hnew : p.newSegment f m = some seg) :
    (p.notify f m).cache = p.cache.addSegment seg := by
  cases m with
  | tape m srv => cases hnew
  | metadata m srv =>
    rw [notify, notifyMetadataMessage_cache, hnew]
    rfl

theorem notify_cacheStep (f : OrkSegment μ → Bool) (p : TrackPort μ) (m : PortMessage μ) :
    CacheStep f p m (p.notify f m).cache := by
  cases m with
  | tape m srv =>
    rw [notify]
    rcases notifyTapeMessage_cases (f := f) (p := p) m srv with ⟨hnew, ⟨-, h⟩ | ⟨-, h⟩⟩ | ⟨t, hnew, h⟩
    · rw [h]
      exact .nothing hnew
    · rw [h]
      exact .nothing hnew
    · rw [h]
      by_cases hown : p.portFaces.length = 1 ∨ t.service.recordMaster = true
      · simp only [if_pos hown]
        exact .tapeWithSegment t hnew hown
      · simp only [if_neg hown]
        rw [not_or, Bool.not_eq_true] at hown
        exact .tape t hnew hown.1 hown.2
  | metadata m srv =>
    rw [notify, notifyMetadataMessage_cache]
    cases hnew : p.newSegment f (.metadata m srv) with
    | none => exact .nothing rfl
    | some seg => exact .segment seg rfl hnew

theorem notifyMetadataMessage_frame (m : MetadataMessage μ) (srv : OrkService) :
    (p.notifyMetadataMessage f m srv).toPort = p.toPort ∧
      (p.notifyMetadataMessage f m srv).lastTapeMessage = p.lastTapeMessage := by
  unfold notifyMetadataMessage
  by_cases hstart : m.stage = .START
  · simp only [if_pos hstart, segmentTimes_start hstart, and_self]
  · simp only [if_neg hstart]
    split
    · exact ⟨rfl, rfl⟩
    · split <;> exact ⟨rfl, rfl⟩

theorem notify_toPort (f : OrkSegment μ → Bool) (p : TrackPort μ) (m : PortMessage μ) :
    (p.notify f m).toPort = p.toPort := by
  cases m with
  | tape m srv =>
    rw [notify]
    rcases notifyTapeMessage_cases (f := f) (p := p) m srv with ⟨-, ⟨-, h⟩ | ⟨-, h⟩⟩ | ⟨t, -, h⟩ <;> rw [h]
  | metadata m srv => exact (notifyMetadataMessage_frame m srv).1

/-- The last tape message is the last START. -/
theorem notify_lastTapeMessage (f : OrkSegment μ → Bool) (p : TrackPort μ) (m : PortMessage μ) :
    (∃ start srv, m = .tape start srv ∧ start.stage = .START ∧ (p.notify f m).lastTapeMessage = some start) ∨
      m.tapeStage ≠ some .START ∧ (p.notify f m).lastTapeMessage = p.lastTapeMessage := by
  cases m with
  | tape m srv =>
    rw [notify]
    rcases notifyTapeMessage_cases (f := f) (p := p) m srv with
      ⟨-, ⟨hstart, h⟩ | ⟨hstart, h⟩⟩ | ⟨t, hnew, h⟩
    · exact .inl ⟨m, srv, rfl, hstart, by rw [h]⟩
    · exact .inr ⟨by simpa [PortMessage.tapeStage] using hstart, by rw [h]⟩
    · refine .inr ⟨?_, by rw [h]⟩
      rw [newTape_stage hnew]
      decide
  | metadata m srv => exact .inr ⟨by simp [PortMessage.tapeStage], (notifyMetadataMessage_frame m srv).2⟩

theorem CacheStep.numTapes {m : PortMessage μ} {c : PortCache μ} (h : CacheStep f p m c) :
    c.numTapes = p.cache.numTapes + if (p.newTape m).isSome then 1 else 0 := by
  cases h with
  | nothing hnew => simp [hnew]
  | segment seg hnew _ => simp [hnew, PortCache.addSegment_numTapes]
  | tape t hnew _ _ => simp [hnew, PortCache.addTape_numTapes]
  | tapeWithSegment t hnew _ =>
    simp only [hnew, PortCache.addTapeWithSegment]
    split <;> rfl

end TrackPort

/-! ## One tape for a START -/

/-- The port `port` after the messages `l`. -/
def portAfter (f : OrkSegment μ → Bool) (port : Port) (l : List (PortMessage μ)) : TrackPort μ :=
  TrackPort.run f { toPort := port } l

/-- `t` is made of a START and the STOP `m`, the first after it. -/
def FirstStop (before : List (PortMessage μ)) (m : PortMessage μ) (t : OrkTape μ) : Prop :=
  ∃ a start srv b stop srv', before = a ++ .tape start srv :: b ∧ start.stage = .START ∧
    (∀ m' ∈ b, m'.tapeStage ≠ some .STOP) ∧ m = .tape stop srv' ∧ stop.stage = .STOP ∧
    t.timestamp = start.timestamp.toInt * 1000 ∧ t.duration = stop.duration.toInt ∧ t.service = srv' ∧
    t.details = stop.details

/-- There are no more tapes than STARTs, and each tape is made of a START and the first STOP after it. -/
def OneTapePerStart (f : OrkSegment μ → Bool) (port : Port) (l : List (PortMessage μ)) : Prop :=
  (portAfter f port l).cache.numTapes ≤ l.countP (·.tapeStage = some .START) ∧
  ∀ before m after t, l = before ++ m :: after → (portAfter f port before).newTape m = some t →
    FirstStop before m t

/-- From the first START on, there is a START between any two STOPs. -/
def StopsOnce (l : List (PortMessage μ)) : Prop :=
  ∀ a m b m' c, l = a ++ m :: (b ++ m' :: c) → m.tapeStage = some .STOP → m'.tapeStage = some .STOP →
    (∃ x ∈ a, x.tapeStage = some .START) → ∃ x ∈ b, x.tapeStage = some .START

variable {f : OrkSegment μ → Bool} {port : Port} {l : List (PortMessage μ)}

theorem portAfter_snoc (m : PortMessage μ) :
    portAfter f port (l ++ [m]) = (portAfter f port l).notify f m := by
  simp [portAfter, TrackPort.run]

/-- What the last tape message is: the last START of all. -/
theorem lastTapeMessage_portAfter (f : OrkSegment μ → Bool) (port : Port) (l : List (PortMessage μ)) :
    (portAfter f port l).lastTapeMessage = none ∧ (∀ m ∈ l, m.tapeStage ≠ some .START) ∨
    ∃ a start srv b, (portAfter f port l).lastTapeMessage = some start ∧ l = a ++ .tape start srv :: b ∧
      start.stage = .START ∧ ∀ m ∈ b, m.tapeStage ≠ some .START := by
  induction l using List.reverseRecOn with
  | nil => exact .inl ⟨rfl, by simp⟩
  | append_singleton l m ih =>
    rw [portAfter_snoc]
    rcases (portAfter f port l).notify_lastTapeMessage f m with ⟨start, srv, rfl, hstart, hlast⟩ | ⟨hm, hlast⟩
    · exact .inr ⟨l, start, srv, [], hlast, rfl, hstart, by simp⟩
    · rw [hlast]
      rcases ih with ⟨hnone, hl⟩ | ⟨a, start, srv, b, hsome, rfl, hstart, hb⟩
      · exact .inl ⟨hnone, by simp; grind⟩
      · exact .inr ⟨a, start, srv, b ++ [m], hsome, by simp, hstart, by simp; grind⟩

/-- A START that has not been stopped. -/
def Pending (l : List (PortMessage μ)) : Prop :=
  ∃ a start srv b, l = a ++ .tape start srv :: b ∧ start.stage = .START ∧
    ∀ m ∈ b, m.tapeStage ≠ some .STOP

theorem pending_snoc {m : PortMessage μ} (h : Pending (l ++ [m])) :
    m.tapeStage = some .START ∨ Pending l ∧ m.tapeStage ≠ some .STOP := by
  obtain ⟨a, start, srv, b, hl, hstart, hb⟩ := h
  rcases List.eq_nil_or_concat b with rfl | ⟨b', m', rfl⟩
  · obtain ⟨-, hm⟩ := List.append_inj' hl rfl
    obtain rfl := List.singleton_inj.mp hm
    exact .inl (congrArg some hstart)
  · rw [List.concat_eq_append, ← List.cons_append, ← List.append_assoc] at hl
    obtain ⟨rfl, hm⟩ := List.append_inj' hl rfl
    obtain rfl := List.singleton_inj.mp hm
    refine .inr ⟨⟨a, start, srv, b', rfl, hstart, ?_⟩, hb m (by simp)⟩
    exact fun m' hm' => hb m' (by simp [hm'])

theorem StopsOnce.of_append {l' : List (PortMessage μ)} (h : StopsOnce (l ++ l')) : StopsOnce l := by
  rintro a m b m' c rfl
  exact h a m b m' (c ++ l') (by simp)

/-- The START that a STOP finds has not been stopped before. -/
theorem StopsOnce.firstStop {m : PortMessage μ} {after : List (PortMessage μ)} {t : OrkTape μ}
    (h : StopsOnce (l ++ m :: after)) (hnew : (portAfter f port l).newTape m = some t) : FirstStop l m t := by
  obtain ⟨start, stop, srv', hlast, rfl, hstart, hstop, rfl⟩ := TrackPort.newTape_eq_some.mp hnew
  rcases lastTapeMessage_portAfter f port l with ⟨hnone, -⟩ | ⟨a, start', srv, b, hsome, rfl, -, hb⟩
  · rw [hnone] at hlast
    cases hlast
  obtain rfl : start' = start := Option.some.inj (hsome.symm.trans hlast)
  refine ⟨a, start', srv, b, stop, srv', rfl, hstart, ?_, rfl, hstop, rfl, rfl, rfl, rfl⟩
  -- A STOP in between is followed by the STOP `m` without a START.
  intro m' hm' hstop'
  obtain ⟨b₁, b₂, rfl⟩ := List.append_of_mem hm'
  obtain ⟨x, hx, hxstart⟩ := h (a ++ .tape start' srv :: b₁) m' b₂ (.tape stop srv') after (by simp) hstop'
    (congrArg some hstop) ⟨.tape start' srv, by simp, congrArg some hstart⟩
  exact hb x (by simp [hx]) hxstart

theorem FirstStop.pending {m : PortMessage μ} {t : OrkTape μ} (h : FirstStop l m t) : Pending l := by
  obtain ⟨a, start, srv, b, -, -, hl, hstart, hb, -⟩ := h
  exact ⟨a, start, srv, b, hl, hstart, hb⟩

theorem StopsOnce.numTapes_le (h : StopsOnce l) :
    (portAfter f port l).cache.numTapes ≤ l.countP (·.tapeStage = some .START) ∧
      (Pending l → (portAfter f port l).cache.numTapes + 1 ≤ l.countP (·.tapeStage = some .START)) := by
  induction l using List.reverseRecOn with
  | nil =>
    refine ⟨le_rfl, ?_⟩
    rintro ⟨a, start, srv, b, hnil, -⟩
    simp at hnil
  | append_singleton l m ih =>
    obtain ⟨hle, hpending⟩ := ih h.of_append
    have hnum := ((portAfter f port l).notify_cacheStep f m).numTapes
    rw [portAfter_snoc, hnum, List.countP_append, List.countP_singleton]
    cases hnew : (portAfter f port l).newTape m with
    | some t =>
      have hstop := TrackPort.newTape_stage hnew
      have hlt := hpending (h.firstStop hnew).pending
      refine ⟨by simp; omega, fun hp => ?_⟩
      rcases pending_snoc hp with hstart | ⟨-, hne⟩
      · rw [hstop] at hstart
        cases hstart
      · exact absurd hstop hne
    | none =>
      refine ⟨by simp; omega, fun hp => ?_⟩
      rcases pending_snoc hp with hstart | ⟨hp, -⟩
      · simp [hstart]
        omega
      · have := hpending hp
        simp
        omega

/-- What is pending has been started since the last STOP. -/
theorem Pending.started {a b : List (PortMessage μ)} {m : PortMessage μ} (h : Pending (a ++ m :: b))
    (hm : m.tapeStage = some .STOP) : ∃ x ∈ b, x.tapeStage = some .START := by
  obtain ⟨a', start, srv, b', heq, hstart, hb'⟩ := h
  have hstart' : (PortMessage.tape start srv).tapeStage = some .START := congrArg some hstart
  rcases List.append_eq_append_iff.mp heq with ⟨c, -, hc⟩ | ⟨c, -, hc⟩
  · rcases List.cons_eq_append_iff.mp hc with ⟨-, hcons⟩ | ⟨c', -, rfl⟩
    · obtain ⟨rfl, -⟩ := List.cons.inj hcons
      rw [hstart'] at hm
      cases hm
    · exact ⟨_, by simp, hstart'⟩
  · rcases List.cons_eq_append_iff.mp hc with ⟨-, hcons⟩ | ⟨c', -, rfl⟩
    · obtain ⟨rfl, -⟩ := List.cons.inj hcons
      rw [hstart'] at hm
      cases hm
    · exact absurd hm (hb' m (by simp))

/-- After a START, each STOP creates a tape. -/
theorem newTape_isSome (f : OrkSegment μ → Bool) (port : Port) {m : PortMessage μ}
    (hm : m.tapeStage = some .STOP) (hl : ∃ x ∈ l, x.tapeStage = some .START) :
    ∃ t, (portAfter f port l).newTape m = some t := by
  rcases lastTapeMessage_portAfter f port l with ⟨-, hnone⟩ | ⟨a, start, srv, b, hlast, -, hstart, -⟩
  · obtain ⟨x, hx, hxstart⟩ := hl
    exact absurd hxstart (hnone x hx)
  · cases m with
    | tape stop srv' =>
      exact ⟨_, TrackPort.newTape_eq_some.mpr ⟨start, stop, srv', hlast, rfl, hstart, Option.some.inj hm, rfl⟩⟩
    | metadata _ _ => cases hm

/-- A STOP after a STOP makes a tape of a START that is not pending. -/
theorem OneTapePerStart.stopsOnce (h : OneTapePerStart f port l) : StopsOnce l := by
  rintro a m b m' c rfl hstop hstop' ⟨x, hx, hxstart⟩
  obtain ⟨t, hnew⟩ := newTape_isSome (l := a ++ m :: b) f port hstop' ⟨x, by simp [hx], hxstart⟩
  exact (h.2 (a ++ m :: b) m' c t (by simp) hnew).pending.started hstop

/-- **One tape for a START.** -/
theorem oneTapePerStart_iff (f : OrkSegment μ → Bool) (port : Port) (l : List (PortMessage μ)) :
    OneTapePerStart f port l ↔ StopsOnce l := by
  refine ⟨OneTapePerStart.stopsOnce, fun h => ⟨h.numTapes_le.1, ?_⟩⟩
  rintro before m after t rfl hnew
  exact h.firstStop hnew

/-- The first STOP is sent again. -/
theorem not_oneTapePerStart : ¬OneTapePerStart (μ := Unit) (fun _ => true) ⟨1, ["recport", "ctiport"]⟩
    [.tape ⟨.START, 1000, 0, ()⟩ ⟨"recservice", false⟩, .tape ⟨.STOP, 1010, 10, ()⟩ ⟨"recservice", false⟩,
      .tape ⟨.STOP, 1010, 10, ()⟩ ⟨"recservice", false⟩] :=
  fun h => absurd h.1 (by decide)

end Oreka.Orktrack
