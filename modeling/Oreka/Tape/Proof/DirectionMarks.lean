import Oreka.Tape.DirectionSelector

/-!
# Direction selection against the batch filter

The marks that reports leave (`directionMarks`) cut time into intervals. A chunk is in one of them, the
one of the report that is in force (`map_filter_appliesTo`), unless it arrives between the two readings
of the clock that end one mark and begin the next, where both apply (`two_le_filter_appliesTo`). On a
direction the two filters are compared by `blanks_eq_skips_iff`, and `selectorAgrees_iff` puts
these together.
-/

namespace Oreka

/-- The direction that was last reported. -/
def reportedDirection (reports : List DirectionReport) (a : Int) : Option AudioKeepDirection :=
  (reports.filter (·.now ≤ a)).getLast?.map (·.direction)

/-- The direction that is marked: the last one reported, or that of the area code. -/
def markedDirection (side : Option AudioKeepDirection) (reports : List DirectionReport) (a : Int) :
    Option AudioKeepDirection :=
  (reportedDirection reports a).or (if 1 ≤ a then side else none)

/-- A report, but for the first, reads its time at or before `a` and the end of the last mark after it. -/
def BetweenReadings (reports : List DirectionReport) (a : Int) : Prop :=
  ∃ r ∈ reports.tail, r.now ≤ a ∧ a < r.later

/-- The marks of the reports. -/
def directionMarks : List DirectionReport → List AudioDirectionMarks
  | [] => []
  | r :: rest => ⟨r.now, rest.head?.elim 0 (·.later), r.direction⟩ :: directionMarks rest

/-! ## The marks on a tape -/

theorem directionMarks_append (reports : List DirectionReport) (r : DirectionReport) :
    directionMarks (reports ++ [r]) =
      ((directionMarks reports).dropLast ++
          (directionMarks reports).getLast?.toList.map fun m =>
            { m with nextTimestampMark := r.later }) ++
        [⟨r.now, 0, r.direction⟩] := by
  induction reports with
  | nil => rfl
  | cons s reports ih =>
    cases reports with
    | nil => rfl
    | cons s' rest =>
      simp only [List.cons_append, directionMarks] at ih
      simp only [List.cons_append, directionMarks, ih, List.dropLast_cons_cons,
        List.getLast?_cons_cons, List.head?_cons]

theorem reportDirections_marks (t : AudioTape) (h : t.audioDirectionMarks = [])
    (reports : List DirectionReport) :
    (t.reportDirections reports).audioDirectionMarks = directionMarks reports := by
  induction reports using List.reverseRecOn with
  | nil => exact h
  | append_singleton reports r ih =>
    rw [directionMarks_append, ← ih]
    simp [AudioTape.reportDirections, AudioTape.addDirectionMark]

theorem reportDirections_localSide (t : AudioTape) (reports : List DirectionReport) :
    (t.reportDirections reports).localSide = t.localSide := by
  induction reports generalizing t with
  | nil => rfl
  | cons r reports ih => exact ih _

/-! ## The mark that applies -/

variable {first a : Int} {r : DirectionReport} {reports : List DirectionReport}

theorem appliesTo_iff (m : AudioDirectionMarks) :
    m.appliesTo a = true ↔
      m.timestamp ≠ 0 ∧ m.timestamp ≤ a ∧ (a < m.nextTimestampMark ∨ m.nextTimestampMark = 0) := by
  simp [AudioDirectionMarks.appliesTo, and_assoc]

/-- Nothing applies before the first report. -/
theorem filter_of_lt (h : InTime first reports) (ha : a < first) :
    reports.filter (·.now ≤ a) = [] ∧ (directionMarks reports).filter (·.appliesTo a) = [] := by
  induction reports generalizing first with
  | nil => exact ⟨rfl, rfl⟩
  | cons r reports ih =>
    obtain ⟨h1, h2, hs⟩ := h
    obtain ⟨hf, hm⟩ := ih hs (by omega)
    have hr : ¬ r.now ≤ a := by omega
    refine ⟨by rw [List.filter_cons_of_neg (by simpa using hr), hf], ?_⟩
    rw [directionMarks, List.filter_cons_of_neg (by simp [appliesTo_iff, hr]), hm]

/-- Before the next report, the mark of the first one applies from its time on. -/
theorem filter_of_before_next (h : InTime first (r :: reports)) (hf : 1 ≤ first)
    (ha : reports.head?.all fun s => a < s.now) :
    reports.filter (·.now ≤ a) = [] ∧
      (directionMarks (r :: reports)).filter (·.appliesTo a) =
        if r.now ≤ a then [⟨r.now, reports.head?.elim 0 (·.later), r.direction⟩] else [] := by
  obtain ⟨h1, h2, hs⟩ := h
  have h0 : r.now ≠ 0 := by omega
  cases reports with
  | nil =>
    by_cases hr : r.now ≤ a <;> simp [directionMarks, appliesTo_iff, h0, hr]
  | cons s rest =>
    have hsa : a < s.now := by simpa using ha
    have hfrom : InTime s.now (s :: rest) := ⟨Int.le_refl _, hs.2⟩
    obtain ⟨hf, hm⟩ := filter_of_lt hfrom hsa
    have hl : a < s.later := Int.lt_of_lt_of_le hsa hs.2.1
    refine ⟨hf, ?_⟩
    rw [directionMarks, List.filter_cons, hm]
    simp [appliesTo_iff, h0, hl]

/-- The one mark that applies is that of the last report. -/
theorem map_filter_appliesTo (h : InTime first reports) (hf : 1 ≤ first)
    (ha : ¬ BetweenReadings reports a) :
    ((directionMarks reports).filter (·.appliesTo a)).map (·.audioKeepDirection) =
      (reportedDirection reports a).toList := by
  unfold reportedDirection
  induction reports generalizing first with
  | nil => rfl
  | cons r reports ih =>
    by_cases hn : reports.head?.all fun s => a < s.now
    · obtain ⟨hr, hm⟩ := filter_of_before_next h hf hn
      rw [hm, List.filter_cons, hr]
      by_cases hra : r.now ≤ a <;> simp [hra]
    · obtain ⟨h1, h2, hs⟩ := h
      cases reports with
      | nil => simp at hn
      | cons s rest =>
        -- the mark of `r` has ended
        have hsa : s.now ≤ a := by simpa using hn
        have hl : s.later ≤ a := by
          by_contra hlt
          exact ha ⟨s, by simp, hsa, by omega⟩
        obtain ⟨h3, h4, -⟩ := id hs
        have hr : ¬ AudioDirectionMarks.appliesTo ⟨r.now, s.later, r.direction⟩ a = true := by
          rw [appliesTo_iff]
          simp only
          omega
        have htail : ¬ BetweenReadings (s :: rest) a := fun ⟨x, hx, hxa⟩ =>
          ha ⟨x, List.mem_of_mem_tail hx, hxa⟩
        have hra : r.now ≤ a := by omega
        have hlast : ((r :: s :: rest).filter (·.now ≤ a)).getLast? =
            ((s :: rest).filter (·.now ≤ a)).getLast? := by
          simp [hra, hsa]
        rw [directionMarks, List.head?_cons, Option.elim_some, List.filter_cons, if_neg hr, hlast]
        exact ih hs (by omega) htail

/-- Between the two readings both the mark that ends and the one that begins apply. -/
theorem two_le_filter_appliesTo (h : InTime first reports) (hf : 1 ≤ first)
    (ha : BetweenReadings reports a) :
    2 ≤ ((directionMarks reports).filter (·.appliesTo a)).length := by
  induction reports generalizing first with
  | nil => simp [BetweenReadings] at ha
  | cons r reports ih =>
    obtain ⟨h1, h2, hs⟩ := h
    obtain ⟨x, hx, hxa, hxl⟩ := ha
    rw [List.tail_cons] at hx
    cases reports with
    | nil => simp at hx
    | cons s rest =>
      obtain ⟨h3, h4, hrest⟩ := id hs
      rcases List.mem_cons.1 hx with rfl | hx
      · have hr : AudioDirectionMarks.appliesTo ⟨r.now, x.later, r.direction⟩ a = true := by
          rw [appliesTo_iff]
          simp only
          omega
        have hs : AudioDirectionMarks.appliesTo
            ⟨x.now, rest.head?.elim 0 (·.later), x.direction⟩ a = true := by
          rw [appliesTo_iff]
          refine ⟨by simp only; omega, hxa, ?_⟩
          cases rest with
          | nil => exact .inr rfl
          | cons y rest =>
            obtain ⟨h5, h6, -⟩ := hrest
            exact .inl (by simp only [List.head?_cons, Option.elim_some]; omega)
        rw [directionMarks, directionMarks, List.head?_cons, Option.elim_some, List.filter_cons,
          if_pos hr, List.filter_cons, if_pos hs]
        simp
      · have htail := ih hs (by omega) ⟨x, hx, hxa, hxl⟩
        rw [directionMarks]
        exact htail.trans (List.Sublist.length_le (List.Sublist.filter _ (List.sublist_cons_self ..)))

/-! ## With the area code's mark -/

theorem head_directionMarks (reports : List DirectionReport) :
    (directionMarks reports).head?.elim 0 (·.timestamp) = reports.head?.elim 0 (·.now) := by
  cases reports <;> rfl

/-- The area code's mark applies until the first report. -/
theorem map_filter_insertDefaultKeptSide (h : InTime 1 reports) (ha : ¬ BetweenReadings reports a)
    (side : Option AudioKeepDirection) :
    ((insertDefaultKeptSide side (directionMarks reports)).filter (·.appliesTo a)).map
        (·.audioKeepDirection) =
      (markedDirection side reports a).toList := by
  have hmarks := map_filter_appliesTo h (Int.le_refl _) ha
  cases side with
  | none => simpa [insertDefaultKeptSide, markedDirection] using hmarks
  | some d =>
    unfold insertDefaultKeptSide markedDirection
    rw [List.filter_cons, head_directionMarks]
    cases reports with
    | nil => by_cases h1 : 1 ≤ a <;> simp [directionMarks, reportedDirection, appliesTo_iff, h1]
    | cons r rest =>
      obtain ⟨h0, -, -⟩ := id h
      by_cases hr : a < r.now
      · have hfrom : InTime r.now (r :: rest) := ⟨Int.le_refl _, h.2⟩
        obtain ⟨hf, hm⟩ := filter_of_lt hfrom hr
        have hnone : reportedDirection (r :: rest) a = none := by simp [reportedDirection, hf]
        by_cases h1 : 1 ≤ a <;> simp [hm, hnone, appliesTo_iff, h1, hr]
      · have hd : ¬ AudioDirectionMarks.appliesTo ⟨1, r.now, d⟩ a = true := by
          rw [appliesTo_iff]
          simp only
          omega
        have hsome : (reportedDirection (r :: rest) a).isSome := by
          simp [reportedDirection, show r.now ≤ a by omega]
        obtain ⟨d', hd'⟩ := Option.isSome_iff_exists.1 hsome
        rw [List.head?_cons, Option.elim_some, if_neg hd, hmarks, hd', Option.some_or]

theorem sublist_insertDefaultKeptSide (side : Option AudioKeepDirection)
    (marks : List AudioDirectionMarks) : marks.Sublist (insertDefaultKeptSide side marks) := by
  cases side with
  | none => exact List.Sublist.refl _
  | some d => exact List.sublist_cons_self ..

/-! ## The two filters -/

/-- The directions on which the two filters decide alike: `DirectionSelector` knows no direction that
drops both sides, and of the channels only 1 and 2. -/
def Alike (direction : AudioKeepDirection) (localSide : LocalSide) (channel : UInt8) : Prop :=
  direction ≠ .none ∧ ¬ (direction = .remote ∧ localSide = .both) ∧
    (direction = .local → localSide = .side1 ∨ localSide = .side2 → channel = 1 ∨ channel = 2)

instance (direction : AudioKeepDirection) (localSide : LocalSide) (channel : UInt8) :
    Decidable (Alike direction localSide channel) :=
  inferInstanceAs (Decidable (_ ∧ _ ∧ _))

theorem blanks_eq_skips_iff (direction : AudioKeepDirection) (localSide : LocalSide) (channel : UInt8) :
    blanks direction localSide channel = skips direction localSide channel ↔
      Alike direction localSide channel := by
  by_cases h1 : channel = 1
  · subst h1
    cases direction <;> cases localSide <;> decide
  · by_cases h2 : channel = 2
    · subst h2
      cases direction <;> cases localSide <;> decide
    · cases direction <;> cases localSide <;> simp [blanks, skips, Alike, h1, h2]

namespace AudioTape

/-- The direction in force when a chunk arrives: the marked one, else the one the tape began with. -/
def directionInForce (t : AudioTape) (side : Option AudioKeepDirection)
    (reports : List DirectionReport) (chunk : AudioChunk) : AudioKeepDirection :=
  (markedDirection side reports chunk.details.arrivalTimestamp.toNat).getD t.audioKeepDirection

/-- The chunk is silenced if and only if the batch filter, by the direction in force, skips it; and at
most one mark applies to it. -/
structure SelectorAgrees (t : AudioTape) (side : Option AudioKeepDirection)
    (reports : List DirectionReport) (chunk : AudioChunk) : Prop where
  silences_iff : (t.reportDirections reports).silences side chunk = true ↔
    (skipChunk { t.reportDirections reports with
      audioKeepDirection := t.directionInForce side reports chunk } chunk).1 = true
  atMostOne : (((t.reportDirections reports).selectorMarks side).filter
    (·.appliesTo chunk.details.arrivalTimestamp.toNat)).length ≤ 1

/-- The filters decide alike on the marked direction, if there is one; else the direction that the tape
began with lets the chunk pass. -/
def SelectsAlike (t : AudioTape) (side : Option AudioKeepDirection) (reports : List DirectionReport)
    (chunk : AudioChunk) : Prop :=
  match markedDirection side reports chunk.details.arrivalTimestamp.toNat with
  | some d => Alike d t.localSide chunk.details.channel
  | none => skips t.audioKeepDirection t.localSide chunk.details.channel = false

variable {t : AudioTape} {side : Option AudioKeepDirection} {chunk : AudioChunk}

theorem silences_reportDirections (h : t.audioDirectionMarks = []) (hin : InTime 1 reports)
    (ha : ¬ BetweenReadings reports chunk.details.arrivalTimestamp.toNat) :
    (t.reportDirections reports).silences side chunk =
      (markedDirection side reports chunk.details.arrivalTimestamp.toNat).any fun d =>
        blanks d t.localSide chunk.details.channel := by
  unfold silences selectorMarks isBlankedBy
  rw [reportDirections_marks t h, reportDirections_localSide]
  have hmap := map_filter_insertDefaultKeptSide hin ha side
  calc (insertDefaultKeptSide side (directionMarks reports)).any _
    _ = ((insertDefaultKeptSide side (directionMarks reports)).filter (·.appliesTo
          chunk.details.arrivalTimestamp.toNat)).any fun m =>
            blanks m.audioKeepDirection t.localSide chunk.details.channel := by
        rw [List.any_filter]
    _ = (markedDirection side reports chunk.details.arrivalTimestamp.toNat).toList.any fun d =>
          blanks d t.localSide chunk.details.channel := by
        rw [← hmap, List.any_map]
        rfl
    _ = _ := by cases markedDirection side reports _ <;> simp

/-- A tape on which no direction was reported is given reports. -/
theorem selectorAgrees_iff (t : AudioTape) (h : t.audioDirectionMarks = [])
    (history : DirectionHistory) (side : Option AudioKeepDirection) (chunk : AudioChunk) :
    t.SelectorAgrees side history.reports chunk ↔
      ¬ BetweenReadings history.reports chunk.details.arrivalTimestamp.toNat ∧
        t.SelectsAlike side history.reports chunk := by
  obtain ⟨reports, hin⟩ := history
  by_cases ha : BetweenReadings reports chunk.details.arrivalTimestamp.toNat
  · -- two marks apply
    refine iff_of_false (fun hagrees => ?_) (fun hcond => hcond.1 ha)
    have hone := hagrees.atMostOne
    have htwo := two_le_filter_appliesTo hin (Int.le_refl _) ha
    rw [selectorMarks, reportDirections_marks t h] at hone
    have hle := ((sublist_insertDefaultKeptSide side (directionMarks reports)).filter
      (·.appliesTo chunk.details.arrivalTimestamp.toNat)).length_le
    exact Nat.not_lt.2 hone (htwo.trans hle)
  · have hmap := map_filter_insertDefaultKeptSide hin ha side
    have hone : (((t.reportDirections reports).selectorMarks side).filter
        (·.appliesTo chunk.details.arrivalTimestamp.toNat)).length ≤ 1 := by
      rw [selectorMarks, reportDirections_marks t h, ← List.length_map, hmap]
      cases markedDirection side reports _ <;> simp
    have hskip : (skipChunk { t.reportDirections reports with
        audioKeepDirection := t.directionInForce side reports chunk } chunk).1 =
        skips (t.directionInForce side reports chunk) t.localSide chunk.details.channel := by
      simp only [skipChunk, reportDirections_localSide]
    have hiff : t.SelectorAgrees side reports chunk ↔
        ((t.reportDirections reports).silences side chunk =
          skips (t.directionInForce side reports chunk) t.localSide chunk.details.channel) := by
      rw [← hskip, Bool.eq_iff_iff]
      exact ⟨(·.silences_iff), (⟨·, hone⟩)⟩
    rw [hiff, silences_reportDirections h hin ha, and_iff_right ha, SelectsAlike, directionInForce]
    cases markedDirection side reports chunk.details.arrivalTimestamp.toNat with
    | none => exact eq_comm
    | some d => exact blanks_eq_skips_iff d t.localSide chunk.details.channel

/-- Nothing is kept from the report at time 5 on, but the chunk at time 6 is not silenced. -/
theorem not_selectorAgrees_none :
    ¬ ({ AudioTape.new {} 1 "port" with localSide := .side1 }.SelectorAgrees none
      [⟨5, 5, .none⟩] { details := { arrivalTimestamp := 6, channel := 1 } }) :=
  fun h => absurd h.silences_iff (by decide)

theorem selectorAgrees_local :
    ({ AudioTape.new {} 1 "port" with localSide := .side1 }.SelectorAgrees none
      [⟨5, 5, .local⟩] { details := { arrivalTimestamp := 6, channel := 2 } }) :=
  (selectorAgrees_iff { AudioTape.new {} 1 "port" with localSide := .side1 } rfl
    ⟨[⟨5, 5, .local⟩], by simp [InTime]⟩ none
    { details := { arrivalTimestamp := 6, channel := 2 } }).2
    ⟨by simp [BetweenReadings], (by decide : Alike .local .side1 2)⟩

end AudioTape

end Oreka
