import Oreka.Lib.CyclicInterval
import Oreka.Orktrack.ProgramManager

/-!
# Quota and schedule of a program

A program compares what it has recorded with its limit before it counts, by `>`: it accepts one segment more
than its limit (`acceptedCount_eq`). Its schedule compares times of the day and week days by their order, which
is right for no interval that leads past midnight or past Sunday, and takes the time of the day down to the
second (`schedule_iff`). `quotaAndSchedule_iff` says for which programs neither matters.
-/

namespace Oreka.Orktrack

variable {z : TimeZone} {prog : OrkProgram} {seg : OrkSegment SegmentDetails} {random : ℚ}

/-! ## The quota -/

/-- Nothing but the quota is left to drop the segment. -/
def Eligible (z : TimeZone) (prog : OrkProgram) (offer : OrkSegment SegmentDetails × ℚ) : Prop :=
  (∀ c ∈ criteria offer.2 offer.1 prog, c.2 = some false) ∧
    filterSegmentAgainstProgramSchedule z offer.1 prog = true
  deriving Decidable

def eligibleCount (z : TimeZone) (prog : OrkProgram) (offers : List (OrkSegment SegmentDetails × ℚ)) : Nat :=
  offers.countP (Eligible z prog ·)

theorem ofCriteria_eq_accepted : ∀ {l : List (String × Option Bool)},
    FilterResult.ofCriteria l = .accepted ↔ ∀ c ∈ l, c.2 = some false
  | [] => by simp [FilterResult.ofCriteria]
  | (_, none) :: _ => by simp [FilterResult.ofCriteria]
  | (_, some true) :: _ => by simp [FilterResult.ofCriteria]
  | (_, some false) :: _ => by simp [FilterResult.ofCriteria, ofCriteria_eq_accepted]

theorem filter_eq_accepted : (filterSegmentAgainstProgram z random seg prog).1 = .accepted ↔
    Eligible z prog (seg, random) ∧ (prog.recPerCycle = 0 ∨ prog.recordedSoFar ≤ prog.recPerCycle) := by
  have hquota : (decide (prog.recPerCycle ≠ 0 ∧ prog.recordedSoFar > prog.recPerCycle)) = false ↔
      prog.recPerCycle = 0 ∨ prog.recordedSoFar ≤ prog.recPerCycle := by
    rw [decide_eq_false_iff_not, not_and_or, not_not, gt_iff_lt, Int32.not_lt]
  simp only [filterSegmentAgainstProgram, ofCriteria_eq_accepted, List.forall_mem_append, List.forall_mem_cons,
    List.not_mem_nil, Option.some.injEq, hquota, Eligible, Bool.not_eq_false']
  tauto

theorem acceptedCount_cons (offers : List (OrkSegment SegmentDetails × ℚ)) :
    acceptedCount z prog ((seg, random) :: offers) =
      if Eligible z prog (seg, random) ∧ (prog.recPerCycle = 0 ∨ prog.recordedSoFar ≤ prog.recPerCycle) then
        acceptedCount z (prog.setRecordedSoFar (prog.recordedSoFar + 1)) offers + 1
      else acceptedCount z prog offers := by
  rw [acceptedCount]
  by_cases h : (filterSegmentAgainstProgram z random seg prog).1 = .accepted
  · have hnext : (filterSegmentAgainstProgram z random seg prog).2 =
        prog.setRecordedSoFar (prog.recordedSoFar + 1) := if_pos h
    rw [if_pos h, if_pos (filter_eq_accepted.mp h), hnext, Nat.add_comm]
  · have hnext : (filterSegmentAgainstProgram z random seg prog).2 = prog := if_neg h
    rw [if_neg h, if_neg (mt filter_eq_accepted.mpr h), hnext, Nat.zero_add]

theorem eligibleCount_cons (offer : OrkSegment SegmentDetails × ℚ)
    (offers : List (OrkSegment SegmentDetails × ℚ)) :
    eligibleCount z prog (offer :: offers) =
      if Eligible z prog offer then eligibleCount z prog offers + 1 else eligibleCount z prog offers := by
  simp only [eligibleCount, List.countP_cons, decide_eq_true_eq]
  split <;> rfl

/-- How many segments a program with a limit has still to accept before it finds that they are enough. -/
def room (prog : OrkProgram) : Nat := (prog.recPerCycle.toInt + 1 - prog.recordedSoFar.toInt).toNat

theorem toInt_succ {n m : Int32} (h : n.toInt ≤ m.toInt) (hm : m.toInt < 2 ^ 31 - 1) :
    (n + 1).toInt = n.toInt + 1 := by
  have hlow : -2 ^ 31 ≤ n.toInt := n.le_toInt
  rw [Int32.toInt_add, Int32.toInt_one, Int.bmod_eq_of_le] <;> omega

theorem room_pos : 0 < room prog ↔ prog.recordedSoFar ≤ prog.recPerCycle := by
  rw [Int32.le_iff_toInt_le, room]
  omega

theorem room_accept (h : prog.recordedSoFar ≤ prog.recPerCycle) (hmax : prog.recPerCycle.toInt < 2 ^ 31 - 1) :
    room prog = room (prog.setRecordedSoFar (prog.recordedSoFar + 1)) + 1 := by
  rw [Int32.le_iff_toInt_le] at h
  simp only [room, OrkProgram.setRecordedSoFar, toInt_succ h hmax]
  omega

/-- Until the count has passed the limit, all that is eligible is accepted. -/
theorem acceptedCount_eq (hlimit : prog.recPerCycle ≠ 0) (hmax : prog.recPerCycle.toInt < 2 ^ 31 - 1)
    (offers : List (OrkSegment SegmentDetails × ℚ)) :
    acceptedCount z prog offers = min (eligibleCount z prog offers) (room prog) := by
  induction offers generalizing prog with
  | nil => simp [acceptedCount, eligibleCount]
  | cons offer offers ih =>
    rw [acceptedCount_cons, eligibleCount_cons]
    by_cases he : Eligible z prog offer
    · by_cases hr : prog.recordedSoFar ≤ prog.recPerCycle
      · have hnext : acceptedCount z (prog.setRecordedSoFar (prog.recordedSoFar + 1)) offers =
            min (eligibleCount z prog offers) (room (prog.setRecordedSoFar (prog.recordedSoFar + 1))) :=
          ih hlimit hmax
        rw [if_pos ⟨he, .inr hr⟩, if_pos he, hnext, room_accept hr hmax, Nat.add_min_add_right]
      · have hroom : room prog = 0 := Nat.eq_zero_of_not_pos (mt room_pos.mp hr)
        rw [if_neg (by tauto), ih hlimit hmax, hroom, Nat.min_zero, Nat.min_zero]
    · rw [if_neg (by tauto), if_neg he, ih hlimit hmax]

/-- No `int` is above the largest. -/
theorem acceptedCount_eq_of_max (hmax : prog.recPerCycle.toInt = 2 ^ 31 - 1)
    (offers : List (OrkSegment SegmentDetails × ℚ)) :
    acceptedCount z prog offers = eligibleCount z prog offers := by
  induction offers generalizing prog with
  | nil => simp [acceptedCount, eligibleCount]
  | cons offer offers ih =>
    have hle : prog.recordedSoFar ≤ prog.recPerCycle := by
      have := prog.recordedSoFar.toInt_lt
      rw [Int32.le_iff_toInt_le]
      omega
    rw [acceptedCount_cons, eligibleCount_cons]
    by_cases he : Eligible z prog offer
    · have hnext : acceptedCount z (prog.setRecordedSoFar (prog.recordedSoFar + 1)) offers =
          eligibleCount z prog offers := ih hmax
      rw [if_pos ⟨he, .inr hle⟩, if_pos he, hnext]
    · rw [if_neg (by tauto), if_neg he, ih hmax]

/-- A limit is kept where the segments that are offered are too few to pass it, or where the program has counted
some before. -/
theorem acceptedCount_le_iff (hlimit : prog.recPerCycle ≠ 0) (offers : List (OrkSegment SegmentDetails × ℚ)) :
    (acceptedCount z prog offers : Int) ≤ prog.recPerCycle.toInt ↔
      (eligibleCount z prog offers : Int) ≤ prog.recPerCycle.toInt ∨
        0 ≤ prog.recPerCycle.toInt ∧ prog.recPerCycle.toInt < 2 ^ 31 - 1 ∧ 1 ≤ prog.recordedSoFar.toInt := by
  have hlt := prog.recPerCycle.toInt_lt
  by_cases hmax : prog.recPerCycle.toInt < 2 ^ 31 - 1
  · rw [acceptedCount_eq hlimit hmax, room]
    omega
  · rw [acceptedCount_eq_of_max (by omega)]
    omega

/-! ## The schedule -/

/-- The local time of the day, in milliseconds. -/
def TimeZone.timeOfDay (z : TimeZone) (date : Int) : Int := z.wall date % 86400 * 1000 + date % 1000

/-- The week day, from Monday on. -/
def TimeZone.weekDay (z : TimeZone) (date : Int) : Int := (z.wall date / 86400 + 3) % 7

/-- How long ago the day began. That is the time of the day, unless the clocks have been changed since. -/
def TimeZone.sinceMidnight (z : TimeZone) (date : Int) : Int :=
  date - z.instant (z.wall date / 86400 * 86400) * 1000

/-- A daily program, or a weekly one, with times of the day and days of the week. -/
structure OrkProgram.Scheduled (prog : OrkProgram) : Prop where
  cycle : prog.cycle = .DAILY ∨ prog.cycle = .WEEKLY ∧ prog.startDay ≠ .UNKN ∧ prog.stopDay ≠ .UNKN
  start : 0 ≤ prog.startTime ∧ prog.startTime < 86400000
  stop : 0 ≤ prog.stopTime ∧ prog.stopTime < 86400000

/-- The day is between the start day and the stop day. -/
def OnDays (z : TimeZone) (prog : OrkProgram) (date : Int) : Prop :=
  prog.cycle = .WEEKLY → Cyclic.Between 7 prog.startDay.ordinal prog.stopDay.ordinal (z.weekDay date)

/-- The day is between the start day and the stop day, and the time of the day between the start time and the
stop time. -/
def InSchedule (z : TimeZone) (prog : OrkProgram) (date : Int) : Prop :=
  OnDays z prog date ∧ Cyclic.Between 86400000 prog.startTime prog.stopTime (z.timeOfDay date)

/-- The schedule leads neither past midnight nor past Sunday, it starts with a second and stops with the last
millisecond of one, and no change of the clocks takes a segment into it or out of it. -/
structure Plain (z : TimeZone) (prog : OrkProgram) : Prop where
  times : prog.startTime ≤ prog.stopTime
  days : prog.cycle = .WEEKLY → prog.startDay.ordinal ≤ prog.stopDay.ordinal
  start : prog.startTime % 1000 = 0
  stop : prog.stopTime % 1000 = 999
  clock : ∀ date, OnDays z prog date →
    (prog.startTime ≤ z.sinceMidnight date ∧ z.sinceMidnight date ≤ prog.stopTime ↔
      prog.startTime ≤ z.timeOfDay date ∧ z.timeOfDay date ≤ prog.stopTime)

theorem setSeconds_setMinutes_setHours (w : Int) :
    setSeconds (setMinutes (setHours w 0) 0) 0 = w / 86400 * 86400 := by
  unfold setSeconds setMinutes setHours
  omega

theorem weekDay_eq (date : Int) :
    (if z.getDay date - 1 = -1 then 6 else z.getDay date - 1) = z.weekDay date := by
  unfold TimeZone.getDay TimeZone.weekDay
  split <;> omega

theorem sinceMidnight_emod (date : Int) : z.sinceMidnight date % 1000 = date % 1000 := by
  unfold TimeZone.sinceMidnight
  omega

/-- The days are compared by their order, and so are the times, less the milliseconds. -/
def InOrder (z : TimeZone) (prog : OrkProgram) (date : Int) : Prop :=
  (prog.cycle = .WEEKLY →
    prog.startDay.ordinal ≤ z.weekDay date ∧ z.weekDay date ≤ prog.stopDay.ordinal) ∧
  prog.startTime ≤ z.sinceMidnight date - z.sinceMidnight date % 1000 ∧
    z.sinceMidnight date - z.sinceMidnight date % 1000 ≤ prog.stopTime

theorem schedule_iff (h : prog.Scheduled) :
    filterSegmentAgainstProgramSchedule z seg prog = true ↔ InOrder z prog seg.timestamp := by
  have hsince (w : Int) : seg.timestamp - (w * 1000 + seg.timestamp % 1000) =
      seg.timestamp - w * 1000 - seg.timestamp % 1000 := by omega
  rw [InOrder, sinceMidnight_emod]
  simp only [filterSegmentAgainstProgramSchedule, setSeconds_setMinutes_setHours, weekDay_eq, hsince,
    TimeZone.sinceMidnight]
  rcases h.cycle with hc | ⟨hc, -⟩ <;> simp [hc]

theorem ordinal_mem {d : Day} (h : d ≠ .UNKN) : 0 ≤ d.ordinal ∧ d.ordinal < 7 := by
  cases d <;> simp_all [Day.ordinal]

theorem timeOfDay_mem (date : Int) : 0 ≤ z.timeOfDay date ∧ z.timeOfDay date < 86400000 := by
  unfold TimeZone.timeOfDay
  omega

theorem weekDay_mem (date : Int) : 0 ≤ z.weekDay date ∧ z.weekDay date < 7 := by
  unfold TimeZone.weekDay
  omega

/-- In the week in which no clock is changed. -/
theorem exists_date (z : TimeZone) {day time : Int} (hday : 0 ≤ day ∧ day < 7)
    (htime : 0 ≤ time ∧ time < 86400000) :
    ∃ date, z.weekDay date = day ∧ z.timeOfDay date = time ∧ z.sinceMidnight date = time := by
  obtain ⟨week, c, hweek⟩ := z.ordinaryWeek
  let midnight := 604800 * week + (day + 4) % 7 * 86400
  let w := midnight + time / 1000
  have hw := (hweek w (by omega) (by omega)).2
  have hm := (hweek midnight (by omega) (by omega)).1
  have hsec : ((w - c) * 1000 + time % 1000) / 1000 = w - c := by omega
  have hwall : z.wall ((w - c) * 1000 + time % 1000) = w := by
    rw [TimeZone.wall, hsec, hw]
    omega
  have hmid : w / 86400 * 86400 = midnight := by omega
  refine ⟨(w - c) * 1000 + time % 1000, ?_, ?_, ?_⟩
  · rw [TimeZone.weekDay, hwall]
    omega
  · rw [TimeZone.timeOfDay, hwall]
    omega
  · rw [TimeZone.sinceMidnight, hwall, hmid, TimeZone.instant, hm]
    omega

/-- A day on which a schedule begins, at any time of it. -/
theorem OrkProgram.Scheduled.exists_date (h : prog.Scheduled) (z : TimeZone) {t : Int}
    (ht : 0 ≤ t ∧ t < 86400000) : ∃ date, OnDays z prog date ∧
      (prog.cycle = .WEEKLY → z.weekDay date = prog.startDay.ordinal) ∧
      z.timeOfDay date = t ∧ z.sinceMidnight date = t := by
  rcases h.cycle with hc | ⟨hc, hstart, -⟩
  · obtain ⟨date, -, hdate⟩ := Orktrack.exists_date z ⟨le_rfl, by decide⟩ ht
    exact ⟨date, by simp [OnDays, hc], by simp [hc], hdate⟩
  · obtain ⟨date, hday, hdate⟩ := Orktrack.exists_date z (ordinal_mem hstart) ht
    refine ⟨date, ?_, fun _ => hday, hdate⟩
    intro _
    rw [hday]
    exact Cyclic.between_start (by decide)

theorem OrkProgram.Scheduled.onDays_iff (h : prog.Scheduled)
    (hdays : prog.cycle = .WEEKLY → prog.startDay.ordinal ≤ prog.stopDay.ordinal) (date : Int) :
    OnDays z prog date ↔ (prog.cycle = .WEEKLY →
      prog.startDay.ordinal ≤ z.weekDay date ∧ z.weekDay date ≤ prog.stopDay.ordinal) := by
  rcases h.cycle with hc | ⟨hc, hstart, hstop⟩
  · simp [OnDays, hc]
  · have hday := weekDay_mem (z := z) date
    rw [OnDays, Cyclic.between_iff_of_le (ordinal_mem hstart).1 (hdays hc) (ordinal_mem hstop).2 hday.1 hday.2]

theorem OrkProgram.Scheduled.inSchedule_iff (h : prog.Scheduled) (htimes : prog.startTime ≤ prog.stopTime)
    (date : Int) : InSchedule z prog date ↔
      OnDays z prog date ∧ prog.startTime ≤ z.timeOfDay date ∧ z.timeOfDay date ≤ prog.stopTime := by
  have htime := timeOfDay_mem (z := z) date
  rw [InSchedule, Cyclic.between_iff_of_le h.start.1 htimes h.stop.2 htime.1 htime.2]

/-- Between whole seconds nothing is lost with the milliseconds. -/
theorem whole_seconds_iff {start stop x : Int} (hstart : start % 1000 = 0) (hstop : stop % 1000 = 999) :
    start ≤ x - x % 1000 ∧ x - x % 1000 ≤ stop ↔ start ≤ x ∧ x ≤ stop := by
  omega

theorem Plain.schedule (hp : Plain z prog) (h : prog.Scheduled) (seg : OrkSegment SegmentDetails) :
    filterSegmentAgainstProgramSchedule z seg prog = true ↔ InSchedule z prog seg.timestamp := by
  rw [schedule_iff h, InOrder, ← h.onDays_iff hp.days, whole_seconds_iff hp.start hp.stop,
    h.inSchedule_iff hp.times]
  exact and_congr_right (hp.clock seg.timestamp)

theorem whole_second_of_le {start stop : Int} (hlow : start ≤ start - start % 1000)
    (hhigh : start - start % 1000 ≤ stop) : start % 1000 = 0 ∧ start ≤ stop := by
  omega

/-- A segment at the very start is in the schedule. -/
theorem OrkProgram.Scheduled.start_of_inOrder (h : prog.Scheduled)
    (hpass : ∀ date, InSchedule z prog date → InOrder z prog date) :
    (prog.cycle = .WEEKLY → prog.startDay.ordinal ≤ prog.stopDay.ordinal) ∧
      prog.startTime % 1000 = 0 ∧ prog.startTime ≤ prog.stopTime := by
  obtain ⟨date, hon, hday, htime, hsince⟩ := h.exists_date z h.start
  have hstart : Cyclic.Between 86400000 prog.startTime prog.stopTime prog.startTime :=
    Cyclic.between_start (by decide)
  obtain ⟨hdays, hlow, hhigh⟩ := hpass date ⟨hon, by rwa [htime]⟩
  rw [hsince] at hlow hhigh
  refine ⟨?_, whole_second_of_le hlow hhigh⟩
  intro hc
  rw [← hday hc]
  exact (hdays hc).2

/-- All of the second of the stop passes. -/
theorem OrkProgram.Scheduled.stop_of_inSchedule (h : prog.Scheduled)
    (hpass : ∀ date, InOrder z prog date → InSchedule z prog date)
    (hdays : prog.cycle = .WEEKLY → prog.startDay.ordinal ≤ prog.stopDay.ordinal)
    (hstart : prog.startTime % 1000 = 0) (htimes : prog.startTime ≤ prog.stopTime) :
    prog.stopTime % 1000 = 999 := by
  obtain ⟨hlow, hlt⟩ := h.stop
  obtain ⟨date, hon, -, htime, hsince⟩ := h.exists_date z (t := prog.stopTime / 1000 * 1000 + 999) (by omega)
  have hin := hpass date ⟨(h.onDays_iff hdays date).mp hon, by omega, by omega⟩
  have hle := ((h.inSchedule_iff htimes date).mp hin).2.2
  omega

/-- The segments at the start and in the second of the stop decide, but for the clocks. -/
theorem plain_of_schedule (h : prog.Scheduled) (hall : ∀ seg : OrkSegment SegmentDetails,
    filterSegmentAgainstProgramSchedule z seg prog = true ↔ InSchedule z prog seg.timestamp) :
    Plain z prog := by
  have hpass (date : Int) : InOrder z prog date ↔ InSchedule z prog date := by
    have hseg := hall { timestamp := date, duration := 0, details := {} }
    rwa [schedule_iff h] at hseg
  obtain ⟨hdays, hstart, htimes⟩ := h.start_of_inOrder fun date => (hpass date).mpr
  have hstop := h.stop_of_inSchedule (fun date => (hpass date).mp) hdays hstart htimes
  refine ⟨htimes, hdays, hstart, hstop, ?_⟩
  intro date hon
  have hdate := hpass date
  rw [InOrder, whole_seconds_iff hstart hstop, ← h.onDays_iff hdays, h.inSchedule_iff htimes] at hdate
  simpa [hon] using hdate

/-- **Quota and schedule.** -/
theorem quotaAndSchedule_iff (z : TimeZone) (prog : OrkProgram) :
    (prog.recPerCycle ≠ 0 → ∀ offers, (acceptedCount z prog offers : Int) ≤ prog.recPerCycle.toInt ↔
      (eligibleCount z prog offers : Int) ≤ prog.recPerCycle.toInt ∨
        0 ≤ prog.recPerCycle.toInt ∧ prog.recPerCycle.toInt < 2 ^ 31 - 1 ∧ 1 ≤ prog.recordedSoFar.toInt) ∧
    (prog.Scheduled → ((∀ seg : OrkSegment SegmentDetails,
      filterSegmentAgainstProgramSchedule z seg prog = true ↔ InSchedule z prog seg.timestamp) ↔
        Plain z prog)) :=
  ⟨acceptedCount_le_iff, fun h => ⟨plain_of_schedule h, fun hp => hp.schedule h⟩⟩

/-! ## Where the clocks are never changed -/

/-- Local time is always as far ahead. -/
def TimeZone.fixed (c : Int) : TimeZone where
  offset _ := c
  offsetByWall _ := c
  ordinaryWeek := ⟨0, c, by simp⟩

theorem sinceMidnight_fixed (c date : Int) :
    (TimeZone.fixed c).sinceMidnight date = (TimeZone.fixed c).timeOfDay date := by
  simp only [TimeZone.sinceMidnight, TimeZone.timeOfDay, TimeZone.instant, TimeZone.wall, TimeZone.fixed]
  omega

/-- From Tuesday to Thursday, between 22:00 and 23:00. -/
def evenings : OrkProgram :=
  { cycle := .WEEKLY, startDay := .TUESDAY, stopDay := .THURSDAY, startTime := 79200000, stopTime := 82799999,
    recPerCycle := 2 }

/-- Every day from 22:00 to 6:00. -/
def nights : OrkProgram :=
  { cycle := .DAILY, startTime := 79200000, stopTime := 21600000 }

/-- One segment, at any time. -/
def once : OrkProgram :=
  { startTime := 0, stopTime := 0, recPerCycle := 1 }

theorem plain_evenings : Plain (.fixed 0) evenings where
  times := by decide
  days _ := by decide
  start := by decide
  stop := by decide
  clock date _ := by rw [sinceMidnight_fixed]

theorem quotaAndSchedule_evenings :
    (acceptedCount (.fixed 0) evenings [(⟨81900000, 0, {}⟩, 0)] : Int) ≤ 2 ∧
    ∀ seg : OrkSegment SegmentDetails, filterSegmentAgainstProgramSchedule (.fixed 0) seg evenings = true ↔
      InSchedule (.fixed 0) evenings seg.timestamp :=
  ⟨((quotaAndSchedule_iff (.fixed 0) evenings).1 (by decide) _).mpr (.inl (by decide)),
    ((quotaAndSchedule_iff (.fixed 0) evenings).2 ⟨by decide, by decide, by decide⟩).mpr plain_evenings⟩

/-- Two segments are accepted where there is a limit of one, and none at 23:00 in the nights. -/
theorem not_quotaAndSchedule :
    ¬(acceptedCount (.fixed 0) once [(⟨0, 0, {}⟩, 0), (⟨1000, 0, {}⟩, 0)] : Int) ≤ once.recPerCycle.toInt ∧
    nights.Scheduled ∧
      ¬(filterSegmentAgainstProgramSchedule (.fixed 0) ⟨82800000, 0, {}⟩ nights = true ↔
        InSchedule (.fixed 0) nights 82800000) := by
  have hin : InSchedule (.fixed 0) nights 82800000 := by
    refine ⟨by simp [OnDays, nights], ?_⟩
    exact (Cyclic.between_iff_of_lt (by decide) (by decide) (by decide) (by decide) (by decide)).mpr
      (.inl (by decide))
  refine ⟨by decide, ⟨by decide, by decide, by decide⟩, fun h => ?_⟩
  exact absurd (h.mpr hin) (by decide)

end Oreka.Orktrack
