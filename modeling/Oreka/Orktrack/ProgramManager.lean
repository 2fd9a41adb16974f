import Mathlib.Data.Rat.Defs
import Mathlib.Algebra.Order.Ring.Unbundled.Rat
import Oreka.Orktrack.Port

/-!
# The program manager

`ProgramManager.java` of orktrack: whether a program accepts a segment, by its criteria and by its schedule. A
program counts what it has accepted. Dates are in milliseconds since 1970; those of a program's `startTime` and
`stopTime` are times of the day.
-/

namespace Oreka.Orktrack

inductive Direction
  | IN | OUT | ALL | UNKN
  deriving DecidableEq, Repr

inductive Day
  | MONDAY | TUESDAY | WEDNESDAY | THURSDAY | FRIDAY | SATURDAY | SUNDAY | UNKN
  deriving DecidableEq, Repr

def Day.ordinal : Day → Int
  | .MONDAY => 0
  | .TUESDAY => 1
  | .WEDNESDAY => 2
  | .THURSDAY => 3
  | .FRIDAY => 4
  | .SATURDAY => 5
  | .SUNDAY => 6
  | .UNKN => 7

inductive Cycle
  | PERMANENT | HOURLY | DAILY | WEEKLY | MONTHLY | UNKN
  deriving DecidableEq, Repr

/-- What a program asks of a segment beside its times; `user` and `port` are ids, `none` where they are null. -/
structure SegmentDetails where
  direction : Direction := .UNKN
  localParty : String := ""
  remoteParty : String := ""
  user : Option Nat := none
  port : Option Nat := none
  deriving DecidableEq, Repr

/-- An `OrkProgram`; `randomPercent` is a `double`, all values of which are rational. -/
structure OrkProgram where
  direction : Direction := .ALL
  minDuration : Int32 := 0
  maxDuration : Int32 := 0
  randomPercent : ℚ := 0
  cycle : Cycle := .PERMANENT
  startDay : Day := .UNKN
  stopDay : Day := .UNKN
  startTime : Int
  stopTime : Int
  recPerCycle : Int32 := 0
  recordedSoFar : Int32 := 0
  localParty : String := ""
  remoteParty : String := ""
  targetUser : Option Nat := none
  targetPort : Option Nat := none

def OrkProgram.setRecordedSoFar (prog : OrkProgram) (recordedSoFar : Int32) : OrkProgram :=
  { prog with recordedSoFar }

/-! ## Dates -/

/-- The time zone that `java.util.Date` reads its fields in, in seconds: how far local time is ahead at an
instant, and what is taken off a local time to get to the instant. In some week no clock is changed. -/
structure TimeZone where
  offset : Int → Int
  offsetByWall : Int → Int
  ordinaryWeek : ∃ week c, ∀ w, 604800 * week ≤ w → w < 604800 * (week + 1) →
    offsetByWall w = c ∧ offset (w - c) = c

namespace TimeZone

/-- The local time, in seconds. -/
def wall (z : TimeZone) (date : Int) : Int := date / 1000 + z.offset (date / 1000)

/-- The instant of a local time, in seconds. -/
def instant (z : TimeZone) (w : Int) : Int := w - z.offsetByWall w

/-- From Sunday on. The first of January 1970 was a Thursday. -/
def getDay (z : TimeZone) (date : Int) : Int := (z.wall date / 86400 + 4) % 7

end TimeZone

-- The setters change one field of a local time.

def setHours (w hours : Int) : Int := w / 86400 * 86400 + hours * 3600 + w % 3600

def setMinutes (w minutes : Int) : Int := w / 3600 * 3600 + minutes * 60 + w % 60

def setSeconds (w seconds : Int) : Int := w / 60 * 60 + seconds

/-! ## The filters -/

def filterSegmentAgainstProgramSchedule (z : TimeZone) (seg : OrkSegment SegmentDetails) (prog : OrkProgram) :
    Bool :=
  if prog.cycle = .PERMANENT then true
  else
    let startPrgMillis := prog.startTime
    let stopPrgMillis := prog.stopTime
    let startSegMillis := seg.timestamp
    let startOfDay := setSeconds (setMinutes (setHours (z.wall startSegMillis) 0) 0) 0
    -- There is no setter for the milliseconds.
    let startOfDayMillis := z.instant startOfDay * 1000 + startSegMillis % 1000
    let startSegInDayMillis := startSegMillis - startOfDayMillis
    if prog.cycle = .DAILY then
      startSegInDayMillis ≥ startPrgMillis ∧ startSegInDayMillis ≤ stopPrgMillis
    else if prog.cycle = .WEEKLY then
      let startDay := z.getDay seg.timestamp - 1
      let startDay := if startDay = -1 then 6 else startDay
      (startDay ≥ prog.startDay.ordinal ∧ startDay ≤ prog.stopDay.ordinal) ∧
        startSegInDayMillis ≥ startPrgMillis ∧ startSegInDayMillis ≤ stopPrgMillis
    else false

/-- How `filterSegmentAgainstProgram` ends. -/
inductive FilterResult
  | accepted
  | dropped (dropReason : String)
  | nullPointerException
  deriving DecidableEq, Repr

/-- The criteria are looked at in turn, each with its reason to drop; `none` is a null that is followed. -/
def FilterResult.ofCriteria : List (String × Option Bool) → FilterResult
  | [] => .accepted
  | (_, none) :: _ => .nullPointerException
  | (dropReason, some true) :: _ => .dropped dropReason
  | (_, some false) :: criteria => ofCriteria criteria

/-- Whether the id is another than the one that is targeted, if any is. -/
def isOther : Option Nat → Option Nat → Option Bool
  | none, _ => some false
  | some _, none => none
  | some target, some id => some (id ≠ target)

/-- The criteria that do not depend on what has been accepted before, less the schedule. Products are of
`int`s. -/
def criteria (random : ℚ) (seg : OrkSegment SegmentDetails) (prog : OrkProgram) : List (String × Option Bool) :=
  [("Dir.", some (prog.direction ≠ .ALL ∧ seg.details.direction ≠ prog.direction)),
    ("Max Dur.", some (prog.maxDuration > 0 ∧ seg.duration > (prog.maxDuration * 1000).toInt)),
    ("Min Dur.", some (prog.minDuration > 0 ∧ seg.duration < (prog.minDuration * 1000).toInt)),
    ("Random percent", some (prog.randomPercent ≠ 0 ∧ random > prog.randomPercent)),
    ("LocalParty", some (prog.localParty.length > 0 ∧ seg.details.localParty ≠ prog.localParty)),
    ("RemoteParty", some (prog.remoteParty.length > 0 ∧ seg.details.remoteParty ≠ prog.remoteParty)),
    ("Target User", isOther prog.targetUser seg.details.user),
    ("Target Port", isOther prog.targetPort seg.details.port)]

/-- `random` is what `Math.random` gives, should it be asked. -/
def filterSegmentAgainstProgram (z : TimeZone) (random : ℚ) (seg : OrkSegment SegmentDetails)
    (prog : OrkProgram) : FilterResult × OrkProgram :=
  let enough : Bool := prog.recPerCycle ≠ 0 ∧ prog.recordedSoFar > prog.recPerCycle
  let result := FilterResult.ofCriteria (criteria random seg prog ++
    [("Enough recordings for this Cycle", some enough),
      ("Schedule", some !(filterSegmentAgainstProgramSchedule z seg prog))])
  (result, if result = .accepted then prog.setRecordedSoFar (prog.recordedSoFar + 1) else prog)

/-- How many of the segments that are offered to a program one after the other it accepts. -/
def acceptedCount (z : TimeZone) : OrkProgram → List (OrkSegment SegmentDetails × ℚ) → Nat
  | _, [] => 0
  | prog, (seg, random) :: offers =>
    let result := filterSegmentAgainstProgram z random seg prog
    (if result.1 = .accepted then 1 else 0) + acceptedCount z result.2 offers

end Oreka.Orktrack
