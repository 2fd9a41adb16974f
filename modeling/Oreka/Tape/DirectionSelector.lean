import Oreka.Tape.AudioTape

/-!
# Direction selection

Two places drop the side of a call that is not to be kept: `BatchProcessing::SkipChunk`, by the
direction that the tape keeps, and `DirectionSelector.cpp`, by the marks that the reports of a
direction left on the tape and one that the remote party's area code puts before them. The tape's
remote party is an argument.
-/

namespace Oreka

/-- The `switch` of `BatchProcessing::SkipChunk`. -/
def skips (direction : AudioKeepDirection) (localSide : LocalSide) (channel : UInt8) : Bool :=
  match direction with
  | .both => false
  | .local =>
    match localSide with
    | .side1 => channel ≠ 1
    | .side2 => channel ≠ 2
    | _ => false
  | .remote =>
    match localSide with
    | .side1 => channel = 1
    | .side2 => channel = 2
    | .both => true
    | _ => false
  | .none => true
  | .invalid => false

/-- The tests of `DirectionSelector` on a mark that applies. -/
def blanks (direction : AudioKeepDirection) (localSide : LocalSide) (channel : UInt8) : Bool :=
  match localSide with
  | .side1 => (direction = .local && channel = 2) || (direction = .remote && channel = 1)
  | .side2 => (direction = .local && channel = 1) || (direction = .remote && channel = 2)
  | _ => false

/-- `memset(m_pBuffer, 0, m_numBytes)`. -/
def AudioChunk.blank (chunk : AudioChunk) : AudioChunk :=
  { chunk with buffer := chunk.buffer.map fun _ => 0 }

@[simp] theorem AudioChunk.blank_blank (chunk : AudioChunk) : chunk.blank.blank = chunk.blank := by
  simp [AudioChunk.blank]

/-- The chunk arrives between this mark and the next; a mark at 0 is passed over. -/
def AudioDirectionMarks.appliesTo (m : AudioDirectionMarks) (arrivalTimestamp : Int) : Bool :=
  m.timestamp ≠ 0 && m.timestamp ≤ arrivalTimestamp &&
    (arrivalTimestamp < m.nextTimestampMark || m.nextTimestampMark = 0)

/-- The direction of the first area code, in the order of the map, that the party begins with. -/
def areaCodeDirection (areaCodesMap : Std.TreeMap String String) (remoteParty : String) :
    Option AudioKeepDirection :=
  (areaCodesMap.toList.find? fun code => code.1.toList.isPrefixOf remoteParty.toList).map fun code =>
    .ofText code.2

/-- The direction of the area code is put before the marks. -/
def insertDefaultKeptSide (side : Option AudioKeepDirection) (marks : List AudioDirectionMarks) :
    List AudioDirectionMarks :=
  match side with
  | none => marks
  | some d =>
    { timestamp := 1, nextTimestampMark := marks.head?.elim 0 (·.timestamp)
      audioKeepDirection := d } :: marks

namespace AudioTape

/-- `BatchProcessing::SkipChunk`, with `channelToSkip`. -/
def skipChunk (t : AudioTape) (chunk : AudioChunk) : Bool × UInt8 :=
  let skip := skips t.audioKeepDirection t.localSide chunk.details.channel
  (skip, if skip then chunk.details.channel else 0)

/-- A mark applies to the chunk and blanks it. -/
def isBlankedBy (t : AudioTape) (chunk : AudioChunk) (m : AudioDirectionMarks) : Bool :=
  m.appliesTo chunk.details.arrivalTimestamp.toNat &&
    blanks m.audioKeepDirection t.localSide chunk.details.channel

/-- The marks on the tape when `DirectionSelector` reads its chunks. -/
def selectorMarks (t : AudioTape) (side : Option AudioKeepDirection) : List AudioDirectionMarks :=
  insertDefaultKeptSide side t.audioDirectionMarks

/-- A chunk read from the tape's file, as it is written back. -/
def selectDirection (t : AudioTape) (side : Option AudioKeepDirection) (chunk : AudioChunk) :
    AudioChunk :=
  (t.selectorMarks side).foldl (fun c m => if t.isBlankedBy chunk m then c.blank else c) chunk

/-- Some mark blanks the chunk. -/
def silences (t : AudioTape) (side : Option AudioKeepDirection) (chunk : AudioChunk) : Bool :=
  (t.selectorMarks side).any (t.isBlankedBy chunk)

/-- The marks blank the chunk again or not at all. -/
theorem foldl_isBlankedBy (t : AudioTape) (chunk c : AudioChunk) (hc : c.blank = chunk.blank)
    (marks : List AudioDirectionMarks) :
    marks.foldl (fun c m => if t.isBlankedBy chunk m then c.blank else c) c =
      if marks.any (t.isBlankedBy chunk) then chunk.blank else c := by
  induction marks generalizing c with
  | nil => simp
  | cons m marks ih =>
    by_cases hm : t.isBlankedBy chunk m
    · simp [hm, hc, ih]
    · simp [hm, ih c hc]

theorem selectDirection_eq (t : AudioTape) (side : Option AudioKeepDirection) (chunk : AudioChunk) :
    t.selectDirection side chunk = if t.silences side chunk then chunk.blank else chunk :=
  t.foldl_isBlankedBy chunk chunk rfl _

end AudioTape

/-! ## Reports of a direction -/

/-- An `EtAudioKeepDirection`, and what the two readings of the clock give there. -/
structure DirectionReport where
  now : Int
  later : Int
  direction : AudioKeepDirection
  deriving DecidableEq, Repr

/-- The clock does not go back while these reports come, and is at `first` or later. -/
def InTime (first : Int) : List DirectionReport → Prop
  | [] => True
  | r :: rest => first ≤ r.now ∧ r.now ≤ r.later ∧ InTime r.later rest

/-- The reports on a tape, by a clock that has left 0. -/
structure DirectionHistory where
  reports : List DirectionReport
  inTime : InTime 1 reports

/-- The tape after these reports. -/
def AudioTape.reportDirections (t : AudioTape) (reports : List DirectionReport) : AudioTape :=
  reports.foldl (fun t r => t.addDirectionMark r.now r.later r.direction) t

/-- A run of events by one reading of the clock each is a run of reports. -/
theorem AudioTape.extractInfo_direction (cfg : TapeConfig) (t : AudioTape) (now : Int)
    (event : CaptureEvent) (h : event.type = .audioKeepDirection) :
    t.extractInfo cfg now event = t.reportDirections [⟨now, now, .ofText event.value⟩] := by
  simp [extractInfo, h, reportDirections]

end Oreka
