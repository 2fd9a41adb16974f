import Mathlib.Algebra.Order.Group.Int
import Mathlib.Data.Finset.Sum
import Oreka.Orktrack.PortManager

/-!
# A track port

`Port.java` of orktrack: what a port does with the tape and metadata messages that are reported to it. Segments
refer to their tape; the associations are made by two walks, over the tapes that are cached when a segment is
completed and over the segments that are cached when a tape is.
-/

namespace Oreka.Orktrack

/-- `TapeMessage.CaptureStage`. -/
inductive CaptureStage
  | START | STOP | READY | COMPLETE | UNKN
  deriving DecidableEq, Repr

/-- An `OrkService`, so far as a port asks for it. -/
structure OrkService where
  name : String
  recordMaster : Bool := false
  deriving DecidableEq, Repr

/-- A `TapeMessage`; `details` are its direction, its parties, its entry point and its file name. -/
structure TapeMessage (μ : Type*) where
  stage : CaptureStage
  timestamp : Int32
  duration : Int32 := 0
  details : μ
  deriving DecidableEq, Repr

/-- A `MetadataMessage`, with the same details less the file name. -/
structure MetadataMessage (μ : Type*) where
  stage : CaptureStage
  timestamp : Int32
  duration : Int32 := 0
  details : μ
  deriving DecidableEq, Repr

/-- A tape, `id` being the one it is saved under. Times are in milliseconds. -/
structure OrkTape (μ : Type*) where
  id : Nat
  timestamp : Int
  duration : Int
  service : OrkService
  details : μ
  deriving DecidableEq, Repr

/-- What a segment keeps all its life. Its tape and offset are set from outside, possibly more than once. -/
structure OrkSegment (μ : Type*) where
  timestamp : Int
  duration : Int
  details : μ
  deriving DecidableEq, Repr

/-- The two caches of a port, most recent first, and the `tape` and `tapeOffset` of each segment. Segments are
numbered in the order in which they are made. -/
structure PortCache (μ : Type*) where
  recTapes : List (OrkTape μ) := []
  recSegments : List (Nat × OrkSegment μ) := []
  numTapes : Nat := 0
  numSegments : Nat := 0
  tape : Nat → Option (OrkTape μ) := fun _ => none
  tapeOffset : Nat → Int := fun _ => 0

/-- A `Port`, with what it keeps between two messages. -/
structure TrackPort (μ : Type*) extends Port where
  lastTapeMessage : Option (TapeMessage μ) := none
  lastMetadataMessage : Option (MetadataMessage μ) := none
  cache : PortCache μ := {}

/-- A message of either kind, with the service that sent it. -/
inductive PortMessage (μ : Type*)
  | tape (m : TapeMessage μ) (srv : OrkService)
  | metadata (m : MetadataMessage μ) (srv : OrkService)

variable {μ α σ : Type*}

def areTogether (tape : OrkTape μ) (seg : OrkSegment μ) : Bool :=
  let segStartTime := seg.timestamp
  let tapeStartTime := tape.timestamp
  let segStopTime := segStartTime + seg.duration
  let tapeStopTime := tapeStartTime + tape.duration
  (segStartTime > tapeStartTime || tapeStartTime - segStartTime < 3000) &&
    (segStopTime < tapeStopTime || segStopTime - tapeStopTime < 3000)

/-- The loop of `findAndAssociateTape` and `findAndAssociateSegment`: it ends at the first gap once something
has been found. -/
def associate (together : α → Bool) (join : σ → α → σ) : List α → Bool → σ → σ
  | [], _, s => s
  | x :: it, foundOne, s =>
    if together x then associate together join it true (join s x)
    else if foundOne then s
    else associate together join it foundOne s

namespace PortCache

def addTapeToLocalCache (c : PortCache μ) (tape : OrkTape μ) : PortCache μ :=
  let recTapes := if c.recTapes.length > 50 then c.recTapes.dropLast else c.recTapes
  { c with recTapes := tape :: recTapes }

def addSegmentToLocalCache (c : PortCache μ) (seg : Nat × OrkSegment μ) : PortCache μ :=
  let recSegments := if c.recSegments.length > 50 then c.recSegments.dropLast else c.recSegments
  { c with recSegments := seg :: recSegments }

def joinTogether (c : PortCache μ) (tape : OrkTape μ) (seg : Nat × OrkSegment μ) : PortCache μ :=
  { c with
    tape := Function.update c.tape seg.1 (some tape)
    tapeOffset := Function.update c.tapeOffset seg.1 (seg.2.timestamp - tape.timestamp) }

def findAndAssociateTape (c : PortCache μ) (segment : Nat × OrkSegment μ) : PortCache μ :=
  associate (areTogether · segment.2) (fun c tape => c.joinTogether tape segment) c.recTapes false c

def findAndAssociateSegment (c : PortCache μ) (tape : OrkTape μ) : PortCache μ :=
  associate (areTogether tape ·.2) (fun c segment => c.joinTogether tape segment) c.recSegments false c

/-- A segment that is retained: cached, and associated. -/
def addSegment (c : PortCache μ) (seg : OrkSegment μ) : PortCache μ :=
  let segment := (c.numSegments, seg)
  ({ c with numSegments := c.numSegments + 1 }.addSegmentToLocalCache segment).findAndAssociateTape segment

/-- A tape whose segments come from metadata messages. -/
def addTape (c : PortCache μ) (tape : OrkTape μ) : PortCache μ :=
  ({ c with numTapes := c.numTapes + 1 }.addTapeToLocalCache tape).findAndAssociateSegment tape

/-- A tape that is a segment of its own, if that is retained. Neither of them is cached. -/
def addTapeWithSegment (c : PortCache μ) (tape : OrkTape μ) (retained : Bool) : PortCache μ :=
  if retained then
    { c with
      numTapes := c.numTapes + 1
      numSegments := c.numSegments + 1
      tape := Function.update c.tape c.numSegments (some tape)
      tapeOffset := Function.update c.tapeOffset c.numSegments 0 }
  else { c with numTapes := c.numTapes + 1 }

end PortCache

namespace TrackPort

section

-- What the active programs retain.
variable (filterSegmentAgainstAllPrograms : OrkSegment μ → Bool)

/-- The start date and the duration of the segment that a metadata message completes. The product is of `int`s
where the message is complete in itself. -/
def segmentTimes (p : TrackPort μ) (m : MetadataMessage μ) : Option (Int × Int) :=
  match m.stage with
  | .STOP => p.lastMetadataMessage.map fun last =>
      (last.timestamp.toInt * 1000, (m.timestamp.toInt - last.timestamp.toInt) * 1000)
  | .COMPLETE => some ((m.timestamp * 1000).toInt, m.duration.toInt * 1000)
  | _ => none

def notifyMetadataMessage (p : TrackPort μ) (m : MetadataMessage μ) (srv : OrkService) : TrackPort μ :=
  let p := if m.stage = .START then { p with lastMetadataMessage := some m } else p
  match p.segmentTimes m with
  | none => p
  | some (startDate, duration) =>
    let recSegment : OrkSegment μ := ⟨startDate, duration, m.details⟩
    if srv.recordMaster && filterSegmentAgainstAllPrograms recSegment then
      { p with cache := p.cache.addSegment recSegment }
    else p

def notifyTapeMessage (p : TrackPort μ) (m : TapeMessage μ) (srv : OrkService) : TrackPort μ :=
  if m.stage = .START then { p with lastTapeMessage := some m }
  else match p.lastTapeMessage with
    | none => p
    | some startMessage =>
      if startMessage.stage = .START ∧ m.stage = .STOP then
        let timestamp := startMessage.timestamp.toInt * 1000
        let duration := m.duration.toInt
        let recTape : OrkTape μ := ⟨p.cache.numTapes, timestamp, duration, srv, m.details⟩
        let generateSegment := p.portFaces.length = 1 ∨ srv.recordMaster
        if generateSegment then
          let retained := filterSegmentAgainstAllPrograms ⟨timestamp, duration, m.details⟩
          { p with cache := p.cache.addTapeWithSegment recTape retained }
        else { p with cache := p.cache.addTape recTape }
      else p

def notify (p : TrackPort μ) : PortMessage μ → TrackPort μ
  | .tape m srv => p.notifyTapeMessage filterSegmentAgainstAllPrograms m srv
  | .metadata m srv => p.notifyMetadataMessage filterSegmentAgainstAllPrograms m srv

/-- What has become of a port once the messages have been reported to it. -/
def run (p : TrackPort μ) (l : List (PortMessage μ)) : TrackPort μ :=
  l.foldl (notify filterSegmentAgainstAllPrograms) p

end

end TrackPort

end Oreka.Orktrack
