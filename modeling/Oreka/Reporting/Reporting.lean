import Mathlib.Data.List.Dedup
import Mathlib.Logic.Function.Basic
import Oreka.Base.ThreadSafeQueue

/-!
# Reporting

`Reporting.cpp`: any number of callers of `AddMessage`, and a thread for each tracker with its message
queue. An action is one section under a mutex, one operation of a semaphore, or one call of `Execute`;
`push` holds the mutex of the queue until it has released the semaphore, so that it is one action. An
action that a thread cannot take where it stands changes nothing. The event streams that `AddMessage`
also serves, what `HandleResponse` does, the sleeps and the log are left out. The threads have all been
started.
-/

namespace Oreka

/-- What the threads ask of a message. -/
structure MessageTests (μ : Type*) where
  /-- Whether it is an `IReportable`. -/
  isReportable : μ → Bool
  isValid : μ → Bool
  isRealtime : μ → Bool

/-- What `Execute` comes to: true, false, or the exception of an answer that cannot be deserialized. -/
inductive ExecuteResult
  | ok
  | failed
  | exception
  deriving DecidableEq, Repr

/-- Where the thread of a tracker is in `Run`. -/
inductive ReportingCall (μ : Type*)
  /-- Before the init message is answered. -/
  | connecting
  /-- In `pop`, before the semaphore is acquired. -/
  | waiting
  /-- In `pop`, behind it. -/
  | acquired
  /-- At the head of the loop that sends a message. -/
  | sending (message : μ)
  /-- Before `Execute`. -/
  | executing (message : μ)
  | stopped
  deriving DecidableEq, Repr

/-- The message that a thread has taken off its queue. -/
def ReportingCall.current {μ : Type*} : ReportingCall μ → List μ
  | sending message | executing message => [message]
  | _ => []

/-- A tracker and its thread. -/
structure ReportingThread (μ : Type*) where
  messageQueue : ThreadSafeQueue μ
  numTapesToSkip : Int := 0
  call : ReportingCall μ := .connecting
  /-- The calls of `Execute` for messages, and what they came to. -/
  attempts : List (μ × ExecuteResult) := []
  /-- What has been pushed, whether the queue was full or not. No operation reads this. -/
  offered : List μ := []
  /-- What the queue has taken. No operation reads this. -/
  accepted : List μ := []
  /-- The sum of what `SkipTapes` has been called with. No operation reads this. -/
  skips : Int := 0

namespace ReportingThread

variable {μ : Type*}

/-- `push`. -/
def push (t : ReportingThread μ) (message : μ) : ReportingThread μ :=
  let q := t.messageQueue.enqueue message
  { t with
    messageQueue := { q with count := q.count + 1 }
    offered := t.offered ++ [message]
    accepted := if t.messageQueue.hasRoom then t.accepted ++ [message] else t.accepted }

/-- The section of `pop` under the mutex, and the tests on the message. -/
def pop (tests : MessageTests μ) (enableReporting isStopping : Bool) (t : ReportingThread μ) :
    ReportingThread μ :=
  match t.messageQueue.dequeue with
  | (q, none) => { t with messageQueue := q, call := if isStopping then .stopped else .waiting }
  | (q, some message) =>
    { t with
      messageQueue := q
      call := if tests.isValid message ∧ tests.isReportable message ∧ enableReporting then .sending message
        else .waiting }

/-- `SkipTapes`, under the mutex. -/
def skipTapes (t : ReportingThread μ) (number : Int) : ReportingThread μ :=
  { t with numTapesToSkip := t.numTapesToSkip + number, skips := t.skips + number }

/-- `IsSkip`, in the condition of the loop. -/
def isSkip (t : ReportingThread μ) (message : μ) : ReportingThread μ :=
  if t.numTapesToSkip > 0 then { t with numTapesToSkip := t.numTapesToSkip - 1, call := .waiting }
  else { t with call := .executing message }

/-- `Execute`, and what follows. -/
def execute (tests : MessageTests μ) (t : ReportingThread μ) (message : μ) (result : ExecuteResult) :
    ReportingThread μ :=
  { t with
    attempts := t.attempts ++ [(message, result)]
    call := match result with
      | .ok | .exception => .waiting
      -- no need to resend realtime messages
      | .failed => if tests.isRealtime message then .waiting else .sending message }

end ReportingThread

/-- The actions of the thread of a tracker. -/
inductive ReportingThreadAction
  /-- The init message is executed, and whether the answer is a success. -/
  | init (success : Bool)
  | acquire
  /-- `isStopping` is asked only when no message was there. -/
  | pop (isStopping : Bool)
  | isSkip
  | execute (result : ExecuteResult)
  deriving DecidableEq, Repr

def ReportingThread.step {μ : Type*} (tests : MessageTests μ) (enableReporting : Bool) (t : ReportingThread μ) :
    ReportingThreadAction → ReportingThread μ
  | .init success =>
    match t.call with
    | .connecting => if success then { t with call := .waiting } else t
    | _ => t
  | .acquire =>
    match t.call with
    | .waiting =>
      if t.messageQueue.count > 0 then
        { t with messageQueue := { t.messageQueue with count := t.messageQueue.count - 1 }, call := .acquired }
      else t
    | _ => t
  | .pop isStopping =>
    match t.call with
    | .acquired => t.pop tests enableReporting isStopping
    | _ => t
  | .isSkip =>
    match t.call with
    | .sending message => t.isSkip message
    | _ => t
  | .execute result =>
    match t.call with
    | .executing message => t.execute tests message result
    | _ => t

/-- The trackers, `κ` their identities, and the calls of `AddMessage`. -/
structure Reporting (κ μ : Type*) where
  /-- `s_reportingThreadsVector`. -/
  trackers : List κ
  /-- `m_hostname` of a tracker, its key in `s_reportingThreads`. -/
  hostname : κ → String
  thread : κ → ReportingThread μ
  /-- The calls of `AddMessage` in progress: the message, and the trackers it is still to be pushed to. -/
  adding : List (μ × List κ) := []
  /-- The reportable messages that `AddMessage` has been called with. No operation reads this. -/
  log : List μ := []

inductive ReportingAction (κ μ : Type*)
  | addMessage (message : μ)
  /-- The `n`th call in progress pushes its message to its next tracker. -/
  | push (n : Nat)
  | skipTapes (number : Int) (trackingServer : String)
  | thread (k : κ) (a : ReportingThreadAction)
  deriving DecidableEq, Repr

namespace Reporting

variable {κ μ : Type*} [DecidableEq κ]

/-- The queues of the given size, no message in them. -/
def new (reportingQueueSize : Int) (trackers : List κ) (hostname : κ → String) : Reporting κ μ where
  trackers
  hostname
  thread _ := { messageQueue := .new reportingQueueSize }

def setThread (s : Reporting κ μ) (k : κ) (t : ReportingThread μ) : Reporting κ μ :=
  { s with thread := Function.update s.thread k t }

/-- `SkipTapes`: the thread it finds. A map keeps the first thread of a hostname. -/
def skipTapesThread (s : Reporting κ μ) (trackingServer : String) : Option κ :=
  if trackingServer = "" then
    if (s.trackers.map s.hostname).dedup.length = 1 then s.trackers.head? else none
  else s.trackers.find? fun k => s.hostname k = trackingServer

def step (tests : MessageTests μ) (enableReporting : Bool) (s : Reporting κ μ) :
    ReportingAction κ μ → Reporting κ μ
  | .addMessage message =>
    if tests.isReportable message then
      { s with adding := s.adding ++ [(message, s.trackers)], log := s.log ++ [message] }
    else s
  | .push n =>
    match s.adding[n]? with
    | some (message, k :: rest) =>
      { s.setThread k ((s.thread k).push message) with adding := s.adding.set n (message, rest) }
    | some (_, []) => { s with adding := s.adding.eraseIdx n }
    | none => s
  | .skipTapes number trackingServer =>
    match s.skipTapesThread trackingServer with
    | some k => s.setThread k ((s.thread k).skipTapes number)
    | none => s
  | .thread k a => s.setThread k ((s.thread k).step tests enableReporting a)

end Reporting

end Oreka
