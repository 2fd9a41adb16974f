import Mathlib.Logic.Function.Basic
import Oreka.Lib.Run

/-!
# Event streaming

`EventStreaming.cpp` and `EventStreamingServer::StreamingSvc` (`MultiThreadedServer.cpp`) as a system of
threads: the callers of `AddMessage`, and the thread of each stream with its session. An action is one
section under a mutex, one operation of a semaphore, or one send to a client. `AddMessage` holds the
mutex of the sessions over its loop, in which it locks one session after the other. An action that a
thread cannot take where it stands changes nothing. What is sent around the messages (the HTTP header,
the log) is left out.
-/

namespace Oreka.Streaming

/-- The fields of a session. -/
structure EventStreamingSession (μ : Type*) where
  messages : List μ := []
  /-- `m_count` of the semaphore. -/
  count : Nat := 1
  deriving DecidableEq, Repr

namespace EventStreamingSession

variable {μ : Type*}

/-- `m_messages.size() > 10000`: the oldest message is dropped. -/
def drops (s : EventStreamingSession μ) : Bool := s.messages.length > 10000

/-- `AddMessage`; a message that is not an `IReportable` is not added. -/
def addMessage (reportable : μ → Bool) (s : EventStreamingSession μ) (message : μ) :
    EventStreamingSession μ :=
  let messages := if s.drops then s.messages.tail else s.messages
  if reportable message then { messages := messages ++ [message], count := s.count + 1 }
  else { s with messages }

/-- `GetTapeMessage`: none for a reference that stays null. -/
def getTapeMessage (s : EventStreamingSession μ) : EventStreamingSession μ × Option μ :=
  match s.messages with
  | [] => (s, none)
  | message :: rest => ({ s with messages := rest }, some message)

end EventStreamingSession

/-- Where the thread of a stream is in `StreamingSvc`. -/
inductive StreamingSvc (μ : Type*)
  | new
  /-- Behind `AddSession`, before the sessions are counted. -/
  | added
  /-- Before `WaitForMessages`. -/
  | waiting
  /-- At the head of the inner loop. -/
  | polling
  /-- Before `GetTapeMessage`. -/
  | taking
  /-- Before the message is sent. -/
  | sending (message : μ)
  /-- Before `RemoveSession`. -/
  | removing
  | stopped
  deriving DecidableEq, Repr

namespace StreamingSvc

variable {μ : Type*}

/-- Between `AddSession` and `RemoveSession`. -/
def isListed : StreamingSvc μ → Bool
  | new | stopped => false
  | _ => true

/-- Behind the count of the sessions, in the loop that sends. -/
def isStreaming : StreamingSvc μ → Bool
  | waiting | polling | taking | sending _ => true
  | _ => false

/-- The message that has been taken and is still to be sent. -/
def inFlight : StreamingSvc μ → List μ
  | sending message => [message]
  | _ => []

end StreamingSvc

/-- The sessions, `ι` their identities. -/
structure EventStreaming (ι μ : Type*) where
  /-- `m_sessions`. -/
  sessions : List ι := []
  session : ι → EventStreamingSession μ := fun _ => {}
  /-- The `AddMessage` that holds the mutex: its message, and the sessions that are still to be given it. -/
  adding : Option (μ × List ι) := none
  svc : ι → StreamingSvc μ := fun _ => .new
  /-- What each stream has sent to its client. -/
  sent : ι → List μ := fun _ => []
  /-- What `AddMessage` has been called with, in the order of the mutex. No operation reads this. -/
  log : List μ := []
  /-- How many of them there were before a session was added. No operation reads this. -/
  joined : ι → Nat := fun _ => 0
  /-- How many messages a session has dropped. No operation reads this. -/
  dropped : ι → Nat := fun _ => 0

inductive StreamingAction (ι μ : Type*)
  /-- `AddMessage` locks the sessions. -/
  | addMessage (message : μ)
  /-- It gives the message to the next session. -/
  | give
  /-- It has given it to all of them. -/
  | unlock
  | addSession (i : ι)
  /-- `GetNumSessions() > 100`. -/
  | getNumSessions (i : ι)
  | waitForMessages (i : ι)
  | getNumMessages (i : ι)
  | getTapeMessage (i : ι)
  /-- `apr_socket_send`, and whether it succeeds. -/
  | send (i : ι) (ok : Bool)
  | removeSession (i : ι)
  deriving DecidableEq, Repr

namespace EventStreaming

variable {ι μ : Type*} [DecidableEq ι]

def setSession (s : EventStreaming ι μ) (i : ι) (session : EventStreamingSession μ) : EventStreaming ι μ :=
  { s with session := Function.update s.session i session }

def setSvc (s : EventStreaming ι μ) (i : ι) (svc : StreamingSvc μ) : EventStreaming ι μ :=
  { s with svc := Function.update s.svc i svc }

/-- A session is given the message. -/
def giveTo (reportable : μ → Bool) (s : EventStreaming ι μ) (i : ι) (message : μ) : EventStreaming ι μ :=
  { s.setSession i ((s.session i).addMessage reportable message) with
    dropped := Function.update s.dropped i (s.dropped i + if (s.session i).drops then 1 else 0) }

def step (reportable : μ → Bool) (s : EventStreaming ι μ) : StreamingAction ι μ → EventStreaming ι μ
  | .addMessage message =>
    match s.adding with
    | none => { s with adding := some (message, s.sessions), log := s.log ++ [message] }
    | some _ => s
  | .give =>
    match s.adding with
    | some (message, i :: rest) =>
      { s.giveTo reportable i message with adding := some (message, rest) }
    | _ => s
  | .unlock =>
    match s.adding with
    | some (_, []) => { s with adding := none }
    | _ => s
  | .addSession i =>
    match s.adding, s.svc i with
    | none, .new =>
      { s.setSvc i .added with
        sessions := s.sessions ++ [i]
        joined := Function.update s.joined i s.log.length }
    | _, _ => s
  | .getNumSessions i =>
    match s.adding, s.svc i with
    | none, .added => s.setSvc i (if s.sessions.length > 100 then .removing else .waiting)
    | _, _ => s
  | .waitForMessages i =>
    match s.svc i with
    | .waiting =>
      if (s.session i).count > 0 then
        (s.setSession i { s.session i with count := (s.session i).count - 1 }).setSvc i .polling
      else s
    | _ => s
  | .getNumMessages i =>
    match s.svc i with
    | .polling => s.setSvc i (if (s.session i).messages.isEmpty then .waiting else .taking)
    | _ => s
  | .getTapeMessage i =>
    match s.svc i with
    | .taking =>
      let r := (s.session i).getTapeMessage
      (s.setSession i r.1).setSvc i (r.2.elim .polling .sending)
    | _ => s
  | .send i ok =>
    match s.svc i with
    | .sending message =>
      if ok then
        { s.setSvc i .polling with sent := Function.update s.sent i (s.sent i ++ [message]) }
      else s.setSvc i .removing
    | _ => s
  | .removeSession i =>
    match s.adding, s.svc i with
    | none, .removing => { s.setSvc i .stopped with sessions := s.sessions.filter (· ≠ i) }
    | _, _ => s

/-- What `AddMessage` is still to give to a session. -/
def toCome (s : EventStreaming ι μ) (i : ι) : List μ :=
  match s.adding with
  | some (message, rest) => if i ∈ rest then [message] else []
  | none => []

end EventStreaming

end Oreka.Streaming
