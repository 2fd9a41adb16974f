import Mathlib.Data.List.Basic
import Mathlib.Logic.Function.Basic
import Oreka.Lib.Run

/-!
# The thread safe queue

`ThreadSafeQueue.h`, over the `OrkSemaphore` of `Utils.h`, as a system of threads: an action of a
thread is one section under the queue's mutex or one operation of the semaphore, whose own mutex
makes it atomic. `push` releases the semaphore while it still holds the queue's mutex. An action that
a thread cannot take where it stands changes nothing.
-/

namespace Oreka

/-- The fields of a queue. -/
structure ThreadSafeQueue (T : Type*) where
  size : Int
  queue : List T
  /-- `m_count` of the semaphore. -/
  count : Nat
  deriving DecidableEq, Repr

namespace ThreadSafeQueue

variable {T : Type*}

/-- `OrkSemaphore()`, of count 1, and the `acquire` of the constructor. -/
def new (size : Int) : ThreadSafeQueue T := ⟨size, [], 0⟩

/-- `(unsigned int)m_size`. -/
def limit (q : ThreadSafeQueue T) : Nat := (q.size % 4294967296).toNat

/-- `m_queue.size() < (unsigned int)m_size`. -/
def hasRoom (q : ThreadSafeQueue T) : Bool := q.queue.length < q.limit

/-- What `push` does before it releases the semaphore. -/
def enqueue (q : ThreadSafeQueue T) (element : T) : ThreadSafeQueue T :=
  if q.hasRoom then { q with queue := q.queue ++ [element] } else q

/-- The section of `pop` under the mutex: the element, none for a default-constructed one. -/
def dequeue (q : ThreadSafeQueue T) : ThreadSafeQueue T × Option T :=
  match q.queue with
  | [] => (q, none)
  | element :: rest => ({ q with queue := rest }, some element)

end ThreadSafeQueue

/-- Where a thread is in its call. -/
inductive QueueCall
  | idle
  /-- In `push`, before the release, with its result; it holds the mutex. -/
  | pushing (result : Bool)
  /-- In `pop`, before the semaphore is acquired. -/
  | popping
  /-- In `pop`, behind it. -/
  | acquired
  deriving DecidableEq, Repr

/-- A queue and its threads; what the pushes have stored and the pops have returned so far. -/
structure QueueSystem (τ T : Type*) where
  q : ThreadSafeQueue T
  mutex : Option τ
  call : τ → QueueCall
  pushed : List T
  popped : List (Option T)

inductive QueueAction (T : Type*)
  | push (element : T)
  | release
  | pop
  | acquire
  | take
  | setSize (size : Int)
  deriving DecidableEq, Repr

namespace QueueSystem

variable {τ T : Type*} [DecidableEq τ]

def new (size : Int) : QueueSystem τ T := ⟨.new size, none, fun _ => .idle, [], []⟩

/-- An action of thread `t`. -/
def step (s : QueueSystem τ T) : τ × QueueAction T → QueueSystem τ T
  | (t, .push element) =>
    if s.call t = .idle ∧ s.mutex = none then
      { s with q := s.q.enqueue element
               mutex := some t
               call := Function.update s.call t (.pushing s.q.hasRoom)
               pushed := if s.q.hasRoom then s.pushed ++ [element] else s.pushed }
    else s
  | (t, .release) =>
    match s.call t with
    | .pushing _ =>
      { s with q := { s.q with count := s.q.count + 1 }
               mutex := none
               call := Function.update s.call t .idle }
    | _ => s
  | (t, .pop) =>
    if s.call t = .idle then { s with call := Function.update s.call t .popping } else s
  | (t, .acquire) =>
    if s.call t = .popping ∧ s.q.count > 0 then
      { s with q := { s.q with count := s.q.count - 1 }
               call := Function.update s.call t .acquired }
    else s
  | (t, .take) =>
    if s.call t = .acquired ∧ s.mutex = none then
      let r := s.q.dequeue
      { s with q := r.1
               call := Function.update s.call t .idle
               popped := s.popped ++ [r.2] }
    else s
  | (_, .setSize size) => { s with q := { s.q with size := size } }

/-- No call is in progress. -/
def Idle (s : QueueSystem τ T) : Prop := ∀ t, s.call t = .idle

/-- The semaphore counts the elements when no call is in progress; the pops have returned what was
pushed, in order, and the rest of it is in the queue. -/
def Consistent (s : QueueSystem τ T) : Prop :=
  (s.Idle → s.q.count = s.q.queue.length) ∧
    s.pushed.map some = s.popped ++ s.q.queue.map some

/-- The action is not a push that finds the queue full. -/
def FindsRoom (s : QueueSystem τ T) : τ × QueueAction T → Prop
  | (t, .push _) => s.call t = .idle → s.mutex = none → s.q.hasRoom = true
  | _ => True

end QueueSystem

end Oreka
