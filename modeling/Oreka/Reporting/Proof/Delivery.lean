import Mathlib.Data.List.Perm.Basic
import Oreka.Reporting.Reporting

/-!
# What a tracker is told

The thread of a tracker handles the messages that its queue has taken, in their order, each to its end
before the next. `Ledger` keeps the account: what became of each message, and how often it was executed.
-/

namespace Oreka

variable {κ μ : Type*} [DecidableEq κ] {tests : MessageTests μ} {enable : Bool}

/-- What becomes of a message, and how many of its executions have failed before. -/
inductive Outcome
  | ignored
  | delivered (failures : Nat)
  | broken (failures : Nat)
  | givenUp
  | skipped (failures : Nat)
  deriving DecidableEq, Repr

namespace Outcome

/-- The executions of a message that ends so. -/
def attempts (message : μ) : Outcome → List (μ × ExecuteResult)
  | ignored => []
  | delivered failures => List.replicate failures (message, .failed) ++ [(message, .ok)]
  | broken failures => List.replicate failures (message, .failed) ++ [(message, .exception)]
  | givenUp => [(message, .failed)]
  | skipped failures => List.replicate failures (message, .failed)

def isSkipped : Outcome → Bool
  | skipped _ => true
  | _ => false

/-- The failures before the end. -/
def failures : Outcome → Nat
  | delivered n | broken n | skipped n => n
  | ignored | givenUp => 0

end Outcome

/-- The message is to be sent. -/
def MessageTests.due (tests : MessageTests μ) (enable : Bool) (message : μ) : Bool :=
  tests.isValid message && tests.isReportable message && enable

/-- How a message may end: one that is not to be sent is ignored, and only it; a realtime message is not
sent again, and only it is given up. -/
structure Outcome.Allowed (tests : MessageTests μ) (enable : Bool) (message : μ) (o : Outcome) : Prop where
  ignored : o = .ignored ↔ tests.due enable message = false
  once : tests.isRealtime message = true → o.failures = 0
  givenUp : o = .givenUp → tests.isRealtime message = true

namespace ReportingThread

variable {t : ReportingThread μ}

/-- The account of a thread: the messages handled so far, and the failures of the current one. -/
structure Ledger (tests : MessageTests μ) (enable : Bool) (t : ReportingThread μ)
    (handled : List (μ × Outcome)) (failures : Nat) : Prop where
  accepted : t.accepted = handled.map Prod.fst ++ t.call.current ++ t.messageQueue.queue
  attempts : t.attempts = handled.flatMap (fun h => h.2.attempts h.1) ++
    t.call.current.flatMap fun message => List.replicate failures (message, .failed)
  allowed : ∀ h ∈ handled, h.2.Allowed tests enable h.1
  current : ∀ message ∈ t.call.current, tests.due enable message = true ∧
    (tests.isRealtime message = true → failures = 0)
  skips : ((handled.countP fun h => h.2.isSkipped : Nat) : Int) + t.numTapesToSkip = t.skips
  connecting : t.call = .connecting → handled = []

/-- The semaphore has been acquired for a message that may still be there. -/
def credit : ReportingCall μ → Nat
  | .acquired => 1
  | _ => 0

/-- The queue keeps its limit, takes its messages from those that are offered, and wakes up its thread. -/
structure Queued (size : Int) (t : ReportingThread μ) : Prop where
  size : t.messageQueue.size = size
  bounded : t.messageQueue.queue.length ≤ t.messageQueue.limit
  offered : t.accepted.Sublist t.offered
  awake : t.messageQueue.queue.length ≤ t.messageQueue.count + credit t.call

theorem ledger_new (size : Int) :
    Ledger tests enable ({ messageQueue := .new size } : ReportingThread μ) [] 0 where
  accepted := rfl
  attempts := rfl
  allowed := by simp
  current := by simp [ReportingCall.current]
  skips := rfl
  connecting _ := rfl

theorem queued_new (size : Int) :
    Queued size ({ messageQueue := .new size } : ReportingThread μ) where
  size := rfl
  bounded := Nat.zero_le _
  offered := List.Sublist.slnil
  awake := Nat.zero_le _

/-! ## One step -/

theorem push_queue (t : ReportingThread μ) (message : μ) : (t.push message).messageQueue.queue =
    t.messageQueue.queue ++ if t.messageQueue.hasRoom then [message] else [] := by
  simp only [push, ThreadSafeQueue.enqueue]
  split <;> simp

theorem push_accepted (t : ReportingThread μ) (message : μ) : (t.push message).accepted =
    t.accepted ++ if t.messageQueue.hasRoom then [message] else [] := by
  simp only [push]
  split <;> simp

variable {handled : List (μ × Outcome)} {failures : Nat} {size : Int}

theorem Ledger.push (h : Ledger tests enable t handled failures) (message : μ) :
    Ledger tests enable (t.push message) handled failures :=
  { h with accepted := by rw [push_accepted, push_queue, h.accepted, List.append_assoc]; rfl }

theorem Queued.push (h : Queued size t) (message : μ) : Queued size (t.push message) := by
  have hsize : (t.push message).messageQueue.size = t.messageQueue.size := by
    simp only [ReportingThread.push, ThreadSafeQueue.enqueue]
    split <;> rfl
  have hcount : (t.push message).messageQueue.count = t.messageQueue.count + 1 := by
    simp only [ReportingThread.push, ThreadSafeQueue.enqueue]
    split <;> rfl
  refine ⟨hsize.trans h.size, ?_, ?_, ?_⟩
  · rw [push_queue, ThreadSafeQueue.limit, hsize, ← ThreadSafeQueue.limit]
    split
    · rename_i hroom
      simp only [ThreadSafeQueue.hasRoom, decide_eq_true_eq] at hroom
      rwa [List.length_append, List.length_singleton, Nat.succ_le_iff]
    · simpa using h.bounded
  · rw [push_accepted]
    refine h.offered.append ?_
    split
    · exact List.Sublist.refl _
    · exact List.nil_sublist _
  · have := h.awake
    rw [push_queue, hcount, List.length_append, show (t.push message).call = t.call from rfl]
    split <;> simp only [List.length_singleton, List.length_nil] <;> omega

theorem Ledger.skipTapes (h : Ledger tests enable t handled failures) (number : Int) :
    Ledger tests enable (t.skipTapes number) handled failures :=
  { h with skips := by simp only [ReportingThread.skipTapes]; have := h.skips; omega }

theorem Queued.skipTapes (h : Queued size t) (number : Int) : Queued size (t.skipTapes number) :=
  ⟨h.size, h.bounded, h.offered, h.awake⟩

/-- The current message ends. -/
theorem Ledger.done (h : Ledger tests enable t handled failures) {message : μ} {o : Outcome}
    (hcurrent : t.call.current = [message]) (ho : o.Allowed tests enable message) {t' : ReportingThread μ}
    (hcall : t'.call = .waiting) (haccepted : t'.accepted = t.accepted)
    (hqueue : t'.messageQueue = t.messageQueue)
    (hattempts : ∀ l, t.attempts = l ++ List.replicate failures (message, .failed) →
      t'.attempts = l ++ o.attempts message)
    (hskips : t'.skips = t.skips)
    (hskip : (if o.isSkipped then 1 else 0) + t'.numTapesToSkip = t.numTapesToSkip) :
    Ledger tests enable t' (handled ++ [(message, o)]) 0 where
  accepted := by rw [haccepted, h.accepted, hcurrent, hcall, hqueue]; simp [ReportingCall.current]
  attempts := by
    rw [hattempts _ (by rw [h.attempts, hcurrent, List.flatMap_singleton]), hcall]
    simp [ReportingCall.current]
  allowed := by
    simp only [List.mem_append, List.mem_singleton]
    rintro p (hp | rfl)
    · exact h.allowed p hp
    · exact ho
  current := by simp [hcall, ReportingCall.current]
  skips := by
    have := h.skips
    rw [hskips, ← this, ← hskip, List.countP_append, List.countP_singleton]
    split <;> push_cast <;> omega
  connecting hc := by rw [hcall] at hc; cases hc

/-- The thread moves on without a message, or to the next place with the one it has. -/
theorem Ledger.move (h : Ledger tests enable t handled failures) {call : ReportingCall μ}
    {q : ThreadSafeQueue μ} (hcurrent : call.current = t.call.current) (hqueue : q.queue = t.messageQueue.queue)
    (hconnecting : call ≠ .connecting) :
    Ledger tests enable { t with call, messageQueue := q } handled failures where
  accepted := by simp only [hcurrent, hqueue, h.accepted]
  attempts := by simp only [hcurrent, h.attempts]
  allowed := h.allowed
  current := by simpa only [hcurrent] using h.current
  skips := h.skips
  connecting hc := absurd hc hconnecting

theorem Ledger.pop (h : Ledger tests enable t handled failures) (hcall : t.call = .acquired) (stopping : Bool) :
    ∃ handled' failures', Ledger tests enable (t.pop tests enable stopping) handled' failures' := by
  have hnone : t.call.current = [] := by simp [hcall, ReportingCall.current]
  cases hq : t.messageQueue.queue with
  | nil =>
    simp only [ReportingThread.pop, ThreadSafeQueue.dequeue, hq]
    refine ⟨handled, failures, h.move ?_ rfl ?_⟩
    · rw [hnone]
      cases stopping <;> rfl
    · cases stopping <;> simp
  | cons message rest =>
    have haccepted : t.accepted = handled.map Prod.fst ++ message :: rest := by
      rw [h.accepted, hnone, hq, List.append_nil]
    have hattempts := h.attempts
    rw [hnone, List.flatMap_nil, List.append_nil] at hattempts
    simp only [ReportingThread.pop, ThreadSafeQueue.dequeue, hq]
    split
    · rename_i hdue
      refine ⟨handled, 0, ⟨?_, ?_, h.allowed, ?_, h.skips, by simp⟩⟩
      · simp [haccepted, ReportingCall.current]
      · simp [hattempts, ReportingCall.current]
      · simp [ReportingCall.current, MessageTests.due, hdue]
    · rename_i hdue
      refine ⟨handled ++ [(message, .ignored)], 0, ⟨?_, ?_, ?_, ?_, ?_, by simp⟩⟩
      · simp [haccepted, ReportingCall.current]
      · simp [hattempts, ReportingCall.current, Outcome.attempts]
      · simp only [List.mem_append, List.mem_singleton]
        rintro p (hp | rfl)
        · exact h.allowed p hp
        · refine ⟨?_, fun _ => rfl, by simp⟩
          simp only [MessageTests.due, true_iff]
          cases hv : tests.isValid message <;> cases hr : tests.isReportable message <;> simp_all
      · simp [ReportingCall.current]
      · simpa [Outcome.isSkipped] using h.skips

theorem Ledger.isSkip (h : Ledger tests enable t handled failures) {message : μ}
    (hcall : t.call = .sending message) :
    ∃ handled' failures', Ledger tests enable (t.isSkip message) handled' failures' := by
  have hcurrent : t.call.current = [message] := by simp [hcall, ReportingCall.current]
  obtain ⟨hdue, honce⟩ := h.current message (by simp [hcurrent])
  simp only [ReportingThread.isSkip]
  split
  · refine ⟨_, 0, h.done (o := .skipped failures) hcurrent ⟨by simp [hdue], honce, by simp⟩ rfl rfl rfl
      (fun l hl => hl) rfl ?_⟩
    simp only [Outcome.isSkipped, if_true]
    omega
  · exact ⟨handled, failures, h.move (by rw [hcurrent]; rfl) rfl (by simp)⟩

theorem Ledger.execute (h : Ledger tests enable t handled failures) {message : μ}
    (hcall : t.call = .executing message) (result : ExecuteResult) :
    ∃ handled' failures', Ledger tests enable (t.execute tests message result) handled' failures' := by
  have hcurrent : t.call.current = [message] := by simp [hcall, ReportingCall.current]
  obtain ⟨hdue, honce⟩ := h.current message (by simp [hcurrent])
  cases result with
  | ok =>
    refine ⟨_, 0, h.done (o := .delivered failures) hcurrent ⟨by simp [hdue], honce, by simp⟩ rfl rfl rfl
      (fun l hl => ?_) rfl ?_⟩
    · simp [ReportingThread.execute, hl, Outcome.attempts]
    · simp [ReportingThread.execute, Outcome.isSkipped]
  | exception =>
    refine ⟨_, 0, h.done (o := .broken failures) hcurrent ⟨by simp [hdue], honce, by simp⟩ rfl rfl rfl
      (fun l hl => ?_) rfl ?_⟩
    · simp [ReportingThread.execute, hl, Outcome.attempts]
    · simp [ReportingThread.execute, Outcome.isSkipped]
  | failed =>
    by_cases hr : tests.isRealtime message = true
    · obtain rfl := honce hr
      refine ⟨_, 0, h.done (o := .givenUp) hcurrent ⟨by simp [hdue], fun _ => rfl, fun _ => hr⟩ ?_ rfl rfl
        (fun l hl => ?_) rfl ?_⟩
      · simp [ReportingThread.execute, hr]
      · simp [ReportingThread.execute, hl, Outcome.attempts]
      · simp [ReportingThread.execute, Outcome.isSkipped]
    · -- the message is sent again, with one more failure
      refine ⟨handled, failures + 1, ⟨?_, ?_, h.allowed, ?_, h.skips, by simp [ReportingThread.execute, hr]⟩⟩
      · simp [ReportingThread.execute, hr, h.accepted, hcall, ReportingCall.current]
      · simp [ReportingThread.execute, hr, h.attempts, hcall, ReportingCall.current, List.replicate_succ']
      · simp [ReportingThread.execute, hr, ReportingCall.current, hdue]

theorem Ledger.step (h : Ledger tests enable t handled failures) (a : ReportingThreadAction) :
    ∃ handled' failures', Ledger tests enable (t.step tests enable a) handled' failures' := by
  cases a with
  | init success =>
    simp only [ReportingThread.step]
    split
    · rename_i hc
      split
      · exact ⟨handled, failures, h.move (by simp [hc, ReportingCall.current]) rfl (by simp)⟩
      · exact ⟨_, _, h⟩
    · exact ⟨_, _, h⟩
  | acquire =>
    simp only [ReportingThread.step]
    split
    · rename_i hc
      split
      · exact ⟨handled, failures, h.move (by simp [hc, ReportingCall.current]) rfl (by simp)⟩
      · exact ⟨_, _, h⟩
    · exact ⟨_, _, h⟩
  | pop stopping =>
    simp only [ReportingThread.step]
    split
    · exact h.pop (by assumption) stopping
    · exact ⟨_, _, h⟩
  | isSkip =>
    simp only [ReportingThread.step]
    split
    · exact h.isSkip (by assumption)
    · exact ⟨_, _, h⟩
  | execute result =>
    simp only [ReportingThread.step]
    split
    · exact h.execute (by assumption) result
    · exact ⟨_, _, h⟩

/-- The thread moves, the queue as it is. -/
theorem Queued.move (h : Queued size t) {call : ReportingCall μ} (hcredit : credit t.call ≤ credit call)
    {numTapesToSkip : Int} {attempts : List (μ × ExecuteResult)} :
    Queued size { t with call, numTapesToSkip, attempts } where
  size := h.size
  bounded := h.bounded
  offered := h.offered
  awake := Nat.le_trans h.awake (Nat.add_le_add_left hcredit _)

theorem Queued.pop (h : Queued size t) (hcall : t.call = .acquired) (stopping : Bool) :
    Queued size (t.pop tests enable stopping) := by
  have hawake := h.awake
  have hbounded := h.bounded
  cases hq : t.messageQueue.queue with
  | nil =>
    simp only [ReportingThread.pop, ThreadSafeQueue.dequeue, hq]
    exact ⟨h.size, hbounded, h.offered, by simp [hq]⟩
  | cons message rest =>
    rw [hq, List.length_cons] at hbounded
    rw [hq, List.length_cons, hcall, credit] at hawake
    simp only [ReportingThread.pop, ThreadSafeQueue.dequeue, hq]
    refine ⟨h.size, Nat.le_of_succ_le hbounded, h.offered, ?_⟩
    exact Nat.le_trans (Nat.le_of_succ_le_succ hawake) (Nat.le_add_right _ _)

theorem Queued.step (h : Queued size t) (a : ReportingThreadAction) : Queued size (t.step tests enable a) := by
  cases a with
  | init success =>
    simp only [ReportingThread.step]
    split
    · rename_i hc
      split
      · exact h.move (by simp [hc, credit])
      · exact h
    · exact h
  | acquire =>
    simp only [ReportingThread.step]
    split
    · rename_i hc
      split
      · have hawake := h.awake
        simp only [hc, credit] at hawake
        refine ⟨h.size, h.bounded, h.offered, ?_⟩
        simp only [credit]
        omega
      · exact h
    · exact h
  | pop stopping =>
    simp only [ReportingThread.step]
    split
    · exact h.pop (by assumption) stopping
    · exact h
  | isSkip =>
    simp only [ReportingThread.step]
    split
    · rename_i hc
      simp only [ReportingThread.isSkip]
      split <;> exact h.move (by simp [hc, credit])
    · exact h
  | execute result =>
    simp only [ReportingThread.step]
    split
    · rename_i hc
      exact h.move (by simp [hc, credit])
    · exact h

/-! ## Without skips and exceptions -/

/-- What all quiet steps keep of a thread. -/
structure Quiet (t : ReportingThread μ) : Prop where
  noSkips : t.skips = 0 ∧ t.numTapesToSkip = 0
  noException : ∀ p ∈ t.attempts, p.2 ≠ .exception

theorem Quiet.step {t : ReportingThread μ} (h : Quiet t) {a : ReportingThreadAction}
    (ha : a ≠ .execute .exception) :
    Quiet (t.step tests enable a) := by
  obtain ⟨⟨hskips, hnum⟩, hex⟩ := h
  cases a with
  | init | acquire | pop =>
    simp only [ReportingThread.step, ReportingThread.pop]
    repeat' split
    all_goals exact ⟨⟨hskips, hnum⟩, hex⟩
  | isSkip =>
    have hnot (message : μ) : t.isSkip message = { t with call := .executing message } :=
      if_neg (by rw [hnum]; exact Int.lt_irrefl 0)
    simp only [ReportingThread.step, hnot]
    split <;> exact ⟨⟨hskips, hnum⟩, hex⟩
  | execute result =>
    simp only [ReportingThread.step, ReportingThread.execute]
    split
    · refine ⟨⟨hskips, hnum⟩, fun p hp => ?_⟩
      rcases List.mem_append.mp hp with hp | hp
      · exact hex p hp
      · obtain rfl := List.mem_singleton.mp hp
        rintro rfl
        exact ha rfl
    · exact ⟨⟨hskips, hnum⟩, hex⟩

end ReportingThread

open ReportingThread

/-- The messages that a tracker must acknowledge before the next one is sent. -/
def MessageTests.mustArrive (tests : MessageTests μ) (enable : Bool) (message : μ) : Bool :=
  tests.due enable message && !tests.isRealtime message

/-- What a tracker has acknowledged, but for realtime messages. -/
def ReportingThread.acknowledged (tests : MessageTests μ) (t : ReportingThread μ) : List μ :=
  ((t.attempts.filter fun p => p.2 = .ok).map Prod.fst).filter fun message => !tests.isRealtime message

/-- The acknowledged executions of a message that ends so: one, or none where it need not arrive. -/
theorem Outcome.Allowed.acknowledged {message : μ} {o : Outcome} (h : o.Allowed tests enable message)
    (hskip : o.isSkipped = false) (hex : ∀ p ∈ o.attempts message, p.2 ≠ .exception) :
    (((o.attempts message).filter fun p => p.2 = .ok).map Prod.fst).filter (fun m => !tests.isRealtime m) =
      [message].filter (tests.mustArrive enable) := by
  cases o with
  | ignored =>
    have := h.ignored.mp rfl
    simp [Outcome.attempts, MessageTests.mustArrive, this]
  | delivered n =>
    have hdue : tests.due enable message = true := by
      cases hd : tests.due enable message with
      | true => rfl
      | false => cases h.ignored.mpr hd
    cases hr : tests.isRealtime message <;>
      simp [Outcome.attempts, MessageTests.mustArrive, hdue, hr, List.filter_append]
  | broken n => exact absurd rfl (hex (message, .exception) (by simp [Outcome.attempts]))
  | givenUp => simp [Outcome.attempts, MessageTests.mustArrive, h.givenUp rfl]
  | skipped n => cases hskip

theorem ReportingThread.Ledger.acknowledged {t : ReportingThread μ} {handled : List (μ × Outcome)}
    {failures : Nat} (h : Ledger tests enable t handled failures) (hq : Quiet t) :
    t.acknowledged tests ++ (t.call.current ++ t.messageQueue.queue).filter (tests.mustArrive enable) =
      t.accepted.filter (tests.mustArrive enable) := by
  have hskip : ∀ p ∈ handled, p.2.isSkipped = false := by
    have hz : handled.countP (fun p => p.2.isSkipped) = 0 := by
      have := h.skips
      rw [hq.noSkips.1, hq.noSkips.2] at this
      omega
    simpa using List.countP_eq_zero.mp hz
  have hex : ∀ p ∈ handled, ∀ a ∈ p.2.attempts p.1, a.2 ≠ .exception := fun p hp a ha =>
    hq.noException a (by rw [h.attempts]; exact List.mem_append_left _ (List.mem_flatMap.mpr ⟨p, hp, ha⟩))
  have hcurrent : (t.call.current.flatMap fun message =>
      List.replicate failures (message, ExecuteResult.failed)).filter (fun p => p.2 = .ok) = [] := by
    rw [List.filter_eq_nil_iff]
    intro p hp
    obtain ⟨message, -, hp⟩ := List.mem_flatMap.mp hp
    simp [List.eq_of_mem_replicate hp]
  have hhandled : ∀ l : List (μ × Outcome), (∀ p ∈ l, p ∈ handled) →
      (((l.flatMap fun p => p.2.attempts p.1).filter fun p => p.2 = .ok).map Prod.fst).filter
        (fun m => !tests.isRealtime m) = (l.map Prod.fst).filter (tests.mustArrive enable) := by
    intro l hl
    induction l with
    | nil => rfl
    | cons p l ih =>
      have hp := hl p List.mem_cons_self
      rw [List.flatMap_cons, List.filter_append, List.map_append, List.filter_append,
        ih fun q hq => hl q (List.mem_cons_of_mem _ hq),
        (h.allowed p hp).acknowledged (hskip p hp) (hex p hp), List.map_cons, ← List.filter_append]
      rfl
  rw [ReportingThread.acknowledged, h.attempts, List.filter_append, hcurrent, List.append_nil,
    hhandled handled fun _ => id, h.accepted, ← List.filter_append, List.append_assoc]

/-- What is known of a tracker's thread at any time: each message that its queue has taken is handled in its
turn, as its outcome says, and no message waits for a thread that is not woken up. -/
structure Delivery (tests : MessageTests μ) (enable : Bool) (t : ReportingThread μ) : Prop where
  ledger : ∃ handled failures, Ledger tests enable t handled failures
  bounded : t.messageQueue.queue.length ≤ t.messageQueue.limit
  offered : t.accepted.Sublist t.offered
  awake : t.call = .waiting → t.messageQueue.queue ≠ [] → 0 < t.messageQueue.count

namespace Reporting

variable {s : Reporting κ μ} {size : Int}

/-- The invariant of all runs, for each thread. -/
def Inv (tests : MessageTests μ) (enable : Bool) (size : Int) (s : Reporting κ μ) : Prop :=
  ∀ k, (∃ handled failures, Ledger tests enable (s.thread k) handled failures) ∧ Queued size (s.thread k)

theorem Inv.setThread (h : Inv tests enable size s) (k : κ) {t : ReportingThread μ}
    (hledger : ∃ handled failures, Ledger tests enable t handled failures) (hqueued : Queued size t) :
    Inv tests enable size (s.setThread k t) := by
  intro j
  by_cases hj : j = k
  · subst hj
    simpa [Reporting.setThread] using ⟨hledger, hqueued⟩
  · simpa [Reporting.setThread, hj] using h j

theorem Inv.step (h : Inv tests enable size s) (a : ReportingAction κ μ) :
    Inv tests enable size (s.step tests enable a) := by
  cases a with
  | addMessage message =>
    simp only [Reporting.step]
    split
    · exact h
    · exact h
  | push n =>
    simp only [Reporting.step]
    split
    · rename_i message k rest _
      obtain ⟨⟨handled, failures, hl⟩, hq⟩ := h k
      exact h.setThread k ⟨handled, failures, hl.push message⟩ (hq.push message)
    · exact h
    · exact h
  | skipTapes number trackingServer =>
    simp only [Reporting.step]
    split
    · rename_i k _
      obtain ⟨⟨handled, failures, hl⟩, hq⟩ := h k
      exact h.setThread k ⟨handled, failures, hl.skipTapes number⟩ (hq.skipTapes number)
    · exact h
  | thread k a =>
    obtain ⟨⟨handled, failures, hl⟩, hq⟩ := h k
    exact h.setThread k (hl.step a) (hq.step a)

theorem inv_run (tests : MessageTests μ) (enable : Bool) (size : Int) (trackers : List κ)
    (hostname : κ → String) (l : List (ReportingAction κ μ)) :
    Inv tests enable size (l.foldl (step tests enable) (new size trackers hostname)) :=
  Run.inv_foldl (fun _ a h => h.step a) l fun _ => ⟨⟨[], 0, ledger_new size⟩, queued_new size⟩

/-- The messages that are still to be pushed to a tracker. -/
def pending (s : Reporting κ μ) (k : κ) : List μ := (s.adding.filter fun p => k ∈ p.2).map Prod.fst

/-- Each tracker has been offered what `AddMessage` has been called with, but for what is pending. -/
structure FansOut (s : Reporting κ μ) : Prop where
  nodup : ∀ p ∈ s.adding, p.2.Nodup
  offered : ∀ k ∈ s.trackers, ((s.thread k).offered ++ s.pending k).Perm s.log

theorem thread_step_offered (t : ReportingThread μ) (a : ReportingThreadAction) :
    (t.step tests enable a).offered = t.offered := by
  cases a <;> simp only [ReportingThread.step, ReportingThread.pop, ReportingThread.isSkip,
    ReportingThread.execute] <;> (repeat' split) <;> rfl

@[simp] theorem step_trackers (s : Reporting κ μ) (a : ReportingAction κ μ) :
    (s.step tests enable a).trackers = s.trackers := by
  cases a <;> simp only [Reporting.step] <;> (try split) <;> rfl

theorem FansOut.addMessage (h : FansOut s) (hnodup : s.trackers.Nodup) (message : μ) :
    FansOut (s.step tests enable (.addMessage message)) := by
  simp only [Reporting.step]
  split
  · refine ⟨?_, fun k hk => ?_⟩
    · simp only [List.mem_append, List.mem_singleton]
      rintro p (hp | rfl)
      · exact h.nodup p hp
      · exact hnodup
    · have : pending { s with adding := s.adding ++ [(message, s.trackers)], log := s.log ++ [message] } k =
          s.pending k ++ [message] := by
        simp [pending, show k ∈ s.trackers from hk]
      rw [this, ← List.append_assoc]
      exact (h.offered k hk).append_right _
  · exact h

/-- What was pending for a tracker, as one call goes on to the next. -/
theorem perm_filter_set {p q : List κ} {message : μ} {l : List (μ × List κ)} {n : Nat} (k : κ)
    (hn : l[n]? = some (message, p)) :
    ((if k ∈ q then [message] else []) ++ (l.filter fun p => k ∈ p.2).map Prod.fst).Perm
      ((if k ∈ p then [message] else []) ++ ((l.set n (message, q)).filter fun p => k ∈ p.2).map Prod.fst) := by
  induction l generalizing n with
  | nil => simp at hn
  | cons x l ih =>
    cases n with
    | zero =>
      obtain rfl : x = (message, p) := by simpa using hn
      by_cases hp : k ∈ p <;> by_cases hq : k ∈ q <;> simp [hp, hq]
    | succ n =>
      have := ih (by simpa using hn)
      rw [List.set_cons_succ]
      by_cases hx : k ∈ x.2
      · simp only [List.filter_cons, hx, decide_true, if_true, List.map_cons]
        exact (List.perm_middle.trans (this.cons _)).trans List.perm_middle.symm
      · simpa [hx] using this

theorem perm_filter_eraseIdx {message : μ} {l : List (μ × List κ)} {n : Nat} (k : κ)
    (hn : l[n]? = some (message, [])) :
    ((l.eraseIdx n).filter fun p => k ∈ p.2) = l.filter fun p => k ∈ p.2 := by
  induction l generalizing n with
  | nil => simp at hn
  | cons x l ih =>
    cases n with
    | zero =>
      obtain rfl : x = (message, []) := by simpa using hn
      simp
    | succ n => simp [List.filter_cons, ih (by simpa using hn)]

theorem FansOut.push (h : FansOut s) (n : Nat) : FansOut (s.step tests enable (.push n)) := by
  simp only [Reporting.step]
  split
  · rename_i message k rest hn
    have hmem : (message, k :: rest) ∈ s.adding := List.mem_of_getElem? hn
    have hnd := List.nodup_cons.mp (h.nodup _ hmem)
    refine ⟨fun p hp => ?_, fun j hj => ?_⟩
    · rcases List.mem_or_eq_of_mem_set hp with hp | rfl
      · exact h.nodup p hp
      · exact hnd.2
    · have hperm := perm_filter_set (q := rest) j hn
      refine List.Perm.trans ?_ (h.offered j hj)
      by_cases hjk : j = k
      · subst hjk
        simp only [hnd.1, List.mem_cons_self, if_true, if_false, List.nil_append] at hperm
        simp only [pending, Reporting.setThread, Function.update_self, ReportingThread.push, List.append_assoc]
        exact hperm.symm.append_left _
      · simp only [List.mem_cons, hjk, false_or] at hperm
        simp only [pending, Reporting.setThread, Function.update_of_ne hjk]
        exact ((List.perm_append_left_iff _).mp hperm.symm).append_left _
  · rename_i message hn
    refine ⟨fun p hp => h.nodup p (List.mem_of_mem_eraseIdx hp), fun j hj => ?_⟩
    simpa [pending, perm_filter_eraseIdx j hn] using h.offered j hj
  · exact h

theorem FansOut.setThread (h : FansOut s) (k : κ) {t : ReportingThread μ}
    (ht : t.offered = (s.thread k).offered) :
    FansOut (s.setThread k t) := by
  refine ⟨h.nodup, fun j hj => ?_⟩
  by_cases hjk : j = k
  · subst hjk
    simpa [Reporting.setThread, pending, ht] using h.offered j hj
  · simpa [Reporting.setThread, pending, hjk] using h.offered j hj

theorem FansOut.step (h : FansOut s) (hnodup : s.trackers.Nodup) (a : ReportingAction κ μ) :
    FansOut (s.step tests enable a) := by
  cases a with
  | addMessage message => exact h.addMessage hnodup message
  | push n => exact h.push n
  | skipTapes number trackingServer =>
    simp only [Reporting.step]
    split
    · exact h.setThread _ rfl
    · exact h
  | thread k a => exact h.setThread k (thread_step_offered _ a)

/-- An action that neither skips a message nor ends in an exception. -/
def IsQuiet : ReportingAction κ μ → Prop
  | .skipTapes _ _ | .thread _ (.execute .exception) => False
  | _ => True

theorem Quiet.run_step (h : ∀ k, Quiet (s.thread k)) {a : ReportingAction κ μ} (ha : IsQuiet a) (k : κ) :
    Quiet ((s.step tests enable a).thread k) := by
  have hset (j : κ) {t : ReportingThread μ} (ht : Quiet t) : Quiet ((s.setThread j t).thread k) := by
    by_cases hkj : k = j
    · subst hkj
      simpa [Reporting.setThread] using ht
    · simpa [Reporting.setThread, hkj] using h k
  cases a with
  | addMessage message =>
    simp only [Reporting.step]
    split <;> exact h k
  | push n =>
    simp only [Reporting.step]
    split
    · exact hset _ ⟨(h _).noSkips, (h _).noException⟩
    · exact h k
    · exact h k
  | skipTapes => exact ha.elim
  | thread j a => exact hset j ((h j).step (by rintro rfl; exact ha))

/-- A tracker is offered every message, and acknowledges each of those that its queue takes once and in their
order, but for realtime messages and those it has no use for. -/
structure Reported (tests : MessageTests μ) (enable : Bool) (s : Reporting κ μ) (k : κ) : Prop where
  offered : ((s.thread k).offered ++ s.pending k).Perm s.log
  acknowledged : (s.thread k).acknowledged tests ++
      ((s.thread k).call.current ++ (s.thread k).messageQueue.queue).filter (tests.mustArrive enable) =
    (s.thread k).accepted.filter (tests.mustArrive enable)
  complete : s.pending k = [] → (s.thread k).accepted = (s.thread k).offered → (s.thread k).call.current = [] →
    (s.thread k).messageQueue.queue = [] →
      ((s.thread k).acknowledged tests).Perm (s.log.filter (tests.mustArrive enable))

@[simp] theorem foldl_trackers (s : Reporting κ μ) (l : List (ReportingAction κ μ)) :
    (l.foldl (step tests enable) s).trackers = s.trackers := by
  induction l generalizing s with
  | nil => rfl
  | cons a l ih => rw [List.foldl_cons, ih, step_trackers]

theorem fansOut_run (tests : MessageTests μ) (enable : Bool) (size : Int) {trackers : List κ}
    (hostname : κ → String) (hnodup : trackers.Nodup) (l : List (ReportingAction κ μ)) :
    FansOut (l.foldl (step tests enable) (new size trackers hostname)) :=
  have h : _ ∧ FansOut (l.foldl (step tests enable) (new size trackers hostname)) :=
    Run.inv_foldl (P := fun s : Reporting κ μ => s.trackers.Nodup ∧ FansOut s)
      (fun s a h => ⟨by rw [step_trackers]; exact h.1, h.2.step h.1 a⟩) l
      ⟨hnodup, by simp [new], fun k _ => by simp [new, pending]⟩
  h.2

theorem quiet_run (size : Int) (trackers : List κ) (hostname : κ → String) {l : List (ReportingAction κ μ)}
    (hquiet : ∀ a ∈ l, IsQuiet a) (k : κ) :
    Quiet ((l.foldl (step tests enable) (new size trackers hostname)).thread k) := by
  have h : Run.Always (step tests enable) (fun s => ∀ k, Quiet (s.thread k)) (new size trackers hostname) l :=
    Run.always_of_inv (fun _ _ h ha => Quiet.run_step h ha) (fun _ => ⟨⟨rfl, rfl⟩, by simp [new]⟩)
      (Run.meets_of_forall hquiet)
  exact h.last k

/-- **Every tracker acknowledges every message once**, whatever the threads do and however often it fails,
when no message is skipped and no answer cannot be read. -/
theorem reported_run (tests : MessageTests μ) (enable : Bool) (size : Int) {trackers : List κ}
    (hostname : κ → String) (hnodup : trackers.Nodup) {l : List (ReportingAction κ μ)}
    (hquiet : ∀ a ∈ l, IsQuiet a) {k : κ} (hk : k ∈ trackers) :
    Reported tests enable (l.foldl (step tests enable) (new size trackers hostname)) k := by
  have hoffered := (fansOut_run tests enable size hostname hnodup l).offered k
    (by rw [foldl_trackers]; exact hk)
  obtain ⟨⟨handled, failures, hledger⟩, -⟩ := inv_run tests enable size trackers hostname l k
  have hacknowledged := hledger.acknowledged (quiet_run size trackers hostname hquiet k)
  refine ⟨hoffered, hacknowledged, fun hpending haccepted hcurrent hqueue => ?_⟩
  rw [hcurrent, hqueue, List.append_nil, List.filter_nil, List.append_nil, haccepted] at hacknowledged
  rw [hpending, List.append_nil] at hoffered
  rw [hacknowledged]
  exact hoffered.filter _

/-- Two trackers: the first acknowledges the message when it has failed once, the second is still to be told. -/
theorem reported_run_two :
    Reported ⟨fun _ => true, fun _ => true, fun _ => false⟩ true
      ([.addMessage 7, .thread false (.init true), .push 0, .push 0, .thread false .acquire,
        .thread false (.pop false), .thread false .isSkip, .thread false (.execute .failed),
        .thread false .isSkip, .thread false (.execute .ok)].foldl
        (step ⟨fun _ => true, fun _ => true, fun _ => false⟩ true)
        (new 10 [false, true] fun k => if k then "a" else "b")) false :=
  reported_run (κ := Bool) (μ := Nat) _ true 10 _ (by decide) (by simp [IsQuiet]) (by decide)

end Reporting

end Oreka
