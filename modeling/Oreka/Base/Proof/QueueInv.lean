import Mathlib.Data.Finset.Card
import Mathlib.Data.Finset.Insert
import Oreka.Base.ThreadSafeQueue

/-!
# The queue and its semaphore

Between the two critical sections of a call the count is off by one: below the length of the queue
for a push that has stored its element, and for a pop that has acquired the semaphore. `Inv` adds these
up over all threads. A push onto a full queue releases the semaphore without an element, which is the
only action that breaks it.
-/

namespace Oreka.QueueSystem

variable {τ T : Type*} {s : QueueSystem τ T}

/-- The invariant of the runs in which no push finds the queue full. -/
structure Inv (s : QueueSystem τ T) : Prop where
  mutex : ∀ t, s.mutex = some t ↔ ∃ r, s.call t = .pushing r
  order : s.pushed.map some = s.popped ++ s.q.queue.map some
  counted : ∃ acquired : Finset τ, (∀ t, t ∈ acquired ↔ s.call t = .acquired) ∧
    s.q.count + acquired.card + (if s.mutex.isSome then 1 else 0) = s.q.queue.length

theorem inv_new (size : Int) : Inv (new size : QueueSystem τ T) where
  mutex := by simp [new]
  order := by simp [new, ThreadSafeQueue.new]
  counted := ⟨∅, by simp [new], rfl⟩

theorem Inv.consistent (h : Inv s) : s.Consistent := by
  refine ⟨fun hidle => ?_, h.order⟩
  obtain ⟨acquired, hmem, hcount⟩ := h.counted
  have hempty : acquired = ∅ := Finset.eq_empty_of_forall_notMem fun t ht => by
    rw [hmem t, hidle t] at ht
    cases ht
  have hmutex : s.mutex = none := by
    rcases hm : s.mutex with _ | t
    · rfl
    · obtain ⟨r, hr⟩ := (h.mutex t).1 hm
      rw [hidle t] at hr
      cases hr
  simpa [hempty, hmutex] using hcount

/-- Nobody pushes while the mutex is free. -/
theorem Inv.not_pushing (h : Inv s) (hm : s.mutex = none) (t : τ) (r : Bool) :
    s.call t ≠ .pushing r := by
  intro hc
  have := (h.mutex t).2 ⟨r, hc⟩
  rw [hm] at this
  cases this

variable [DecidableEq τ]

/-- The threads that have acquired the semaphore stay the same when a call moves between other
places. -/
theorem mem_acquired_update {acquired : Finset τ} {call : τ → QueueCall}
    (hmem : ∀ t, t ∈ acquired ↔ call t = .acquired) {t : τ} {c : QueueCall}
    (h : call t ≠ .acquired) (hc : c ≠ .acquired) (u : τ) :
    u ∈ acquired ↔ Function.update call t c u = .acquired := by
  by_cases hu : u = t
  · subst hu
    simp [hmem, h, hc]
  · simp [hmem, hu]

/-- A call moves to a place without the mutex. -/
theorem Inv.mutex_update (h : Inv s) {t : τ} {c : QueueCall} (ht : ∀ r, s.call t ≠ .pushing r)
    (hc : ∀ r, c ≠ .pushing r) (u : τ) :
    s.mutex = some u ↔ ∃ r, Function.update s.call t c u = .pushing r := by
  rw [h.mutex u]
  by_cases hu : u = t
  · subst hu
    simp [ht, hc]
  · simp [hu]

theorem Inv.push (h : Inv s) (t : τ) (element : T) (hroom : s.FindsRoom (t, .push element)) :
    Inv (s.step (t, .push element)) := by
  by_cases hen : s.call t = .idle ∧ s.mutex = none
  · have hr := hroom hen.1 hen.2
    obtain ⟨acquired, hmem, hcount⟩ := h.counted
    simp only [step, hen, and_self, if_true, ThreadSafeQueue.enqueue, hr]
    refine ⟨fun u => ?_, ?_, acquired, ?_, ?_⟩
    · by_cases hu : u = t
      · subst hu
        simp
      · simp [hu, Ne.symm hu, h.not_pushing hen.2]
    · simp [h.order]
    · exact mem_acquired_update hmem (by simp [hen.1]) (by simp)
    · simp only [hen.2, Option.isSome_none, Bool.false_eq_true, if_false, Nat.add_zero] at hcount
      simp [hcount]
  · simpa [step, hen] using h

theorem Inv.release (h : Inv s) (t : τ) : Inv (s.step (t, .release)) := by
  cases hc : s.call t with
  | pushing r =>
    have hm : s.mutex = some t := (h.mutex t).2 ⟨r, hc⟩
    obtain ⟨acquired, hmem, hcount⟩ := h.counted
    simp only [step, hc]
    refine ⟨fun u => ?_, h.order, acquired, ?_, ?_⟩
    · have hu' (hu : u ≠ t) (r : Bool) : s.call u ≠ .pushing r := by
        intro hcu
        rw [(h.mutex u).2 ⟨r, hcu⟩] at hm
        exact hu (Option.some.inj hm)
      by_cases hu : u = t
      · simp [hu]
      · simp [hu, hu' hu]
    · exact mem_acquired_update hmem (by simp [hc]) (by simp)
    · simp only [hm, Option.isSome_some, if_true] at hcount
      simp only [Option.isSome_none, Bool.false_eq_true, if_false]
      omega
  | idle | popping | acquired => simpa [step, hc] using h

theorem Inv.pop (h : Inv s) (t : τ) : Inv (s.step (t, .pop)) := by
  by_cases hc : s.call t = .idle
  · obtain ⟨acquired, hmem, hcount⟩ := h.counted
    simp only [step, hc, if_true]
    exact ⟨h.mutex_update (by simp [hc]) (by simp), h.order, acquired,
      mem_acquired_update hmem (by simp [hc]) (by simp), hcount⟩
  · simpa [step, hc] using h

theorem Inv.acquire (h : Inv s) (t : τ) : Inv (s.step (t, .acquire)) := by
  by_cases hen : s.call t = .popping ∧ s.q.count > 0
  · obtain ⟨acquired, hmem, hcount⟩ := h.counted
    have hnot : t ∉ acquired := by simp [hmem, hen.1]
    simp only [step, hen, and_self, if_true]
    refine ⟨h.mutex_update (by simp [hen.1]) (by simp), h.order, insert t acquired, fun u => ?_, ?_⟩
    · by_cases hu : u = t
      · simp [hu]
      · simp [hu, hmem]
    · rw [Finset.card_insert_of_notMem hnot]
      dsimp only
      have := hen.2
      omega
  · simpa [step, hen] using h

/-- A thread behind the semaphore finds an element. -/
theorem Inv.take (h : Inv s) (t : τ) : Inv (s.step (t, .take)) := by
  by_cases hen : s.call t = .acquired ∧ s.mutex = none
  · obtain ⟨acquired, hmem, hcount⟩ := h.counted
    have ht : t ∈ acquired := (hmem t).2 hen.1
    have hcard := Finset.card_erase_add_one ht
    simp only [hen.2, Option.isSome_none, Bool.false_eq_true, if_false] at hcount
    obtain ⟨element, rest, hq⟩ : ∃ element rest, s.q.queue = element :: rest := by
      apply List.exists_cons_of_length_pos
      omega
    simp only [step, hen, and_self, if_true, ThreadSafeQueue.dequeue, hq]
    refine ⟨fun u => ?_, ?_, acquired.erase t, fun u => ?_, ?_⟩
    · rw [← hen.2]
      exact h.mutex_update (by simp [hen.1]) (by simp) u
    · simp [h.order, hq]
    · by_cases hu : u = t
      · simp [hu]
      · simp [hu, hmem]
    · rw [hq, List.length_cons] at hcount
      simp only [Option.isSome_none, Bool.false_eq_true, if_false]
      omega
  · simpa [step, hen] using h

theorem Inv.step (h : Inv s) (x : τ × QueueAction T) (hx : s.FindsRoom x) : Inv (s.step x) := by
  obtain ⟨t, a⟩ := x
  cases a with
  | push element => exact h.push t element hx
  | release => exact h.release t
  | pop => exact h.pop t
  | acquire => exact h.acquire t
  | take => exact h.take t
  | setSize size => exact ⟨h.mutex, h.order, h.counted⟩

/-- **The queue and its semaphore stay in step** along every interleaving in which no push finds the
queue full. -/
theorem always_consistent (size : Int) (l : List (τ × QueueAction T))
    (hl : Run.Meets step FindsRoom (new size) l) : Run.Always step Consistent (new size) l :=
  have h : Run.Always step Inv (new size) l :=
    Run.always_of_inv (fun _ x h hx => Inv.step h x hx) (inv_new size) hl
  h.mono fun _ => Inv.consistent

instance (s : QueueSystem τ T) (x : τ × QueueAction T) : Decidable (s.FindsRoom x) :=
  match x with
  | (_, .push _) => inferInstanceAs (Decidable (_ → _ → _))
  | (_, .release) | (_, .pop) | (_, .acquire) | (_, .take) | (_, .setSize _) => isTrue trivial

/-- A pop that begins before the push, and acquires the semaphore between two pushes. -/
theorem always_consistent_two : Run.Always step Consistent (new 2 : QueueSystem Nat Nat)
    [(1, .pop), (0, .push 5), (0, .release), (1, .acquire), (2, .push 6), (1, .take), (2, .release),
      (1, .take)] :=
  always_consistent 2 _ (by decide)

/-- A queue of one element: the second push finds it full and releases the semaphore all the same, so
that the second pop returns a default-constructed element. -/
theorem not_always_consistent : ¬ Run.Always step Consistent (new 1 : QueueSystem Nat Nat)
    [(0, .push 5), (0, .release), (0, .push 6), (0, .release), (1, .pop), (1, .acquire), (1, .take),
      (1, .pop), (1, .acquire), (1, .take)] := by
  intro h
  have hlast := h.last.2
  revert hlast
  decide

end Oreka.QueueSystem
