import Mathlib.Logic.Function.Basic
import Oreka.Tape.AudioTape

/-!
# The queue of tapes to process

`ImmediateProcessing.cpp`: a tape that has something new is queued unless it is on the queue already;
every push releases the semaphore that a pop acquires. `τ` are the references to tapes.
-/

namespace Oreka

structure ImmediateProcessing (τ : Type*) where
  tapes : τ → AudioTape
  audioTapeQueue : List τ := []
  /-- `m_count` of the semaphore. -/
  count : Nat := 0

namespace ImmediateProcessing

variable {τ : Type*} [DecidableEq τ]

def setTape (p : ImmediateProcessing τ) (t : τ) (tape : AudioTape) : ImmediateProcessing τ :=
  { p with tapes := Function.update p.tapes t tape }

@[simp] theorem setTape_self (p : ImmediateProcessing τ) (t : τ) (tape : AudioTape) :
    (p.setTape t tape).tapes t = tape := Function.update_self ..

theorem setTape_of_ne (p : ImmediateProcessing τ) {t u : τ} (h : u ≠ t) (tape : AudioTape) :
    (p.setTape t tape).tapes u = p.tapes u := Function.update_of_ne h ..

@[simp] theorem setTape_audioTapeQueue (p : ImmediateProcessing τ) (t : τ) (tape : AudioTape) :
    (p.setTape t tape).audioTapeQueue = p.audioTapeQueue := rfl

@[simp] theorem setTape_count (p : ImmediateProcessing τ) (t : τ) (tape : AudioTape) :
    (p.setTape t tape).count = p.count := rfl

/-- `Push`, of a tape that is there. -/
def push (p : ImmediateProcessing τ) (t : τ) : ImmediateProcessing τ :=
  let p := { p with count := p.count + 1 }
  if (p.tapes t).isQueued then p
  else
    { p.setTape t { p.tapes t with isQueued := true } with
      audioTapeQueue := p.audioTapeQueue ++ [t] }

theorem push_tapes_self (p : ImmediateProcessing τ) (t : τ) :
    (p.push t).tapes t = { p.tapes t with isQueued := true } := by
  unfold push
  dsimp only
  split
  · rename_i h
    rw [← h]
  · exact setTape_self ..

theorem push_tapes_of_ne (p : ImmediateProcessing τ) {t u : τ} (h : u ≠ t) :
    (p.push t).tapes u = p.tapes u := by
  unfold push
  dsimp only
  split
  · rfl
  · exact setTape_of_ne p h _

theorem push_audioTapeQueue (p : ImmediateProcessing τ) (t : τ) :
    (p.push t).audioTapeQueue =
      if (p.tapes t).isQueued then p.audioTapeQueue else p.audioTapeQueue ++ [t] := by
  unfold push
  dsimp only
  split <;> rfl

/-- The section of `Pop` under the mutex, behind the semaphore. -/
def pop (p : ImmediateProcessing τ) : ImmediateProcessing τ × Option τ :=
  match p.audioTapeQueue with
  | [] => (p, none)
  | t :: rest =>
    ({ p.setTape t { p.tapes t with isQueued := false } with audioTapeQueue := rest }, some t)

theorem pop_nil {p : ImmediateProcessing τ} (h : p.audioTapeQueue = []) : p.pop = (p, none) := by
  unfold pop
  rw [h]

theorem pop_cons {p : ImmediateProcessing τ} {t : τ} {rest : List τ}
    (h : p.audioTapeQueue = t :: rest) : p.pop =
      ({ p.setTape t { p.tapes t with isQueued := false } with audioTapeQueue := rest }, some t) := by
  unfold pop
  rw [h]

end ImmediateProcessing

end Oreka
