import Mathlib.Data.List.Basic

/-!
# Frames in a stream that arrives piece by piece

A stream is the concatenation of frames `fs`. Of its first `n` elements, `complete fs n` are the
frames that are there in full, `consumed fs n` is what they take, and `remaining fs n` are the frames
that have yet to be completed. Completing the frames of a longer prefix is completing those of the
shorter one and then the remaining ones (`complete_of_le`).
-/

namespace Frames

variable {α : Type*}

/-- The frames that the first `n` elements hold in full. -/
def complete : List (List α) → Nat → List (List α)
  | [], _ => []
  | f :: fs, n => if f.length ≤ n then f :: complete fs (n - f.length) else []

/-- How many of the first `n` elements the complete frames take. -/
def consumed (fs : List (List α)) (n : Nat) : Nat := (complete fs n).flatten.length

/-- The frames after the complete ones. -/
def remaining (fs : List (List α)) (n : Nat) : List (List α) := fs.drop (complete fs n).length

/-- `n` elements are a whole number of frames. -/
def AtBoundary (fs : List (List α)) (n : Nat) : Prop := ∃ k, n = (fs.take k).flatten.length

theorem complete_append_remaining (fs : List (List α)) (n : Nat) :
    complete fs n ++ remaining fs n = fs := by
  induction fs generalizing n with
  | nil => simp [complete, remaining]
  | cons f fs ih =>
    unfold remaining complete
    split
    · simpa [remaining] using ih (n - f.length)
    · simp

theorem consumed_le (fs : List (List α)) (n : Nat) : consumed fs n ≤ n := by
  induction fs generalizing n with
  | nil => simp [consumed, complete]
  | cons f fs ih =>
    unfold consumed complete
    split
    · rename_i h
      have := ih (n - f.length)
      simp only [consumed] at this
      simp only [List.flatten_cons, List.length_append]
      omega
    · simp

theorem consumed_add_remaining (fs : List (List α)) (n : Nat) :
    consumed fs n + (remaining fs n).flatten.length = fs.flatten.length := by
  have h := congrArg (fun l => l.flatten.length) (complete_append_remaining fs n)
  simpa [consumed] using h

/-- What is left of the stream after the complete frames. -/
theorem drop_consumed (fs : List (List α)) (n : Nat) :
    fs.flatten.drop (consumed fs n) = (remaining fs n).flatten := by
  have h := congrArg List.flatten (complete_append_remaining fs n)
  rw [← h, List.flatten_append]
  exact List.drop_left' rfl

theorem complete_eq_self (fs : List (List α)) {n : Nat} (h : fs.flatten.length ≤ n) :
    complete fs n = fs := by
  induction fs generalizing n with
  | nil => rfl
  | cons f fs ih =>
    simp only [List.flatten_cons, List.length_append] at h
    unfold complete
    rw [if_pos (by omega), ih (by omega)]

/-- What the complete frames take holds the same frames in full. -/
theorem complete_consumed (fs : List (List α)) (n : Nat) :
    complete fs (consumed fs n) = complete fs n := by
  induction fs generalizing n with
  | nil => rfl
  | cons f fs ih =>
    by_cases hf : f.length ≤ n
    · have hc : consumed (f :: fs) n = f.length + consumed fs (n - f.length) := by
        simp [consumed, complete, hf]
      rw [hc]
      simp only [complete, Nat.le_add_right, hf, if_true, Nat.add_sub_cancel_left, ih]
    · have hc : consumed (f :: fs) n = 0 := by simp [consumed, complete, hf]
      have h0 : ¬ f.length ≤ 0 := by omega
      rw [hc]
      simp only [complete, hf, h0, if_false]

theorem complete_of_le (fs : List (List α)) {n n' : Nat} (h : n ≤ n') :
    complete fs n' = complete fs n ++ complete (remaining fs n) (n' - consumed fs n) := by
  induction fs generalizing n n' with
  | nil => simp [complete, remaining]
  | cons f fs ih =>
    by_cases hf : f.length ≤ n
    · have hf' : f.length ≤ n' := by omega
      have hr : remaining (f :: fs) n = remaining fs (n - f.length) := by
        simp [remaining, complete, hf]
      have hc : consumed (f :: fs) n = f.length + consumed fs (n - f.length) := by
        simp [consumed, complete, hf]
      have hd : n' - (f.length + consumed fs (n - f.length)) =
          n' - f.length - consumed fs (n - f.length) := by omega
      rw [hr, hc, hd]
      have hih := ih (by omega : n - f.length ≤ n' - f.length)
      simp only [complete, hf, hf', if_true, List.cons_append]
      rw [hih]
    · have hc : complete (f :: fs) n = [] := by simp [complete, hf]
      simp [consumed, remaining, hc]

/-- What remains of a prefix is what is completed by a longer one and what remains of that. -/
theorem remaining_of_le (fs : List (List α)) {n n' : Nat} (h : n ≤ n') :
    complete (remaining fs n) (n' - consumed fs n) ++ remaining fs n' = remaining fs n := by
  have h₁ := complete_append_remaining fs n'
  rw [complete_of_le fs h, List.append_assoc] at h₁
  exact List.append_cancel_left (h₁.trans (complete_append_remaining fs n).symm)

/-- Off a boundary, the last frame that has begun is not complete. -/
theorem consumed_lt (fs : List (List α)) {n : Nat} (h : ¬ AtBoundary fs n) : consumed fs n < n := by
  have hle := consumed_le fs n
  have hne : consumed fs n ≠ n := by
    intro he
    refine h ⟨(complete fs n).length, ?_⟩
    have ht := congrArg (List.take (complete fs n).length) (complete_append_remaining fs n)
    rw [List.take_left' rfl] at ht
    rw [← ht]
    exact he.symm
  omega

end Frames
