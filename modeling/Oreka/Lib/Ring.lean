import Mathlib.Logic.Function.Basic
import Mathlib.Data.List.Range
import Mathlib.Data.Nat.ModEq

/-!
# Circular buffers

A buffer of `N` slots addressed modulo `N`, seen as a function `Nat → α` of which only the slots
below `N` count. `Ring.fold` is the loop that combines a list of inputs into consecutive slots
(the pointer wraps at `N`), `Ring.read` the list of consecutive slots. The facts used by a client:
where the loop's pointer ends (`fold_ptr`), what it leaves in the slots it passes (`fold_hit`) and
in the others (`fold_miss`), and that reads concatenate (`read_add`).
-/

namespace Ring

variable {α β : Type*} {N : Nat}

/-- The pointer after `p`, back to the start at the end of the buffer. -/
def next (N p : Nat) : Nat := if p + 1 ≥ N then 0 else p + 1

theorem next_eq {p : Nat} (h : p < N) : next N p = (p + 1) % N := by
  unfold next
  split
  · rw [show p + 1 = N by omega, Nat.mod_self]
  · rw [Nat.mod_eq_of_lt (by omega)]

theorem next_lt {p : Nat} (h : p < N) : next N p < N := by
  rw [next_eq h]
  exact Nat.mod_lt _ (by omega)

/-- Combine the inputs into the slots from `p` on. -/
def fold (N : Nat) (g : α → β → α) : List β → (Nat → α) → Nat → (Nat → α) × Nat
  | [], buf, p => (buf, p)
  | x :: xs, buf, p => fold N g xs (Function.update buf p (g (buf p) x)) (next N p)

/-- `n` consecutive slots from `p` on. -/
def read (N : Nat) (buf : Nat → α) (p n : Nat) : List α :=
  (List.range n).map fun j => buf ((p + j) % N)

theorem fold_ptr {g : α → β → α} : ∀ (xs : List β) {buf : Nat → α} {p : Nat}, p < N →
    (fold N g xs buf p).2 = (p + xs.length) % N
  | [], _, p, h => by simp [fold, Nat.mod_eq_of_lt h]
  | x :: xs, buf, p, h => by
    rw [fold, fold_ptr xs (next_lt h), next_eq h, List.length_cons, Nat.mod_add_mod]
    congr 1
    omega

/-- Two slots less than `N` apart are different. -/
theorem slot_inj {p i j : Nat} (hi : i < N) (hj : j < N) (h : (p + i) % N = (p + j) % N) :
    i = j := by
  have h' : Nat.ModEq N (p + i) (p + j) := h
  exact Nat.ModEq.eq_of_lt_of_lt (Nat.ModEq.add_left_cancel' p h') hi hj

/-- A slot that the loop does not pass keeps its value. -/
theorem fold_miss {g : α → β → α} : ∀ (xs : List β) {buf : Nat → α} {p i : Nat}, p < N →
    (∀ j < xs.length, i ≠ (p + j) % N) → (fold N g xs buf p).1 i = buf i
  | [], _, _, _, _, _ => rfl
  | x :: xs, buf, p, i, h, hi => by
    have hp : i ≠ p := by
      have := hi 0 (by simp)
      rwa [Nat.add_zero, Nat.mod_eq_of_lt h] at this
    rw [fold, fold_miss xs (next_lt h), Function.update_of_ne hp]
    intro j hj
    have := hi (j + 1) (by simpa using hj)
    rwa [next_eq h, Nat.mod_add_mod, Nat.add_assoc, Nat.add_comm 1 j]

/-- The `j`-th slot that the loop passes gets the `j`-th input combined into it. -/
theorem fold_hit {g : α → β → α} : ∀ (xs : List β) {buf : Nat → α} {p j : Nat}, p < N →
    xs.length ≤ N → ∀ hj : j < xs.length,
    (fold N g xs buf p).1 ((p + j) % N) = g (buf ((p + j) % N)) xs[j]
  | x :: xs, buf, p, 0, h, hl, _ => by
    simp only [List.length_cons] at hl
    rw [fold, Nat.add_zero, Nat.mod_eq_of_lt h, fold_miss xs (next_lt h)]
    · simp
    · intro j hj he
      rw [next_eq h, Nat.mod_add_mod, Nat.add_assoc] at he
      have := slot_inj (N := N) (p := p) (i := 0) (j := 1 + j) (by omega) (by omega)
        (by simpa [Nat.mod_eq_of_lt h] using he)
      omega
  | x :: xs, buf, p, j + 1, h, hl, hj => by
    simp only [List.length_cons] at hl hj
    have hslot : (p + (j + 1)) % N = (next N p + j) % N := by
      rw [next_eq h, Nat.mod_add_mod]
      congr 1
      omega
    have hne : (p + (j + 1)) % N ≠ p := fun he => by
      have := slot_inj (N := N) (p := p) (i := j + 1) (j := 0) (by omega) (by omega)
        (by simpa [Nat.mod_eq_of_lt h] using he)
      omega
    rw [fold, hslot, fold_hit xs (next_lt h) (by omega) (by omega), ← hslot,
      Function.update_of_ne hne]
    simp

@[simp] theorem read_zero (buf : Nat → α) (p : Nat) : read N buf p 0 = [] := rfl

@[simp] theorem length_read (buf : Nat → α) (p n : Nat) : (read N buf p n).length = n := by
  simp [read]

theorem read_add (buf : Nat → α) (p a b : Nat) :
    read N buf p (a + b) = read N buf p a ++ read N buf ((p + a) % N) b := by
  unfold read
  rw [List.range_add, List.map_append, List.map_map]
  congr 1
  refine List.map_congr_left fun j _ => ?_
  simp only [Function.comp_apply, Nat.mod_add_mod, Nat.add_assoc]

/-- A read that does not wrap. -/
theorem read_flat (buf : Nat → α) {p n : Nat} (h : p + n ≤ N) :
    read N buf p n = (List.range n).map fun j => buf (p + j) := by
  unfold read
  refine List.map_congr_left fun j hj => ?_
  rw [List.mem_range] at hj
  rw [Nat.mod_eq_of_lt (by omega)]

theorem read_eq_iff {buf buf' : Nat → α} {p n : Nat} :
    read N buf p n = read N buf' p n ↔ ∀ j < n, buf ((p + j) % N) = buf' ((p + j) % N) := by
  unfold read
  rw [List.map_inj_left]
  simp only [List.mem_range]

/-- Another input in place of the `i`-th one changes no slot but its own. -/
theorem fold_set_ne {g : α → β → α} (xs : List β) {buf : Nat → α} {p i s : Nat} (hp : p < N)
    (hl : xs.length ≤ N) (x : β) (hs : s ≠ (p + i) % N) :
    (fold N g (xs.set i x) buf p).1 s = (fold N g xs buf p).1 s := by
  have hlength : (xs.set i x).length = xs.length := List.length_set
  by_cases hpassed : ∃ j < xs.length, s = (p + j) % N
  · obtain ⟨j, hj, rfl⟩ := hpassed
    have hij : i ≠ j := fun heq => hs (by rw [heq])
    rw [fold_hit xs hp hl hj, fold_hit _ hp (hlength ▸ hl) (hlength ▸ hj), List.getElem_set_ne hij]
  · have hmissed : ∀ j < xs.length, s ≠ (p + j) % N := fun j hj heq => hpassed ⟨j, hj, heq⟩
    rw [fold_miss xs hp hmissed, fold_miss _ hp fun j hj => hmissed j (hlength ▸ hj)]

end Ring
