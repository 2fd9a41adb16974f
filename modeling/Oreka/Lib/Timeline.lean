import Oreka.Lib.Ring

/-!
# A ring buffer as a window on a timeline

Pieces (a time and consecutive inputs from it on) are combined, oldest first, into an unbounded
timeline (`Timeline.at`). A ring *shows* `n` slots of a timeline (`Timeline.Shows`) when reading it
from its read pointer gives the timeline's values. What a client of `Ring.fold` does to the ring is
what the timeline does when it gets one more piece: the window is extended (`Shows.extend`), a piece
inside it is combined (`Shows.combine`), and read slots leave it (`Shows.read`, `Shows.drop`).
-/

namespace Timeline

variable {α β : Type*} {N : Nat} {g : α → β → α}

/-- The input of a piece at a time, if it has one. -/
def sampleAt (piece : Nat × List β) (t : Nat) : Option β :=
  if piece.1 ≤ t then piece.2[t - piece.1]? else none

def combine (g : α → β → α) (a : α) : Option β → α
  | none => a
  | some x => g a x

/-- The value of a timeline at a time: the inputs there combined from left to right. -/
def «at» (g : α → β → α) (z : α) (pieces : List (Nat × List β)) (t : Nat) : α :=
  pieces.foldl (fun a piece => combine g a (sampleAt piece t)) z

/-- The end of the piece that reaches furthest, `first` if none does. -/
def last (first : Nat) (pieces : List (Nat × List β)) : Nat :=
  pieces.foldl (fun w piece => max w (piece.1 + piece.2.length)) first

theorem at_append (z : α) (pieces : List (Nat × List β)) (piece : Nat × List β) (t : Nat) :
    Timeline.at g z (pieces ++ [piece]) t =
      combine g (Timeline.at g z pieces t) (sampleAt piece t) := by
  simp [Timeline.at]

theorem last_append (first : Nat) (pieces : List (Nat × List β)) (piece : Nat × List β) :
    last first (pieces ++ [piece]) = max (last first pieces) (piece.1 + piece.2.length) := by
  simp [last]

theorem sampleAt_eq_none {piece : Nat × List β} {t : Nat} (h : piece.1 + piece.2.length ≤ t) :
    sampleAt piece t = none := by
  unfold sampleAt
  split
  · exact List.getElem?_eq_none (by omega)
  · rfl

/-- Past the last piece the timeline is empty. -/
theorem at_of_last_le {z : α} {first : Nat} {pieces : List (Nat × List β)} {t : Nat}
    (h : last first pieces ≤ t) : Timeline.at g z pieces t = z := by
  induction pieces using List.reverseRecOn with
  | nil => rfl
  | append_singleton pieces piece ih =>
    rw [last_append] at h
    rw [at_append, sampleAt_eq_none ((Nat.le_max_right ..).trans h), combine,
      ih ((Nat.le_max_left ..).trans h)]

/-! ## Rings that show a timeline -/

/-- The `n` slots from `p` on hold the values of the timeline `f` from `r` on. -/
def Shows (N : Nat) (f : Nat → α) (buf : Nat → α) (p r n : Nat) : Prop :=
  ∀ j < n, buf ((p + j) % N) = f (r + j)

namespace Shows

variable {f : Nat → α} {buf : Nat → α} {p r n : Nat}

theorem read (h : Shows N f buf p r n) {k : Nat} (hk : k ≤ n) :
    Ring.read N buf p k = (List.range k).map fun j => f (r + j) :=
  List.map_congr_left fun j hj => h j (by rw [List.mem_range] at hj; omega)

theorem drop (h : Shows N f buf p r n) (k : Nat) :
    Shows N f buf ((p + k) % N) (r + k) (n - k) := by
  intro j hj
  rw [Nat.mod_add_mod, Nat.add_assoc, h (k + j) (by omega), Nat.add_assoc]

/-- A fold over the slots from `a` on, seen at slot `j`. -/
theorem fold_at {xs : List β} {a j : Nat} (hj : j < N) (ha : a + xs.length ≤ N) :
    (Ring.fold N g xs buf ((p + a) % N)).1 ((p + j) % N) =
      Timeline.combine g (buf ((p + j) % N)) (sampleAt (a, xs) j) := by
  have hpa : (p + a) % N < N := Nat.mod_lt _ (by omega)
  unfold sampleAt
  by_cases hin : a ≤ j ∧ j < a + xs.length
  · have hslot : (p + j) % N = ((p + a) % N + (j - a)) % N := by
      rw [Nat.mod_add_mod]
      congr 1
      omega
    rw [hslot, Ring.fold_hit xs hpa (by omega) (by omega), if_pos hin.1,
      List.getElem?_eq_getElem (by dsimp only; omega), Timeline.combine]
  · rw [Ring.fold_miss xs hpa]
    · dsimp only
      split
      · rw [List.getElem?_eq_none (by omega), Timeline.combine]
      · rfl
    · intro i hi he
      rw [Nat.mod_add_mod, Nat.add_assoc] at he
      have := Ring.slot_inj hj (by omega) he
      omega

/-- Filling the slots behind the window with the value the timeline has there. -/
theorem extend (h : Shows N f buf p r n) {z : α} {k : Nat} (hk : n + k ≤ N)
    (hz : ∀ t, r + n ≤ t → f t = z) :
    Shows N f (Ring.fold N (fun _ _ => z) (List.replicate k ()) buf ((p + n) % N)).1 p r
      (n + k) := by
  intro j hj
  rw [fold_at (by omega) (by simpa using hk)]
  unfold sampleAt
  by_cases hn : n ≤ j
  · rw [if_pos hn, List.getElem?_eq_getElem (by simp; omega), Timeline.combine, hz _ (by omega)]
  · rw [if_neg hn, Timeline.combine, h j (by omega)]

/-- A piece inside the window. -/
theorem combine (h : Shows N f buf p r n) (hn : n ≤ N) {t : Nat} {xs : List β}
    (ht : r ≤ t) (hx : t - r + xs.length ≤ N) :
    Shows N (fun s => Timeline.combine g (f s) (sampleAt (t, xs) s))
      (Ring.fold N g xs buf ((p + (t - r)) % N)).1 p r n := by
  intro j hj
  rw [fold_at (by omega) hx, h j hj]
  have hs : sampleAt (t - r, xs) j = sampleAt (t, xs) (r + j) := by
    unfold sampleAt
    dsimp only
    by_cases hle : t - r ≤ j
    · rw [if_pos hle, if_pos (by omega), show r + j - t = j - (t - r) by omega]
    · rw [if_neg hle, if_neg (by omega)]
  rw [hs]

end Shows

end Timeline
