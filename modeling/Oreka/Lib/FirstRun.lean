import Mathlib.Data.List.TakeWhile

/-!
# The first run of a list

`firstRun p l` holds the items of `l` from the first that satisfies `p` up to the next that does not. It is all
of the items that satisfy `p` where at most one does (`mem_firstRun_of_unique`) or where all do
(`firstRun_of_forall`), but not in general.
-/

namespace List

variable {α : Type*} {p : α → Bool} {x y : α} {l : List α}

def firstRun (p : α → Bool) (l : List α) : List α :=
  (l.dropWhile (!p ·)).takeWhile p

@[simp]
theorem firstRun_nil : firstRun p [] = [] := rfl

theorem firstRun_cons_of_pos (h : p x = true) : firstRun p (x :: l) = x :: l.takeWhile p := by
  simp [firstRun, h]

theorem firstRun_cons_of_neg (h : p x = false) : firstRun p (x :: l) = firstRun p l := by
  simp [firstRun, h]

theorem mem_firstRun_cons_self (h : p x = true) : x ∈ firstRun p (x :: l) := by
  rw [firstRun_cons_of_pos h]
  exact mem_cons_self

theorem firstRun_cons_cons_of_neg (h : p x = true) (h' : p y = false) : firstRun p (x :: y :: l) = [x] := by
  rw [firstRun_cons_of_pos h, takeWhile_cons_of_neg (by simp [h'])]

theorem pred_of_mem_firstRun (h : x ∈ firstRun p l) : p x = true :=
  mem_takeWhile_imp h

theorem mem_of_mem_firstRun (h : x ∈ firstRun p l) : x ∈ l :=
  (dropWhile_suffix _).mem ((takeWhile_sublist _).mem h)

theorem mem_firstRun_of_unique (hx : x ∈ l) (hp : p x = true) (h : ∀ y ∈ l, p y = true → y = x) :
    x ∈ firstRun p l := by
  induction l with
  | nil => exact absurd hx not_mem_nil
  | cons y l ih =>
    cases hy : p y with
    | true =>
      rw [firstRun_cons_of_pos hy, h y mem_cons_self hy]
      exact mem_cons_self
    | false =>
      have hne : x ≠ y := by
        rintro rfl
        rw [hp] at hy
        cases hy
      rw [firstRun_cons_of_neg hy]
      exact ih (mem_of_ne_of_mem hne hx) fun z hz => h z (mem_cons_of_mem _ hz)

theorem firstRun_append_of_neg (h : ∀ y ∈ l, p y = false) (l' : List α) :
    firstRun p (l ++ l') = firstRun p l' := by
  induction l with
  | nil => rfl
  | cons y l ih =>
    rw [cons_append, firstRun_cons_of_neg (h y mem_cons_self)]
    exact ih fun z hz => h z (mem_cons_of_mem _ hz)

theorem firstRun_cons_of_rest_neg (h : p x = true) (hl : ∀ y ∈ l, p y = false) : firstRun p (x :: l) = [x] := by
  cases l with
  | nil => exact firstRun_cons_of_pos h
  | cons y l => exact firstRun_cons_cons_of_neg h (hl y mem_cons_self)

theorem firstRun_of_forall (h : ∀ y ∈ l, p y = true) : firstRun p l = l := by
  cases l with
  | nil => rfl
  | cons y l =>
    rw [firstRun_cons_of_pos (h y mem_cons_self),
      takeWhile_eq_self_iff.mpr fun z hz => h z (mem_cons_of_mem _ hz)]

end List
