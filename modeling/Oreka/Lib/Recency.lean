import Mathlib.Data.List.Induction
import Mathlib.Data.List.Nodup

/-!
# Keys in the order of their last touch

`touch k l` makes `k` the newest key of `l`. `recency` folds it over a history of touches: its keys
stand in the order of their last touch, each once.
-/

namespace Recency

variable {K : Type*} [DecidableEq K]

def touch (k : K) (l : List K) : List K := l.filter (· ≠ k) ++ [k]

/-- The keys of a history, oldest first. -/
def recency (hist : List K) : List K := hist.foldl (fun l k => touch k l) []

@[simp] theorem recency_concat (hist : List K) (k : K) :
    recency (hist ++ [k]) = touch k (recency hist) := by
  simp [recency]

theorem nodup_touch {l : List K} (h : l.Nodup) (k : K) : (touch k l).Nodup := by
  simp only [touch, List.nodup_append]
  refine ⟨h.filter _, List.nodup_singleton k, ?_⟩
  intro a ha b hb hab
  obtain rfl : b = k := List.mem_singleton.1 hb
  simp [hab] at ha

theorem nodup_recency (hist : List K) : (recency hist).Nodup := by
  induction hist using List.reverseRecOn with
  | nil => exact List.nodup_nil
  | append_singleton hist k ih =>
    rw [recency_concat]
    exact nodup_touch ih k

/-- Some of the keys, with a new one behind them. -/
theorem concat_sublist_touch {l l' : List K} (h : l.Sublist l') {k : K} (hk : k ∉ l) :
    (l ++ [k]).Sublist (touch k l') := by
  have hl : l.filter (· ≠ k) = l := by
    rw [List.filter_eq_self]
    intro a ha
    have : a ≠ k := fun hak => hk (hak ▸ ha)
    simp [this]
  have hsub := h.filter (fun a => decide (a ≠ k))
  rw [hl] at hsub
  exact hsub.append_right [k]

end Recency
