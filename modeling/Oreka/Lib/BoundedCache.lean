import Mathlib.Order.Nat
import Mathlib.Data.List.Basic

/-!
# A cache of bounded length

The most recent items come first, and the last is dropped when there are more than `n`. An item that is pushed
stays in the cache while no more than `n` others are pushed before it (`cached_push`, `Cached.push`).
-/

namespace BoundedCache

variable {α : Type*} {n i j : Nat} {x y : α} {l newer older : List α} {q q' : α → Prop}

def push (n : Nat) (x : α) (l : List α) : List α :=
  x :: if l.length > n then l.dropLast else l

theorem push_of_length_le (h : l.length ≤ n) : push n x l = x :: l := by
  rw [push, if_neg (Nat.not_lt.mpr h)]

theorem mem_of_mem_push (h : y ∈ push n x l) : y = x ∨ y ∈ l := by
  rcases List.mem_cons.mp h with rfl | h
  · exact .inl rfl
  · split at h
    · exact .inr (List.dropLast_subset l h)
    · exact .inr h

theorem push_append_cons (h : newer.length < n) :
    ∃ older', push n x (newer ++ y :: older) = (x :: newer) ++ y :: older' ∧ older' ⊆ older := by
  unfold push
  split
  case isTrue hlen =>
    have hne : older ≠ [] := by
      rintro rfl
      simp at hlen
      omega
    refine ⟨older.dropLast, ?_, List.dropLast_subset older⟩
    rw [List.dropLast_append_cons, List.dropLast_cons_of_ne_nil hne, List.cons_append]
  case isFalse => exact ⟨older, rfl, List.Subset.refl older⟩

/-- At most `i` items are more recent than `y`, and satisfy `q`; those that are older satisfy `q'`. -/
def Cached (q q' : α → Prop) (y : α) (i : Nat) (l : List α) : Prop :=
  ∃ newer older, l = newer ++ y :: older ∧ newer.length ≤ i ∧ (∀ x ∈ newer, q x) ∧ ∀ x ∈ older, q' x

theorem Cached.mono (h : Cached q q' y i l) (hij : i ≤ j) : Cached q q' y j l := by
  obtain ⟨newer, older, hl, hi, hq⟩ := h
  exact ⟨newer, older, hl, hi.trans hij, hq⟩

theorem cached_push (h : ∀ x ∈ l, q' x) : Cached q q' y 0 (push n y l) := by
  refine ⟨[], if l.length > n then l.dropLast else l, rfl, le_rfl, by simp, fun x hx => h x ?_⟩
  split at hx
  · exact List.dropLast_subset l hx
  · exact hx

theorem Cached.push (h : Cached q q' y i l) (hx : q x) (hi : i < n) :
    Cached q q' y (i + 1) (push n x l) := by
  obtain ⟨newer, older, rfl, hlen, hq, hq'⟩ := h
  obtain ⟨older', hpush, hsub⟩ := push_append_cons (x := x) (hlen.trans_lt hi)
  refine ⟨x :: newer, older', hpush, Nat.succ_le_succ hlen, ?_, fun z hz => hq' z (hsub hz)⟩
  exact List.forall_mem_cons.mpr ⟨hx, hq⟩

end BoundedCache
