import Mathlib.Data.List.Basic
import Mathlib.Data.List.Nodup

/-!
# The changes of a value

`changes t l`: of the values `l` that arrive one after the other, those that differ from the one
before, where `t` was there first. Each value of `l` is among them once exactly when its occurrences
are grouped (`nodup_changes_iff`), up to those of `t` at the front.
-/

namespace Changes

variable {α : Type*} [DecidableEq α]

def changes : α → List α → List α
  | _, [] => []
  | t, x :: l => if x = t then changes t l else x :: changes x l

/-- No value comes back after another one. -/
def Grouped (l : List α) : Prop := ∀ x y, [x, y, x].Sublist l → x = y

/-- The list without the copies of `t` at its front. -/
abbrev dropFront (t : α) (l : List α) : List α := l.dropWhile (· == t)

@[simp] theorem dropFront_cons_self (t : α) (l : List α) :
    dropFront t (t :: l) = dropFront t l := by simp [dropFront]

theorem dropFront_cons_ne {t x : α} (h : x ≠ t) (l : List α) : dropFront t (x :: l) = x :: l := by
  simp [dropFront, h]

/-- What is dropped is no part of a sublist that starts with another value. -/
theorem sublist_dropFront {b t : α} (hb : b ≠ t) (m l : List α) :
    (b :: m).Sublist (dropFront t l) ↔ (b :: m).Sublist l := by
  refine ⟨fun h => h.trans (List.dropWhile_sublist _), fun h => ?_⟩
  induction l with
  | nil => exact h
  | cons y l ih =>
    by_cases hy : y = t
    · subst hy
      rw [dropFront_cons_self]
      rcases List.sublist_cons_iff.1 h with h | ⟨r, hr, -⟩
      · exact ih h
      · exact absurd (List.cons.inj hr).1 hb
    · rwa [dropFront_cons_ne hy]

theorem mem_dropFront {x t : α} (h : x ≠ t) (l : List α) : x ∈ dropFront t l ↔ x ∈ l := by
  rw [← List.singleton_sublist, sublist_dropFront h, List.singleton_sublist]

theorem mem_changes (t x : α) (l : List α) : x ∈ changes t l ↔ x ∈ dropFront t l := by
  induction l generalizing t with
  | nil => simp [changes, dropFront]
  | cons y l ih =>
    by_cases hy : y = t
    · subst hy
      rw [changes, if_pos rfl, ih, dropFront_cons_self]
    · rw [changes, if_neg hy, dropFront_cons_ne hy, List.mem_cons, List.mem_cons, ih]
      by_cases hxy : x = y
      · simp [hxy]
      · rw [mem_dropFront hxy]

theorem exists_between {x : α} {l : List α} (h : x ∈ dropFront x l) :
    ∃ y, y ≠ x ∧ [y, x].Sublist l := by
  induction l with
  | nil => simp [dropFront] at h
  | cons y l ih =>
    by_cases hy : y = x
    · subst hy
      rw [dropFront_cons_self] at h
      obtain ⟨z, hz, hzl⟩ := ih h
      exact ⟨z, hz, hzl.cons y⟩
    · rw [dropFront_cons_ne hy] at h
      have hx : x ∈ l := (List.mem_cons.1 h).resolve_left (Ne.symm hy)
      exact ⟨y, hy, (List.singleton_sublist.2 hx).cons_cons y⟩

theorem grouped_cons (x : α) (l : List α) :
    Grouped (x :: l) ↔ x ∉ dropFront x l ∧ Grouped (dropFront x l) := by
  constructor
  · intro h
    refine ⟨fun hx => ?_, fun a b hab => h a b ?_⟩
    · obtain ⟨y, hy, hyl⟩ := exists_between hx
      exact hy (h x y (hyl.cons_cons x)).symm
    · exact (hab.trans (List.dropWhile_sublist _)).cons x
  · rintro ⟨hx, h⟩ a b hab
    have hback (hb : b ≠ x) (hbl : [b, x].Sublist l) : False :=
      hx (((sublist_dropFront hb [x] l).2 hbl).subset (by simp))
    by_contra hne
    rcases List.sublist_cons_iff.1 hab with hl | ⟨r, hr, hl⟩
    · by_cases ha : a = x
      · subst ha
        exact hback (Ne.symm hne) ((List.sublist_cons_self a _).trans hl)
      · exact hne (h a b ((sublist_dropFront ha [b, a] l).2 hl))
    · obtain ⟨rfl, rfl⟩ := List.cons.inj hr
      exact hback (Ne.symm hne) hl

/-- **Each value changes once.** -/
theorem nodup_changes_iff (t : α) (l : List α) :
    (changes t l).Nodup ↔ Grouped (dropFront t l) := by
  induction l generalizing t with
  | nil => simp [changes, dropFront, Grouped]
  | cons x l ih =>
    by_cases hx : x = t
    · subst hx
      rw [changes, if_pos rfl, ih, dropFront_cons_self]
    · rw [changes, if_neg hx, dropFront_cons_ne hx, List.nodup_cons, grouped_cons, mem_changes, ih]

end Changes
