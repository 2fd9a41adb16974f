import Mathlib.Data.List.Infix

/-!
# The first place of a list in a list

`first l k` is the first place in `l`, before its end, at which `k` stands. What is appended to `l` does
not change it (`first_append`); a place that it adds lies behind `l`, or at an end of `l` with which `k`
begins (`cut_of_first_append`), and each such end can be completed to one (`first_append_cut`).
-/

namespace Infix

variable {α : Type*} {l t k r : List α} {i : Nat}

/-- What stands in a list with more behind it, and ends within the list, stands in the list. -/
theorem prefix_of_prefix_append (h : k <+: (l ++ t).drop i) (hi : i + k.length ≤ l.length) :
    k <+: l.drop i := by
  rw [List.drop_append_of_le_length (by omega)] at h
  refine List.prefix_of_prefix_length_le h (List.prefix_append _ t) ?_
  rw [List.length_drop]
  omega

theorem prefix_append_drop (h : k <+: l.drop i) : k <+: (l ++ t).drop i := by
  rw [List.drop_append]
  exact h.trans (List.prefix_append ..)

variable [BEq α]

def first (l k : List α) : Option Nat := (List.range l.length).find? fun i => k.isPrefixOf (l.drop i)

variable [LawfulBEq α]

theorem first_eq_some_iff :
    first l k = some i ↔ i < l.length ∧ k <+: l.drop i ∧ ∀ j < i, ¬ k <+: l.drop j := by
  simp only [first, List.find?_range_eq_some, List.mem_range, List.isPrefixOf_iff_prefix, Bool.not_eq_true',
    ← Bool.not_eq_true]
  exact and_left_comm

theorem first_eq_none_iff : first l k = none ↔ ∀ i < l.length, ¬ k <+: l.drop i := by
  simp only [first, List.find?_eq_none, List.mem_range, List.isPrefixOf_iff_prefix]

theorem lt_of_first (h : first l k = some i) : i < l.length := (first_eq_some_iff.1 h).1

theorem add_length_le_of_first (h : first l k = some i) : i + k.length ≤ l.length := by
  obtain ⟨hi, hk, -⟩ := first_eq_some_iff.1 h
  have hlength := hk.length_le
  rw [List.length_drop] at hlength
  omega

theorem first_append (h : first l k = some i) : first (l ++ t) k = some i := by
  have hend := add_length_le_of_first h
  obtain ⟨hi, hk, hfirst⟩ := first_eq_some_iff.1 h
  refine first_eq_some_iff.2 ⟨?_, prefix_append_drop hk, fun j hj hkj => ?_⟩
  · rw [List.length_append]
    omega
  · exact hfirst j hj (prefix_of_prefix_append hkj (by omega))

/-- Where the list with more behind it has a place, and the list has none. -/
theorem cut_of_first_append (hnone : first l k = none) (h : first (l ++ t) k = some i) :
    l.drop i <+: k ∧ l.length ≤ i + k.length := by
  obtain ⟨-, hk, -⟩ := first_eq_some_iff.1 h
  have hend : l.length ≤ i + k.length := by
    by_contra hlt
    exact first_eq_none_iff.1 hnone i (by omega) (prefix_of_prefix_append hk (by omega))
  refine ⟨?_, hend⟩
  rw [List.drop_append] at hk
  refine List.prefix_of_prefix_length_le (List.prefix_append _ _) hk ?_
  rw [List.length_drop]
  omega

/-- The longest end of the list with which `k` begins, completed. -/
theorem first_append_cut (hnone : first l (l.drop i ++ r) = none) (hi : i ≤ l.length)
    (hfirst : ∀ j < i, ¬ l.drop j <+: l.drop i ++ r) (hne : r ++ t ≠ []) :
    first (l ++ (r ++ t)) (l.drop i ++ r) = some i := by
  have hpos := List.length_pos_iff.2 hne
  refine first_eq_some_iff.2 ⟨?_, ?_, fun j hj hk => ?_⟩
  · rw [List.length_append]
    omega
  · rw [List.drop_append_of_le_length hi, ← List.append_assoc]
    exact List.prefix_append _ t
  · rcases Nat.lt_or_ge l.length (j + (l.drop i ++ r).length) with hout | hin
    · apply hfirst j hj
      rw [List.drop_append_of_le_length (by omega)] at hk
      refine List.prefix_of_prefix_length_le (List.prefix_append _ _) hk ?_
      rw [List.length_drop]
      omega
    · exact first_eq_none_iff.1 hnone j (by omega) (prefix_of_prefix_append hk hin)

/-- The first place of an element. -/
theorem idxOf?_append_cons {x : α} (h : x ∉ l) (rest : List α) : (l ++ x :: rest).idxOf? x = some l.length := by
  have hnone : l.findIdx? (· == x) = none := by
    rw [List.findIdx?_eq_none_iff]
    exact fun y hy => beq_eq_false_iff_ne.2 fun hyx => h (hyx ▸ hy)
  rw [List.idxOf?, List.findIdx?_append, hnone, List.findIdx?_cons]
  simp

/-- A list is cut at the first place of an element in one way only. -/
theorem append_cons_inj {x : α} {l' r' : List α} (h : x ∉ l) (h' : x ∉ l') (heq : l ++ x :: r = l' ++ x :: r') :
    l = l' ∧ r = r' := by
  have hlength := (idxOf?_append_cons h r).symm.trans (heq ▸ idxOf?_append_cons h' r')
  obtain ⟨hl, hr⟩ := List.append_inj heq (Option.some.inj hlength)
  exact ⟨hl, (List.cons.inj hr).2⟩

end Infix
