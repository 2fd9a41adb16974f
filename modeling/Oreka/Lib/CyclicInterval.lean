import Mathlib.Algebra.Order.Ring.Int

/-!
# Intervals of a cycle

The positions on a cycle are `0` to `n - 1`; after the last comes the first. `Between n start stop x` says that
`x` is met on the way up from `start` to `stop`, which is the interval of the integers only where it does not
lead past the end of the cycle (`between_iff_of_le`, `between_iff_of_lt`).
-/

namespace Cyclic

variable {n start stop x : Int}

def Between (n start stop x : Int) : Prop :=
  (x - start) % n ≤ (stop - start) % n
  deriving Decidable

theorem between_start (hn : 0 < n) : Between n start stop start := by
  simp [Between, Int.emod_nonneg _ hn.ne']

/-- The way up to a position that is not below the start. -/
theorem sub_emod_of_le (h : 0 ≤ start) (hle : start ≤ x) (hx : x < n) : (x - start) % n = x - start :=
  Int.emod_eq_of_lt (by omega) (by omega)

/-- The way up to a position below the start leads past the end. -/
theorem sub_emod_of_lt (h : start < n) (hlt : x < start) (hx : 0 ≤ x) : (x - start) % n = x - start + n := by
  rw [← Int.add_emod_right]
  exact Int.emod_eq_of_lt (by omega) (by omega)

theorem between_iff_of_le (h : 0 ≤ start) (hle : start ≤ stop) (hn : stop < n) (hx : 0 ≤ x) (hxn : x < n) :
    Between n start stop x ↔ start ≤ x ∧ x ≤ stop := by
  rw [Between, sub_emod_of_le h hle hn]
  by_cases hsx : start ≤ x
  · rw [sub_emod_of_le h hsx hxn]
    omega
  · rw [sub_emod_of_lt (by omega) (by omega) hx]
    omega

theorem between_iff_of_lt (hlt : stop < start) (h : 0 ≤ stop) (hn : start < n) (hx : 0 ≤ x) (hxn : x < n) :
    Between n start stop x ↔ start ≤ x ∨ x ≤ stop := by
  rw [Between, sub_emod_of_lt hn hlt h]
  by_cases hsx : start ≤ x
  · rw [sub_emod_of_le (by omega) hsx hxn]
    omega
  · rw [sub_emod_of_lt hn (by omega) hx]
    omega

end Cyclic
