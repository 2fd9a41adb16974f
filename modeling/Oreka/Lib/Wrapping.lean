import Mathlib.Data.Int.ModEq
import Mathlib.Tactic.LinearCombination
import Mathlib.Tactic.Linarith
import Mathlib.Tactic.Ring

/-!
# Counters that wrap, and are divided

A counter is known modulo `N` only, and its readings are divided by `m` to count something `m` times as
slow. A division after the wrap counts on as if there was none only between readings with the same number
of wraps modulo `m` (`scaled_iff`); a reading that is not divided agrees with one that is at few places
(`mixed_iff`).
-/

namespace Wrapping

variable {N m : Int}

/-- A multiple of `N` between less than `N` below and less than `N` above is none. -/
theorem eq_zero_of_mul {x : Int} (hN : 0 < N) (hlow : -N < N * x) (hhigh : N * x < N) : x = 0 := by
  have h1 : x < 1 := by
    apply lt_of_mul_lt_mul_left _ hN.le
    rwa [mul_one]
  have h2 : -1 < x := by
    apply lt_of_mul_lt_mul_left _ hN.le
    rwa [mul_neg, mul_one]
  omega

/-- A step down of `N` before the division is not one after it, unless `m` steps are taken. -/
theorem div_modEq_iff (hm : 0 < m) (hN : m ≤ N) (a w w' : Int) :
    (a - N * w) / m ≡ (a - N * w') / m [ZMOD N] ↔ w ≡ w' [ZMOD m] := by
  constructor
  · intro h
    obtain ⟨c, hc⟩ := h.dvd
    have hdiv := Int.emod_add_mul_ediv (a - N * w) m
    have hdiv' := Int.emod_add_mul_ediv (a - N * w') m
    have hr := Int.emod_nonneg (a - N * w) hm.ne'
    have hr' := Int.emod_nonneg (a - N * w') hm.ne'
    have hlt := Int.emod_lt_of_pos (a - N * w) hm
    have hlt' := Int.emod_lt_of_pos (a - N * w') hm
    -- the remainders differ by less than `m`, and by a multiple of `N`
    have hmul : (a - N * w) % m - (a - N * w') % m = N * (w' - w + m * c) := by
      linear_combination hdiv - hdiv' + m * hc
    have hzero := eq_zero_of_mul (by omega) (by omega) (hmul ▸ by omega : N * (w' - w + m * c) < N)
    exact Int.modEq_iff_dvd.2 ⟨-c, by linear_combination hzero⟩
  · intro h
    obtain ⟨c, hc⟩ := h.dvd
    have hshift : a - N * w = a - N * w' + N * c * m := by linear_combination N * hc
    rw [hshift, Int.add_mul_ediv_right _ _ hm.ne']
    exact Int.modEq_iff_dvd.2 ⟨-c, by ring⟩

/-- A reading that has gone down by `N` so often and is divided is the reading itself, modulo `N`, only at
one or two places. -/
theorem div_modEq_self_iff (hm : 0 < m) (hN : m ≤ N) {t : Int} (ht : 0 ≤ t) (htN : t < N) (d : Int) :
    (t - N * d) / m ≡ t [ZMOD N] ↔ (m - 1) * t ≤ N * (-d % m) ∧ N * (-d % m) < (m - 1) * t + m := by
  have hmod := Int.emod_add_mul_ediv (-d) m
  constructor
  · intro h
    obtain ⟨c, hc⟩ := h.dvd
    have hdiv := Int.emod_add_mul_ediv (t - N * d) m
    have hr := Int.emod_nonneg (t - N * d) hm.ne'
    have hlt := Int.emod_lt_of_pos (t - N * d) hm
    have hx : N * (m * c - d) = (m - 1) * t + (t - N * d) % m := by linear_combination -m * hc - hdiv
    have hxm : m * c - d < m := by
      apply lt_of_mul_lt_mul_left _ (by omega : 0 ≤ N)
      nlinarith
    have hx0 : 0 ≤ m * c - d := by
      have h0 : 0 ≤ (m - 1) * t := mul_nonneg (by omega) ht
      apply le_of_mul_le_mul_left _ (by omega : 0 < N)
      omega
    have heq : -d % m = m * c - d := by
      have hcongr : -d % m = (m * c - d) % m := by rw [sub_eq_add_neg, Int.mul_add_emod_self_left]
      rw [hcongr, Int.emod_eq_of_lt hx0 hxm]
    rw [heq]
    omega
  · intro ⟨hlow, hhigh⟩
    have hsplit : t - N * d = N * (-d % m) - (m - 1) * t + (t - N * -(-d / m)) * m := by
      linear_combination -N * hmod
    have hdiv : (t - N * d) / m = t - N * -(-d / m) := by
      rw [hsplit, Int.add_mul_ediv_right _ _ hm.ne', Int.ediv_eq_zero_of_lt (by omega) (by omega), zero_add]
    rw [hdiv]
    exact Int.modEq_iff_dvd.2 ⟨-(-d / m), by ring⟩

/-! ## Two readings -/

section

variable {u u' k : Int}

theorem emod_div_eq (hm : 0 < m) (h : u' = u + m * k) : u' % N / m = (u - N * (u' / N)) / m + k := by
  have hsplit : u' - N * (u' / N) = u - N * (u' / N) + k * m := by linear_combination h
  rw [Int.emod_def, hsplit, Int.add_mul_ediv_right _ _ hm.ne']

theorem add_sub_modEq_iff (a b k : Int) : a + k - b ≡ k [ZMOD N] ↔ a ≡ b [ZMOD N] := by
  rw [Int.modEq_iff_dvd, Int.modEq_iff_dvd, show k - (a + k - b) = b - a by ring]

/-- Both are divided. -/
theorem scaled_iff (hm : 0 < m) (hN : m ≤ N) (h : u' = u + m * k) :
    u' % N / m - u % N / m ≡ k [ZMOD N] ↔ u' / N ≡ u / N [ZMOD m] := by
  rw [emod_div_eq hm h, Int.emod_def, add_sub_modEq_iff, div_modEq_iff hm hN]

/-- Neither is. -/
theorem unscaled_iff (h : u' = u + m * k) : u' % N - u % N ≡ k [ZMOD N] ↔ N ∣ (m - 1) * k := by
  have hreadings : u' % N - u % N ≡ m * k [ZMOD N] := by
    have hsub := (Int.mod_modEq u' N).sub (Int.mod_modEq u N)
    rwa [h, add_sub_cancel_left, ← h] at hsub
  have hdiff : k - m * k = -((m - 1) * k) := by ring
  rw [← Int.dvd_neg, ← hdiff, ← Int.modEq_iff_dvd]
  exact ⟨hreadings.symm.trans, hreadings.trans⟩

/-- The second is divided, and the first is not. -/
theorem mixed_iff (hm : 0 < m) (hN : m ≤ N) (h : u' = u + m * k) :
    u' % N / m - u % N ≡ k [ZMOD N] ↔
      (m - 1) * (u % N) ≤ N * ((u / N - u' / N) % m) ∧
        N * ((u / N - u' / N) % m) < (m - 1) * (u % N) + m := by
  have hpos : 0 < N := hm.trans_le hN
  have hread : u - N * (u' / N) = u % N - N * (u' / N - u / N) := by
    linear_combination -Int.emod_add_mul_ediv u N
  have hneg : u / N - u' / N = -(u' / N - u / N) := by ring
  rw [emod_div_eq hm h, add_sub_modEq_iff, hread, hneg]
  exact div_modEq_self_iff hm hN (Int.emod_nonneg u hpos.ne') (Int.emod_lt_of_pos u hpos) _

end

end Wrapping
