import Mathlib.Data.List.Basic

/-!
# Searches that go from candidate to candidate

A loop compares at its start, and then at one candidate after the other, up to a bound. It finds the
first position that is the start or a candidate and where the comparison succeeds (`loop_eq_some_iff`),
when the step from one position leads to the next candidate (`Steps`).
-/

namespace Search

variable {next : Nat → Option Nat} {hit : Nat → Bool} {stop : Nat} {candidate : Nat → Prop}

/-- The loop from a position on. -/
def loop (next : Nat → Option Nat) (hit : Nat → Bool) (stop : Nat) : Nat → Nat → Option Nat
  | 0, _ => none
  | rounds + 1, p =>
    if p < stop then
      if hit p then some p else (next p).elim none (loop next hit stop rounds)
    else none

/-- A step leads to the next candidate before the bound, if there is one, and else to the bound or
nowhere. -/
structure Steps (next : Nat → Option Nat) (candidate : Nat → Prop) (stop : Nat) : Prop where
  forward : ∀ p q, next p = some q → p < q
  none_between : ∀ p q, next p = some q → ∀ r, p < r → r < q → r < stop → ¬ candidate r
  reached : ∀ p q, next p = some q → q < stop → candidate q
  none_behind : ∀ p, next p = none → ∀ r, p < r → r < stop → ¬ candidate r

/-- The search from `p` compares at `q`, and succeeds. -/
def Hits (candidate : Nat → Prop) (hit : Nat → Bool) (stop p q : Nat) : Prop :=
  p ≤ q ∧ q < stop ∧ (q = p ∨ candidate q) ∧ hit q = true

/-- Behind a position without a hit, the search goes on at the next candidate. -/
theorem Steps.hits_iff (h : Steps next candidate stop) {p p' q : Nat} (hp : hit p = false) (hnext : next p = some p') :
    Hits candidate hit stop p q ↔ Hits candidate hit stop p' q := by
  have hlt := h.forward p p' hnext
  constructor
  · rintro ⟨hle, hstop, hcandidate, hhit⟩
    have hne : q ≠ p := by
      rintro rfl
      rw [hp] at hhit
      cases hhit
    have hcand : candidate q := hcandidate.resolve_left hne
    have hle' : p' ≤ q := by
      by_contra hnot
      exact h.none_between p p' hnext q (by omega) (by omega) hstop hcand
    exact ⟨hle', hstop, .inr hcand, hhit⟩
  · rintro ⟨hle, hstop, hcandidate, hhit⟩
    refine ⟨by omega, hstop, .inr ?_, hhit⟩
    rcases hcandidate with rfl | hcand
    · exact h.reached p q hnext hstop
    · exact hcand

theorem Steps.not_hits (h : Steps next candidate stop) {p q : Nat} (hp : hit p = false) (hnext : next p = none) :
    ¬ Hits candidate hit stop p q := by
  rintro ⟨hle, hstop, rfl | hcand, hhit⟩
  · rw [hp] at hhit
    cases hhit
  · rcases Nat.eq_or_lt_of_le hle with rfl | hlt
    · rw [hp] at hhit
      cases hhit
    · exact h.none_behind p hnext q hlt hstop hcand

/-- **The loop finds the first hit**, given a round for each position. -/
theorem loop_eq_some_iff (h : Steps next candidate stop) : ∀ (rounds p : Nat) {q : Nat}, stop - p ≤ rounds →
    (loop next hit stop rounds p = some q ↔
      Hits candidate hit stop p q ∧ ∀ r < q, ¬ Hits candidate hit stop p r)
  | 0, p, q, hrounds => by
    refine iff_of_false (by simp [loop]) ?_
    rintro ⟨⟨hle, hstop, -⟩, -⟩
    omega
  | rounds + 1, p, q, hrounds => by
    unfold loop
    by_cases hstop : p < stop
    · rw [if_pos hstop]
      cases hp : hit p with
      | true =>
        have hpp : Hits candidate hit stop p p := ⟨Nat.le_refl p, hstop, .inl rfl, hp⟩
        rw [if_pos rfl, Option.some.injEq]
        constructor
        · rintro rfl
          exact ⟨hpp, fun r hr hhits => absurd hhits.1 (by omega)⟩
        · rintro ⟨hq, hfirst⟩
          by_contra hne
          exact hfirst p (Nat.lt_of_le_of_ne hq.1 hne) hpp
      | false =>
        rw [if_neg Bool.false_ne_true]
        cases hnext : next p with
        | none => exact iff_of_false (by simp) fun hhits => h.not_hits hp hnext hhits.1
        | some p' =>
          have hlt := h.forward p p' hnext
          simp only [Option.elim_some, h.hits_iff hp hnext]
          exact loop_eq_some_iff h rounds p' (by omega)
    · rw [if_neg hstop]
      refine iff_of_false (by simp) ?_
      rintro ⟨⟨hle, hlt, -⟩, -⟩
      omega

end Search
