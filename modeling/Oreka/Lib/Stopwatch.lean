/-!
# Stopwatches of machine integers

A stopwatch is switched on and off at marked times, which it keeps as integers modulo `M` around 0; it
is off while the time at which it was switched on reads 0. It shows the time that it was on (`timeOn`)
exactly if it is off at the end, each time that it was switched on reads positive, and there is no more
than it can show (`total_eq_iff`).
-/

structure Stopwatch where
  lastOn : Int := 0
  total : Int := 0

namespace Stopwatch

variable {M : Nat} {stop now : Int} {since : Option Int} {marks : List (Int × Bool)} {c : Stopwatch}

/-- The watch is switched on or off. -/
def mark (M : Nat) (c : Stopwatch) : Int × Bool → Stopwatch
  | (t, true) => if c.lastOn = 0 then { c with lastOn := t.bmod M } else c
  | (t, false) => { lastOn := 0, total := if c.lastOn > 0 then (c.total + (t - c.lastOn)).bmod M else c.total }

/-- The time from `since`, when the watch was on, or from the marks that switch it on, to those that
switch it off, or to `stop`. -/
def timeOn (stop : Int) : Option Int → List (Int × Bool) → Int
  | none, [] => 0
  | some since, [] => stop - since
  | none, (t, true) :: marks => timeOn stop (some t) marks
  | none, (_, false) :: marks => timeOn stop none marks
  | some since, (_, true) :: marks => timeOn stop (some since) marks
  | some since, (t, false) :: marks => t - since + timeOn stop none marks

/-- All of that time is counted: no time passes before `stop` when the watch is still on there, and none
between two marks of which the first reads 0 or less. -/
def Counted (M : Nat) (stop : Int) : Option Int → List (Int × Bool) → Prop
  | none, [] => True
  | some since, [] => stop = since
  | none, (t, true) :: marks => Counted M stop (some t) marks
  | none, (_, false) :: marks => Counted M stop none marks
  | some since, (_, true) :: marks => Counted M stop (some since) marks
  | some since, (t, false) :: marks => (t = since ∨ 0 < since.bmod M) ∧ Counted M stop none marks

/-- The watch was switched on at `since`, or, as long as it read 0, again later. -/
def Shows (M : Nat) (now : Int) (c : Stopwatch) : Option Int → Prop
  | none => c.lastOn = 0
  | some since => ∃ t, since ≤ t ∧ t ≤ now ∧ c.lastOn = t.bmod M ∧ (t = since ∨ since.bmod M = 0)

theorem Shows.mono {now' : Int} (h : c.Shows M now since) (hle : now ≤ now') : c.Shows M now' since := by
  cases since with
  | none => exact h
  | some since =>
    obtain ⟨t, hsince, hnow, hlast, hzero⟩ := h
    exact ⟨t, hsince, Int.le_trans hnow hle, hlast, hzero⟩

theorem Shows.markOn {since t : Int} (h : c.Shows M now (some since)) (ht : now ≤ t) :
    (c.mark M (t, true)).Shows M t (some since) := by
  obtain ⟨t', hsince, hnow, hlast, hzero⟩ := h
  unfold mark
  dsimp only
  split
  · rename_i hoff
    refine ⟨t, by omega, Int.le_refl t, rfl, .inr ?_⟩
    rcases hzero with rfl | hzero
    · exact hlast.symm.trans hoff
    · exact hzero
  · exact ⟨t', hsince, Int.le_trans hnow ht, hlast, hzero⟩

theorem markOn_total (t : Int) : (c.mark M (t, true)).total = c.total := by
  unfold mark
  dsimp only
  split
  · rfl
  · rfl

/-- What the watch misses: its total is the rest. -/
theorem exists_missed (marks : List (Int × Bool)) (since : Option Int) (now : Int) (c : Stopwatch)
    (hsorted : (now :: (marks.map (·.1) ++ [stop])).Pairwise (· ≤ ·)) (hc : c.Shows M now since) :
    ∃ missed, 0 ≤ missed ∧ missed ≤ timeOn stop since marks ∧
      (marks.foldl (mark M) c).total.bmod M = (c.total + (timeOn stop since marks - missed)).bmod M ∧
      (missed = 0 ↔ Counted M stop since marks) := by
  induction marks generalizing since now c with
  | nil =>
    cases since with
    | none => exact ⟨0, Int.le_refl 0, Int.le_refl 0, by simp [timeOn], by simp [Counted]⟩
    | some since =>
      have hstop : now ≤ stop := by simpa using hsorted
      obtain ⟨t, hsince, hnow, -⟩ := hc
      refine ⟨stop - since, by omega, Int.le_refl _, by simp [timeOn], ?_⟩
      show stop - since = 0 ↔ stop = since
      omega
  | cons m marks ih =>
    obtain ⟨t, on⟩ := m
    obtain ⟨hle, hsorted⟩ := List.pairwise_cons.1 hsorted
    have hnow : now ≤ t := hle t (by simp)
    cases on with
    | true =>
      have htotal : (c.mark M (t, true)).total = c.total := markOn_total t
      have hshows : (c.mark M (t, true)).Shows M t (some (since.getD t)) := by
        cases since with
        | none =>
          have hoff : c.lastOn = 0 := hc
          refine ⟨t, Int.le_refl t, Int.le_refl t, ?_, .inl rfl⟩
          simp [mark, hoff]
        | some since => exact hc.markOn hnow
      have hih := ih (some (since.getD t)) t (c.mark M (t, true)) hsorted hshows
      rw [htotal] at hih
      cases since with
      | none => exact hih
      | some since => exact hih
    | false =>
      have hoff : (c.mark M (t, false)).Shows M t none := rfl
      obtain ⟨missed, hnonneg, hmissed, htotal, hiff⟩ := ih none t (c.mark M (t, false)) hsorted hoff
      cases since with
      | none =>
        have hlast : c.lastOn = 0 := hc
        refine ⟨missed, hnonneg, hmissed, ?_, hiff⟩
        have hsame : (c.mark M (t, false)).total = c.total := by simp [mark, hlast]
        rw [← hsame]
        exact htotal
      | some since =>
        obtain ⟨t', hsince, hnow', hlast, hzero⟩ := hc
        have hlate : t' ≤ t := Int.le_trans hnow' hnow
        by_cases hpos : 0 < c.lastOn
        · -- The time from `t'` on is counted.
          have hcounted : (c.mark M (t, false)).total = (c.total + (t - c.lastOn)).bmod M := by
            simp [mark, hpos]
          have hbegan : t' - since = 0 ↔ t = since ∨ 0 < since.bmod M := by
            rcases hzero with rfl | hzero
            · exact iff_of_true (Int.sub_self t') (.inr (hlast ▸ hpos))
            · have hne : t' ≠ since := by
                rintro rfl
                omega
              omega
          refine ⟨missed + (t' - since), by omega, ?_, ?_, ?_⟩
          · show missed + (t' - since) ≤ t - since + timeOn stop none marks
            omega
          · have hrest : c.total + (t - t'.bmod M) + (timeOn stop none marks - missed) =
                c.total + t + timeOn stop none marks - missed - t'.bmod M := by omega
            rw [hcounted, Int.bmod_add_bmod, hlast, hrest, Int.sub_bmod_bmod] at htotal
            rw [List.foldl_cons, htotal]
            refine congrArg (Int.bmod · M) ?_
            show _ = c.total + (t - since + timeOn stop none marks - (missed + (t' - since)))
            omega
          · show missed + (t' - since) = 0 ↔ (t = since ∨ 0 < since.bmod M) ∧ Counted M stop none marks
            rw [← hbegan, ← hiff]
            omega
        · -- None of it is.
          have hsame : (c.mark M (t, false)).total = c.total := by simp [mark, hpos]
          have hbegan : t - since = 0 ↔ t = since ∨ 0 < since.bmod M := by
            rcases hzero with rfl | hzero
            · omega
            · omega
          refine ⟨missed + (t - since), by omega, ?_, ?_, ?_⟩
          · show missed + (t - since) ≤ t - since + timeOn stop none marks
            omega
          · rw [hsame] at htotal
            rw [List.foldl_cons, htotal]
            refine congrArg (Int.bmod · M) ?_
            show _ = c.total + (t - since + timeOn stop none marks - (missed + (t - since)))
            omega
          · show missed + (t - since) = 0 ↔ (t = since ∨ 0 < since.bmod M) ∧ Counted M stop none marks
            rw [← hbegan, ← hiff]
            omega

theorem bmod_total (marks : List (Int × Bool)) (c : Stopwatch) (hc : c.total.bmod M = c.total) :
    (marks.foldl (mark M) c).total.bmod M = (marks.foldl (mark M) c).total := by
  induction marks generalizing c with
  | nil => exact hc
  | cons m marks ih =>
    refine ih _ ?_
    obtain ⟨t, on⟩ := m
    cases on with
    | true => rw [markOn_total, hc]
    | false =>
      unfold mark
      dsimp only
      split
      · exact Int.bmod_bmod
      · exact hc

/-- **A watch that starts at 0 shows the time that it was on** exactly if all of it is counted and can
be shown. -/
theorem total_eq_iff (hM : 0 < M) (marks : List (Int × Bool))
    (hsorted : (marks.map (·.1) ++ [stop]).Pairwise (· ≤ ·)) :
    (marks.foldl (mark M) {}).total = timeOn stop none marks ↔
      Counted M stop none marks ∧ timeOn stop none marks < (M + 1) / 2 := by
  obtain ⟨now, hnow⟩ : ∃ now, (now :: (marks.map (·.1) ++ [stop])).Pairwise (· ≤ ·) := by
    cases hl : marks.map (·.1) ++ [stop] with
    | nil => simp at hl
    | cons t l =>
      rw [hl] at hsorted
      refine ⟨t, List.pairwise_cons.2 ⟨fun u hu => ?_, hsorted⟩⟩
      rcases List.mem_cons.1 hu with rfl | hu
      · exact Int.le_refl u
      · exact (List.pairwise_cons.1 hsorted).1 u hu
  have hoff : ({} : Stopwatch).Shows M now none := rfl
  obtain ⟨missed, hnonneg, hle, htotal, hiff⟩ := exists_missed marks none now {} hnow hoff
  rw [bmod_total marks {} Int.zero_bmod, Int.zero_add] at htotal
  rw [htotal, ← hiff]
  apply Iff.intro
  · intro h
    have hbelow : (timeOn stop none marks - missed).bmod M ≤ timeOn stop none marks - missed := by
      rw [Int.bmod_eq_emod]
      by_cases hlt : timeOn stop none marks - missed < M
      · rw [Int.emod_eq_of_lt (by omega) hlt]
        split
        · omega
        · omega
      · have hmod := Int.emod_lt_of_pos (timeOn stop none marks - missed) (Int.natCast_pos.2 hM)
        split
        · omega
        · omega
    have hlt := Int.bmod_lt (x := timeOn stop none marks - missed) hM
    exact ⟨by omega, by omega⟩
  · intro h
    rw [h.1, Int.sub_zero]
    exact Int.bmod_eq_of_le (by omega) h.2

end Stopwatch
