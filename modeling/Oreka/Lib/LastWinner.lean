import Mathlib.Data.List.Basic

/-!
# Loops that keep the last winner

A loop over a list keeps an element and a mark. An element wins against the mark, or it does not; where
it wins it is kept in place of the one before, and leaves its own mark. What is kept at the end is the
last element to win (`kept_eq_some_iff`).
-/

namespace LastWinner

variable {α β : Type*} (wins : β → α → Bool) (leaves : β → α → β)

/-- The mark after a list. -/
def mark (b : β) (l : List α) : β := l.foldl (fun b a => if wins b a then leaves b a else b) b

def step (s : Option α × β) (a : α) : Option α × β := if wins s.2 a then (some a, leaves s.2 a) else s

/-- The element kept. -/
def kept (b : β) (l : List α) : Option α := (l.foldl (step wins leaves) (none, b)).1

variable {wins leaves} {b : β} {a x : α} {l : List α}

theorem snd_foldl (s : Option α × β) (l : List α) :
    (l.foldl (step wins leaves) s).2 = mark wins leaves s.2 l := by
  induction l generalizing s with
  | nil => rfl
  | cons x l ih =>
    rw [List.foldl_cons, ih]
    show mark wins leaves (step wins leaves s x).2 l =
      mark wins leaves (if wins s.2 x then leaves s.2 x else s.2) l
    unfold step
    split
    · rfl
    · rfl

/-- An element of a list is its first one, or comes behind it. -/
theorem exists_split_cons {P : List α → List α → Prop} :
    (∃ before after, x :: l = before ++ a :: after ∧ P before after) ↔
      (x = a ∧ P [] l) ∨ ∃ before after, l = before ++ a :: after ∧ P (x :: before) after := by
  constructor
  · rintro ⟨before, after, hl, hp⟩
    cases before with
    | nil =>
      obtain ⟨rfl, rfl⟩ := List.cons.inj hl
      exact .inl ⟨rfl, hp⟩
    | cons y before =>
      obtain ⟨rfl, rfl⟩ := List.cons.inj hl
      exact .inr ⟨before, after, rfl, hp⟩
  · intro h
    rcases h with ⟨rfl, hp⟩ | ⟨before, after, rfl, hp⟩
    · exact ⟨[], l, rfl, hp⟩
    · exact ⟨x :: before, after, rfl, hp⟩

/-- `a` wins in `l` against what is there, and nothing behind it wins against its mark. -/
def LastToWin (wins : β → α → Bool) (leaves : β → α → β) (b : β) (l : List α) (a : α) : Prop :=
  ∃ before after, l = before ++ a :: after ∧ wins (mark wins leaves b before) a = true ∧
    ∀ c ∈ after, wins (leaves (mark wins leaves b before) a) c = false

theorem lastToWin_cons_of_wins (hx : wins b x = true) : LastToWin wins leaves b (x :: l) a ↔
    LastToWin wins leaves (leaves b x) l a ∨ (x = a ∧ ∀ c ∈ l, wins (leaves b x) c = false) := by
  have hmark (before : List α) : mark wins leaves b (x :: before) = mark wins leaves (leaves b x) before := by
    show mark wins leaves (if wins b x then leaves b x else b) before = _
    rw [if_pos hx]
  unfold LastToWin
  rw [exists_split_cons, or_comm]
  simp only [hmark]
  apply or_congr_right
  apply and_congr_right
  intro hxa
  subst hxa
  exact ⟨fun h => h.2, fun h => ⟨hx, h⟩⟩

theorem lastToWin_cons_of_not_wins (hx : wins b x = false) :
    LastToWin wins leaves b (x :: l) a ↔ LastToWin wins leaves b l a := by
  have hmark (before : List α) : mark wins leaves b (x :: before) = mark wins leaves b before := by
    show mark wins leaves (if wins b x then leaves b x else b) before = _
    rw [hx]
    rfl
  unfold LastToWin
  rw [exists_split_cons]
  simp only [hmark]
  apply or_iff_right
  rintro ⟨rfl, hwins, -⟩
  exact Bool.false_ne_true (hx.symm.trans hwins)

theorem foldl_step_eq_some_iff {s : Option α × β} : (l.foldl (step wins leaves) s).1 = some a ↔
    LastToWin wins leaves s.2 l a ∨ (s.1 = some a ∧ ∀ c ∈ l, wins s.2 c = false) := by
  induction l generalizing s with
  | nil => simp [LastToWin]
  | cons x l ih =>
    rw [List.foldl_cons, ih]
    cases hx : wins s.2 x with
    | true =>
      have hstep : step wins leaves s x = (some x, leaves s.2 x) := if_pos hx
      rw [hstep, lastToWin_cons_of_wins hx, Option.some.injEq]
      simp [hx]
    | false =>
      have hstep : step wins leaves s x = s := if_neg (by simp [hx])
      rw [hstep, lastToWin_cons_of_not_wins hx]
      simp [hx]

/-- **What is kept** won against the mark that was left before it, and nothing behind it wins against
its own. -/
theorem kept_eq_some_iff : kept wins leaves b l = some a ↔ LastToWin wins leaves b l a := by
  unfold kept
  rw [foldl_step_eq_some_iff]
  simp

/-- The mark at the end is the one that the element kept has left. -/
theorem mark_of_kept (h : kept wins leaves b l = some a) : ∃ b', mark wins leaves b l = leaves b' a := by
  have hmark : ∀ (s : Option α × β) (l : List α), (∀ x, s.1 = some x → ∃ b', s.2 = leaves b' x) →
      ∀ x, (l.foldl (step wins leaves) s).1 = some x →
        ∃ b', (l.foldl (step wins leaves) s).2 = leaves b' x := by
    intro s l
    induction l generalizing s with
    | nil => exact fun hs => hs
    | cons y l ih =>
      intro hs
      apply ih
      intro x hx
      unfold step at hx ⊢
      split at hx
      · rename_i hwins
        rw [if_pos hwins]
        exact ⟨s.2, congrArg _ (Option.some.inj hx)⟩
      · rename_i hwins
        rw [if_neg hwins]
        exact hs x hx
  obtain ⟨b', hb'⟩ := hmark (none, b) l (by simp) a h
  exact ⟨b', (snd_foldl (none, b) l).symm.trans hb'⟩

end LastWinner
