/-!
# Inverting `Except` computations

A successful `bind` or `mapError` taken apart, for the inversion lemmas of functions that throw.
-/

namespace Except

variable {ε ε' α β : Type _}

theorem bind_eq_ok {x : Except ε α} {f : α → Except ε β} {b : β} :
    (x >>= f) = .ok b ↔ ∃ a, x = .ok a ∧ f a = .ok b := by
  cases x with
  | error e =>
    refine ⟨fun h => ?_, fun ⟨_, h, _⟩ => ?_⟩
    · cases h
    · cases h
  | ok a =>
    refine ⟨fun h => ⟨a, rfl, h⟩, fun ⟨_, h, h'⟩ => ?_⟩
    cases h
    exact h'

theorem bind_eq_error {x : Except ε α} {f : α → Except ε β} {e : ε} :
    (x >>= f) = .error e ↔ x = .error e ∨ ∃ a, x = .ok a ∧ f a = .error e := by
  cases x with
  | error e' =>
    refine ⟨fun h => .inl ?_, fun h => ?_⟩
    · cases h
      rfl
    · rcases h with h | ⟨_, h, _⟩
      · cases h
        rfl
      · cases h
  | ok a =>
    refine ⟨fun h => .inr ⟨a, rfl, h⟩, fun h => ?_⟩
    rcases h with h | ⟨_, h, h'⟩
    · cases h
    · cases h
      exact h'

theorem ok_bind (a : α) (f : α → Except ε β) : ((.ok a : Except ε α) >>= f) = f a := rfl

theorem mapError_eq_ok {x : Except ε α} {f : ε → ε'} {a : α} :
    x.mapError f = .ok a ↔ x = .ok a := by
  cases x with
  | error e =>
    constructor
    · intro h
      cases h
    · intro h
      cases h
  | ok b =>
    constructor
    · intro h
      cases h
      rfl
    · intro h
      cases h
      rfl

/-- What holds of a state and the inputs before it, and is kept by every step that does not throw, holds at the end. -/
theorem foldlM_induction {σ : Type _} {f : σ → α → Except ε σ} {P : List α → σ → Prop}
    (hstep : ∀ l x s s', P l s → f s x = .ok s' → P (l ++ [x]) s') : ∀ (xs : List α) {l : List α} {s s' : σ},
    P l s → xs.foldlM f s = .ok s' → P (l ++ xs) s'
  | [], l, _, _, h, heq => by
    cases heq
    rw [List.append_nil]
    exact h
  | x :: xs, l, s, s', h, heq => by
    obtain ⟨s₁, h₁, h₂⟩ := bind_eq_ok.1 (heq : (f s x >>= fun s => xs.foldlM f s) = .ok s')
    have hrest := foldlM_induction hstep xs (hstep l x s s₁ h h₁) h₂
    rwa [List.append_assoc] at hrest

end Except
