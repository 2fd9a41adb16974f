import Mathlib.Data.List.Basic

/-!
# Computations that read memory

A `Reading` is a value with the spans of memory that were read for it, in order. `Reading.Within n`
says that every span lies in the first `n` bytes; over a `bind` it splits (`within_bind`).
-/

/-- The bytes from `start` on, before `stop`. -/
structure Span where
  start : Nat
  stop : Nat
  deriving DecidableEq, Repr

/-- The bytes of the span, if it has any, are among the first `n`. -/
def Span.Within (n : Nat) (s : Span) : Prop := s.start < s.stop → s.stop ≤ n

instance (n : Nat) (s : Span) : Decidable (s.Within n) := inferInstanceAs (Decidable (_ → _))

@[ext]
structure Reading (α : Type*) where
  value : α
  spans : List Span := []

namespace Reading

variable {α β : Type _}

instance : Monad Reading where
  pure a := { value := a }
  bind x f := { value := (f x.value).value, spans := x.spans ++ (f x.value).spans }

@[simp] theorem pure_value (a : α) : (pure a : Reading α).value = a := (rfl)

@[simp] theorem pure_spans (a : α) : (pure a : Reading α).spans = [] := rfl

@[simp] theorem bind_value (x : Reading α) (f : α → Reading β) :
    (x >>= f).value = (f x.value).value := (rfl)

@[simp] theorem bind_spans (x : Reading α) (f : α → Reading β) :
    (x >>= f).spans = x.spans ++ (f x.value).spans := rfl

/-- After the same reading, two computations are equal when what follows is. -/
theorem bind_left_cancel {x : Reading α} {f g : α → Reading β} :
    x >>= f = x >>= g ↔ f x.value = g x.value := by
  rw [Reading.ext_iff, Reading.ext_iff]
  simp

/-- `len` bytes at `start` are read for the value. -/
def look (start len : Nat) (a : α) : Reading α := { value := a, spans := [⟨start, start + len⟩] }

@[simp] theorem look_value (start len : Nat) (a : α) : (look start len a).value = a := (rfl)

@[simp] theorem look_spans (start len : Nat) (a : α) :
    (look start len a).spans = [⟨start, start + len⟩] := rfl

/-- All that was read lies in the first `n` bytes. -/
def Within (n : Nat) (x : Reading α) : Prop := ∀ s ∈ x.spans, s.Within n

instance (n : Nat) (x : Reading α) : Decidable (x.Within n) :=
  inferInstanceAs (Decidable (∀ s ∈ x.spans, s.Within n))

@[simp] theorem within_pure (n : Nat) (a : α) : (pure a : Reading α).Within n := by
  simp [Within]

@[simp] theorem within_bind {n : Nat} {x : Reading α} {f : α → Reading β} :
    (x >>= f).Within n ↔ x.Within n ∧ (f x.value).Within n := by
  simp [Within, or_imp, forall_and]

theorem within_ite {n : Nat} {c : Prop} {_ : Decidable c} {x y : Reading α} :
    (if c then x else y).Within n ↔ (c → x.Within n) ∧ (¬ c → y.Within n) := by
  by_cases h : c
  · simp [h]
  · simp [h]

theorem within_look {n start len : Nat} {a : α} (h : 0 < len) :
    (look start len a).Within n ↔ start + len ≤ n := by
  simp [Within, Span.Within, h]

end Reading
