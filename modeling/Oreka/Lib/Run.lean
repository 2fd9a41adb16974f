import Mathlib.Data.List.Basic

/-!
# Runs of a step function

A system is a step function `step : σ → α → σ`; a run folds it over a list of inputs. `Run.Always`
says that a property holds in every state a run visits, `Run.Meets` that every step of it meets a
condition on its state and input. `Run.always_of_inv` is the invariant rule: what holds initially
and is kept by every step that meets the condition holds along every run whose steps all meet it.
-/

namespace Run

variable {σ α : Type*} (step : σ → α → σ)

/-- Every state of the run from `s`, the first and the last included, satisfies `P`. -/
def Always (P : σ → Prop) : σ → List α → Prop
  | s, [] => P s
  | s, x :: xs => P s ∧ Always P (step s x) xs

/-- Every step of the run from `s` meets `C`. -/
def Meets (C : σ → α → Prop) : σ → List α → Prop
  | _, [] => True
  | s, x :: xs => C s x ∧ Meets C (step s x) xs

variable {step} {P Q : σ → Prop} {C D : σ → α → Prop}

instance decidableMeets [∀ s x, Decidable (C s x)] :
    ∀ (s : σ) (xs : List α), Decidable (Meets step C s xs)
  | _, [] => inferInstanceAs (Decidable True)
  | s, x :: xs =>
    have := decidableMeets (step s x) xs
    inferInstanceAs (Decidable (C s x ∧ _))

theorem Always.head : ∀ {l : List α} {s : σ}, Always step P s l → P s
  | [], _, h => h
  | _ :: _, _, h => h.1

theorem Always.last : ∀ {l : List α} {s : σ}, Always step P s l → P (l.foldl step s)
  | [], _, h => h
  | _ :: l, _, h => Always.last (l := l) h.2

theorem Always.mono (hPQ : ∀ s, P s → Q s) : ∀ {l : List α} {s : σ},
    Always step P s l → Always step Q s l
  | [], _, h => hPQ _ h
  | _ :: l, _, h => ⟨hPQ _ h.1, Always.mono hPQ (l := l) h.2⟩

theorem Meets.mono (hCD : ∀ s x, C s x → D s x) : ∀ {l : List α} {s : σ},
    Meets step C s l → Meets step D s l
  | [], _, _ => trivial
  | _ :: l, _, h => ⟨hCD _ _ h.1, Meets.mono hCD (l := l) h.2⟩

theorem Meets.and : ∀ {l : List α} {s : σ}, Meets step C s l → Meets step D s l →
    Meets step (fun s x => C s x ∧ D s x) s l
  | [], _, _, _ => trivial
  | _ :: l, _, h, h' => ⟨⟨h.1, h'.1⟩, Meets.and (l := l) h.2 h'.2⟩

/-- Two conditions that agree where an invariant holds. -/
theorem meets_congr_of_inv {I : σ → Prop} (hI : ∀ s x, I s → I (step s x))
    (hCD : ∀ s x, I s → (C s x ↔ D s x)) : ∀ {l : List α} {s : σ}, I s →
    (Meets step C s l ↔ Meets step D s l)
  | [], _, _ => Iff.rfl
  | x :: l, s, hi => by
    simp only [Meets, hCD s x hi, meets_congr_of_inv hI hCD (l := l) (hI s x hi)]

/-- A condition on the inputs alone. -/
theorem meets_of_forall {C : α → Prop} : ∀ {l : List α} {s : σ}, (∀ x ∈ l, C x) →
    Meets step (fun _ => C) s l
  | [], _, _ => trivial
  | _ :: l, _, h => ⟨h _ List.mem_cons_self, meets_of_forall (l := l) fun _ hx =>
      h _ (List.mem_cons_of_mem _ hx)⟩

theorem meets_append : ∀ {l l' : List α} {s : σ},
    Meets step C s (l ++ l') ↔ Meets step C s l ∧ Meets step C (l.foldl step s) l'
  | [], _, _ => by simp [Meets]
  | x :: l, l', s => by
    simp only [List.cons_append, Meets, List.foldl_cons, meets_append (l := l), and_assoc]

/-- **The invariant rule.** -/
theorem always_of_inv (hstep : ∀ s x, P s → C s x → P (step s x)) : ∀ {l : List α} {s : σ},
    P s → Meets step C s l → Always step P s l
  | [], _, h, _ => h
  | _ :: l, _, h, hm => ⟨h, always_of_inv hstep (l := l) (hstep _ _ h hm.1) hm.2⟩

/-- The invariant rule for what is said of a step. -/
theorem meets_of_inv {I : σ → Prop} (hstep : ∀ s x, I s → C s x → D s x ∧ I (step s x)) :
    ∀ {l : List α} {s : σ}, I s → Meets step C s l → Meets step D s l
  | [], _, _, _ => trivial
  | x :: l, s, hi, hm => by
    obtain ⟨hd, hi'⟩ := hstep s x hi hm.1
    exact ⟨hd, meets_of_inv hstep (l := l) hi' hm.2⟩

/-- The invariant rule for an exact condition: where `P` holds, the next state satisfies `P` exactly
when the step meets `C`. -/
theorem always_iff_meets {I : σ → Prop} (hI : ∀ s x, I s → I (step s x))
    (hstep : ∀ s x, I s → P s → (P (step s x) ↔ C s x)) : ∀ {l : List α} {s : σ},
    I s → P s → (Always step P s l ↔ Meets step C s l)
  | [], _, _, h => ⟨fun _ => trivial, fun _ => h⟩
  | x :: l, s, hi, h => by
    have hx := hstep s x hi h
    have ih (h' : P (step s x)) := always_iff_meets hI hstep (l := l) (hI s x hi) h'
    constructor
    · intro ha
      exact ⟨hx.1 ha.2.head, (ih ha.2.head).1 ha.2⟩
    · intro hm
      exact ⟨h, (ih (hx.2 hm.1)).2 hm.2⟩

/-- The invariant rule for an exact condition, where the property needs a stronger invariant: steps
that meet `C` keep `I`, and from a state in `I` only they lead to `P`. -/
theorem always_iff_meets_of_inv {I : σ → Prop} (hIP : ∀ s, I s → P s)
    (hstep : ∀ s x, I s → C s x → I (step s x)) (hC : ∀ s x, I s → P (step s x) → C s x) :
    ∀ {l : List α} {s : σ}, I s → (Always step P s l ↔ Meets step C s l)
  | [], _, hi => ⟨fun _ => trivial, fun _ => hIP _ hi⟩
  | x :: l, s, hi => by
    have ih (h : C s x) := always_iff_meets_of_inv hIP hstep hC (l := l) (hstep s x hi h)
    constructor
    · intro ha
      have h : C s x := hC s x hi ha.2.head
      exact ⟨h, (ih h).1 ha.2⟩
    · intro hm
      exact ⟨hIP s hi, (ih hm.1).2 hm.2⟩

/-- Two systems in step: where related states meet their conditions together and then stay related, so do the runs. -/
theorem meets_iff_of_related {τ : Type*} {step' : τ → α → τ} {C' : τ → α → Prop} {R : σ → τ → Prop}
    (hC : ∀ s t x, R s t → (C s x ↔ C' t x)) (hR : ∀ s t x, R s t → C s x → R (step s x) (step' t x)) :
    ∀ {l : List α} {s : σ} {t : τ}, R s t → (Meets step C s l ↔ Meets step' C' t l)
  | [], _, _, _ => Iff.rfl
  | x :: l, s, t, h => by
    rw [Meets, Meets, ← hC s t x h]
    exact and_congr_right fun hx => meets_iff_of_related hC hR (l := l) (hR s t x h hx)

/-- The invariant rule for an invariant that every step keeps. -/
theorem inv_foldl (hstep : ∀ s x, P s → P (step s x)) (l : List α) {s : σ} (h : P s) :
    P (l.foldl step s) := by
  induction l generalizing s with
  | nil => exact h
  | cons x l ih => exact ih (hstep s x h)

end Run
