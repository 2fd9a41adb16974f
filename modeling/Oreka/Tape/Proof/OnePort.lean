import Mathlib
import Oreka.Tape.CapturePorts

/-!
# One port for each id

Between the look-up that finds no port and the insertion the mutex is free. Where no other thread looks
an unregistered port up meanwhile, all calls return the registered port (`PortInv`); where one does, each
of the two makes a port of its own, and at most one of these is registered (`Doomed`).
-/

open Std

namespace Oreka.PortThreads

variable {τ : Type*} [DecidableEq τ] {isExpired : Nat → Int → Bool} {s : PortThreads τ}
  {t u : τ} {a portId : String} {port p : Nat} {now : Int}

/-! ## Steps -/

/-- No time for hoovering. -/
def NoHoover (s : PortThreads τ) : τ × PortSection → Prop
  | (_, .getPort now _) => s.capturePorts.hooverDue now = false
  | (_, .insert) => True

/-- A thread that finds no port is the only one. -/
def LooksAlone (s : PortThreads τ) : τ × PortSection → Prop
  | (t, .getPort _ portId) => s.call t = .idle → s.capturePorts.ports[portId]? = none →
      ∀ u, s.call u ≠ .missed portId
  | (_, .insert) => True

theorem step_found (ht : s.call t = .idle) (hnow : s.capturePorts.hooverDue now = false)
    (hp : s.capturePorts.ports[portId]? = some port) : s.step isExpired (t, .getPort now portId) =
      { s with returned := s.returned ++ [(portId, port)] } := by
  simp [step, ht, CapturePorts.getPort, CapturePorts.hoover, hnow, hp]

theorem step_missed (ht : s.call t = .idle) (hnow : s.capturePorts.hooverDue now = false)
    (hp : s.capturePorts.ports[portId]? = none) : s.step isExpired (t, .getPort now portId) =
      { s with call := Function.update s.call t (.missed portId) } := by
  simp [step, ht, CapturePorts.getPort, CapturePorts.hoover, hnow, hp]

theorem step_insert (ht : s.call t = .missed portId) : s.step isExpired (t, .insert) =
    { s with
      capturePorts := (s.capturePorts.addPort portId).1
      call := Function.update s.call t .idle
      returned := s.returned ++ [(portId, s.capturePorts.numPorts)] } := by
  simp only [step, ht]
  rfl

/-- What a step may do, if there is no hoovering: nothing, a port that is found, one that is missed, or
one that is made. -/
theorem step_cases {x : τ × PortSection} (hx : s.NoHoover x) :
    s.step isExpired x = s ∨
    (∃ portId port, s.capturePorts.ports[portId]? = some port ∧
      s.step isExpired x = { s with returned := s.returned ++ [(portId, port)] }) ∨
    (∃ t now portId, x = (t, .getPort now portId) ∧ s.call t = .idle ∧
      s.capturePorts.ports[portId]? = none ∧
      s.step isExpired x = { s with call := Function.update s.call t (.missed portId) }) ∨
    (∃ t portId, s.call t = .missed portId ∧ s.step isExpired x =
      { s with
        capturePorts := (s.capturePorts.addPort portId).1
        call := Function.update s.call t .idle
        returned := s.returned ++ [(portId, s.capturePorts.numPorts)] }) := by
  obtain ⟨t, ⟨now, portId⟩ | _⟩ := x
  · cases ht : s.call t with
    | idle =>
      cases hp : s.capturePorts.ports[portId]? with
      | some port => exact .inr (.inl ⟨portId, port, hp, step_found ht hx hp⟩)
      | none => exact .inr (.inr (.inl ⟨t, now, portId, rfl, ht, hp, step_missed ht hx hp⟩))
    | missed _ => exact .inl (by simp [step, ht])
  · cases ht : s.call t with
    | idle => exact .inl (by simp [step, ht])
    | missed portId => exact .inr (.inr (.inr ⟨t, portId, ht, step_insert ht⟩))

theorem getElem?_addPort (c : CapturePorts) (a portId : String) :
    (c.addPort portId).1.ports[a]? =
      if portId = a ∧ c.ports[portId]? = none then some c.numPorts else c.ports[a]? :=
  KeyedMap.getElem?_insertIfNew _ _ _ _

theorem update_missed {call : τ → AddCall} :
    Function.update call t (.missed portId) u = .missed a ↔
      (u = t ∧ a = portId) ∨ (u ≠ t ∧ call u = .missed a) := by
  by_cases hut : u = t
  · subst hut
    simp [eq_comm]
  · simp [hut]

theorem update_idle {call : τ → AddCall} :
    Function.update call t .idle u = .missed a ↔ u ≠ t ∧ call u = .missed a := by
  by_cases hut : u = t
  · subst hut
    simp
  · simp [hut]

/-! ## One port -/

/-- At most one thread has missed a port that is not registered, and what was returned is registered. -/
structure PortInv (s : PortThreads τ) : Prop where
  onePort : s.OnePort
  alone : ∀ t u portId, s.call t = .missed portId → s.call u = .missed portId → t = u
  missing : ∀ t portId, s.call t = .missed portId → s.capturePorts.ports[portId]? = none

omit [DecidableEq τ] in
theorem OnePort.append (h : s.OnePort) (hp : s.capturePorts.ports[portId]? = some port) :
    OnePort { s with returned := s.returned ++ [(portId, port)] } := by
  intro a p hmem
  obtain hmem | hmem := List.mem_append.1 hmem
  · exact h a p hmem
  · cases List.mem_singleton.1 hmem
    exact hp

theorem PortInv.missed (h : s.PortInv) (hp : s.capturePorts.ports[portId]? = none)
    (halone : ∀ u, s.call u ≠ .missed portId) (t : τ) :
    PortInv { s with call := Function.update s.call t (.missed portId) } := by
  refine ⟨h.onePort, fun u v a hu hv => ?_, fun u a hu => ?_⟩
  · obtain ⟨rfl, rfl⟩ | ⟨hut, hu'⟩ := update_missed.1 hu
    · obtain ⟨rfl, -⟩ | ⟨hvt, hv⟩ := update_missed.1 hv
      · rfl
      · exact absurd hv (halone v)
    · obtain ⟨rfl, rfl⟩ | ⟨hvt, hv'⟩ := update_missed.1 hv
      · exact absurd hu' (halone u)
      · exact h.alone u v a hu' hv'
  · obtain ⟨rfl, rfl⟩ | ⟨hut, hu⟩ := update_missed.1 hu
    · exact hp
    · exact h.missing u a hu

theorem PortInv.insert (h : s.PortInv) (ht : s.call t = .missed portId) :
    PortInv { s with
      capturePorts := (s.capturePorts.addPort portId).1
      call := Function.update s.call t .idle
      returned := s.returned ++ [(portId, s.capturePorts.numPorts)] } := by
  have hnone := h.missing t portId ht
  refine ⟨fun a p hmem => ?_, fun u v a hu hv => ?_, fun u a hu => ?_⟩
  · rw [getElem?_addPort]
    obtain hmem | hmem := List.mem_append.1 hmem
    · have hp := h.onePort a p hmem
      rw [if_neg, hp]
      rintro ⟨rfl, -⟩
      rw [hnone] at hp
      cases hp
    · cases List.mem_singleton.1 hmem
      rw [if_pos ⟨rfl, hnone⟩]
  · exact h.alone u v a (update_idle.1 hu).2 (update_idle.1 hv).2
  · obtain ⟨hut, hu⟩ := update_idle.1 hu
    rw [getElem?_addPort, if_neg, h.missing u a hu]
    rintro ⟨rfl, -⟩
    exact hut (h.alone u t portId hu ht)

theorem PortInv.kept {x : τ × PortSection} (h : s.PortInv) (hx : s.NoHoover x) (halone : s.LooksAlone x) :
    (s.step isExpired x).PortInv := by
  obtain heq | ⟨portId, port, hp, heq⟩ | ⟨t, now, portId, rfl, ht, hp, heq⟩ | ⟨t, portId, ht, heq⟩ :=
    step_cases hx
  · rw [heq]
    exact h
  · rw [heq]
    exact ⟨h.onePort.append hp, h.alone, h.missing⟩
  · rw [heq]
    exact h.missed hp (halone ht hp) t
  · rw [heq]
    exact h.insert ht

/-! ## Two ports -/

/-- Two calls that have made, or are about to make, a port of their own for one id. -/
inductive Doomed (s : PortThreads τ) (portId : String) : Prop
  | missed (t u : τ) (hne : t ≠ u) (ht : s.call t = .missed portId) (hu : s.call u = .missed portId)
  | made (t : τ) (port : Nat) (ht : s.call t = .missed portId) (hport : (portId, port) ∈ s.returned)
  | two (port p : Nat) (hne : port ≠ p) (hport : (portId, port) ∈ s.returned)
      (hp : (portId, p) ∈ s.returned)

/-- What was returned was made. -/
def Made (s : PortThreads τ) : Prop :=
  ∀ portId port, (portId, port) ∈ s.returned → port < s.capturePorts.numPorts

theorem Made.kept {x : τ × PortSection} (h : s.Made) (hx : s.NoHoover x) : (s.step isExpired x).Made := by
  obtain heq | ⟨portId, port, hp, heq⟩ | ⟨t, now, portId, rfl, ht, hp, heq⟩ | ⟨t, portId, ht, heq⟩ :=
    step_cases hx
  · rw [heq]
    exact h
  · rw [heq]
    intro a p hmem
    obtain hmem | hmem := List.mem_append.1 hmem
    · exact h a p hmem
    · cases List.mem_singleton.1 hmem
      exact s.capturePorts.made portId port hp
  · rw [heq]
    exact h
  · rw [heq]
    intro a p hmem
    obtain hmem | hmem := List.mem_append.1 hmem
    · exact Nat.lt_succ_of_lt (h a p hmem)
    · cases List.mem_singleton.1 hmem
      exact Nat.lt_succ_self _

omit [DecidableEq τ] in
/-- More was returned, and nothing else has changed. -/
theorem Doomed.append (h : s.Doomed a) (l : List (String × Nat)) :
    Doomed { s with returned := s.returned ++ l } a := by
  cases h with
  | missed t u hne ht hu => exact .missed t u hne ht hu
  | made t port ht hport => exact .made t port ht (List.mem_append_left _ hport)
  | two port p hne hport hp =>
    exact .two port p hne (List.mem_append_left _ hport) (List.mem_append_left _ hp)

/-- One more thread has missed a port. -/
theorem Doomed.look (h : s.Doomed a) (ht : s.call t = .idle) :
    Doomed { s with call := Function.update s.call t (.missed portId) } a := by
  have hkeep {u : τ} (hu : s.call u = .missed a) :
      Function.update s.call t (.missed portId) u = .missed a := by
    refine update_missed.2 (.inr ⟨?_, hu⟩)
    rintro rfl
    rw [ht] at hu
    cases hu
  cases h with
  | missed u v hne hu hv => exact .missed u v hne (hkeep hu) (hkeep hv)
  | made u port hu hport => exact .made u port (hkeep hu) hport
  | two port p hne hport hp => exact .two port p hne hport hp

/-- A thread makes its port, which is a new one. -/
theorem Doomed.insert (h : s.Doomed a) (hmade : s.Made) (ht : s.call t = .missed portId) :
    Doomed { s with
      capturePorts := (s.capturePorts.addPort portId).1
      call := Function.update s.call t .idle
      returned := s.returned ++ [(portId, s.capturePorts.numPorts)] } a := by
  have hnew (ha : s.call t = .missed a) :
      (a, s.capturePorts.numPorts) ∈ s.returned ++ [(portId, s.capturePorts.numPorts)] := by
    rw [ht] at ha
    cases ha
    exact List.mem_append_right _ List.mem_cons_self
  cases h with
  | missed u v hne hu hv =>
    by_cases hut : u = t
    · subst hut
      exact .made v _ (update_idle.2 ⟨hne.symm, hv⟩) (hnew hu)
    · by_cases hvt : v = t
      · subst hvt
        exact .made u _ (update_idle.2 ⟨hut, hu⟩) (hnew hv)
      · exact .missed u v hne (update_idle.2 ⟨hut, hu⟩) (update_idle.2 ⟨hvt, hv⟩)
  | made u port hu hport =>
    by_cases hut : u = t
    · subst hut
      exact .two port s.capturePorts.numPorts (Nat.ne_of_lt (hmade a port hport))
        (List.mem_append_left _ hport) (hnew hu)
    · exact .made u port (update_idle.2 ⟨hut, hu⟩) (List.mem_append_left _ hport)
  | two port p hne hport hp =>
    exact .two port p hne (List.mem_append_left _ hport) (List.mem_append_left _ hp)

theorem Doomed.kept {x : τ × PortSection} (h : s.Doomed a) (hmade : s.Made) (hx : s.NoHoover x) :
    (s.step isExpired x).Doomed a := by
  obtain heq | ⟨portId, port, hp, heq⟩ | ⟨t, now, portId, rfl, ht, hp, heq⟩ | ⟨t, portId, ht, heq⟩ :=
    step_cases hx
  · rw [heq]
    exact h
  · rw [heq]
    exact h.append _
  · rw [heq]
    exact h.look ht
  · rw [heq]
    exact h.insert hmade ht

theorem Doomed.foldl {l : List (τ × PortSection)} (h : s.Doomed a) (hmade : s.Made)
    (hl : Run.Meets (step isExpired) NoHoover s l) : (l.foldl (step isExpired) s).Doomed a := by
  induction l generalizing s with
  | nil => exact h
  | cons x l ih => exact ih (h.kept hmade hl.1) (hmade.kept hl.1) hl.2

/-- A thread that finds no port while another one is about to make it. -/
theorem doomed_of_looks {x : τ × PortSection} (hx : s.NoHoover x) (halone : ¬ s.LooksAlone x) :
    ∃ portId, (s.step isExpired x).Doomed portId := by
  obtain ⟨t, ⟨now, portId⟩ | _⟩ := x
  · simp only [LooksAlone, not_forall, not_not] at halone
    obtain ⟨ht, hp, u, hu⟩ := halone
    refine ⟨portId, ?_⟩
    rw [step_missed ht hx hp]
    have hut : u ≠ t := by
      rintro rfl
      rw [ht] at hu
      cases hu
    exact .missed t u hut.symm (update_missed.2 (.inl ⟨rfl, rfl⟩)) (update_missed.2 (.inr ⟨hut, hu⟩))
  · exact absurd trivial halone

theorem exists_doomed {l : List (τ × PortSection)} (hmade : s.Made)
    (hl : Run.Meets (step isExpired) NoHoover s l) (halone : ¬ Run.Meets (step isExpired) LooksAlone s l) :
    ∃ portId, (l.foldl (step isExpired) s).Doomed portId := by
  induction l generalizing s with
  | nil => exact absurd trivial halone
  | cons x l ih =>
    by_cases hx : s.LooksAlone x
    · exact ih (hmade.kept hl.1) hl.2 fun h => halone ⟨hx, h⟩
    · obtain ⟨portId, h⟩ : ∃ portId, (s.step isExpired x).Doomed portId := doomed_of_looks hl.1 hx
      exact ⟨portId, h.foldl (hmade.kept hl.1) hl.2⟩

omit [DecidableEq τ] in
/-- When all calls have returned, two of them have returned different ports. -/
theorem Doomed.not_onePort (h : s.Doomed a) (hidle : s.Idle) : ¬ s.OnePort := by
  intro hone
  cases h with
  | missed t u hne ht hu =>
    rw [hidle t] at ht
    cases ht
  | made t port ht hport =>
    rw [hidle t] at ht
    cases ht
  | two port p hne hport hp =>
    exact hne (Option.some.inj ((hone a port hport).symm.trans (hone a p hp)))

/-! ## Runs -/

/-- The threads before their calls, with any ports registered. -/
def start (capturePorts : CapturePorts) : PortThreads τ := ⟨capturePorts, fun _ => .idle, []⟩

/-- **One port for each id.** Without hoovering, all calls return the registered port in every state of a
run in which a thread that finds no port is the only one; and a run after which no call is in progress
ends in such a state only if it was one of these. -/
theorem onePort_iff (isExpired : Nat → Int → Bool) (capturePorts : CapturePorts)
    (l : List (τ × PortSection)) (hl : Run.Meets (step isExpired) NoHoover (start capturePorts) l) :
    (Run.Meets (step isExpired) LooksAlone (start capturePorts) l →
      Run.Always (step isExpired) OnePort (start capturePorts) l) ∧
    ((l.foldl (step isExpired) (start capturePorts)).Idle →
      ((l.foldl (step isExpired) (start capturePorts)).OnePort ↔
        Run.Meets (step isExpired) LooksAlone (start capturePorts) l)) := by
  have hinv : PortInv (start capturePorts : PortThreads τ) := ⟨nofun, nofun, nofun⟩
  have hmade : Made (start capturePorts : PortThreads τ) := nofun
  have halways (halone : Run.Meets (step isExpired) LooksAlone (start capturePorts) l) :
      Run.Always (step isExpired) OnePort (start capturePorts) l :=
    (Run.always_of_inv (fun s x h hx => PortInv.kept h hx.1 hx.2) hinv (hl.and halone)).mono
      fun s h => h.onePort
  refine ⟨halways, fun hidle => ⟨fun hone => ?_, fun halone => (halways halone).last⟩⟩
  by_contra halone
  obtain ⟨portId, hdoomed⟩ := exists_doomed hmade hl halone
  exact hdoomed.not_onePort hidle hone

instance (s : PortThreads τ) : ∀ x, Decidable (s.NoHoover x)
  | (_, .getPort now _) => inferInstanceAs (Decidable (s.capturePorts.hooverDue now = false))
  | (_, .insert) => .isTrue trivial

instance [Fintype τ] (s : PortThreads τ) : Decidable s.Idle :=
  inferInstanceAs (Decidable (∀ t, s.call t = .idle))

instance [Fintype τ] (s : PortThreads τ) : ∀ x, Decidable (s.LooksAlone x)
  | (t, .getPort _ portId) => inferInstanceAs (Decidable (s.call t = .idle →
      s.capturePorts.ports[portId]? = none → ∀ u, s.call u ≠ .missed portId))
  | (_, .insert) => .isTrue trivial

/-- A second thread comes after the port was made. -/
def oneAfterTheOther : List (Bool × PortSection) :=
  [(false, .getPort 0 "A"), (false, .insert), (true, .getPort 1 "A")]

theorem onePort_oneAfterTheOther :
    (oneAfterTheOther.foldl (step fun _ _ => false) (start ⟨∅, 0, 0, by simp⟩)).OnePort :=
  ((onePort_iff (fun _ _ => false) ⟨∅, 0, 0, by simp⟩ oneAfterTheOther (by decide)).2
    (by decide)).2 (by decide)

/-- Both threads look the port up before one has made it. -/
def bothAtOnce : List (Bool × PortSection) :=
  [(false, .getPort 0 "A"), (true, .getPort 0 "A"), (false, .insert), (true, .insert)]

theorem not_onePort_bothAtOnce :
    Run.Meets (step fun _ _ => false) NoHoover (start ⟨∅, 0, 0, by simp⟩) bothAtOnce ∧
      (bothAtOnce.foldl (step fun _ _ => false) (start ⟨∅, 0, 0, by simp⟩)).Idle ∧
      ¬ (bothAtOnce.foldl (step fun _ _ => false) (start ⟨∅, 0, 0, by simp⟩)).OnePort := by
  refine ⟨by decide, by decide, fun h => ?_⟩
  have h₀ := h "A" 0 (by decide)
  have h₁ := h "A" 1 (by decide)
  exact absurd (Option.some.inj (h₀.symm.trans h₁)) (by decide)

end Oreka.PortThreads
