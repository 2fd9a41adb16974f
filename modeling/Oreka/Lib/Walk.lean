import Mathlib.Data.List.Infix

/-!
# Walks through directories

A directory is the names on the way to it. A walk goes down to a name, up, or stays; at the root, up is
nowhere. What a walk does is to go up some directories and then down some names (`walk_eq`), which says
when it ends below where it began (`below_apply_iff`).
-/

namespace Walk

variable {ν : Type*}

inductive Step (ν : Type*)
  | stay
  | up
  | down (name : ν)
  deriving DecidableEq, Repr

def step (dir : List ν) : Step ν → List ν
  | .stay => dir
  | .up => dir.dropLast
  | .down name => dir ++ [name]

def walk (dir : List ν) (steps : List (Step ν)) : List ν := steps.foldl step dir

/-- So many directories up, and then down. -/
structure Relative (ν : Type*) where
  ups : Nat := 0
  names : List ν := []

namespace Relative

/-- A step up takes back the last name, or goes one directory further. -/
def step (r : Relative ν) : Step ν → Relative ν
  | .stay => r
  | .up => if r.names.isEmpty then { r with ups := r.ups + 1 } else { r with names := r.names.dropLast }
  | .down name => { r with names := r.names ++ [name] }

/-- Where it leads to. -/
def apply (r : Relative ν) (dir : List ν) : List ν := dir.take (dir.length - r.ups) ++ r.names

theorem step_apply (r : Relative ν) (dir : List ν) (s : Step ν) :
    Walk.step (r.apply dir) s = (r.step s).apply dir := by
  cases s with
  | stay => rfl
  | down name => exact List.append_assoc ..
  | up =>
    rw [Walk.step, step]
    split
    · rename_i hnames
      have hlength : min ((dir.take (dir.length - r.ups)).length - 1) (dir.length - r.ups) =
          dir.length - (r.ups + 1) := by
        rw [List.length_take]
        omega
      rw [apply, apply, List.isEmpty_iff.1 hnames, List.append_nil, List.append_nil, List.dropLast_eq_take,
        List.take_take, hlength]
    · rename_i hnames
      exact List.dropLast_append_of_ne_nil fun h => hnames (List.isEmpty_iff.2 h)

end Relative

/-- A walk without what it takes back. -/
def reduce (steps : List (Step ν)) : Relative ν := steps.foldl Relative.step {}

theorem foldl_step (r : Relative ν) (dir : List ν) (steps : List (Step ν)) :
    walk (r.apply dir) steps = (steps.foldl Relative.step r).apply dir := by
  induction steps generalizing r with
  | nil => rfl
  | cons s steps ih =>
    rw [walk, List.foldl_cons, r.step_apply dir s]
    exact ih (r.step s)

/-- **What a walk does.** -/
theorem walk_eq (dir : List ν) (steps : List (Step ν)) : walk dir steps = (reduce steps).apply dir := by
  have h := foldl_step {} dir steps
  rwa [Relative.apply, Nat.sub_zero, List.take_length, List.append_nil] at h

theorem walk_append (dir : List ν) (steps steps' : List (Step ν)) :
    walk dir (steps ++ steps') = walk (walk dir steps) steps' := List.foldl_append

/-- A walk that has no step up goes up nowhere. -/
theorem reduce_ups {steps : List (Step ν)} (h : ∀ s ∈ steps, s ≠ .up) : (reduce steps).ups = 0 := by
  have hfold : ∀ (r : Relative ν), (steps.foldl Relative.step r).ups = r.ups := by
    induction steps with
    | nil => exact fun r => rfl
    | cons s steps ih =>
      intro r
      rw [List.foldl_cons, ih fun s' hs' => h s' (List.mem_cons_of_mem _ hs')]
      cases s with
      | up => exact absurd rfl (h .up List.mem_cons_self)
      | stay | down name => rfl
  exact hfold {}

/-- Within a directory, and not the directory itself. -/
def Below (dir path : List ν) : Prop := dir <+: path ∧ dir ≠ path

theorem below_append_iff (front dir path : List ν) : Below (front ++ dir) (front ++ path) ↔ Below dir path :=
  and_congr (List.prefix_append_right_inj front) (not_congr (List.append_right_inj front))

/-- The names go down again the way that was gone up, and on. -/
theorem below_apply_iff (r : Relative ν) (dir : List ν) :
    Below dir (r.apply dir) ↔ Below (dir.drop (dir.length - r.ups)) r.names := by
  have h := below_append_iff (dir.take (dir.length - r.ups)) (dir.drop (dir.length - r.ups)) r.names
  rwa [List.take_append_drop] at h

end Walk
