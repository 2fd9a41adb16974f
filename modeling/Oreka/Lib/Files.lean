import Mathlib.Logic.Function.Basic

/-!
# Files by name

A file system as what it holds under each name. An operation changes the names that it is given, and no
others (`write_other`, `remove_other`, `move_other`).
-/

namespace Files

variable {ν κ : Type*} [DecidableEq ν]

/-- What is under each name. -/
abbrev Store (ν κ : Type*) := ν → Option κ

def write (s : Store ν κ) (name : ν) (content : κ) : Store ν κ := Function.update s name (some content)

def remove (s : Store ν κ) (name : ν) : Store ν κ := Function.update s name none

/-- What is under `source` comes under `target`, in the place of what was there. -/
def move (s : Store ν κ) (source target : ν) : Store ν κ :=
  Function.update (Function.update s source none) target (s source)

variable {s : Store ν κ} {name source target : ν} {content : κ}

@[simp] theorem write_self : write s name content name = some content := Function.update_self ..

theorem write_other {n : ν} (h : n ≠ name) : write s name content n = s n := Function.update_of_ne h ..

@[simp] theorem remove_self : remove s name name = none := Function.update_self ..

theorem remove_other {n : ν} (h : n ≠ name) : remove s name n = s n := Function.update_of_ne h ..

@[simp] theorem move_target : move s source target target = s source := Function.update_self ..

theorem move_source (h : source ≠ target) : move s source target source = none := by
  rw [move, Function.update_of_ne h, Function.update_self]

theorem move_other {n : ν} (hs : n ≠ source) (ht : n ≠ target) : move s source target n = s n := by
  rw [move, Function.update_of_ne ht, Function.update_of_ne hs]

end Files
