import Std.Data.TreeMap.Lemmas
import Mathlib.Data.List.Basic

/-!
# Maps from keys to objects that carry their own keys

An index `m : TreeMap κ ρ` routes keys to references. `Keyed m keys` says that every entry's key is
one of those its object holds (`keys r k`), which is what erasing "by the object's own keys" relies
on. `insertAll` puts a list of entries in, of which the first of a key stays; of `putAll` it is the last.
-/

open Std

namespace KeyedMap

variable {κ ρ : Type*} [Ord κ] [TransOrd κ] [LawfulEqOrd κ] [DecidableEq κ]

/-! ## Entries after an operation -/

theorem getElem?_insertIfNew (m : TreeMap κ ρ) (k a : κ) (r : ρ) :
    (m.insertIfNew k r)[a]? = if k = a ∧ m[k]? = none then some r else m[a]? := by
  rw [TreeMap.getElem?_insertIfNew]
  have h : ¬ k ∈ m ↔ m[k]? = none := by
    rw [TreeMap.mem_iff_isSome_getElem?, Option.not_isSome_iff_eq_none]
  simp only [Std.compare_eq_iff_eq, h]

theorem getElem?_erase (m : TreeMap κ ρ) (k a : κ) :
    (m.erase k)[a]? = if k = a then none else m[a]? := by
  rw [TreeMap.getElem?_erase]
  simp only [Std.compare_eq_iff_eq]

theorem getElem?_insert (m : TreeMap κ ρ) (k a : κ) (r : ρ) :
    (m.insert k r)[a]? = if k = a then some r else m[a]? := by
  rw [TreeMap.getElem?_insert]
  simp only [Std.compare_eq_iff_eq]

/-- Insert each of `ps` that is new. -/
def insertAll (m : TreeMap κ ρ) (ps : List (κ × ρ)) : TreeMap κ ρ :=
  ps.foldl (fun m p => m.insertIfNew p.1 p.2) m

theorem getElem?_insertAll [BEq κ] [LawfulBEq κ] (ps : List (κ × ρ)) (m : TreeMap κ ρ) (a : κ) :
    (insertAll m ps)[a]? = m[a]?.or (ps.lookup a) := by
  induction ps generalizing m with
  | nil => simp [insertAll]
  | cons p ps ih =>
    have h : insertAll m (p :: ps) = insertAll (m.insertIfNew p.1 p.2) ps := rfl
    rw [h, ih, getElem?_insertIfNew, List.lookup_cons]
    cases hm : m[a]? with
    | some r =>
      have hne : ¬ (p.1 = a ∧ m[p.1]? = none) := by
        rintro ⟨rfl, hn⟩
        simp [hm] at hn
      rw [if_neg hne]
      rfl
    | none =>
      by_cases hp : p.1 = a
      · subst hp
        simp [hm]
      · have hp' : (a == p.1) = false := by simpa using fun e => hp e.symm
        simp [hp, hp']

/-- Put each of `ps` in. -/
def putAll (m : TreeMap κ ρ) (ps : List (κ × ρ)) : TreeMap κ ρ :=
  ps.foldl (fun m p => m.insert p.1 p.2) m

theorem getElem?_putAll [BEq κ] [LawfulBEq κ] (ps : List (κ × ρ)) (m : TreeMap κ ρ) (a : κ) :
    (putAll m ps)[a]? = (ps.reverse.lookup a).or m[a]? := by
  induction ps generalizing m with
  | nil => simp [putAll]
  | cons p ps ih =>
    have h : putAll m (p :: ps) = putAll (m.insert p.1 p.2) ps := rfl
    rw [h, ih, getElem?_insert, List.reverse_cons, List.lookup_append, Option.or_assoc, List.lookup_cons,
      List.lookup_nil]
    by_cases hp : p.1 = a
    · simp [hp]
    · have hp' : (a == p.1) = false := by simpa using fun e => hp e.symm
      simp [hp, hp']

/-! ## Entries whose keys are their objects' -/

/-- Every entry's key is one of its object's keys. -/
def Keyed (m : TreeMap κ ρ) (keys : ρ → κ → Prop) : Prop := ∀ (k : κ) (r : ρ), m[k]? = some r → keys r k

variable {m m' : TreeMap κ ρ} {keys keys' : ρ → κ → Prop}

omit [LawfulEqOrd κ] [DecidableEq κ] in
theorem keyed_empty : Keyed (∅ : TreeMap κ ρ) keys := by
  intro k r h
  simp at h

omit [TransOrd κ] [LawfulEqOrd κ] [DecidableEq κ] in
/-- Fewer entries, more keys. -/
theorem Keyed.mono (h : Keyed m keys) (hm : ∀ (k : κ) (r : ρ), m'[k]? = some r → m[k]? = some r)
    (hk : ∀ (k : κ) (r : ρ), m[k]? = some r → keys r k → keys' r k) : Keyed m' keys' :=
  fun k r hr => hk k r (hm k r hr) (h k r (hm k r hr))

theorem Keyed.insertIfNew (h : Keyed m keys) {k : κ} {r : ρ} (hk : keys r k) :
    Keyed (m.insertIfNew k r) keys := by
  intro a x hx
  rw [getElem?_insertIfNew] at hx
  split at hx
  · rename_i hc
    obtain ⟨rfl, -⟩ := hc
    cases hx
    exact hk
  · exact h a x hx

theorem of_erase {k a : κ} {r : ρ} (h : (m.erase k)[a]? = some r) : m[a]? = some r := by
  rw [getElem?_erase] at h
  split at h
  · cases h
  · exact h

theorem Keyed.erase (h : Keyed m keys) (k : κ) : Keyed (m.erase k) keys :=
  h.mono (fun _ _ => of_erase) fun _ _ _ => id

end KeyedMap
