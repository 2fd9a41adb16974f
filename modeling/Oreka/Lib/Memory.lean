import Mathlib.Algebra.Ring.Nat
import Mathlib.Data.List.Basic
import Mathlib.Data.List.TakeWhile

/-!
# Buffers as functions

A buffer is the function from its indices to what they hold. `put` stores a list from an index on,
`read` reads one back; what is read elsewhere stays (`read_put_left`), and consecutive pieces are one
(`read_add`).
-/

namespace Memory

variable {α : Type*}

def read (m : Nat → α) (p n : Nat) : List α := (List.range n).map fun i => m (p + i)

def put (m : Nat → α) (p : Nat) (d : List α) : Nat → α :=
  fun i => if p ≤ i then d.getD (i - p) (m i) else m i

@[simp] theorem length_read (m : Nat → α) (p n : Nat) : (read m p n).length = n := by simp [read]

@[simp] theorem read_zero (m : Nat → α) (p : Nat) : read m p 0 = [] := rfl

theorem read_add (m : Nat → α) (p a b : Nat) : read m p (a + b) = read m p a ++ read m (p + a) b := by
  simp [read, List.range_add, Function.comp_def, Nat.add_assoc]

theorem read_congr {m m' : Nat → α} {p n : Nat} (h : ∀ i < n, m (p + i) = m' (p + i)) :
    read m p n = read m' p n :=
  List.map_congr_left fun i hi => h i (List.mem_range.1 hi)

/-- Consecutive blocks are one piece. -/
theorem flatten_read_blocks (m : Nat → α) (w k : Nat) :
    ((List.range k).map fun j => read m (j * w) w).flatten = read m 0 (k * w) := by
  induction k with
  | zero => simp
  | succ k ih => simp [List.range_succ, ih, Nat.succ_mul, read_add]

/-- What was stored is read back. -/
@[simp] theorem read_put (m : Nat → α) (p : Nat) (d : List α) : read (put m p d) p d.length = d := by
  apply List.ext_getElem
  · simp
  · intro i h h'
    simp [read, put, List.getD_eq_getElem?_getD, List.getElem?_eq_getElem h']

theorem read_put_eq (m : Nat → α) (p : Nat) {d : List α} {n : Nat} (h : d.length = n) :
    read (put m p d) p n = d := by
  rw [← h, read_put]

/-- What stands before it stays. -/
theorem read_put_left (m : Nat → α) {p q n : Nat} (d : List α) (h : q + n ≤ p) :
    read (put m p d) q n = read m q n := by
  refine read_congr fun i hi => ?_
  have hlt : ¬ p ≤ q + i := by omega
  simp [put, hlt]

/-- Nothing else changes. -/
theorem put_other (m : Nat → α) {p i : Nat} {d : List α} (h : i < p ∨ p + d.length ≤ i) :
    put m p d i = m i := by
  unfold put
  by_cases hp : p ≤ i
  · rw [if_pos hp, List.getD_eq_getElem?_getD, List.getElem?_eq_none (by omega), Option.getD_none]
  · rw [if_neg hp]

theorem read_put_append (m : Nat → α) (p : Nat) (d : List α) :
    read (put m p d) 0 (p + d.length) = read m 0 p ++ d := by
  rw [read_add, read_put_left _ _ (by omega), Nat.zero_add, read_put]

/-- Two pieces, one behind the other. -/
theorem read_put_put (m : Nat → α) (p : Nat) (d d' : List α) :
    read (put (put m p d) (p + d.length) d') p (d.length + d'.length) = d ++ d' := by
  rw [read_add, read_put_left _ _ (Nat.le_refl _), read_put, read_put]

end Memory

/-!
## Little-endian numbers

`bytes w n` are the `w` bytes of `n` in memory, and `value` is the number that bytes hold.
-/

namespace LittleEndian

def bytes : Nat → Nat → List UInt8
  | 0, _ => []
  | w + 1, n => UInt8.ofNat n :: bytes w (n / 256)

def value : List UInt8 → Nat
  | [] => 0
  | b :: bs => b.toNat + 256 * value bs

@[simp] theorem length_bytes (w n : Nat) : (bytes w n).length = w := by
  induction w generalizing n with
  | zero => rfl
  | succ w ih => simp [bytes, ih]

/-- A number that fits is read back. -/
theorem value_bytes {w n : Nat} (h : n < 256 ^ w) : value (bytes w n) = n := by
  induction w generalizing n with
  | zero =>
    have : n = 0 := by simpa using h
    simp [bytes, value, this]
  | succ w ih =>
    have hdiv : n / 256 < 256 ^ w := by
      rw [Nat.pow_succ] at h
      exact Nat.div_lt_of_lt_mul (by omega)
    simp only [bytes, value, ih hdiv, UInt8.toNat_ofNat']
    omega

end LittleEndian

/-!
## Strings of C

A string is its characters, none of them a NUL, and a NUL behind them. Memory has one where a text without
a NUL is stored before one (`isCString_put`), and wherever a NUL is behind a piece of it
(`isCString_takeWhile`).
-/

namespace Memory

/-- A string at `p`. -/
def IsCString (m : Nat → UInt8) (p : Nat) (s : List UInt8) : Prop :=
  read m p s.length = s ∧ 0 ∉ s ∧ m (p + s.length) = 0

variable {m m' : Nat → UInt8} {p n : Nat} {s v : List UInt8}

/-- What is stored before a NUL is a string. -/
theorem isCString_put (hs : 0 ∉ s) (hm : m (p + s.length) = 0) : IsCString (put m p s) p s := by
  refine ⟨read_put .., hs, ?_⟩
  rw [put_other _ (.inr (Nat.le_refl _))]
  exact hm

/-- The string in a piece that has a NUL behind it. -/
theorem isCString_takeWhile (hv : read m p v.length = v) (hnul : m (p + v.length) = 0) :
    IsCString m p (v.takeWhile (· ≠ 0)) := by
  have hsplit : v.takeWhile (· ≠ 0) ++ v.dropWhile (· ≠ 0) = v := List.takeWhile_append_dropWhile
  have hread := hv
  rw [← hsplit, List.length_append, read_add] at hread
  obtain ⟨hhead, htail⟩ := List.append_inj hread (by simp)
  refine ⟨hhead, fun h => by simpa using List.mem_takeWhile_imp h, ?_⟩
  cases hdrop : v.dropWhile (· ≠ 0) with
  | nil =>
    rw [hdrop, List.append_nil] at hsplit
    rwa [hsplit]
  | cons c cs =>
    have hc : c = 0 := by
      have h := List.head?_dropWhile_not (· ≠ (0 : UInt8)) v
      rw [hdrop] at h
      simpa using h
    rw [hdrop, List.length_cons, Nat.add_comm cs.length, read_add] at htail
    obtain ⟨hnext, -⟩ := List.cons.inj htail
    exact hnext.trans hc

end Memory
