import Oreka.Lib.Memory
import Oreka.Lib.Search
import Oreka.Sip.SipTcp

/-!
# Searching header fields

The searches of `voip/ParsingUtils.cpp` and of `MemUtils.cpp`, beside the one of `SipTcp.cpp`: all are
one loop, which compares at the start and then wherever `memchr` or `memnchr` finds the first character.
They differ in what these look for and how far, and in how much of the token is compared. Offsets are
from `start`.
-/

namespace Oreka.Sip

open Net (byte)

/-- `memchr(mem + from, c, n)`. -/
def memchr (mem : List UInt8) (start : Nat) (c : UInt8) (n : Nat) : Option Nat :=
  ((List.range n).find? fun i => byte mem (start + i) = c).map (start + ·)

def toUpper (b : UInt8) : UInt8 := if 97 ≤ b ∧ b ≤ 122 then b - 32 else b

/-- `memnchr`: without regard to case. -/
def memnchr (mem : List UInt8) (start : Nat) (c : UInt8) (n : Nat) : Option Nat :=
  ((List.range n).find? fun i => byte mem (start + i) = toLower c ∨ byte mem (start + i) = toUpper c).map (start + ·)

/-- `for(ptr = start; (ptr<stop) && (ptr != NULL); ptr = next)`: the pointer at which the comparison
succeeds. -/
def searchLoop (next : Nat → Option Nat) (hit : Nat → Bool) (stop : Nat) : Option Nat :=
  Search.loop next hit stop stop 0

namespace ParsingUtils

/-- `memFindStr`: behind the end of the buffer nothing is compared. -/
def memFindStr (toFind mem : List UInt8) (stop : Nat) : Option Nat :=
  searchLoop (fun ptr => memchr mem (ptr + 1) (byte toFind 0) (stop - ptr - 1))
    (fun ptr => matchesAt (toFind.take (stop - ptr)) mem ptr) stop

def memFindAfter (toFind mem : List UInt8) (stop : Nat) : Option Nat :=
  (searchLoop (fun ptr => memnchr mem (ptr + 1) (byte toFind 0) (stop - ptr - 1)) (matchesAt toFind mem) stop).map
    (· + toFind.length)

end ParsingUtils

namespace MemUtils

/-- `MemFindAfter`: `memchr` is given the length of the whole buffer each time. -/
def memFindAfter (toFind mem : List UInt8) (stop : Nat) : Option Nat :=
  (searchLoop (fun ptr => memchr mem (ptr + 1) (byte toFind 0) stop) (matchesAt toFind mem) stop).map
    (· + toFind.length)

end MemUtils

/-! ## The steps -/

theorem find_range_none {p : Nat → Bool} {n : Nat} (h : (List.range n).find? p = none) : ∀ i < n, p i = false := by
  intro i hi
  have hi' := List.find?_eq_none.1 h i (List.mem_range.2 hi)
  simpa using hi'

/-- A search of `n` bytes behind a position, up to the bound or further, leads to the next candidate. -/
theorem steps_find {next : Nat → Option Nat} {candidate : Nat → Bool} {stop : Nat} {n : Nat → Nat}
    (hnext : ∀ p, next p = ((List.range (n p)).find? fun i => candidate (p + 1 + i)).map (p + 1 + ·))
    (hn : ∀ p, stop - p - 1 ≤ n p) : Search.Steps next (fun p => candidate p = true) stop := by
  have hsome : ∀ p q, next p = some q → ∃ i, q = p + 1 + i ∧ candidate q = true ∧
      ∀ j < i, candidate (p + 1 + j) = false := by
    intro p q hq
    rw [hnext, Option.map_eq_some_iff] at hq
    obtain ⟨i, hi, rfl⟩ := hq
    obtain ⟨hcand, -, hbefore⟩ := List.find?_range_eq_some.1 hi
    exact ⟨i, rfl, hcand, fun j hj => by simpa using hbefore j hj⟩
  refine ⟨fun p q hq => ?_, fun p q hq r hpr hrq _ => ?_, fun p q hq _ => ?_, fun p hq r hpr hr => ?_⟩
  · obtain ⟨i, rfl, -, -⟩ := hsome p q hq
    omega
  · obtain ⟨i, rfl, -, hbefore⟩ := hsome p q hq
    have hr := hbefore (r - (p + 1)) (by omega)
    rw [Nat.add_sub_cancel' (by omega)] at hr
    simp [hr]
  · obtain ⟨i, rfl, hcand, -⟩ := hsome p q hq
    exact hcand
  · rw [hnext, Option.map_eq_none_iff] at hq
    have hr' := find_range_none hq (r - (p + 1)) (by have := hn p; omega)
    rw [Nat.add_sub_cancel' (by omega)] at hr'
    simp [hr']

theorem toUpper_or_toLower {b c : UInt8} : b = toLower c ∨ b = toUpper c ↔ toLower b = toLower c := by
  unfold toLower toUpper
  grind

end Oreka.Sip

/-!
## Grabbing tokens

The functions of `voip/ParsingUtils.cpp` that take a text out of memory, up to a character that ends it
or to a limit.
-/

namespace Oreka.Sip

open Net (byte)

namespace ParsingUtils

/-- A NUL, CR or LF. -/
def endsToken (c : UInt8) : Bool := c = 0 ∨ c = 0x0D ∨ c = 0x0A

/-- `for(char* c = in; !ends(*c) && c<limit; c = c+1)`. -/
def grabUntil (ends : UInt8 → Bool) (m : Nat → UInt8) (start limit : Nat) : List UInt8 :=
  (Memory.read m start (limit - start)).takeWhile fun c => ¬ ends c

def grabTokenAcceptSpace (m : Nat → UInt8) (start limit : Nat) : List UInt8 := grabUntil endsToken m start limit

/-- A space ends the token too. -/
def grabToken (m : Nat → UInt8) (start limit : Nat) : List UInt8 :=
  grabUntil (fun c => c = 0x20 ∨ endsToken c) m start limit

def grabTokenSkipLeadingWhitespaces (m : Nat → UInt8) (start limit : Nat) : List UInt8 :=
  grabToken m (start + ((Memory.read m start (limit - start)).takeWhile (· = 0x20)).length) limit

end ParsingUtils

/-- The key of a NOTIFY, as `TrySipNotify` finds it; without one, what the object was created with. -/
def notifyPkey (payload : List UInt8) (sipEnd : Nat) (uninitialised : Int) : Int :=
  let pkeyField := (ParsingUtils.memFindAfter (ascii "Ind-Pkey=") payload sipEnd).or
    (ParsingUtils.memFindAfter (ascii "Ind-Fkey=") payload sipEnd)
  match pkeyField with
  | some p =>
    (scanInt (ParsingUtils.grabTokenSkipLeadingWhitespaces (byte payload) p sipEnd)).getD uninitialised
  | none => uninitialised

end Oreka.Sip
