import Oreka.Serializers.Proof.Integers
import Oreka.Tape.PartyFilter

/-!
# The parties that a filter selects

`PartyFilterMatches` compares a party with the literals, and the integer that `StringToInt` makes of it
with the ranges (`partyFilterMatches_iff`). That integer is 0 for a text that is none, and wraps around
from 2^31 on: `selects_iff` says when it decides like the number that the party is.
-/

namespace Oreka

open Serializers

/-- A pattern of the filter list: a text without a hyphen and, as it comes from a configuration, without
NUL, or two numbers with a hyphen between them. It fits in the buffer. -/
inductive PartyPattern
  | literal (s : List UInt8) (ne_nil : s ≠ []) (hyphen : '-'.toUInt8 ∉ s) (terminated : 0 ∉ s)
      (fits : s.length < 1024)
  | range (low high : List UInt8) (low_ne : low ≠ []) (low_digits : ∀ c ∈ low, isdigit c = true)
      (high_ne : high ≠ []) (high_digits : ∀ c ∈ high, isdigit c = true)
      (fits : (low ++ '-'.toUInt8 :: high).length < 1024)

namespace PartyPattern

def text : PartyPattern → List UInt8
  | literal s .. => s
  | range low high .. => low ++ '-'.toUInt8 :: high

/-- The pattern is a literal that equals the party. -/
def Equals (party : List UInt8) : PartyPattern → Prop
  | literal s .. => s = party
  | range .. => False

/-- The pattern is a range in which a number lies. -/
def Contains (n : Int) : PartyPattern → Prop
  | literal .. => False
  | range low high .. => (decimal low : Int) ≤ n ∧ n ≤ decimal high

end PartyPattern

/-- The party is a decimal number. -/
def Numeric (party : List UInt8) : Prop := party ≠ [] ∧ ∀ c ∈ party, isdigit c = true

/-- What a filter is to select: the parties that are one of its literals, and the numbers in one of its
ranges. -/
def Selected (filter : List PartyPattern) (party : List UInt8) : Prop :=
  (∃ p ∈ filter, p.Equals party) ∨ Numeric party ∧ ∃ p ∈ filter, p.Contains (decimal party)

/-! ## What the code compares -/

theorem takeWhile_hyphen {s : List UInt8} (h : '-'.toUInt8 ∉ s) :
    s.takeWhile (· ≠ '-'.toUInt8) = s := by
  rw [List.takeWhile_eq_self_iff]
  intro c hc
  rw [decide_eq_true_eq]
  rintro rfl
  exact h hc

theorem strtolBase10_decimal {s : List UInt8} (hne : s ≠ []) (h : ∀ c ∈ s, isdigit c = true) :
    (strtolBase10 s).1 = clampLong (decimal s) := by
  rw [strtolBase10_intText (intText_digits hne h)]

/-- A number on the left of a hyphen. -/
theorem hyphen_not_mem {s : List UInt8} (h : ∀ c ∈ s, isdigit c = true) : '-'.toUInt8 ∉ s :=
  fun hc => absurd (h _ hc) (by decide)

theorem partyVal_bounds (party : List UInt8) : -2 ^ 31 ≤ partyVal party ∧ partyVal party < 2 ^ 31 := by
  unfold partyVal
  split
  · exact ⟨Int32.le_toInt _, Int32.toInt_lt _⟩
  · decide

theorem clampLong_le_iff {n : Nat} {v : Int} (hv : v < 2 ^ 31) : clampLong n ≤ v ↔ (n : Int) ≤ v := by
  unfold clampLong
  omega

theorem le_clampLong_iff {n : Nat} {v : Int} (hv : v < 2 ^ 31) : v ≤ clampLong n ↔ v ≤ (n : Int) := by
  unfold clampLong
  omega

/-- **One pattern.** -/
theorem patternMatches_iff (party : List UInt8) (p : PartyPattern) :
    patternMatches party p.text = true ↔
      p.Equals (UrlSerializer.cString party) ∨ p.Contains (partyVal party) := by
  cases p with
  | literal s ne_nil hyphen terminated fits =>
    have hbuf : (UrlSerializer.cString s).take 1023 = s := by
      rw [UrlSerializer.cString_eq_self.2 terminated, List.take_of_length_le (by omega)]
    rw [patternMatches, PartyPattern.text, hbuf, takeWhile_hyphen hyphen]
    rw [if_neg ne_nil, if_neg (by simp), beq_iff_eq]
    exact (or_iff_left id).symm
  | range low high low_ne low_digits high_ne high_digits fits =>
    have hterminated : 0 ∉ low ++ '-'.toUInt8 :: high := by
      simp only [List.mem_append, List.mem_cons, not_or]
      refine ⟨fun h => ?_, by decide, fun h => ?_⟩
      · exact absurd (low_digits 0 h) (by decide)
      · exact absurd (high_digits 0 h) (by decide)
    have hbuf : (UrlSerializer.cString (low ++ '-'.toUInt8 :: high)).take 1023 =
        low ++ '-'.toUInt8 :: high := by
      rw [UrlSerializer.cString_eq_self.2 hterminated, List.take_of_length_le (by omega)]
    have hlval : (low ++ '-'.toUInt8 :: high).takeWhile (· ≠ '-'.toUInt8) = low := by
      rw [List.takeWhile_append_of_pos, List.takeWhile_cons_of_neg (by simp), List.append_nil]
      intro c hc
      rw [decide_eq_true_eq]
      rintro rfl
      exact hyphen_not_mem low_digits hc
    have hrval : (low ++ '-'.toUInt8 :: high).drop (low.length + 1) = high := by
      rw [← List.drop_drop, List.drop_left]
      rfl
    have hv := (partyVal_bounds party).2
    rw [patternMatches, PartyPattern.text, hbuf, hlval]
    rw [hrval, if_neg low_ne, if_pos high_ne, decide_eq_true_eq, strtolBase10_decimal low_ne low_digits,
      strtolBase10_decimal high_ne high_digits, clampLong_le_iff hv, le_clampLong_iff hv]
    exact (or_iff_right id).symm

/-- **What the code selects.** -/
theorem partyFilterMatches_iff (filter : List PartyPattern) (party : List UInt8) :
    partyFilterMatches (filter.map (·.text)) party = true ↔
      (∃ p ∈ filter, p.Equals (UrlSerializer.cString party)) ∨
        ∃ p ∈ filter, p.Contains (partyVal party) := by
  rw [partyFilterMatches, List.any_map, List.any_eq_true]
  simp only [Function.comp_apply, patternMatches_iff, and_or_left, exists_or]

/-- The integer that is read of a number. -/
theorem partyVal_numeric {party : List UInt8} (h : Numeric party) :
    partyVal party = (clampLong (decimal party)).bmod (2 ^ 32) := by
  have hterminated : 0 ∉ party := fun h0 => absurd (h.2 0 h0) (by decide)
  have hread : stringToInt party = .ok (.ofInt (clampLong (decimal party))) := by
    rw [stringToInt_eq_ok, UrlSerializer.cString_eq_self.2 hterminated]
    exact .inr ⟨_, intText_digits h.1 h.2, rfl⟩
  rw [partyVal, hread]
  exact Int32.toInt_ofInt

theorem partyVal_small {party : List UInt8} (h : Numeric party) (hlt : decimal party < 2 ^ 31) :
    partyVal party = decimal party := by
  rw [partyVal_numeric h, clampLong_eq (by omega) (by omega)]
  exact Int.bmod_eq_of_le (by omega) (by omega)

/-! ## What the filter selects -/

/-- The code decides like the number that the party is, or is not: a literal equals it, it is a number
below 2^31, a larger one whose remainder lies in a range exactly if it does itself, or no number and
neither a literal up to a NUL nor read as an integer, or 0, that lies in a range. -/
def ReadRight (filter : List PartyPattern) (party : List UInt8) : Prop :=
  (∃ p ∈ filter, p.Equals party) ∨
  Numeric party ∧ decimal party < 2 ^ 31 ∨
  Numeric party ∧ 2 ^ 31 ≤ decimal party ∧
    ((∃ p ∈ filter, p.Contains ((clampLong (decimal party)).bmod (2 ^ 32))) ↔
      ∃ p ∈ filter, p.Contains (decimal party)) ∨
  ¬ Numeric party ∧ (¬ ∃ p ∈ filter, p.Equals (UrlSerializer.cString party)) ∧
    ¬ ∃ p ∈ filter, p.Contains (partyVal party)

theorem equals_terminated {p : PartyPattern} {party : List UInt8} (h : p.Equals party) : 0 ∉ party := by
  cases p with
  | literal s _ _ terminated _ => exact h ▸ terminated
  | range => exact h.elim

theorem numeric_terminated {party : List UInt8} (h : Numeric party) : UrlSerializer.cString party = party :=
  UrlSerializer.cString_eq_self.2 fun h0 => absurd (h.2 0 h0) (by decide)

/-- **When the filter selects what it should.** -/
theorem selects_iff (filter : List PartyPattern) (party : List UInt8) :
    (partyFilterMatches (filter.map (·.text)) party = true ↔ Selected filter party) ↔
      ReadRight filter party := by
  rw [partyFilterMatches_iff]
  by_cases hequals : ∃ p ∈ filter, p.Equals party
  · have hself : UrlSerializer.cString party = party := by
      obtain ⟨p, -, h⟩ := hequals
      exact UrlSerializer.cString_eq_self.2 (equals_terminated h)
    have hselected : Selected filter party := .inl hequals
    rw [hself]
    exact ⟨fun _ => .inl hequals, fun _ => ⟨fun _ => hselected, fun _ => .inl hequals⟩⟩
  · by_cases hnumeric : Numeric party
    · rw [numeric_terminated hnumeric, Selected, ReadRight]
      simp only [hequals, hnumeric, false_or, true_and, not_true_eq_false, false_and, or_false]
      by_cases hlt : decimal party < 2 ^ 31
      · rw [partyVal_small hnumeric hlt]
        exact ⟨fun _ => .inl hlt, fun _ => Iff.rfl⟩
      · rw [partyVal_numeric hnumeric]
        exact ⟨fun h => .inr ⟨Nat.le_of_not_lt hlt, h⟩, fun h => (h.resolve_left hlt).2⟩
    · rw [Selected, ReadRight]
      simp only [hequals, hnumeric, false_or, false_and, not_false_eq_true, true_and, iff_false, not_or]

set_option maxRecDepth 2048 in
/-- A telephone number of ten digits is not found in the range that holds it. -/
theorem not_selects_telephone : ¬ ∀ filter party,
    (partyFilterMatches (filter.map (·.text)) party = true ↔ Selected filter party) := by
  intro h
  have hiff := h [.range (bytes "5551230000") (bytes "5551239999") (by decide) (by decide) (by decide)
    (by decide) (by decide)] (bytes "5551234567")
  have hselected := hiff.2 (.inr ⟨⟨by decide, by decide⟩, _, List.mem_singleton.2 rfl, by decide, by decide⟩)
  exact absurd hselected (by decide)

end Oreka
