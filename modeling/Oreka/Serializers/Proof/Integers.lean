import Oreka.Serializers.Serializer
import Oreka.Serializers.Proof.UrlRoundTrip

/-!
# Integers as texts

What `strtol` reads of a sign and digits (`strtolBase10_digits`), that `StringToInt` reads back what
`IntToString` has written (`stringToInt_intToString`), and which texts it reads at all
(`stringToInt_eq_ok`).
-/

namespace Oreka.Serializers

open UrlSerializer

/-- A digit as a byte. -/
theorem isDigit_toUInt8 {c : Char} (h : c.isDigit = true) :
    isdigit c.toUInt8 = true ∧ c.toUInt8.toNat = c.toNat := by
  have h₁ : 48 ≤ c.toNat ∧ c.toNat ≤ 57 := by
    simpa [Char.isDigit, UInt32.le_iff_toNat_le] using h
  have h₂ : c.toUInt8.toNat = c.toNat := by
    rw [Char.toUInt8, UInt32.toNat_toUInt8]
    exact Nat.mod_eq_of_lt (by have := h₁.2; simp only [Char.toNat] at this; omega)
  refine ⟨?_, h₂⟩
  simp only [isdigit, Bool.and_eq_true, decide_eq_true_eq, UInt8.le_iff_toNat_le, h₂]
  exact h₁

theorem isDigit_toDigits {n : Nat} {c : Char} (h : c ∈ Nat.toDigits 10 n) : c.isDigit = true :=
  Nat.isDigit_of_mem_toDigits (by decide) (by decide) h

theorem foldl_ofDigitChars {digits : List Char} (h : ∀ c ∈ digits, c.isDigit = true) (n : Nat) :
    (digits.map Char.toUInt8).foldl (fun n c => n * 10 + (c.toNat - 48)) n =
      Nat.ofDigitChars 10 digits n := by
  induction digits generalizing n with
  | nil => rfl
  | cons c digits ih =>
    obtain ⟨hc, hdigits⟩ := List.forall_mem_cons.1 h
    rw [List.map_cons, List.foldl_cons, ih hdigits, Nat.ofDigitChars_cons, (isDigit_toUInt8 hc).2,
      Nat.mul_comm]
    rfl

theorem decimal_toDigits (n : Nat) : decimal ((Nat.toDigits 10 n).map Char.toUInt8) = n := by
  rw [decimal, foldl_ofDigitChars fun c => isDigit_toDigits, Nat.ofDigitChars_ten_toDigits]

/-- The digits of a number, as bytes. -/
theorem isdigit_of_mem {n : Nat} {c : UInt8} (h : c ∈ (Nat.toDigits 10 n).map Char.toUInt8) :
    isdigit c = true := by
  obtain ⟨d, hd, rfl⟩ := List.mem_map.1 h
  exact (isDigit_toUInt8 (isDigit_toDigits hd)).1

theorem isdigit_ne {c : UInt8} (h : isdigit c = true) :
    isspace c = false ∧ c ≠ 43 ∧ c ≠ 45 ∧ c ≠ 0 := by
  revert h
  exact forall_byte (P := fun c => isdigit c = true → isspace c = false ∧ c ≠ 43 ∧ c ≠ 45 ∧ c ≠ 0)
    (by decide +kernel) c

/-- `%d`: an optional sign and digits. -/
theorem intToString_eq (integer : Int32) : intToString integer =
    if 0 ≤ integer.toInt then (Nat.toDigits 10 integer.toInt.natAbs).map Char.toUInt8
    else '-'.toUInt8 :: (Nat.toDigits 10 integer.toInt.natAbs).map Char.toUInt8 := by
  rw [intToString, bytes, Int.toString_eq_repr, Int.repr_eq_if]
  split
  · rw [Nat.toList_repr, show integer.toInt.toNat = integer.toInt.natAbs by omega]
  · rw [String.toList_append, Nat.toList_repr, List.map_append,
      show (-integer.toInt).toNat = integer.toInt.natAbs by omega]
    rfl

theorem zero_not_mem_intToString (integer : Int32) : 0 ∉ intToString integer := by
  have hdigits : 0 ∉ (Nat.toDigits 10 integer.toInt.natAbs).map Char.toUInt8 :=
    fun h => (isdigit_ne (isdigit_of_mem h)).2.2.2 rfl
  rw [intToString_eq]
  split
  · exact hdigits
  · intro h
    obtain h | h := List.mem_cons.1 h
    · cases h
    · exact hdigits h

/-- Digits behind a sign, and nothing else, are a number. -/
theorem strtolBase10_digits {s digits : List UInt8} {sign : Int}
    (hs : readSign (s.dropWhile isspace) = (sign, digits)) (hne : digits ≠ [])
    (hdigits : ∀ c ∈ digits, isdigit c = true) :
    strtolBase10 s = (clampLong (sign * decimal digits), []) := by
  have htake : digits.takeWhile isdigit = digits := List.takeWhile_eq_self_iff.2 hdigits
  rw [strtolBase10, hs]
  dsimp only
  rw [htake, if_neg hne, List.dropWhile_eq_nil_iff.2 hdigits]

theorem readSign_digit {c : UInt8} (h : isdigit c = true) (rest : List UInt8) :
    readSign ((c :: rest).dropWhile isspace) = (1, c :: rest) := by
  obtain ⟨hspace, hplus, hminus, -⟩ := isdigit_ne h
  rw [List.dropWhile_cons_of_neg (by simp [hspace]), readSign.eq_def]
  split
  · exact absurd (List.cons.inj ‹_›).1 hplus
  · exact absurd (List.cons.inj ‹_›).1 hminus
  · rfl

theorem clampLong_eq {n : Int} (h : -2 ^ 63 ≤ n) (h' : n < 2 ^ 63) : clampLong n = n := by
  unfold clampLong
  omega

/-- The number comes back from its text. -/
theorem stringToInt_intToString (integer : Int32) :
    stringToInt (intToString integer) = .ok integer := by
  have hle := integer.le_toInt
  have hlt := integer.toInt_lt
  have hdigits (c : UInt8) (hc : c ∈ (Nat.toDigits 10 integer.toInt.natAbs).map Char.toUInt8) :
      isdigit c = true := isdigit_of_mem hc
  have hne : (Nat.toDigits 10 integer.toInt.natAbs).map Char.toUInt8 ≠ [] := by
    simp [Nat.toDigits_ne_nil]
  have hread : strtolBase10 (intToString integer) = (integer.toInt, []) := by
    rw [intToString_eq]
    split
    · obtain ⟨c, rest, hc⟩ := List.exists_cons_of_ne_nil hne
      have hsign := readSign_digit (hdigits c (hc ▸ List.mem_cons_self)) rest
      rw [← hc] at hsign
      rw [strtolBase10_digits hsign hne hdigits, decimal_toDigits,
        show (1 : Int) * integer.toInt.natAbs = integer.toInt by omega,
        clampLong_eq (by omega) (by omega)]
    · have hsign : readSign (('-'.toUInt8 :: (Nat.toDigits 10 integer.toInt.natAbs).map
          Char.toUInt8).dropWhile isspace) =
          (-1, (Nat.toDigits 10 integer.toInt.natAbs).map Char.toUInt8) := rfl
      rw [strtolBase10_digits hsign hne hdigits, decimal_toDigits,
        show (-1 : Int) * integer.toInt.natAbs = integer.toInt by omega,
        clampLong_eq (by omega) (by omega)]
  rw [stringToInt, cString_eq_self.2 (zero_not_mem_intToString integer), hread]
  simp

/-! ## The texts that are read -/

/-- A sign of `strtol`, and the digits behind it as a number. -/
inductive Signed (digits : List UInt8) : List UInt8 → Int → Prop
  | plain : Signed digits digits (decimal digits)
  | plus : Signed digits ('+'.toUInt8 :: digits) (decimal digits)
  | minus : Signed digits ('-'.toUInt8 :: digits) (-decimal digits)

/-- White space, a sign and digits. -/
structure IntText (s : List UInt8) (n : Int) : Prop where
  parts : ∃ white unsigned digits, s = white ++ unsigned ∧ (∀ c ∈ white, isspace c = true) ∧
    digits ≠ [] ∧ (∀ c ∈ digits, isdigit c = true) ∧ Signed digits unsigned n

theorem strtolBase10_intText {s : List UInt8} {n : Int} (h : IntText s n) :
    strtolBase10 s = (clampLong n, []) := by
  obtain ⟨white, unsigned, digits, rfl, hwhite, hne, hdigits, hsigned⟩ := h.parts
  have hdrop : (white ++ unsigned).dropWhile isspace = unsigned.dropWhile isspace :=
    List.dropWhile_append_of_pos hwhite
  cases hsigned with
  | plain =>
    obtain ⟨c, rest, rfl⟩ := List.exists_cons_of_ne_nil hne
    have hsign := readSign_digit (hdigits c List.mem_cons_self) rest
    rw [← hdrop] at hsign
    rw [strtolBase10_digits hsign hne hdigits, one_mul]
  | plus =>
    have hsign : readSign ((white ++ '+'.toUInt8 :: digits).dropWhile isspace) = (1, digits) := by
      rw [hdrop]
      rfl
    rw [strtolBase10_digits hsign hne hdigits, one_mul]
  | minus =>
    have hsign : readSign ((white ++ '-'.toUInt8 :: digits).dropWhile isspace) = (-1, digits) := by
      rw [hdrop]
      rfl
    rw [strtolBase10_digits hsign hne hdigits, neg_one_mul]

theorem signed_readSign (s digits : List UInt8) (h : (readSign s).2 = digits) :
    Signed digits s ((readSign s).1 * decimal digits) := by
  subst h
  unfold readSign
  split
  · rw [one_mul]
    exact .plus
  · rw [neg_one_mul]
    exact .minus
  · rw [one_mul]
    exact .plain

/-- A text that `strtol` reads to its end is empty or an integer. -/
theorem intText_of_strtolBase10 {s : List UInt8} (h : (strtolBase10 s).2 = []) :
    s = [] ∨ ∃ n, IntText s n := by
  unfold strtolBase10 at h
  dsimp only at h
  split at h
  · exact .inl h
  · rename_i hne
    have hall := List.dropWhile_eq_nil_iff.1 h
    rw [List.takeWhile_eq_self_iff.2 hall] at hne
    exact .inr ⟨_, ⟨s.takeWhile isspace, s.dropWhile isspace, _, List.takeWhile_append_dropWhile.symm,
      fun c hc => List.mem_takeWhile_imp hc, hne, hall, signed_readSign _ _ rfl⟩⟩

/-- **What `StringToInt` reads**: an integer, or the empty text, as 0. -/
theorem stringToInt_eq_ok {s : List UInt8} {k : Int32} : stringToInt s = .ok k ↔
    cString s = [] ∧ k = 0 ∨ ∃ n, IntText (cString s) n ∧ k = .ofInt (clampLong n) := by
  constructor
  · intro h
    unfold stringToInt at h
    dsimp only at h
    split at h
    · cases h
    · rename_i hend
      injection h with h
      obtain hnil | ⟨n, hn⟩ := intText_of_strtolBase10 (Decidable.not_not.1 hend)
      · refine .inl ⟨hnil, ?_⟩
        rw [hnil] at h
        exact h.symm
      · refine .inr ⟨n, hn, ?_⟩
        rw [← h, strtolBase10_intText hn]
  · rintro (⟨hnil, rfl⟩ | ⟨n, hn, rfl⟩)
    · rw [stringToInt, hnil]
      rfl
    · rw [stringToInt, strtolBase10_intText hn]
      rfl

/-- Digits alone are an integer. -/
theorem intText_digits {s : List UInt8} (hne : s ≠ []) (h : ∀ c ∈ s, isdigit c = true) :
    IntText s (decimal s) :=
  ⟨[], s, s, rfl, fun _ hc => absurd hc List.not_mem_nil, hne, h, .plain⟩

theorem intText_ne_nil {s : List UInt8} {n : Int} (h : IntText s n) : s ≠ [] := by
  obtain ⟨white, unsigned, digits, rfl, -, hne, -, hsigned⟩ := h.parts
  apply List.append_ne_nil_of_right_ne_nil
  cases hsigned with
  | plain => exact hne
  | plus => exact List.cons_ne_nil _ _
  | minus => exact List.cons_ne_nil _ _

/-- A text is one integer at most. -/
theorem intText_clampLong_unique {s : List UInt8} {n n' : Int} (h : IntText s n) (h' : IntText s n') :
    clampLong n = clampLong n' := by
  have heq := (strtolBase10_intText h).symm.trans (strtolBase10_intText h')
  exact congrArg Prod.fst heq

end Oreka.Serializers
