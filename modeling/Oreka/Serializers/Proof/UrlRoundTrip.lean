import Oreka.Serializers.UrlSerializer
import Oreka.Serializers.Proof.KeyValueParse

/-!
# What `UrlSerializer` restores

Every byte of a value comes back but NUL, which `strchr` finds among the allowed characters: the value
ends there. `url_roundTrip_iff` is the condition on the pairs.
-/

open Std

namespace Oreka.Serializers.UrlSerializer

open PairParser KeyedMap

theorem forall_byte {P : UInt8 → Prop} (h : ∀ i : Fin 256, P (UInt8.ofFin i)) (c : UInt8) : P c := by
  simpa using h c.toFin

/-- What stands for a byte. -/
def escapeByte (c : UInt8) : List UInt8 :=
  if c = ' '.toUInt8 then ['+'.toUInt8]
  else if strchr url_ok_chars c then [c]
  else ['%'.toUInt8, hex_digits (c >>> 4), hex_digits (c &&& 0x0F)]

@[simp] theorem escapeUrl_cons (c : UInt8) (s : List UInt8) :
    escapeUrl (c :: s) = escapeByte c ++ escapeUrl s := rfl

theorem url_ok_chars_eq : url_ok_chars =
    ['-', '.', '0', '1', '2', '3', '4', '5', '6', '7', '8', '9', '@',
      'A', 'B', 'C', 'D', 'E', 'F', 'G', 'H', 'I', 'J', 'K', 'L', 'M', 'N',
      'O', 'P', 'Q', 'R', 'S', 'T', 'U', 'V', 'W', 'X', 'Y', 'Z', '_',
      'a', 'b', 'c', 'd', 'e', 'f', 'g', 'h', 'i', 'j', 'k', 'l', 'm', 'n',
      'o', 'p', 'q', 'r', 's', 't', 'u', 'v', 'w', 'x', 'y', 'z'].map
        Char.toUInt8 :=
  congrArg (List.map Char.toUInt8) String.toList_ofList

theorem url_ok_chars_ne (x : UInt8) (hx : x ∈ url_ok_chars) :
    x ≠ '&'.toUInt8 ∧ x ≠ '='.toUInt8 ∧ x ≠ 43 ∧ x ≠ 37 := by
  have hall : url_ok_chars.all
      (fun x => x ≠ '&'.toUInt8 ∧ x ≠ '='.toUInt8 ∧ x ≠ 43 ∧ x ≠ 37) = true := by
    rw [url_ok_chars_eq]
    decide
  exact of_decide_eq_true (List.all_eq_true.1 hall x hx)

/-- The allowed characters, and the terminator. -/
theorem ne_of_strchr {x : UInt8} (h : strchr url_ok_chars x = true) :
    x ≠ '&'.toUInt8 ∧ x ≠ '='.toUInt8 ∧ x ≠ 43 ∧ x ≠ 37 := by
  simp only [strchr, decide_eq_true_eq, List.mem_append, List.mem_singleton] at h
  obtain h | rfl := h
  · exact url_ok_chars_ne x h
  · decide

theorem forall_nibble {P : UInt8 → Prop} (h : ∀ i : Fin 16, P (UInt8.ofNat i)) {n : UInt8} (hn : n.toNat < 16) :
    P n := by
  simpa using h ⟨n.toNat, hn⟩

theorem hex_digits_nibble {n : UInt8} (hn : n.toNat < 16) : hex_digits n ≠ '&'.toUInt8 ∧
    hex_digits n ≠ '='.toUInt8 ∧ hex_digits n ≠ 37 ∧ hex_digits n ≠ 0 :=
  forall_nibble (P := fun n => hex_digits n ≠ '&'.toUInt8 ∧ hex_digits n ≠ '='.toUInt8 ∧
    hex_digits n ≠ 37 ∧ hex_digits n ≠ 0) (by decide) hn

theorem shiftRight_toNat (c : UInt8) : (c >>> 4).toNat = c.toNat / 16 := by
  rw [UInt8.toNat_shiftRight, Nat.shiftRight_eq_div_pow]
  rfl

theorem and_toNat (c : UInt8) : (c &&& 0x0F).toNat = c.toNat % 16 := by
  rw [UInt8.toNat_and]
  exact Nat.and_two_pow_sub_one_eq_mod c.toNat 4

theorem high_lt (c : UInt8) : (c >>> 4).toNat < 16 := by
  have hlt := c.toNat_lt
  rw [shiftRight_toNat]
  omega

theorem low_lt (c : UInt8) : (c &&& 0x0F).toNat < 16 := by
  rw [and_toNat]
  exact Nat.mod_lt _ (by decide)

theorem hex_digits_ne (c : UInt8) : ∀ x ∈ [hex_digits (c >>> 4), hex_digits (c &&& 0x0F)],
    x ≠ '&'.toUInt8 ∧ x ≠ '='.toUInt8 ∧ x ≠ 37 ∧ x ≠ 0 :=
  List.forall_mem_cons.2 ⟨hex_digits_nibble (high_lt c),
    List.forall_mem_singleton.2 (hex_digits_nibble (low_lt c))⟩

theorem hexValue_hex_digits {n : UInt8} (hn : n.toNat < 16) :
    isxdigit (hex_digits n) = true ∧ hexValue (hex_digits n) = n :=
  forall_nibble (P := fun n => isxdigit (hex_digits n) = true ∧ hexValue (hex_digits n) = n) (by decide) hn

/-- A hexadecimal digit is neither white space nor a sign. -/
theorem of_isxdigit {c : UInt8} (h : isxdigit c = true) : isspace c = false ∧ c ≠ 43 ∧ c ≠ 45 := by
  have hge : 48 ≤ c.toNat := by
    simp only [isxdigit, Bool.or_eq_true, Bool.and_eq_true, decide_eq_true_eq, UInt8.le_iff_toNat_le] at h
    have h48 : (48 : UInt8).toNat = 48 := rfl
    have h65 : (65 : UInt8).toNat = 65 := rfl
    have h97 : (97 : UInt8).toNat = 97 := rfl
    omega
  have hne : ∀ x : UInt8, x.toNat < 48 → c ≠ x := by
    rintro x hx rfl
    omega
  refine ⟨?_, hne 43 (by decide), hne 45 (by decide)⟩
  simp only [isspace, Bool.or_eq_false_iff, Bool.and_eq_false_iff, decide_eq_false_iff_not, beq_eq_false_iff_ne,
    UInt8.le_iff_toNat_le]
  refine ⟨.inr ?_, hne 32 (by decide)⟩
  rw [show (13 : UInt8).toNat = 13 from rfl]
  omega

theorem strtol_pair {h l : UInt8} (hh : isxdigit h = true) (hl : isxdigit l = true) :
    strtol [h, l] = hexValue h * 16 + hexValue l := by
  obtain ⟨hspace, hplus, hminus⟩ := of_isxdigit hh
  have hnumber : hexNumber [h, l] = hexValue h * 16 + hexValue l := by
    simp [hexNumber, hh, hl]
  have hdrop : [h, l].dropWhile isspace = [h, l] := List.dropWhile_cons_of_neg (by simp [hspace])
  unfold strtol
  rw [hdrop]
  split
  · simp_all
  · simp_all
  · dsimp only
    split
    · simp_all
    · exact hnumber

theorem strtol_hex_digits (c : UInt8) :
    strtol [hex_digits (c >>> 4), hex_digits (c &&& 0x0F)] = c := by
  obtain ⟨hh, hvh⟩ := hexValue_hex_digits (high_lt c)
  obtain ⟨hl, hvl⟩ := hexValue_hex_digits (low_lt c)
  rw [strtol_pair hh hl, hvh, hvl]
  refine UInt8.toNat_inj.1 ?_
  have hlt := c.toNat_lt
  rw [UInt8.toNat_add, UInt8.toNat_mul, shiftRight_toNat, and_toNat, show (16 : UInt8).toNat = 16 from rfl]
  omega

/-- Neither a separator nor an equals sign is left unescaped, and no NUL is made. -/
theorem mem_escapeByte {c x : UInt8} (h : x ∈ escapeByte c) :
    x ≠ '&'.toUInt8 ∧ x ≠ '='.toUInt8 ∧ (x = 0 → c = 0) := by
  unfold escapeByte at h
  split at h
  · obtain rfl := List.mem_singleton.1 h
    exact ⟨by decide, by decide, fun h0 => absurd h0 (by decide)⟩
  · split at h
    · rename_i hok
      obtain rfl := List.mem_singleton.1 h
      exact ⟨(ne_of_strchr hok).1, (ne_of_strchr hok).2.1, id⟩
    · obtain rfl | h := List.mem_cons.1 h
      · exact ⟨by decide, by decide, fun h0 => absurd h0 (by decide)⟩
      · obtain ⟨hamp, heq, -, h0⟩ := hex_digits_ne c x h
        exact ⟨hamp, heq, fun hx => absurd hx h0⟩

theorem escapeByte_zero : escapeByte 0 = [0] := by
  unfold escapeByte strchr
  rw [url_ok_chars_eq]
  decide

theorem unEscapeUrl_plus (s : List UInt8) :
    unEscapeUrl ('+'.toUInt8 :: s) = (unEscapeUrl s).map (' '.toUInt8 :: ·) := by
  rw [unEscapeUrl.eq_def]
  rfl

theorem unEscapeUrl_plain {c : UInt8} (hplus : c ≠ 43) (hpercent : c ≠ 37) (s : List UInt8) :
    unEscapeUrl (c :: s) = (unEscapeUrl s).map (c :: ·) := by
  rw [unEscapeUrl.eq_def]
  exact (if_neg hplus).trans (if_neg hpercent)

theorem unEscapeUrl_percent {h : UInt8} (hne : h ≠ 37) (l : UInt8) (s : List UInt8) :
    unEscapeUrl ('%'.toUInt8 :: h :: l :: s) = (unEscapeUrl s).map (strtol [h, l] :: ·) := by
  rw [unEscapeUrl.eq_def]
  exact if_neg hne

/-- A byte is unescaped from what stands for it. -/
theorem unEscapeUrl_escapeByte (c : UInt8) (s : List UInt8) :
    unEscapeUrl (escapeByte c ++ s) = (unEscapeUrl s).map (c :: ·) := by
  unfold escapeByte
  by_cases hspace : c = ' '.toUInt8
  · rw [if_pos hspace, hspace, List.singleton_append, unEscapeUrl_plus]
  rw [if_neg hspace]
  by_cases hok : strchr url_ok_chars c = true
  · obtain ⟨-, -, hplus, hpercent⟩ := ne_of_strchr hok
    rw [if_pos hok, List.singleton_append, unEscapeUrl_plain hplus hpercent]
  · have hne := (hex_digits_nibble (high_lt c)).2.2.1
    rw [if_neg hok]
    show unEscapeUrl ('%'.toUInt8 :: hex_digits (c >>> 4) :: hex_digits (c &&& 0x0F) :: s) = _
    rw [unEscapeUrl_percent hne, strtol_hex_digits]

theorem unEscapeUrl_escapeUrl (s : List UInt8) : unEscapeUrl (escapeUrl s) = some s := by
  induction s with
  | nil => rfl
  | cons c s ih => rw [escapeUrl_cons, unEscapeUrl_escapeByte, ih, Option.map_some]

/-- Escaping keeps where a C string ends. -/
theorem cString_escapeUrl (s : List UInt8) : cString (escapeUrl s) = escapeUrl (cString s) := by
  induction s with
  | nil => rfl
  | cons c s ih =>
    by_cases h : c = 0
    · subst h
      rw [escapeUrl_cons, escapeByte_zero]
      rfl
    · have hall : ∀ x ∈ escapeByte c, decide (x ≠ 0) = true := by
        intro x hx
        simpa using fun h0 => h ((mem_escapeByte hx).2.2 h0)
      have hcons : cString (c :: s) = c :: cString s := by simp [cString, h]
      rw [hcons, escapeUrl_cons, escapeUrl_cons, ← ih]
      exact List.takeWhile_append_of_pos hall

theorem cString_eq_self {s : List UInt8} : cString s = s ↔ 0 ∉ s := by
  rw [cString, List.takeWhile_eq_self_iff]
  simp only [decide_eq_true_eq]
  constructor
  · intro h h0
    exact h 0 h0 rfl
  · rintro h x hx rfl
    exact h hx

theorem zero_not_mem_cString (s : List UInt8) : 0 ∉ cString s :=
  fun h => by simpa using List.mem_takeWhile_imp h

/-- A string with a NUL in it ends there, whatever follows. -/
theorem cString_append_of_mem {s : List UInt8} (h : 0 ∈ s) (rest : List UInt8) :
    cString (s ++ rest) = cString s := by
  obtain ⟨l, r, rfl, hl⟩ := List.eq_append_cons_of_mem h
  have hall : ∀ c ∈ l, decide (c ≠ 0) = true := by
    intro c hc
    rw [decide_eq_true_eq]
    rintro rfl
    exact hl hc
  rw [List.append_assoc, cString, cString, List.takeWhile_append_of_pos hall, List.takeWhile_append_of_pos hall]
  rfl

/-- A string without a NUL goes on in what follows. -/
theorem cString_append_of_not_mem {s : List UInt8} (h : 0 ∉ s) (rest : List UInt8) :
    cString (s ++ rest) = s ++ cString rest := by
  apply List.takeWhile_append_of_pos
  intro c hc
  rw [decide_eq_true_eq]
  rintro rfl
  exact h hc

/-- The codec of URL values. -/
theorem codec : Codec '&'.toUInt8 unEscapeUrl (fun v => cString (escapeUrl v)) cString where
  not_alnum := by decide
  ne_equals := by decide
  no_separator v h := by
    obtain ⟨c, -, hc⟩ := List.mem_flatMap.1 ((List.takeWhile_sublist _).subset h)
    exact (mem_escapeByte hc).1 rfl
  no_equals v h := by
    obtain ⟨c, -, hc⟩ := List.mem_flatMap.1 ((List.takeWhile_sublist _).subset h)
    exact (mem_escapeByte hc).2.1 rfl
  unEscape_escape v := by rw [cString_escapeUrl, unEscapeUrl_escapeUrl]
  escape_nil := rfl
  decoded_nil := rfl

/-- Trimming takes nothing off a serialised object. -/
theorem trim_serialize {pairs : List (List UInt8 × List UInt8)} (hkeys : ∀ p ∈ pairs, IsKey p.1) :
    trim (serialize pairs) = serialize pairs := by
  cases pairs with
  | nil => rfl
  | cons p rest =>
    have hfirst : ∃ c l, serialize (p :: rest) = c :: l ∧ isspace c = false :=
      serialize_first _ _ (hkeys p List.mem_cons_self) rest
    have hlast : ∃ l d, serialize (p :: rest) = l ++ [d] ∧ isspace d = false := by
      rcases List.eq_nil_or_concat (p :: rest) with hnil | ⟨init, q, hq⟩
      · cases hnil
      · rw [hq, List.concat_eq_append]
        have h : serialize (init ++ [q]) = _ := serialize_concat _ _ init q
        rw [← List.append_assoc] at h
        exact ⟨_, _, h, by decide⟩
    simpa using trim_append hfirst hlast []

/-- The map that the deserialiser leaves is that of the pairs. -/
def Restores (pairs : List (List UInt8 × List UInt8)) : Prop :=
  ∃ m, deSerialize (serialize pairs) = some m ∧ ∀ key : List UInt8, m[key]? = pairs.lookup key

/-- The value of every key is free of NUL. -/
def ValuesFit (pairs : List (List UInt8 × List UInt8)) : Prop :=
  ∀ p ∈ pairs, pairs.lookup p.1 = some p.2 → 0 ∉ p.2

instance (pairs : List (List UInt8 × List UInt8)) : Decidable (ValuesFit pairs) :=
  inferInstanceAs (Decidable (∀ p ∈ pairs, _ → _))

theorem deSerialize_serialize {pairs : List (List UInt8 × List UInt8)}
    (hkeys : ∀ p ∈ pairs, IsKey p.1) :
    deSerialize (serialize pairs) = (PairParser.run '&'.toUInt8 unEscapeUrl ⟨.start, [], [], ∅⟩
      (lines '&'.toUInt8 (fun v => cString (escapeUrl v)) ['&'.toUInt8] pairs)).map (·.map) := by
  rw [deSerialize, Serializers.deSerialize, trim_serialize hkeys, ← serialize_eq_lines]
  rfl

/-- **What is serialised is restored** exactly where the keys fit the format buffer and no value holds
a NUL. -/
theorem url_roundTrip_iff {pairs : List (List UInt8 × List UInt8)} (hkeys : ∀ p ∈ pairs, IsKey p.1) :
    Restores pairs ↔ KeysFit pairs ∧ ValuesFit pairs := by
  rw [Restores, deSerialize_serialize hkeys]
  by_cases hfit : KeysFit pairs
  · rw [finds_iff codec (.inr rfl) hkeys hfit]
    constructor
    · intro h
      refine ⟨hfit, fun p _ hp => ?_⟩
      have hvalue := h p.1
      rw [hp, Option.map_some, Option.some.injEq] at hvalue
      exact cString_eq_self.1 hvalue
    · rintro ⟨-, hvalues⟩ key
      cases hv : pairs.lookup key with
      | none => rfl
      | some v => rw [Option.map_some, cString_eq_self.2 (hvalues _ (mem_of_lookup hv) hv)]
  · have hnot := not_finds codec (.inr rfl) hkeys hfit fun key v hv => ⟨v, hv, id⟩
    exact ⟨fun h => absurd h hnot, fun h => absurd h.1 hfit⟩

theorem zero_notMem_bytes : 0 ∉ (List.range' 1 255).map UInt8.ofNat := by
  intro h
  obtain ⟨n, hn, h0⟩ := List.mem_map.1 h
  have hrange := List.mem_range'_1.1 hn
  have hn : (UInt8.ofNat n).toNat = n := UInt8.toNat_ofNat_of_lt' hrange.2
  rw [h0] at hn
  exact absurd hrange.1 (by rw [← hn]; decide)

/-- Two keys, one of them twice, and every byte but NUL. -/
theorem url_roundTrip_bytes : Restores [("user".toList.map Char.toUInt8, (List.range' 1 255).map UInt8.ofNat),
    ("Id2".toList.map Char.toUInt8, []), ("Id2".toList.map Char.toUInt8, [0])] :=
  (url_roundTrip_iff (by decide +kernel)).2 ⟨by decide, by
    intro p hp hlookup
    obtain rfl | rfl | rfl | hp := by simpa only [List.mem_cons] using hp
    · exact zero_notMem_bytes
    · decide
    · revert hlookup
      decide
    · cases hp⟩

/-- A value ends at its first NUL. -/
theorem not_url_roundTrip : ¬ Restores [("k".toList.map Char.toUInt8, [65, 0, 66])] := by
  rintro ⟨m, hm, hlookup⟩
  have hk := hlookup ("k".toList.map Char.toUInt8)
  have hcut : (deSerialize (serialize [("k".toList.map Char.toUInt8, [65, 0, 66])])).map
      (fun m => m["k".toList.map Char.toUInt8]?) = some (some [65]) := by
    unfold serialize addString escapeUrl strchr
    simp only [url_ok_chars_eq]
    decide
  rw [hm, Option.map_some, hk] at hcut
  revert hcut
  decide

end Oreka.Serializers.UrlSerializer
