import Oreka.Serializers.SingleLineSerializer
import Oreka.Serializers.Proof.KeyValueParse

/-!
# What `SingleLineSerializer` restores

Escaping leaves tabs, line feeds and the other control characters that `isspace` knows as they are, so
that trimming the input takes them off the end of the last value. `singleLine_roundTrip_iff` is the condition on
the map.
-/

open Std

namespace Oreka.Serializers.SingleLineSerializer

open PairParser KeyedMap

/-- White space other than the space, which is escaped. -/
def isControlSpace (c : UInt8) : Bool := 9 ≤ c && c ≤ 13

/-- What stands for a byte. -/
def escapeByte (c : UInt8) : List UInt8 :=
  if c = ' '.toUInt8 then ['%'.toUInt8, 's'.toUInt8]
  else if c = '%'.toUInt8 then ['%'.toUInt8, 'p'.toUInt8]
  else if c = '='.toUInt8 then ['%'.toUInt8, 'e'.toUInt8]
  else [c]

@[simp] theorem escapeSingleLine_cons (c : UInt8) (s : List UInt8) :
    escapeSingleLine (c :: s) = escapeByte c ++ escapeSingleLine s := rfl

theorem escapeSingleLine_concat (s : List UInt8) (c : UInt8) :
    escapeSingleLine (s ++ [c]) = escapeSingleLine s ++ escapeByte c := by
  simp [escapeSingleLine, escapeByte]

/-- Neither a separator nor an equals sign is left unescaped. -/
theorem mem_escapeByte {c x : UInt8} (h : x ∈ escapeByte c) : x ≠ ' '.toUInt8 ∧ x ≠ '='.toUInt8 := by
  unfold escapeByte at h
  split at h
  · simp only [List.mem_cons, List.not_mem_nil, or_false] at h
    obtain rfl | rfl := h <;> decide
  · rename_i hspace
    split at h
    · simp only [List.mem_cons, List.not_mem_nil, or_false] at h
      obtain rfl | rfl := h <;> decide
    · split at h
      · simp only [List.mem_cons, List.not_mem_nil, or_false] at h
        obtain rfl | rfl := h <;> decide
      · rename_i heq
        obtain rfl := List.mem_singleton.1 h
        exact ⟨hspace, heq⟩

/-- A byte is unescaped from what stands for it. -/
theorem unEscapeSingleLine_escapeByte (c : UInt8) (s : List UInt8) :
    unEscapeSingleLine (escapeByte c ++ s) = c :: unEscapeSingleLine s := by
  unfold escapeByte
  split
  · rename_i h
    rw [h]
    rfl
  · split
    · rename_i h
      rw [h]
      rfl
    · rename_i hpercent
      split
      · rename_i h
        rw [h]
        rfl
      · have hne : c ≠ 37 := hpercent
        rw [List.singleton_append, unEscapeSingleLine] <;> simp [hne]

theorem unEscapeSingleLine_escapeSingleLine (s : List UInt8) :
    unEscapeSingleLine (escapeSingleLine s) = s := by
  induction s with
  | nil => rfl
  | cons c s ih => rw [escapeSingleLine_cons, unEscapeSingleLine_escapeByte, ih]

/-- The codec of single-line values. -/
theorem codec : Codec ' '.toUInt8 (fun s => some (unEscapeSingleLine s)) escapeSingleLine id where
  not_alnum := by decide
  ne_equals := by decide
  no_separator v h := by
    obtain ⟨c, -, hc⟩ := List.mem_flatMap.1 h
    exact (mem_escapeByte hc).1 rfl
  no_equals v h := by
    obtain ⟨c, -, hc⟩ := List.mem_flatMap.1 h
    exact (mem_escapeByte hc).2 rfl
  unEscape_escape v := by rw [unEscapeSingleLine_escapeSingleLine, id]
  escape_nil := rfl
  decoded_nil := rfl

/-! ## Trimming -/

/-- What stands for a byte is trimmed off exactly if the byte is a control space. -/
theorem escapeByte_trimmed (c : UInt8) : (isControlSpace c = true ∧ escapeByte c = [c] ∧
      isspace c = true) ∨ (isControlSpace c = false ∧ ∃ l d, escapeByte c = l ++ [d] ∧
      isspace d = false) := by
  unfold escapeByte
  split
  · rename_i h
    rw [h]
    exact .inr ⟨by decide, ['%'.toUInt8], 's'.toUInt8, rfl, by decide⟩
  · rename_i hspace
    split
    · rename_i h
      rw [h]
      exact .inr ⟨by decide, ['%'.toUInt8], 'p'.toUInt8, rfl, by decide⟩
    · split
      · rename_i h
        rw [h]
        exact .inr ⟨by decide, ['%'.toUInt8], 'e'.toUInt8, rfl, by decide⟩
      · have hne : (c == 32) = false := beq_eq_false_iff_ne.2 hspace
        have hs : isspace c = isControlSpace c := by
          rw [isspace, hne, Bool.or_false, isControlSpace]
        cases hc : isControlSpace c with
        | true => exact .inl ⟨rfl, rfl, hs.trans hc⟩
        | false => exact .inr ⟨rfl, [], c, rfl, hs.trans hc⟩

/-- Trimming an escaped value takes off its last control spaces. -/
theorem rdropWhile_escapeSingleLine (v : List UInt8) :
    (escapeSingleLine v).rdropWhile isspace = escapeSingleLine (v.rdropWhile isControlSpace) := by
  induction v using List.reverseRecOn with
  | nil => rfl
  | append_singleton v c ih =>
    rw [escapeSingleLine_concat]
    obtain ⟨hc, hbyte, hs⟩ | ⟨hc, l, d, hbyte, hd⟩ := escapeByte_trimmed c
    · rw [hbyte, List.rdropWhile_concat_pos _ _ _ hs, List.rdropWhile_concat_pos _ _ _ hc, ih]
    · rw [List.rdropWhile_concat_neg _ _ _ (by simp [hc]), escapeSingleLine_concat, hbyte,
        ← List.append_assoc, List.rdropWhile_concat_neg _ _ _ (by simp [hd])]

/-- The last pair with its value as trimming leaves it. -/
def trimmed (p : List UInt8 × List UInt8) : List UInt8 × List UInt8 :=
  (p.1, p.2.rdropWhile isControlSpace)

/-- A trimmed object is that of the trimmed last value, without a separator at the end. -/
theorem trim_serialize {init : List (List UInt8 × List UInt8)} {p : List UInt8 × List UInt8}
    (hkeys : ∀ q ∈ init ++ [p], IsKey q.1) :
    trim (serialize (init ++ [p])) =
      lines ' '.toUInt8 escapeSingleLine [] (init ++ [trimmed p]) := by
  have hp : IsKey p.1 := hkeys p (by simp)
  have hfirst : ∃ c l, Serializers.serialize ' '.toUInt8 escapeSingleLine init ++ formatKey p.1 = c :: l ∧
      isspace c = false := by
    cases init with
    | nil => exact formatKey_first hp
    | cons q init =>
      obtain ⟨c, l, hl, hc⟩ :=
        serialize_first ' '.toUInt8 escapeSingleLine (hkeys q List.mem_cons_self) init
      rw [hl]
      exact ⟨c, l ++ formatKey p.1, rfl, hc⟩
  have hlast : ∃ l d, Serializers.serialize ' '.toUInt8 escapeSingleLine init ++ formatKey p.1 =
      l ++ [d] ∧ isspace d = false := by
    obtain ⟨l, d, hl, hd⟩ := formatKey_last hp
    rw [hl]
    exact ⟨_, d, (List.append_assoc _ l [d]).symm, hd⟩
  have hserialize : serialize (init ++ [p]) = _ := serialize_concat ' '.toUInt8 escapeSingleLine init p
  rw [hserialize, trim_append hfirst hlast, List.rdropWhile_concat_pos _ _ _ (by decide),
    rdropWhile_escapeSingleLine, lines_concat, List.append_nil]
  rfl

/-- The map that the deserialiser leaves is that of the pairs. -/
def Restores (pairs : List (List UInt8 × List UInt8)) : Prop :=
  ∃ m, deSerialize (serialize pairs) = some m ∧ ∀ key : List UInt8, m[key]? = pairs.lookup key

/-- The last value does not end in a control space. -/
def LastFits (pairs : List (List UInt8 × List UInt8)) : Prop :=
  ∀ p ∈ pairs.getLast?, ∀ c ∈ p.2.getLast?, isControlSpace c = false

instance (pairs : List (List UInt8 × List UInt8)) : Decidable (LastFits pairs) :=
  inferInstanceAs (Decidable (∀ p ∈ pairs.getLast?, ∀ c ∈ p.2.getLast?, _))

theorem lastFits_iff (init : List (List UInt8 × List UInt8)) (p : List UInt8 × List UInt8) :
    LastFits (init ++ [p]) ↔ trimmed p = p := by
  have hself : trimmed p = p ↔ p.2.rdropWhile isControlSpace = p.2 :=
    ⟨fun h => congrArg Prod.snd h, fun h => Prod.ext rfl h⟩
  have hlast : LastFits (init ++ [p]) ↔ ∀ c ∈ p.2.getLast?, isControlSpace c = false := by
    simp [LastFits]
  rw [hself, hlast]
  rcases List.eq_nil_or_concat p.2 with hnil | ⟨v, c, hv⟩
  · simp [hnil]
  · rw [hv, List.concat_eq_append]
    cases hc : isControlSpace c with
    | false =>
      rw [List.rdropWhile_concat_neg _ _ _ (by simp [hc])]
      simp [hc]
    | true =>
      rw [List.rdropWhile_concat_pos _ _ _ hc]
      have hshort := (List.rdropWhile_prefix isControlSpace (l := v)).length_le
      have hne : v.rdropWhile isControlSpace ≠ v ++ [c] := by
        intro he
        rw [he, List.length_append, List.length_singleton] at hshort
        omega
      simp [hc, hne]

theorem deSerialize_serialize {init : List (List UInt8 × List UInt8)} {p : List UInt8 × List UInt8}
    (hkeys : ∀ q ∈ init ++ [p], IsKey q.1) :
    deSerialize (serialize (init ++ [p])) = (PairParser.run ' '.toUInt8
      (fun s => some (unEscapeSingleLine s)) {}
      (lines ' '.toUInt8 escapeSingleLine [] (init ++ [trimmed p]))).map (·.map) := by
  rw [deSerialize, Serializers.deSerialize, trim_serialize hkeys]

/-- Trimming keeps the keys and the empty values. -/
theorem lookup_trimmed {init : List (List UInt8 × List UInt8)} {p : List UInt8 × List UInt8}
    {key v : List UInt8} (hv : (init ++ [trimmed p]).lookup key = some v) :
    ∃ w, (init ++ [p]).lookup key = some w ∧ (w = [] → v = []) := by
  rw [List.lookup_append, lookup_singleton] at hv ⊢
  cases hw : init.lookup key with
  | some w =>
    rw [hw, Option.some_or, Option.some.injEq] at hv
    exact ⟨w, rfl, fun h => hv ▸ h⟩
  | none =>
    rw [hw, Option.none_or] at hv
    by_cases hkey : key = p.1
    · rw [if_pos (show key = (trimmed p).1 from hkey), Option.some.injEq] at hv
      rw [if_pos hkey]
      refine ⟨p.2, rfl, fun h => ?_⟩
      rw [← hv, trimmed, h]
      rfl
    · rw [if_neg (show ¬ key = (trimmed p).1 from hkey)] at hv
      cases hv

/-- **What is serialised is restored** exactly where the keys fit the format buffer and the last value
does not end in a tab, a line feed or another such character. -/
theorem singleLine_roundTrip_iff {pairs : List (List UInt8 × List UInt8)}
    (hkeys : ∀ p ∈ pairs, IsKey p.1) (hnodup : (pairs.map (·.1)).Nodup) :
    Restores pairs ↔ KeysFit pairs ∧ LastFits pairs := by
  rcases List.eq_nil_or_concat pairs with rfl | ⟨init, p, hp⟩
  · exact ⟨fun _ => ⟨trivial, by simp [LastFits]⟩, fun _ => ⟨∅, rfl, fun key => by simp⟩⟩
  rw [List.concat_eq_append] at hp
  subst hp
  have hinit : init.lookup p.1 = none := by
    rw [List.map_append, List.nodup_append] at hnodup
    rw [List.lookup_eq_none_iff]
    intro q hq
    have := hnodup.2.2 q.1 (List.mem_map_of_mem hq) p.1 (by simp)
    simpa using Ne.symm this
  have hkeys' : ∀ q ∈ init ++ [trimmed p], IsKey q.1 := by
    intro q hq
    simp only [List.mem_append, List.mem_singleton] at hq
    obtain hq | rfl := hq
    · exact hkeys q (by simp [hq])
    · exact hkeys p (by simp)
  rw [lastFits_iff, Restores, deSerialize_serialize hkeys]
  by_cases hfit : KeysFit (init ++ [trimmed p])
  · rw [finds_iff codec (.inl rfl) hkeys' hfit]
    constructor
    · intro h
      have hvalue := h p.1
      rw [List.lookup_append, List.lookup_append, hinit, Option.none_or, Option.none_or,
        lookup_singleton, lookup_singleton, if_pos rfl,
        if_pos (show p.1 = (trimmed p).1 from rfl)] at hvalue
      have htrimmed : trimmed p = p := Prod.ext rfl (Option.some.inj hvalue)
      rw [htrimmed] at hfit
      exact ⟨hfit, htrimmed⟩
    · rintro ⟨-, htrimmed⟩ key
      rw [htrimmed, Option.map_id_fun, id]
  · have hnot := not_finds codec (.inl rfl) hkeys' hfit fun key v hv => lookup_trimmed hv
    refine ⟨fun h => absurd h hnot, ?_⟩
    rintro ⟨h, htrimmed⟩
    rw [htrimmed] at hfit
    exact absurd h hfit

/-- Every byte in a value, and a last value that ends in a space. -/
theorem singleLine_roundTrip_bytes : Restores
    [("user".toList.map Char.toUInt8, (List.range 256).map UInt8.ofNat),
      ("Id2".toList.map Char.toUInt8, [9, 61, 37, 32])] :=
  (singleLine_roundTrip_iff (by decide +kernel) (by decide +kernel)).2
    ⟨by decide +kernel, by decide +kernel⟩

/-- A line feed at the end of the last value is trimmed off. -/
theorem not_singleLine_roundTrip : ¬ Restores [("k".toList.map Char.toUInt8, [65, 10])] := by
  rintro ⟨m, hm, hlookup⟩
  have hk := hlookup ("k".toList.map Char.toUInt8)
  have hcut : (deSerialize (serialize [("k".toList.map Char.toUInt8, [65, 10])])).map
      (fun m => m["k".toList.map Char.toUInt8]?) = some (some [65]) := by decide
  rw [hm, Option.map_some, hk] at hcut
  revert hcut
  decide

end Oreka.Serializers.SingleLineSerializer
