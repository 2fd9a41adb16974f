import Oreka.Lib.Infix
import Oreka.Serializers.Proof.UrlRoundTrip
import Oreka.Serializers.Serializer

/-!
# What the map list restores

The list that `AddCsvMap` writes is split at its commas into the elements again, each of which comes back
trimmed: white space at the beginning of a key and at the end of a value is lost (`splitCsv_csvMapString`,
`insertPair_csvElement`). `getCsvMap_iff` says which maps come back.
-/

open Std

namespace Oreka.Serializers

open KeyedMap

/-! ## Escaping -/

section
variable {special letter : UInt8}

@[simp] theorem escape_nil : escape special letter [] = [] := rfl

theorem escape_append (s t : List UInt8) :
    escape special letter (s ++ t) = escape special letter s ++ escape special letter t :=
  List.flatMap_append

theorem escape_special (s : List UInt8) :
    escape special letter (special :: s) = '%'.toUInt8 :: letter :: escape special letter s := by
  simp [escape]

theorem escape_percent (h : special ≠ '%'.toUInt8) (s : List UInt8) :
    escape special letter ('%'.toUInt8 :: s) =
      '%'.toUInt8 :: 'p'.toUInt8 :: escape special letter s := by
  simp [escape, h.symm]

theorem escape_plain {c : UInt8} (hs : c ≠ special) (hp : c ≠ '%'.toUInt8) (s : List UInt8) :
    escape special letter (c :: s) = c :: escape special letter s := by
  simp [escape, hs, hp]

/-- What an escaped string consists of. -/
theorem mem_escape {x : UInt8} {s : List UInt8} (h : x ∈ escape special letter s) :
    (x ∈ s ∧ x ≠ special) ∨ x = '%'.toUInt8 ∨ x = letter ∨ x = 'p'.toUInt8 := by
  obtain ⟨c, hc, hx⟩ := List.mem_flatMap.1 h
  split at hx
  · simp only [List.mem_cons, List.not_mem_nil, or_false] at hx
    obtain rfl | rfl := hx
    · exact .inr (.inl rfl)
    · exact .inr (.inr (.inl rfl))
  · rename_i hne
    split at hx
    · simp only [List.mem_cons, List.not_mem_nil, or_false] at hx
      obtain rfl | rfl := hx
      · exact .inr (.inl rfl)
      · exact .inr (.inr (.inr rfl))
    · obtain rfl := List.mem_singleton.1 hx
      exact .inl ⟨hc, hne⟩

theorem mem_escape_of_mem {x : UInt8} {s : List UInt8} (h : x ∈ s) (hs : x ≠ special)
    (hp : x ≠ '%'.toUInt8) : x ∈ escape special letter s :=
  List.mem_flatMap.2 ⟨x, h, by simp [hs, hp]⟩

/-- Escaping is undone, where the letter is not that of the percent sign. -/
theorem unEscape_escape (hs : special ≠ '%'.toUInt8) (hl : letter ≠ 'p'.toUInt8) (s : List UInt8) :
    unEscape special letter (escape special letter s) = s := by
  induction s with
  | nil => rfl
  | cons c s ih =>
    by_cases hspecial : c = special
    · subst hspecial
      rw [escape_special, unEscape, if_pos rfl, if_pos rfl, ih]
    · by_cases hpercent : c = '%'.toUInt8
      · subst hpercent
        rw [escape_percent hs, unEscape, if_pos rfl, if_neg hl.symm, if_pos rfl, ih]
      · rw [escape_plain hspecial hpercent, unEscape.eq_def]
        simp only [if_neg hpercent, ih]

/-- What an unescaped string consists of. -/
theorem mem_unEscape {x : UInt8} {s : List UInt8} (h : x ∈ unEscape special letter s) :
    x ∈ s ∨ x = special ∨ x = '%'.toUInt8 := by
  fun_induction unEscape special letter s with
  | case1 => exact .inl h
  | case2 => cases h
  | case3 rest ih =>
    obtain rfl | h := List.mem_cons.1 h
    · exact .inr (.inl rfl)
    · obtain h | h := ih h
      · exact .inl (List.mem_cons_of_mem _ (List.mem_cons_of_mem _ h))
      · exact .inr h
  | case4 rest hl ih =>
    obtain rfl | h := List.mem_cons.1 h
    · exact .inr (.inr rfl)
    · obtain h | h := ih h
      · exact .inl (List.mem_cons_of_mem _ (List.mem_cons_of_mem _ h))
      · exact .inr h
  | case5 l rest hl hp ih =>
    obtain h | h := ih h
    · exact .inl (List.mem_cons_of_mem _ (List.mem_cons_of_mem _ h))
    · exact .inr h
  | case6 c rest hc ih =>
    obtain rfl | h := List.mem_cons.1 h
    · exact .inl List.mem_cons_self
    · obtain h | h := ih h
      · exact .inl (List.mem_cons_of_mem _ h)
      · exact .inr h

/-- Neither the escaped character nor the escapes are white space. -/
structure Dark (special letter : UInt8) : Prop where
  special : isspace special = false
  letter : isspace letter = false

theorem isspace_percent : isspace '%'.toUInt8 = false := by decide

theorem dropWhile_escape (hd : Dark special letter) (s : List UInt8) :
    (escape special letter s).dropWhile isspace = escape special letter (s.dropWhile isspace) := by
  induction s with
  | nil => rfl
  | cons c s ih =>
    by_cases hc : isspace c = true
    · have hs : c ≠ special := fun h => by simp [h, hd.special] at hc
      have hp : c ≠ '%'.toUInt8 := fun h => by simp [h, isspace_percent] at hc
      rw [escape_plain hs hp, List.dropWhile_cons_of_pos hc, List.dropWhile_cons_of_pos hc, ih]
    · rw [List.dropWhile_cons_of_neg hc]
      by_cases hs : c = special
      · rw [hs, escape_special, List.dropWhile_cons_of_neg (by simp [isspace_percent])]
      · rw [escape, List.flatMap_cons, if_neg hs]
        split
        · exact List.dropWhile_cons_of_neg (by simp [isspace_percent])
        · exact List.dropWhile_cons_of_neg hc

/-- What stands for a character that is no white space does not end in white space. -/
theorem escape_last (hd : Dark special letter) {c : UInt8} (hc : isspace c = false) :
    ∃ l d, escape special letter [c] = l ++ [d] ∧ isspace d = false := by
  by_cases hs : c = special
  · exact ⟨['%'.toUInt8], letter, by rw [hs, escape_special, escape_nil]; rfl, hd.letter⟩
  · by_cases hp : c = '%'.toUInt8
    · refine ⟨['%'.toUInt8], 'p'.toUInt8, ?_, by decide⟩
      rw [hp, escape_percent (hp ▸ Ne.symm hs), escape_nil]
      rfl
    · exact ⟨[], c, by rw [escape_plain hs hp, escape_nil]; rfl, hc⟩

theorem rdropWhile_escape (hd : Dark special letter) (s : List UInt8) :
    (escape special letter s).rdropWhile isspace = escape special letter (s.rdropWhile isspace) := by
  induction s using List.reverseRecOn with
  | nil => rfl
  | append_singleton s c ih =>
    rw [escape_append]
    by_cases hc : isspace c = true
    · have hs : c ≠ special := fun h => by simp [h, hd.special] at hc
      have hp : c ≠ '%'.toUInt8 := fun h => by simp [h, isspace_percent] at hc
      rw [escape_plain hs hp, escape_nil, List.rdropWhile_concat_pos _ _ _ hc,
        List.rdropWhile_concat_pos _ _ _ hc, ih]
    · obtain ⟨l, d, hl, hdark⟩ := escape_last hd (Bool.eq_false_iff.2 hc)
      rw [List.rdropWhile_concat_neg _ _ _ hc, escape_append, hl, ← List.append_assoc,
        List.rdropWhile_concat_neg _ _ _ (by simp [hdark])]

theorem trim_escape (hd : Dark special letter) (s : List UInt8) :
    trim (escape special letter s) = escape special letter (trim s) := by
  rw [trim, trim, dropWhile_escape hd, rdropWhile_escape hd]

end

/-! ## Elements of the list -/

theorem dark_csv : Dark ','.toUInt8 'c'.toUInt8 := ⟨by decide, by decide⟩

theorem dark_pair : Dark ':'.toUInt8 'k'.toUInt8 := ⟨by decide, by decide⟩

theorem not_mem_escapePair (s : List UInt8) : ':'.toUInt8 ∉ escapePair s := by
  intro h
  obtain ⟨-, hne⟩ | h | h | h := mem_escape h
  · exact hne rfl
  · cases h
  · cases h
  · cases h

theorem not_mem_escapeCsv (s : List UInt8) : ','.toUInt8 ∉ escapeCsv s := by
  intro h
  obtain ⟨-, hne⟩ | h | h | h := mem_escape h
  · exact hne rfl
  · cases h
  · cases h
  · cases h

/-- What is left of a pair: white space at the beginning of the key and at the end of the value is
taken for white space around a list element. -/
def trimmed (pair : List UInt8 × List UInt8) : List UInt8 × List UInt8 :=
  (pair.1.dropWhile isspace, pair.2.rdropWhile isspace)

theorem trim_csvElement (pair : List UInt8 × List UInt8) :
    trim (csvElement pair) = csvElement (trimmed pair) := by
  have hcolon : isspace ':'.toUInt8 = false := by decide
  have hleft (a b : List UInt8) : (a ++ ':'.toUInt8 :: b).dropWhile isspace =
      a.dropWhile isspace ++ ':'.toUInt8 :: b := by
    rw [List.dropWhile_append]
    split
    · rename_i h
      rw [List.isEmpty_iff.1 h, List.dropWhile_cons_of_neg (by simp [hcolon])]
      rfl
    · rfl
  have hright (a b : List UInt8) : (a ++ ':'.toUInt8 :: b).rdropWhile isspace =
      a ++ ':'.toUInt8 :: b.rdropWhile isspace := by
    have h := rdropWhile_append ⟨a, ':'.toUInt8, rfl, hcolon⟩ b
    rwa [List.append_assoc, List.append_assoc] at h
  rw [trim, csvElement, hleft, hright]
  exact congrArg₂ (fun a b => a ++ ':'.toUInt8 :: b) (dropWhile_escape dark_pair _)
    (rdropWhile_escape dark_pair _)

theorem idxOf_csvElement (pair : List UInt8 × List UInt8) :
    (csvElement pair).idxOf? ':'.toUInt8 = some (escapePair pair.1).length :=
  Infix.idxOf?_append_cons (not_mem_escapePair _) _

theorem insertPair_csvElement (m : PairMap) (pair : List UInt8 × List UInt8) :
    insertPair m (csvElement pair) = .ok (m.insertIfNew pair.1 pair.2) := by
  have hkey : unEscapePair ((csvElement pair).take (escapePair pair.1).length) = pair.1 := by
    rw [csvElement, List.take_left]
    exact unEscape_escape (by decide) (by decide) _
  have hvalue : unEscapePair ((csvElement pair).drop ((escapePair pair.1).length + 1)) = pair.2 := by
    rw [csvElement, ← List.drop_drop, List.drop_left, List.drop_one, List.tail_cons]
    exact unEscape_escape (by decide) (by decide) _
  rw [insertPair, idxOf_csvElement]
  simp only [hkey, hvalue]

theorem foldlM_insertPair (m : PairMap) (pairs : List (List UInt8 × List UInt8)) :
    (pairs.map csvElement).foldlM insertPair m = .ok (insertAll m pairs) := by
  induction pairs generalizing m with
  | nil => rfl
  | cons pair pairs ih =>
    rw [List.map_cons, List.foldlM_cons, insertPair_csvElement]
    exact ih _

/-! ## The list -/

namespace CsvReader

variable {r : CsvReader} {text : List UInt8}

/-- Characters other than commas are added to the element. -/
theorem foldl_read (htext : ','.toUInt8 ∉ text) (r : CsvReader) :
    text.foldl read r = { r with element := r.element ++ text } := by
  induction text generalizing r with
  | nil => simp
  | cons c text ih =>
    have hc : c ≠ ','.toUInt8 := fun h => htext (h ▸ List.mem_cons_self)
    rw [List.foldl_cons, read, if_neg hc, ih fun h => htext (List.mem_cons_of_mem _ h)]
    simp

/-- A list is split into its elements, of which the last is not empty. -/
theorem finish_intercalate {texts : List (List UInt8)} (hcommas : ∀ text ∈ texts, ','.toUInt8 ∉ text)
    (hlast : ∀ text ∈ texts.getLast?, text ≠ []) (first : Bool) (value : List (List UInt8)) :
    (([','.toUInt8].intercalate texts).foldl read { first, value }).finish =
      if texts = [] then value
      else (if first then [] else value) ++ texts.map fun text => unEscapeCsv (trim text) := by
  induction texts generalizing first value with
  | nil => simp [finish]
  | cons text texts ih =>
    obtain ⟨hcomma, hcommas⟩ := List.forall_mem_cons.1 hcommas
    rw [if_neg (List.cons_ne_nil text texts)]
    cases texts with
    | nil =>
      have hne : text ≠ [] := hlast text rfl
      rw [List.intercalate_singleton, foldl_read hcomma]
      simp [finish, push, hne]
    | cons text' texts =>
      rw [List.intercalate_cons_cons, List.append_assoc, List.foldl_append, foldl_read hcomma,
        List.foldl_append]
      have hpush : [','.toUInt8].foldl read { element := [] ++ text, first, value } =
          { first := false,
            value := (if first then [] else value) ++ [unEscapeCsv (trim text)] } := by
        simp [read, push]
      have hrest : ∀ t ∈ (text' :: texts).getLast?, t ≠ [] := by
        rwa [List.getLast?_cons_cons] at hlast
      rw [hpush, ih hcommas hrest, if_neg (List.cons_ne_nil text' texts), List.map_cons,
        if_neg Bool.false_ne_true, List.append_assoc]
      rfl

end CsvReader

theorem escape_eq_nil {special letter : UInt8} {s : List UInt8} :
    escape special letter s = [] ↔ s = [] := by
  refine ⟨fun h => ?_, fun h => by rw [h, escape_nil]⟩
  rcases s with _ | ⟨c, s⟩
  · rfl
  · rw [escape, List.flatMap_cons] at h
    split at h
    · cases h
    · split at h
      · cases h
      · cases h

/-- A written list has its elements back, each of them trimmed, if the last is not empty. Without an
element the default stays. -/
theorem splitCsv_csvString {texts : List (List UInt8)} (hlast : ∀ text ∈ texts.getLast?, text ≠ [])
    (value : List (List UInt8)) :
    splitCsv value (csvString texts) = if texts = [] then value else texts.map trim := by
  have hcommas : ∀ text ∈ texts.map escapeCsv, ','.toUInt8 ∉ text := by
    intro text htext
    obtain ⟨s, -, rfl⟩ := List.mem_map.1 htext
    exact not_mem_escapeCsv s
  have hescaped : ∀ text ∈ (texts.map escapeCsv).getLast?, text ≠ [] := by
    intro text htext
    rw [List.getLast?_map] at htext
    obtain ⟨s, hs, rfl⟩ := Option.map_eq_some_iff.1 htext
    exact fun hnil => hlast s hs (escape_eq_nil.1 hnil)
  rw [splitCsv, csvString, CsvReader.finish_intercalate hcommas hescaped]
  simp only [List.map_eq_nil_iff, if_true, List.nil_append, List.map_map]
  refine congrArg _ (List.map_congr_left fun s _ => ?_)
  change unEscapeCsv (trim (escapeCsv s)) = trim s
  rw [escapeCsv, trim_escape dark_csv]
  exact unEscape_escape (by decide) (by decide) _

theorem csvMapString_eq (value : PairMap) : csvMapString value = csvString (value.toList.map csvElement) := by
  rw [csvMapString, csvString, List.map_map]
  rfl

/-- The elements of the list that a map is written as. -/
theorem splitCsv_csvMapString (value : PairMap) :
    splitCsv [] (csvMapString value) = value.toList.map fun pair => csvElement (trimmed pair) := by
  have hlast : ∀ text ∈ (value.toList.map csvElement).getLast?, text ≠ [] := by
    intro text htext hnil
    obtain ⟨pair, -, rfl⟩ := List.mem_map.1 (List.mem_of_getLast? htext)
    exact List.append_ne_nil_of_right_ne_nil _ (List.cons_ne_nil _ _) hnil
  rw [csvMapString_eq, splitCsv_csvString hlast, List.map_map]
  split
  · rename_i h
    rw [List.map_eq_nil_iff.1 h]
    rfl
  · exact List.map_congr_left fun pair _ => trim_csvElement pair

/-! ## The map -/

/-- The map that is read from a list. -/
def readCsvMap (text : List UInt8) : Except Failure PairMap := (splitCsv [] text).foldlM insertPair ∅

theorem readCsvMap_csvMapString (value : PairMap) :
    readCsvMap (csvMapString value) = .ok (insertAll ∅ (value.toList.map trimmed)) := by
  rw [readCsvMap, splitCsv_csvMapString, ← foldlM_insertPair, List.map_map]
  rfl

/-- An entry with a key of its own is the one that is found. -/
theorem lookup_of_mem {pairs : List (List UInt8 × List UInt8)} (hnodup : (pairs.map Prod.fst).Nodup)
    {key v : List UInt8} (h : (key, v) ∈ pairs) : pairs.lookup key = some v := by
  obtain ⟨l₁, l₂, rfl⟩ := List.append_of_mem h
  refine List.lookup_eq_some_iff.2 ⟨l₁, l₂, rfl, fun p hp => ?_⟩
  rw [List.map_append, List.map_cons, List.nodup_append] at hnodup
  exact bne_iff_ne.2 (hnodup.2.2 p.1 (List.mem_map_of_mem hp) key List.mem_cons_self).symm

theorem lookup_toList (m : PairMap) (key : List UInt8) : m.toList.lookup key = m[key]? := by
  have hnodup : (m.toList.map Prod.fst).Nodup := by
    refine List.pairwise_map.2 (TreeMap.distinct_keys_toList.imp fun h he => h ?_)
    exact Std.compare_eq_iff_eq.2 he
  cases hv : m[key]? with
  | some v => exact lookup_of_mem hnodup (TreeMap.mem_toList_iff_getElem?_eq_some.2 hv)
  | none =>
    cases hl : m.toList.lookup key with
    | none => rfl
    | some v =>
      rw [TreeMap.mem_toList_iff_getElem?_eq_some.1 (mem_of_lookup hl)] at hv
      cases hv

/-- An entry that a list can hold. -/
structure PairFits (key v : List UInt8) : Prop where
  key_terminated : 0 ∉ key
  value_terminated : 0 ∉ v
  key_begin : ∀ c ∈ key.head?, isspace c = false
  value_end : ∀ c ∈ v.getLast?, isspace c = false

/-- Every entry of the map is one that a list can hold. -/
def MapFits (m : PairMap) : Prop := ∀ key v : List UInt8, m[key]? = some v → PairFits key v

theorem dropWhile_eq_self {s : List UInt8} :
    s.dropWhile isspace = s ↔ ∀ c ∈ s.head?, isspace c = false := by
  rw [List.dropWhile_eq_self_iff]
  cases s <;> simp

theorem rdropWhile_eq_self {s : List UInt8} :
    s.rdropWhile isspace = s ↔ ∀ c ∈ s.getLast?, isspace c = false := by
  rw [List.rdropWhile_eq_self_iff]
  rcases List.eq_nil_or_concat s with rfl | ⟨s, c, rfl⟩ <;> simp

theorem trimmed_eq_self {key v : List UInt8} : trimmed (key, v) = (key, v) ↔
    (∀ c ∈ key.head?, isspace c = false) ∧ ∀ c ∈ v.getLast?, isspace c = false := by
  rw [trimmed, Prod.mk.injEq, dropWhile_eq_self, rdropWhile_eq_self]

/-- The entries of a map that are written as they are. -/
theorem map_trimmed_toList {m : PairMap}
    (hfits : ∀ key v : List UInt8, m[key]? = some v → trimmed (key, v) = (key, v)) :
    m.toList.map trimmed = m.toList := by
  refine (List.map_congr_left fun pair hpair => ?_).trans (List.map_id _)
  exact hfits _ _ (TreeMap.mem_toList_iff_getElem?_eq_some.1 hpair)

theorem trimmed_trimmed (pair : List UInt8 × List UInt8) : trimmed (trimmed pair) = trimmed pair :=
  congrArg₂ Prod.mk (List.dropWhile_idempotent _ _) (List.rdropWhile_idempotent _ _)

/-! ## NUL -/

/-- No NUL comes out of unescaping. -/
theorem zero_not_mem_unEscape {special letter : UInt8} (hs : special ≠ 0) {s : List UInt8}
    (h : 0 ∉ s) : 0 ∉ unEscape special letter s := by
  intro h0
  obtain h0 | h0 | h0 := mem_unEscape h0
  · exact h h0
  · exact hs h0.symm
  · cases h0

theorem zero_mem_escape {special letter : UInt8} (hs : special ≠ 0) (hl : letter ≠ 0)
    {s : List UInt8} : 0 ∈ escape special letter s ↔ 0 ∈ s := by
  refine ⟨fun h => ?_, fun h => mem_escape_of_mem h hs.symm (by decide)⟩
  obtain ⟨h, -⟩ | h | h | h := mem_escape h
  · exact h
  · cases h
  · exact absurd h.symm hl
  · cases h

theorem zero_mem_csvElement (pair : List UInt8 × List UInt8) :
    0 ∈ escapeCsv (csvElement pair) ↔ 0 ∈ pair.1 ∨ 0 ∈ pair.2 := by
  have hne : (0 : UInt8) ≠ ':'.toUInt8 := by decide
  rw [escapeCsv, zero_mem_escape (by decide) (by decide), csvElement, List.mem_append, List.mem_cons,
    escapePair, escapePair, zero_mem_escape (by decide) (by decide),
    zero_mem_escape (by decide) (by decide)]
  simp only [hne, false_or]

theorem zero_mem_intercalate {texts : List (List UInt8)} (h : 0 ∈ [','.toUInt8].intercalate texts) :
    ∃ text ∈ texts, 0 ∈ text := by
  induction texts with
  | nil => cases h
  | cons text texts ih =>
    cases texts with
    | nil => exact ⟨text, List.mem_cons_self, by simpa using h⟩
    | cons text' texts =>
      rw [List.intercalate_cons_cons, List.append_assoc, List.mem_append, List.mem_append] at h
      obtain h | h | h := h
      · exact ⟨text, List.mem_cons_self, h⟩
      · cases List.mem_singleton.1 h
      · obtain ⟨t, ht, h0⟩ := ih h
        exact ⟨t, List.mem_cons_of_mem _ ht, h0⟩

/-- The list of a map holds a NUL only if an entry does. -/
theorem zero_mem_csvMapString {m : PairMap} (h : 0 ∈ csvMapString m) :
    ∃ key v : List UInt8, m[key]? = some v ∧ (0 ∈ key ∨ 0 ∈ v) := by
  obtain ⟨text, htext, h0⟩ := zero_mem_intercalate h
  obtain ⟨pair, hpair, rfl⟩ := List.mem_map.1 htext
  exact ⟨pair.1, pair.2, TreeMap.mem_toList_iff_getElem?_eq_some.1 hpair, (zero_mem_csvElement pair).1 h0⟩

theorem trim_subset (s : List UInt8) : trim s ⊆ s :=
  fun _ h => (List.dropWhile_sublist _).subset ((List.rdropWhile_prefix _ _).subset h)

/-- What is read from a string without NUL has none. -/
structure CsvReader.Terminated (r : CsvReader) : Prop where
  element : 0 ∉ r.element
  value : ∀ e ∈ r.value, 0 ∉ e

theorem CsvReader.Terminated.push {r : CsvReader} (h : r.Terminated) : r.push.Terminated where
  element := List.not_mem_nil
  value e he := by
    obtain he | he := List.mem_append.1 he
    · split at he
      · cases he
      · exact h.value e he
    · rw [List.mem_singleton.1 he]
      exact zero_not_mem_unEscape (by decide) fun h0 => h.element (trim_subset _ h0)

theorem CsvReader.Terminated.foldl {text : List UInt8} (htext : 0 ∉ text) {r : CsvReader}
    (h : r.Terminated) : (text.foldl CsvReader.read r).Terminated := by
  induction text generalizing r with
  | nil => exact h
  | cons c text ih =>
    have hc : c ≠ 0 := fun h0 => htext (h0 ▸ List.mem_cons_self)
    apply ih fun h0 => htext (List.mem_cons_of_mem _ h0)
    unfold CsvReader.read
    split
    · exact h.push
    · exact ⟨by simpa [h.element] using hc.symm, h.value⟩

theorem splitCsv_terminated {text : List UInt8} (htext : 0 ∉ text) : ∀ e ∈ splitCsv [] text, 0 ∉ e := by
  have h := CsvReader.Terminated.foldl htext (r := { value := [] })
    ⟨List.not_mem_nil, fun _ he => absurd he List.not_mem_nil⟩
  intro e he
  unfold splitCsv CsvReader.finish at he
  split at he
  · exact h.push.value e he
  · exact h.value e he

theorem insertPair_terminated {m m' : PairMap} {e : List UInt8} (he : 0 ∉ e)
    (h : insertPair m e = .ok m') {key v : List UInt8} (hv : m'[key]? = some v) :
    m[key]? = some v ∨ (0 ∉ key ∧ 0 ∉ v) := by
  unfold insertPair at h
  split at h
  · cases h
    rw [getElem?_insertIfNew] at hv
    split at hv
    · rename_i hk
      obtain ⟨rfl, -⟩ := hk
      cases hv
      exact .inr ⟨zero_not_mem_unEscape (by decide) fun h0 => he (List.mem_of_mem_take h0),
        zero_not_mem_unEscape (by decide) fun h0 => he (List.mem_of_mem_drop h0)⟩
    · exact .inl hv
  · cases h

theorem foldlM_insertPair_terminated {es : List (List UInt8)} (hes : ∀ e ∈ es, 0 ∉ e) {m m' : PairMap}
    (h : es.foldlM insertPair m = .ok m') {key v : List UInt8} (hv : m'[key]? = some v) :
    m[key]? = some v ∨ (0 ∉ key ∧ 0 ∉ v) := by
  induction es generalizing m with
  | nil =>
    cases h
    exact .inl hv
  | cons e es ih =>
    obtain ⟨he, hes⟩ := List.forall_mem_cons.1 hes
    rw [List.foldlM_cons] at h
    cases hm : insertPair m e with
    | error f =>
      rw [hm] at h
      cases h
    | ok m₁ =>
      rw [hm] at h
      obtain h₁ | h₁ := ih hes h
      · exact insertPair_terminated he hm h₁
      · exact .inr h₁

theorem readCsvMap_terminated {text : List UInt8} (htext : 0 ∉ text) {m : PairMap}
    (h : readCsvMap text = .ok m) {key v : List UInt8} (hv : m[key]? = some v) : 0 ∉ key ∧ 0 ∉ v := by
  obtain h₁ | h₁ := foldlM_insertPair_terminated (splitCsv_terminated htext) h hv
  · simp at h₁
  · exact h₁

/-- **The map comes back** from the C string of its list exactly if its entries fit. -/
theorem readCsvMap_iff (value : PairMap) :
    (∃ m, readCsvMap (UrlSerializer.cString (csvMapString value)) = .ok m ∧
      ∀ key : List UInt8, m[key]? = value[key]?) ↔ MapFits value := by
  have hread (htext : 0 ∉ csvMapString value) :
      readCsvMap (UrlSerializer.cString (csvMapString value)) =
        .ok (insertAll ∅ (value.toList.map trimmed)) := by
    rw [UrlSerializer.cString_eq_self.2 htext, readCsvMap_csvMapString]
  have hlookup (key : List UInt8) : (insertAll ∅ (value.toList.map trimmed))[key]? =
      (value.toList.map trimmed).lookup key := by
    rw [getElem?_insertAll, TreeMap.getElem?_emptyc, Option.none_or]
  constructor
  · rintro ⟨m, hm, hsame⟩ key v hv
    have hterminated {key v : List UInt8} (hv : value[key]? = some v) : 0 ∉ key ∧ 0 ∉ v := by
      rw [← hsame] at hv
      exact readCsvMap_terminated (UrlSerializer.zero_not_mem_cString _) hm hv
    have htext : 0 ∉ csvMapString value := by
      intro h0
      obtain ⟨key, v, hv, h0⟩ := zero_mem_csvMapString h0
      exact h0.elim (hterminated hv).1 (hterminated hv).2
    rw [hread htext] at hm
    cases hm
    have hmem := mem_of_lookup ((hlookup key).symm.trans ((hsame key).trans hv))
    obtain ⟨pair, -, hpair⟩ := List.mem_map.1 hmem
    have htrimmed : trimmed (key, v) = (key, v) := by rw [← hpair, trimmed_trimmed]
    obtain ⟨hkey, hvalue⟩ := trimmed_eq_self.1 htrimmed
    exact ⟨(hterminated hv).1, (hterminated hv).2, hkey, hvalue⟩
  · intro hfits
    have htext : 0 ∉ csvMapString value := by
      intro h0
      obtain ⟨key, v, hv, h0⟩ := zero_mem_csvMapString h0
      exact h0.elim (hfits key v hv).key_terminated (hfits key v hv).value_terminated
    have hmap : value.toList.map trimmed = value.toList :=
      map_trimmed_toList fun key v hv =>
        trimmed_eq_self.2 ⟨(hfits key v hv).key_begin, (hfits key v hv).value_end⟩
    refine ⟨_, hread htext, fun key => ?_⟩
    rw [hlookup, hmap, lookup_toList]

end Oreka.Serializers

/-!
## Lists and maps come back

`GetCsv` reads what `AddCsv` has written, and `GetCsvMap` what `AddCsvMap` has (`getCsv_csvString`,
`getCsvMap_csvMapString`): the strings of a list need only be trimmed and the last one not empty, a key not
begin and a value not end with white space.
-/

open Std

namespace Oreka.Serializers

open KeyedMap SerializerM

/-- What a serialiser that holds a string for the key answers. -/
theorem getString_eq {key : String} {text : List UInt8} {s : Serializer} (h : s.map[bytes key]? = some text)
    (value : List UInt8) (required : Bool) : getString key value required s = .ok (text, s) := by
  simp only [getString, bind, StateT.bind, get, getThe, MonadStateOf.get, StateT.get, pure, Except.bind,
    Except.pure, h]
  rfl

theorem getCsv_eq {key : String} {text : List UInt8} {s : Serializer} (h : s.map[bytes key]? = some text)
    (value : List (List UInt8)) (required : Bool) :
    getCsv key value required s = .ok (splitCsv value text, s) := by
  change (getString key [] required s).bind _ = _
  rw [getString_eq h]
  rfl

theorem getCsvMap_eq {key : String} {text : List UInt8} {s : Serializer} (h : s.map[bytes key]? = some text)
    (value : PairMap) (required : Bool) :
    getCsvMap key value required s = ((splitCsv [] text).foldlM insertPair value).map (·, s) := by
  change (getCsv key [] required s).bind _ = _
  rw [getCsv_eq h]
  rfl

/-- **A list comes back.** The default stays where nothing was written. -/
theorem getCsv_csvString {key : String} {s : Serializer} {texts : List (List UInt8)}
    (htrim : ∀ text ∈ texts, trim text = text) (hlast : ∀ text ∈ texts.getLast?, text ≠ [])
    (h : s.map[bytes key]? = some (csvString texts)) (value : List (List UInt8)) (required : Bool) :
    getCsv key value required s = .ok (if texts = [] then value else texts, s) := by
  have hmap : texts.map trim = texts := (List.map_congr_left htrim).trans (List.map_id _)
  rw [getCsv_eq h, splitCsv_csvString hlast, hmap]

/-- **A map comes back.** -/
theorem getCsvMap_csvMapString {key : String} {s : Serializer} {m : PairMap}
    (hfits : ∀ key v : List UInt8, m[key]? = some v → trimmed (key, v) = (key, v))
    (h : s.map[bytes key]? = some (csvMapString m)) (required : Bool) :
    ∃ m', getCsvMap key ∅ required s = .ok (m', s) ∧ ∀ k : List UInt8, m'[k]? = m[k]? := by
  refine ⟨insertAll ∅ m.toList, ?_, fun k => ?_⟩
  · have hread : (splitCsv [] (csvMapString m)).foldlM insertPair ∅ = .ok (insertAll ∅ m.toList) := by
      rw [← map_trimmed_toList hfits]
      exact readCsvMap_csvMapString m
    rw [getCsvMap_eq h, hread]
    rfl
  · rw [getElem?_insertAll, TreeMap.getElem?_emptyc, Option.none_or, lookup_toList]

/-- **Lists and maps come back** from a serialiser that holds their text, whatever commas, colons and
percent signs there are in them. -/
theorem csv_round_trip (key : String) (required : Bool) (s : Serializer) :
    (∀ texts value : List (List UInt8), (∀ text ∈ texts, trim text = text) →
      (∀ text ∈ texts.getLast?, text ≠ []) → s.map[bytes key]? = some (csvString texts) →
      getCsv key value required s = .ok (if texts = [] then value else texts, s)) ∧
    ∀ m : PairMap, (∀ k v : List UInt8, m[k]? = some v →
        (∀ c ∈ k.head?, isspace c = false) ∧ ∀ c ∈ v.getLast?, isspace c = false) →
      s.map[bytes key]? = some (csvMapString m) →
      ∃ m', getCsvMap key ∅ required s = .ok (m', s) ∧ ∀ k : List UInt8, m'[k]? = m[k]? := by
  constructor
  · intro texts value htrim hlast h
    exact getCsv_csvString htrim hlast h value required
  · intro m hfits h
    exact getCsvMap_csvMapString (fun k v hv => trimmed_eq_self.2 (hfits k v hv)) h required

/-- A deserialiser that got one string. -/
def Serializer.holding (key : String) (text : List UInt8) : Serializer where
  deSerialize := true
  map := (∅ : PairMap).insert (bytes key) text

/-- A list with a comma, an empty string and a percent sign, and a map with a colon and a comma. -/
theorem csv_round_trip_marks :
    let texts := [bytes "a,b", [], bytes "%c"]
    let m := (∅ : PairMap).insert (bytes "%k:") (bytes "x,%")
    let s := Serializer.holding "list" (csvString texts)
    let s' := Serializer.holding "map" (csvMapString m)
    getCsv "list" [[65]] true s = .ok (texts, s) ∧
      ∃ m', getCsvMap "map" ∅ true s' = .ok (m', s') ∧ ∀ k : List UInt8, m'[k]? = m[k]? := by
  constructor
  · exact (csv_round_trip "list" true _).1 [bytes "a,b", [], bytes "%c"] [[65]] (by decide) (by decide)
      TreeMap.getElem?_insert_self
  · refine (csv_round_trip "map" true _).2 _ (fun k v hv => ?_) TreeMap.getElem?_insert_self
    rw [TreeMap.getElem?_insert] at hv
    split at hv
    · rename_i hk
      obtain rfl := Std.compare_eq_iff_eq.1 hk
      cases hv
      constructor
      · intro c hc
        obtain rfl : '%'.toUInt8 = c := Option.some.inj hc
        decide
      · intro c hc
        obtain rfl : '%'.toUInt8 = c := Option.some.inj hc
        decide
    · rw [TreeMap.getElem?_emptyc] at hv
      cases hv

end Oreka.Serializers
