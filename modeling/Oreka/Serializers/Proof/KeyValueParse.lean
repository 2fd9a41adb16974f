import Oreka.Serializers.KeyValueText

/-!
# The parser on what the serialisers write

`Codec` is what escaping has to do with the separator. The parser takes one pair after the other
(`run_pair`); a key that `FormatV` cuts stands without its equals sign, and the parser then fails at
the next separator (`run_noEquals`). `finds_iff` and `not_finds` say which pairs are found: those of
`KeysFit` lists.
-/

open Std

namespace Oreka.Serializers

open PairParser KeyedMap

/-- An alphanumeric key. -/
def IsKey (key : List UInt8) : Prop := key ≠ [] ∧ ∀ c ∈ key, isalnum c = true

instance (key : List UInt8) : Decidable (IsKey key) := inferInstanceAs (Decidable (_ ∧ _))

/-- An escaped value holds neither separators nor equals signs, and is unescaped to `decoded`. -/
structure Codec (separator : UInt8) (unEscape : List UInt8 → Option (List UInt8))
    (escape decoded : List UInt8 → List UInt8) : Prop where
  not_alnum : isalnum separator = false
  ne_equals : separator ≠ '='.toUInt8
  no_separator : ∀ v, separator ∉ escape v
  no_equals : ∀ v, '='.toUInt8 ∉ escape v
  unEscape_escape : ∀ v, unEscape (escape v) = some (decoded v)
  escape_nil : escape [] = []
  decoded_nil : decoded [] = []

section
variable {separator : UInt8} {unEscape : List UInt8 → Option (List UInt8)}
  {escape decoded : List UInt8 → List UInt8} (hc : Codec separator unEscape escape decoded)
include hc

theorem Codec.unEscape_nil : unEscape [] = some [] := by
  have h := hc.unEscape_escape []
  rwa [hc.escape_nil, hc.decoded_nil] at h

theorem Codec.ne_of_isalnum {c : UInt8} (h : isalnum c = true) : c ≠ separator := by
  rintro rfl
  rw [hc.not_alnum] at h
  cases h

/-! ## Characters -/

omit hc in
/-- Within a key or a value nothing is stored before the last character. -/
theorem store_of_ne {s : PairParser} (h : s.state ≠ .start) : s.store unEscape false = some s := by
  simp [store, h]

omit hc in
/-- The rest of a key. -/
theorem run_key {cs : List UInt8} (hcs : ∀ c ∈ cs, isalnum c = true) {rest : List UInt8}
    (hrest : rest ≠ []) (key value : List UInt8) (m : PairMap) :
    run separator unEscape ⟨.key, key, value, m⟩ (cs ++ rest) =
      run separator unEscape ⟨.key, key ++ cs, value, m⟩ rest := by
  induction cs generalizing key with
  | nil => simp
  | cons c cs ih =>
    have hempty : (cs ++ rest).isEmpty = false := by simp [hrest]
    have hread : switchState separator ⟨.key, key, value, m⟩ c = ⟨.key, key ++ [c], value, m⟩ := by
      simp [switchState, hcs c List.mem_cons_self]
    simp only [List.cons_append, run, reduceCtorEq, if_false, hread, hempty]
    rw [store_of_ne (by simp)]
    simpa using ih (fun d hd => hcs d (List.mem_cons_of_mem _ hd)) (key ++ [c])

/-- A key from its first character on. -/
theorem run_start {key : List UInt8} (hkey : IsKey key) {rest : List UInt8} (hrest : rest ≠ [])
    (m : PairMap) :
    run separator unEscape ⟨.start, [], [], m⟩ (key ++ rest) =
      run separator unEscape ⟨.key, key, [], m⟩ rest := by
  obtain ⟨c, cs, rfl⟩ := List.exists_cons_of_ne_nil hkey.1
  have hc' := hkey.2 c List.mem_cons_self
  have hempty : (cs ++ rest).isEmpty = false := by simp [hrest]
  have hread : switchState separator ⟨.start, [], [], m⟩ c = ⟨.key, [c], [], m⟩ := by
    simp [switchState, hc', hc.ne_of_isalnum hc']
  simp only [List.cons_append, run, reduceCtorEq, if_false, hread, hempty]
  rw [store_of_ne (by simp)]
  simpa using run_key (fun d hd => hkey.2 d (List.mem_cons_of_mem _ hd)) hrest [c] [] m

omit hc in
/-- The characters of a value. -/
theorem run_value {text : List UInt8} (hsep : separator ∉ text) (heq : '='.toUInt8 ∉ text)
    {rest : List UInt8} (hrest : rest ≠ []) (key value : List UInt8) (m : PairMap) :
    run separator unEscape ⟨.value, key, value, m⟩ (text ++ rest) =
      run separator unEscape ⟨.value, key, value ++ text, m⟩ rest := by
  induction text generalizing value with
  | nil => simp
  | cons c text ih =>
    simp only [List.mem_cons, not_or] at hsep heq
    have hempty : (text ++ rest).isEmpty = false := by simp [hrest]
    have hread : switchState separator ⟨.value, key, value, m⟩ c = ⟨.value, key, value ++ [c], m⟩ := by
      simp [switchState, Ne.symm heq.1, Ne.symm hsep.1]
    simp only [List.cons_append, run, reduceCtorEq, if_false, hread, hempty]
    rw [store_of_ne (by simp)]
    simpa using ih hsep.2 heq.2 (value ++ [c])

/-- A key and its equals sign. -/
theorem run_key_equals {key : List UInt8} (hkey : IsKey key) {rest : List UInt8} (hrest : rest ≠ [])
    (m : PairMap) :
    run separator unEscape ⟨.start, [], [], m⟩ (key ++ '='.toUInt8 :: rest) =
      run separator unEscape ⟨.value, key, [], m⟩ rest := by
  have hempty : rest.isEmpty = false := by simp [hrest]
  have hread : switchState separator ⟨.key, key, [], m⟩ '='.toUInt8 = ⟨.value, key, [], m⟩ := by
    have : isalnum '='.toUInt8 = false := by decide
    simp [switchState, this]
  rw [run_start hc hkey (by simp)]
  simp only [run, reduceCtorEq, if_false, hread, hempty]
  rw [store_of_ne (by simp)]
  rfl

/-! ## Pairs -/

/-- A pair with its separator. -/
theorem run_pair {key : List UInt8} (hkey : IsKey key) (v : List UInt8) (rest : List UInt8)
    (m : PairMap) :
    run separator unEscape ⟨.start, [], [], m⟩
        (key ++ '='.toUInt8 :: (escape v ++ separator :: rest)) =
      run separator unEscape ⟨.start, [], [], m.insertIfNew key (decoded v)⟩ rest := by
  have hread : switchState separator ⟨.value, key, escape v, m⟩ separator = ⟨.start, key, escape v, m⟩ := by
    simp [switchState, hc.ne_equals]
  rw [run_key_equals hc hkey (by simp), run_value (hc.no_separator v) (hc.no_equals v) (by simp)]
  simp only [List.nil_append, run, reduceCtorEq, if_false, hread]
  simp [store, hkey.1, hc.unEscape_escape]

omit hc in
/-- At the last character the pair is stored, whatever the state. -/
theorem store_last {s : PairParser} (hkey : s.key ≠ []) {u : List UInt8}
    (hu : unEscape s.value = some u) :
    s.store unEscape true =
      some { s with map := s.map.insertIfNew s.key u, key := [], value := [] } := by
  simp [store, hkey, hu]

/-- The last pair, without a separator. -/
theorem run_last {key : List UInt8} (hkey : IsKey key) (v : List UInt8) (m : PairMap) :
    ∃ s, run separator unEscape ⟨.start, [], [], m⟩ (key ++ '='.toUInt8 :: escape v) = some s ∧
      s.map = m.insertIfNew key (decoded v) := by
  have hu := hc.unEscape_escape v
  have hsep := hc.no_separator v
  have heq := hc.no_equals v
  rcases List.eq_nil_or_concat (escape v) with htext | ⟨text, c, htext⟩
  · rw [htext] at hu ⊢
    have hread : switchState separator ⟨.key, key, [], m⟩ '='.toUInt8 = ⟨.value, key, [], m⟩ := by
      have : isalnum '='.toUInt8 = false := by decide
      simp [switchState, this]
    rw [run_start hc hkey (by simp)]
    simp only [run, reduceCtorEq, if_false, hread, List.isEmpty_nil]
    rw [store_last hkey.1 hu]
    exact ⟨_, rfl, rfl⟩
  · rw [htext, List.concat_eq_append] at hu hsep heq ⊢
    simp only [List.mem_append, List.mem_singleton, not_or] at hsep heq
    have hread : switchState separator ⟨.value, key, text, m⟩ c = ⟨.value, key, text ++ [c], m⟩ := by
      simp [switchState, Ne.symm heq.2, Ne.symm hsep.2]
    rw [run_key_equals hc hkey (by simp), run_value hsep.1 heq.1 (by simp), List.nil_append]
    simp only [run, reduceCtorEq, if_false, hread, List.isEmpty_nil]
    rw [store_last hkey.1 hu]
    exact ⟨_, rfl, rfl⟩

/-! ## Keys without their equals sign -/

omit hc in
/-- An error ends the loop. -/
theorem run_error {s : PairParser} (h : s.state = .error) (rest : List UInt8) :
    run separator unEscape s rest = some s := by
  cases rest with
  | nil => rfl
  | cons c rest => simp [run, h]

/-- A key that a separator follows: the parser fails there, and stores the key if that was the last
character. -/
theorem run_key_separator (key rest : List UInt8) (hkey : key ≠ []) (m : PairMap) :
    ∃ s, run separator unEscape ⟨.key, key, [], m⟩ (separator :: rest) = some s ∧
      s.map = if rest = [] then m.insertIfNew key [] else m := by
  have hread : switchState separator ⟨.key, key, [], m⟩ separator = ⟨.error, key, [], m⟩ := by
    simp [switchState, hc.not_alnum, hc.ne_equals]
  simp only [run, reduceCtorEq, if_false, hread]
  cases rest with
  | nil =>
    rw [List.isEmpty_nil, store_last hkey hc.unEscape_nil]
    exact ⟨_, rfl, by simp⟩
  | cons c rest =>
    rw [List.isEmpty_cons, store_of_ne (by simp)]
    exact ⟨_, run_error rfl _, by simp⟩

/-- Where no equals sign comes before the separator, nothing is stored but a key with an empty
value. -/
theorem run_noEquals {text tail : List UInt8} (htext : '='.toUInt8 ∉ text)
    (htail : tail = [] ∨ ∃ rest, tail = separator :: rest) {key : List UInt8} (hkey : key ≠ [])
    (m : PairMap) :
    ∃ s, run separator unEscape ⟨.key, key, [], m⟩ (text ++ tail) = some s ∧
      (s.map = m ∨ ∃ key', s.map = m.insertIfNew key' []) := by
  induction text generalizing key with
  | nil =>
    obtain rfl | ⟨rest, rfl⟩ := htail
    · exact ⟨_, rfl, .inl rfl⟩
    · obtain ⟨s, hs, hmap⟩ := run_key_separator hc key rest hkey m
      refine ⟨s, hs, ?_⟩
      rw [hmap]
      split
      · exact .inr ⟨key, rfl⟩
      · exact .inl rfl
  | cons c text ih =>
    simp only [List.mem_cons, not_or] at htext
    by_cases halnum : isalnum c = true
    · have hread : switchState separator ⟨.key, key, [], m⟩ c = ⟨.key, key ++ [c], [], m⟩ := by
        simp [switchState, halnum]
      simp only [List.cons_append, run, reduceCtorEq, if_false, hread]
      by_cases hlast : text ++ tail = []
      · rw [hlast, List.isEmpty_nil, store_last (by simp) hc.unEscape_nil]
        exact ⟨_, rfl, .inr ⟨_, rfl⟩⟩
      · have hempty : (text ++ tail).isEmpty = false := by simpa using hlast
        rw [hempty, store_of_ne (by simp)]
        exact ih htext.2 (by simp)
    · have hread : switchState separator ⟨.key, key, [], m⟩ c = ⟨.error, key, [], m⟩ := by
        simp [switchState, halnum, Ne.symm htext.1]
      simp only [List.cons_append, run, reduceCtorEq, if_false, hread]
      by_cases hlast : text ++ tail = []
      · rw [hlast, List.isEmpty_nil, store_last hkey hc.unEscape_nil]
        exact ⟨_, rfl, .inr ⟨_, rfl⟩⟩
      · have hempty : (text ++ tail).isEmpty = false := by simpa using hlast
        rw [hempty, store_of_ne (by simp)]
        exact ⟨_, run_error rfl _, .inl rfl⟩

/-- A key that ends the input. -/
theorem run_key_alone {key : List UInt8} (hkey : IsKey key) (m : PairMap) :
    ∃ s, run separator unEscape ⟨.start, [], [], m⟩ key = some s ∧ s.map = m.insertIfNew key [] := by
  rcases List.eq_nil_or_concat key with hnil | ⟨cs, c, hcs⟩
  · exact absurd hnil hkey.1
  rw [List.concat_eq_append] at hcs
  subst hcs
  have hc' : isalnum c = true := hkey.2 c (by simp)
  by_cases hempty : cs = []
  · subst hempty
    have hread : switchState separator ⟨.start, [], [], m⟩ c = ⟨.key, [c], [], m⟩ := by
      simp [switchState, hc', hc.ne_of_isalnum hc']
    simp only [List.nil_append, run, reduceCtorEq, if_false, hread, List.isEmpty_nil]
    rw [store_last (by simp) hc.unEscape_nil]
    exact ⟨_, rfl, rfl⟩
  · have hread : switchState separator ⟨.key, cs, [], m⟩ c = ⟨.key, cs ++ [c], [], m⟩ := by
      simp [switchState, hc']
    have hcs : IsKey cs := ⟨hempty, fun d hd => hkey.2 d (List.mem_append_left _ hd)⟩
    rw [run_start hc hcs (by simp)]
    simp only [run, reduceCtorEq, if_false, hread, List.isEmpty_nil]
    rw [store_last (by simp) hc.unEscape_nil]
    exact ⟨_, rfl, rfl⟩

theorem run_start_noEquals {text tail : List UInt8} (htext : '='.toUInt8 ∉ text)
    (htail : tail = [] ∨ ∃ rest, tail = separator :: rest) {key : List UInt8} (hkey : IsKey key)
    (m : PairMap) :
    ∃ s, run separator unEscape ⟨.start, [], [], m⟩ (key ++ (text ++ tail)) = some s ∧
      (s.map = m ∨ ∃ key', s.map = m.insertIfNew key' []) := by
  by_cases hempty : text ++ tail = []
  · obtain ⟨s, hs, hmap⟩ := run_key_alone hc hkey m
    rw [hempty, List.append_nil]
    exact ⟨s, hs, .inr ⟨key, hmap⟩⟩
  · rw [run_start hc hkey hempty]
    exact run_noEquals hc htext htail hkey.1 m

end

/-! ## Trimming -/

theorem rdropWhile_append {a : List UInt8} (ha : ∃ l d, a = l ++ [d] ∧ isspace d = false)
    (b : List UInt8) : (a ++ b).rdropWhile isspace = a ++ b.rdropWhile isspace := by
  induction b using List.reverseRecOn with
  | nil =>
    obtain ⟨l, d, rfl, hd⟩ := ha
    simp [hd]
  | append_singleton b x ih =>
    rw [← List.append_assoc]
    by_cases hx : isspace x = true
    · rw [List.rdropWhile_concat_pos _ _ _ hx, List.rdropWhile_concat_pos _ _ _ hx, ih]
    · rw [List.rdropWhile_concat_neg _ _ _ hx, List.rdropWhile_concat_neg _ _ _ hx, List.append_assoc]

/-- Trimming takes nothing off what begins and ends with other characters, and white space off what
follows. -/
theorem trim_append {a : List UInt8} (hfirst : ∃ c l, a = c :: l ∧ isspace c = false)
    (hlast : ∃ l d, a = l ++ [d] ∧ isspace d = false) (b : List UInt8) :
    trim (a ++ b) = a ++ b.rdropWhile isspace := by
  have hdrop : (a ++ b).dropWhile isspace = a ++ b := by
    obtain ⟨c, l, rfl, hc⟩ := hfirst
    simp [hc]
  rw [trim, hdrop, rdropWhile_append hlast]

theorem isspace_of_isalnum {c : UInt8} (h : isalnum c = true) : isspace c = false := by
  simp only [isalnum, isspace, Bool.or_eq_true, Bool.and_eq_true, decide_eq_true_eq, UInt8.le_iff_toNat_le,
    Bool.or_eq_false_iff, Bool.and_eq_false_iff, decide_eq_false_iff_not, beq_eq_false_iff_ne, ne_eq,
    ← UInt8.toNat_inj] at h ⊢
  simp at h ⊢
  omega

/-! ## All pairs -/

theorem lookup_map_snd (f : List UInt8 → List UInt8) (pairs : List (List UInt8 × List UInt8))
    (key : List UInt8) : (pairs.map fun p => (p.1, f p.2)).lookup key = (pairs.lookup key).map f := by
  induction pairs with
  | nil => rfl
  | cons p rest ih =>
    rw [List.map_cons, List.lookup_cons, List.lookup_cons, ih]
    cases key == p.1 <;> rfl

theorem lookup_singleton (p : List UInt8 × List UInt8) (key : List UInt8) :
    [p].lookup key = if key = p.1 then some p.2 else none := by
  rw [List.lookup_cons, List.lookup_nil]
  by_cases h : key = p.1
  · rw [if_pos h, h, beq_self_eq_true]
  · rw [if_neg h, beq_eq_false_iff_ne.2 h]

theorem mem_of_lookup {pairs : List (List UInt8 × List UInt8)} {key v : List UInt8}
    (h : pairs.lookup key = some v) : (key, v) ∈ pairs := by
  obtain ⟨l₁, l₂, rfl, -⟩ := List.lookup_eq_some_iff.1 h
  simp

theorem formatKey_short {key : List UInt8} (h : key.length ≤ 1024) :
    formatKey key = key ++ ['='.toUInt8] := by
  have hmax : formatMax = 1025 := rfl
  rw [formatKey, List.take_of_length_le]
  simp only [List.length_append, List.length_singleton]
  omega

theorem formatKey_long {key : List UInt8} (h : 1025 ≤ key.length) :
    formatKey key = key.take 1025 := by
  rw [formatKey, List.take_append_of_le_length h]

theorem formatKey_ne_nil (key : List UInt8) : formatKey key ≠ [] := by
  have hmax : formatMax ≠ 0 := by decide
  simp only [formatKey, ne_eq, List.take_eq_nil_iff, hmax, List.append_eq_nil_iff, reduceCtorEq,
    and_false, or_self, not_false_eq_true]

theorem IsKey.take {key : List UInt8} (h : IsKey key) : IsKey (key.take 1025) := by
  refine ⟨?_, fun c hc => h.2 c (List.mem_of_mem_take hc)⟩
  simp [h.1]

/-- What a key is written as begins with a character that trimming leaves. -/
theorem formatKey_first {key : List UInt8} (h : IsKey key) :
    ∃ c l, formatKey key = c :: l ∧ isspace c = false := by
  obtain ⟨c, cs, rfl⟩ := List.exists_cons_of_ne_nil h.1
  exact ⟨c, _, rfl, isspace_of_isalnum (h.2 c List.mem_cons_self)⟩

/-- And it ends with one. -/
theorem formatKey_last {key : List UInt8} (h : IsKey key) :
    ∃ l d, formatKey key = l ++ [d] ∧ isspace d = false := by
  by_cases hshort : key.length ≤ 1024
  · exact ⟨key, _, formatKey_short hshort, by decide⟩
  · rw [formatKey_long (by omega)]
    rcases List.eq_nil_or_concat (key.take 1025) with hnil | ⟨l, d, hl⟩
    · exact absurd hnil h.take.1
    · rw [List.concat_eq_append] at hl
      exact ⟨l, d, hl, isspace_of_isalnum (h.take.2 d (by simp [hl]))⟩

/-- Every key keeps its equals sign, or is the last one, of a length that loses nothing else, with an
empty value. -/
def KeysFit : List (List UInt8 × List UInt8) → Prop
  | [] => True
  | p :: rest =>
    (p.1.length ≤ 1024 ∨ (p.1.length = 1025 ∧ p.2 = [] ∧ rest = [])) ∧ KeysFit rest

instance decidableKeysFit : ∀ pairs : List (List UInt8 × List UInt8), Decidable (KeysFit pairs)
  | [] => inferInstanceAs (Decidable True)
  | _ :: rest =>
    have := decidableKeysFit rest
    inferInstanceAs (Decidable (_ ∧ _))

section
variable (separator : UInt8) (escape : List UInt8 → List UInt8)

/-- The pairs as text, with `last` behind the last one. -/
def lines (last : List UInt8) : List (List UInt8 × List UInt8) → List UInt8
  | [] => []
  | [p] => formatKey p.1 ++ (escape p.2 ++ last)
  | p :: q :: rest => addString separator escape p.1 p.2 ++ lines last (q :: rest)

theorem serialize_concat (init : List (List UInt8 × List UInt8)) (p : List UInt8 × List UInt8) :
    serialize separator escape (init ++ [p]) =
      serialize separator escape init ++ formatKey p.1 ++ (escape p.2 ++ [separator]) := by
  simp [serialize, addString]

theorem serialize_first {p : List UInt8 × List UInt8} (hkey : IsKey p.1)
    (rest : List (List UInt8 × List UInt8)) :
    ∃ c l, serialize separator escape (p :: rest) = c :: l ∧ isspace c = false := by
  obtain ⟨c, l, hl, hc⟩ := formatKey_first hkey
  refine ⟨c, l ++ (escape p.2 ++ [separator]) ++ serialize separator escape rest, ?_, hc⟩
  simp [serialize, addString, hl]

variable {separator escape} in
theorem lines_ne_nil {last : List UInt8} (p : List UInt8 × List UInt8)
    (rest : List (List UInt8 × List UInt8)) : lines separator escape last (p :: rest) ≠ [] := by
  cases rest with
  | nil => simp [lines, formatKey_ne_nil]
  | cons q rest => simp [lines, addString, formatKey_ne_nil]

theorem lines_concat (last : List UInt8) (init : List (List UInt8 × List UInt8))
    (p : List UInt8 × List UInt8) : lines separator escape last (init ++ [p]) =
      serialize separator escape init ++ formatKey p.1 ++ (escape p.2 ++ last) := by
  induction init with
  | nil => rfl
  | cons q init ih =>
    obtain ⟨r, rest, hr⟩ : ∃ r rest, init ++ [p] = r :: rest :=
      List.exists_cons_of_ne_nil (by simp)
    rw [List.cons_append, hr, lines, ← hr, ih]
    simp [serialize]

theorem serialize_eq_lines (pairs : List (List UInt8 × List UInt8)) :
    serialize separator escape pairs = lines separator escape [separator] pairs := by
  rcases List.eq_nil_or_concat pairs with rfl | ⟨init, p, hp⟩
  · rfl
  · rw [hp, List.concat_eq_append, lines_concat, serialize_concat]

end

section
variable {separator : UInt8} {unEscape : List UInt8 → Option (List UInt8)}
  {escape decoded : List UInt8 → List UInt8} (hc : Codec separator unEscape escape decoded)
include hc

/-- A key that is cut is lost, or loses its value. -/
theorem run_cut {key : List UInt8} (hkey : IsKey key) (hlong : 1025 ≤ key.length) (v : List UInt8)
    {tail : List UInt8} (htail : tail = [] ∨ ∃ t, tail = separator :: t)
    (hcut : ¬ (key.length = 1025 ∧ v = [] ∧ (tail = [] ∨ tail = [separator]))) {m : PairMap}
    (hm : m[key]? = none) :
    ∃ s, run separator unEscape ⟨.start, [], [], m⟩ (key.take 1025 ++ (escape v ++ tail)) = some s ∧
      (s.map[key]? = none ∨ s.map[key]? = some [] ∧ v ≠ []) := by
  by_cases hv : v = []
  · subst hv
    -- the shorter key goes into the map, or none
    have hshorter (h : key.length ≠ 1025) : (m.insertIfNew (key.take 1025) [])[key]? = none := by
      have hne : key.take 1025 ≠ key := by
        intro he
        have := congrArg List.length he
        rw [List.length_take] at this
        omega
      rw [getElem?_insertIfNew, if_neg fun h => hne h.1, hm]
    rw [hc.escape_nil, List.nil_append]
    obtain rfl | ⟨t, rfl⟩ := htail
    · obtain ⟨s, hs, hmap⟩ := run_key_alone hc hkey.take m
      rw [List.append_nil]
      refine ⟨s, hs, .inl ?_⟩
      rw [hmap]
      exact hshorter fun h => hcut ⟨h, rfl, .inl rfl⟩
    · obtain ⟨s, hs, hmap⟩ := run_key_separator hc (key.take 1025) t hkey.take.1 m
      rw [run_start hc hkey.take (by simp)]
      refine ⟨s, hs, .inl ?_⟩
      rw [hmap]
      split
      · rename_i ht
        exact hshorter fun h => hcut ⟨h, rfl, .inr (by rw [ht])⟩
      · exact hm
  · obtain ⟨s, hs, hmap⟩ := run_start_noEquals hc (hc.no_equals v) htail hkey.take m
    refine ⟨s, hs, ?_⟩
    obtain hmap | ⟨key', hmap⟩ := hmap
    · rw [hmap]
      exact .inl hm
    · rw [hmap, getElem?_insertIfNew]
      split
      · exact .inr ⟨rfl, hv⟩
      · exact .inl hm

variable {last : List UInt8} (hlast : last = [] ∨ last = [separator])
include hlast

/-- **Pairs whose keys fit are found.** -/
theorem run_lines {pairs : List (List UInt8 × List UInt8)} (hkeys : ∀ p ∈ pairs, IsKey p.1)
    (hfit : KeysFit pairs) (m : PairMap) :
    ∃ s, run separator unEscape ⟨.start, [], [], m⟩ (lines separator escape last pairs) = some s ∧
      s.map = insertAll m (pairs.map fun p => (p.1, decoded p.2)) := by
  induction pairs generalizing m with
  | nil => exact ⟨_, rfl, rfl⟩
  | cons p rest ih =>
    have hkey := hkeys p List.mem_cons_self
    cases rest with
    | nil =>
      obtain hshort | ⟨hlen, hnil, -⟩ := hfit.1
      · rw [lines, formatKey_short hshort, List.append_assoc]
        obtain rfl | rfl := hlast
        · rw [List.append_nil]
          exact run_last hc hkey p.2 m
        · rw [List.singleton_append, run_pair hc hkey]
          exact ⟨_, rfl, rfl⟩
      · have htake : p.1.take 1025 = p.1 := List.take_of_length_le (Nat.le_of_eq hlen)
        rw [lines, formatKey_long (Nat.le_of_eq hlen.symm), htake, hnil, hc.escape_nil, List.nil_append]
        have hall : insertAll m ([p].map fun p => (p.1, decoded p.2)) = m.insertIfNew p.1 [] := by
          simp [insertAll, hnil, hc.decoded_nil]
        rw [hall]
        obtain rfl | rfl := hlast
        · rw [List.append_nil]
          exact run_key_alone hc hkey m
        · rw [run_start hc hkey (by simp)]
          simpa using run_key_separator hc p.1 [] hkey.1 m
    | cons q rest =>
      have hshort : p.1.length ≤ 1024 := by simpa using hfit.1
      rw [lines, addString, formatKey_short hshort, List.append_assoc, List.append_assoc,
        List.append_assoc, List.singleton_append, List.singleton_append, run_pair hc hkey]
      exact ih (fun d hd => hkeys d (List.mem_cons_of_mem _ hd)) hfit.2 _

/-- **A key that does not fit is lost**, or loses its value. -/
theorem not_run_lines {pairs : List (List UInt8 × List UInt8)} (hkeys : ∀ p ∈ pairs, IsKey p.1)
    (hfit : ¬ KeysFit pairs) {m : PairMap} (hm : ∀ key : List UInt8, 1025 ≤ key.length → m[key]? = none) :
    ∃ s, run separator unEscape ⟨.start, [], [], m⟩ (lines separator escape last pairs) = some s ∧
      ∃ key v, 1025 ≤ key.length ∧ pairs.lookup key = some v ∧
        (s.map[key]? = none ∨ s.map[key]? = some [] ∧ v ≠ []) := by
  induction pairs generalizing m with
  | nil => exact absurd trivial hfit
  | cons p rest ih =>
    have hkey := hkeys p List.mem_cons_self
    by_cases hshort : p.1.length ≤ 1024
    · have hrest : ¬ KeysFit rest := fun h => hfit ⟨.inl hshort, h⟩
      cases rest with
      | nil => exact absurd trivial hrest
      | cons q rest =>
        have hm' (key : List UInt8) (hlong : 1025 ≤ key.length) :
            (m.insertIfNew p.1 (decoded p.2))[key]? = none := by
          have hne : p.1 ≠ key := by
            rintro rfl
            omega
          rw [getElem?_insertIfNew, if_neg fun h => hne h.1, hm key hlong]
        obtain ⟨s, hs, key, v, hlong, hv, hlost⟩ :=
          ih (fun d hd => hkeys d (List.mem_cons_of_mem _ hd)) hrest hm'
        have hne : (key == p.1) = false := by
          rw [beq_eq_false_iff_ne]
          rintro rfl
          omega
        refine ⟨s, ?_, key, v, hlong, ?_, hlost⟩
        · rw [lines, addString, formatKey_short hshort, List.append_assoc, List.append_assoc,
            List.append_assoc, List.singleton_append, List.singleton_append, run_pair hc hkey, hs]
        · rw [List.lookup_cons, hne]
          exact hv
    · have hlong : 1025 ≤ p.1.length := by omega
      have hlookup : (p :: rest).lookup p.1 = some p.2 := by
        rw [List.lookup_cons, beq_self_eq_true]
      cases rest with
      | nil =>
        have hcut : ¬ (p.1.length = 1025 ∧ p.2 = [] ∧ (last = [] ∨ last = [separator])) :=
          fun h => hfit ⟨.inr ⟨h.1, h.2.1, rfl⟩, trivial⟩
        have htail : last = [] ∨ ∃ t, last = separator :: t := hlast.imp_right fun h => ⟨[], h⟩
        obtain ⟨s, hs, hlost⟩ := run_cut hc hkey hlong p.2 htail hcut (hm p.1 hlong)
        refine ⟨s, ?_, p.1, p.2, hlong, hlookup, hlost⟩
        rw [lines, formatKey_long hlong, hs]
      | cons q rest =>
        obtain ⟨t, ht⟩ : ∃ t, t = lines separator escape last (q :: rest) := ⟨_, rfl⟩
        have hne : t ≠ [] := by
          rw [ht]
          exact lines_ne_nil q rest
        have hcut : ¬ (p.1.length = 1025 ∧ p.2 = [] ∧
            (separator :: t = [] ∨ separator :: t = [separator])) := by
          rintro ⟨-, -, h | h⟩
          · cases h
          · exact hne (List.cons.inj h).2
        obtain ⟨s, hs, hlost⟩ := run_cut hc hkey hlong p.2 (.inr ⟨t, rfl⟩) hcut (hm p.1 hlong)
        refine ⟨s, ?_, p.1, p.2, hlong, hlookup, hlost⟩
        rw [lines, addString, formatKey_long hlong, List.append_assoc, List.append_assoc,
          List.singleton_append, ← ht, hs]

/-- Where the keys fit, the map is that of `target` if the decoded values are. -/
theorem finds_iff {pairs : List (List UInt8 × List UInt8)} (hkeys : ∀ p ∈ pairs, IsKey p.1)
    (hfit : KeysFit pairs) (target : List (List UInt8 × List UInt8)) :
    (∃ m, (run separator unEscape {} (lines separator escape last pairs)).map (·.map) = some m ∧
      ∀ key : List UInt8, m[key]? = target.lookup key) ↔
      ∀ key, (pairs.lookup key).map decoded = target.lookup key := by
  obtain ⟨s, hs, hmap⟩ := run_lines hc hlast hkeys hfit ∅
  have hlookup (key : List UInt8) : s.map[key]? = (pairs.lookup key).map decoded := by
    rw [hmap, getElem?_insertAll, lookup_map_snd, TreeMap.getElem?_emptyc, Option.none_or]
  simp only [hs, Option.map_some, Option.some.injEq, exists_eq_left', hlookup]

/-- Where they do not fit, it is not that of a `target` with the same keys and empty values. -/
theorem not_finds {pairs : List (List UInt8 × List UInt8)} (hkeys : ∀ p ∈ pairs, IsKey p.1)
    (hfit : ¬ KeysFit pairs) {target : List (List UInt8 × List UInt8)}
    (htarget : ∀ key v, pairs.lookup key = some v →
      ∃ w, target.lookup key = some w ∧ (w = [] → v = [])) :
    ¬ ∃ m, (run separator unEscape {} (lines separator escape last pairs)).map (·.map) = some m ∧
      ∀ key : List UInt8, m[key]? = target.lookup key := by
  have hempty (key : List UInt8) (_ : 1025 ≤ key.length) : (∅ : PairMap)[key]? = none := by simp
  obtain ⟨s, hs, key, v, -, hv, hlost⟩ := not_run_lines hc hlast hkeys hfit hempty
  rintro ⟨m, hm, hlookup⟩
  rw [hs, Option.map_some, Option.some.injEq] at hm
  subst hm
  obtain ⟨w, hw, hvalue⟩ := htarget key v hv
  rw [hlookup key, hw] at hlost
  obtain hnone | ⟨hnil, hne⟩ := hlost
  · cases hnone
  · exact hne (hvalue (Option.some.inj hnil))

end

end Oreka.Serializers
