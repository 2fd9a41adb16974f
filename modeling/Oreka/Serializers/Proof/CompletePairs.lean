import Oreka.Serializers.PairScan
import Oreka.Serializers.Proof.KeyValueParse

/-!
# The complete pairs of a text

A text is a list of segments between separators, and a segment is a complete pair or it is not
(`completePair`). Of malformed text the parser should take the pairs before the first segment that is none
(`completePairs`). It stores a part of that segment too, where the text ends at the defect (`EndsInPart`).
-/

namespace Oreka.Serializers

open PairParser

/-! ## Segments -/

/-- A key, an equals sign, and a value without another one. -/
def completePair (segment : List UInt8) : Option Pair :=
  match segment.dropWhile isalnum with
  | [] => none
  | c :: value =>
    if segment.takeWhile isalnum ≠ [] ∧ c = '='.toUInt8 ∧ '='.toUInt8 ∉ value then
      some (segment.takeWhile isalnum, value)
    else none

/-- The pairs before the first segment that is none; empty segments are ignored. -/
def leadingPairs : List (List UInt8) → List Pair
  | [] => []
  | segment :: rest =>
    if segment = [] then leadingPairs rest
    else (completePair segment).elim [] fun p => p :: leadingPairs rest

/-- The complete pairs of a text, before the first defect. -/
def completePairs (separator : UInt8) (text : List UInt8) : List Pair := leadingPairs (text.splitOn separator)

/-- The pairs with their values unescaped, before the first that throws. -/
def unEscapePairs (unEscape : List UInt8 → Option (List UInt8)) : List Pair → Scanned
  | [] => {}
  | p :: ps => (unEscape p.2).elim { thrown := true } fun v => (unEscapePairs unEscape ps).cons (p.1, v)

/-- A segment with nothing behind it, or just a separator, that breaks off in a key or has its defect at
its last character. -/
def IsPart (unEscape : List UInt8 → Option (List UInt8)) (segment : List UInt8) (rest : List (List UInt8)) : Prop :=
  ∃ key, IsKey key ∧ (segment = key ∧ (rest = [] ∨ rest = [[]]) ∨ rest = [] ∧
    ((∃ c, isalnum c = false ∧ c ≠ '='.toUInt8 ∧ segment = key ++ [c]) ∨
      ∃ value, '='.toUInt8 ∉ value ∧ (unEscape value).isSome ∧ segment = key ++ '='.toUInt8 :: (value ++ ['='.toUInt8])))

/-- Complete pairs and then a part of one, with which the segments end. -/
def EndsInPart (unEscape : List UInt8 → Option (List UInt8)) : List (List UInt8) → Prop
  | [] => False
  | segment :: rest =>
    if segment = [] then EndsInPart unEscape rest
    else (completePair segment).elim (IsPart unEscape segment rest) fun p =>
      (unEscape p.2).isSome ∧ EndsInPart unEscape rest

theorem isalnum_equals : isalnum '='.toUInt8 = false := by decide

/-- What may stand behind a key. -/
def NoAlnumFirst (rest : List UInt8) : Prop := ∀ c l, rest = c :: l → isalnum c = false

theorem noAlnumFirst_nil : NoAlnumFirst [] := fun _ _ h => (List.cons_ne_nil _ _ h.symm).elim

theorem noAlnumFirst_cons {c : UInt8} (hc : isalnum c = false) (l : List UInt8) : NoAlnumFirst (c :: l) := by
  intro d l' h
  cases h
  exact hc

/-- Where a key ends. -/
theorem span_key {key rest : List UInt8} (hkey : IsKey key) (hrest : NoAlnumFirst rest) :
    (key ++ rest).takeWhile isalnum = key ∧ (key ++ rest).dropWhile isalnum = rest := by
  rw [List.takeWhile_append_of_pos hkey.2, List.dropWhile_append_of_pos hkey.2]
  cases rest with
  | nil => simp
  | cons c l => simp [hrest c l rfl]

/-- What a segment without a complete pair looks like. -/
inductive Defect : List UInt8 → Prop
  | noKey (c l) : isalnum c = false → Defect (c :: l)
  | keyAlone (key) : IsKey key → Defect key
  | badKey (key c l) : IsKey key → isalnum c = false → c ≠ '='.toUInt8 → Defect (key ++ c :: l)
  | badValue (key value l) : IsKey key → '='.toUInt8 ∉ value →
      Defect (key ++ '='.toUInt8 :: (value ++ '='.toUInt8 :: l))

theorem defect_of_completePair {segment : List UInt8} (hne : segment ≠ []) (h : completePair segment = none) :
    Defect segment := by
  have hsplit := List.takeWhile_append_dropWhile (p := isalnum) (l := segment)
  have hall : ∀ c ∈ segment.takeWhile isalnum, isalnum c = true := fun c hc => List.mem_takeWhile_imp hc
  have hhead : ∀ c l, segment.dropWhile isalnum = c :: l → isalnum c = false := by
    intro c l hc
    have hhead := List.head_dropWhile_not isalnum (l := segment) (by rw [hc]; exact List.cons_ne_nil c l)
    simpa [hc] using hhead
  unfold completePair at h
  generalize segment.takeWhile isalnum = key at *
  generalize segment.dropWhile isalnum = rest at *
  subst hsplit
  cases rest with
  | nil =>
    rw [List.append_nil] at hne ⊢
    exact .keyAlone key ⟨hne, hall⟩
  | cons c l =>
    have hc := hhead c l rfl
    by_cases hkey : key = []
    · rw [hkey]
      exact .noKey c l hc
    · by_cases heq : c = '='.toUInt8
      · have hmem : '='.toUInt8 ∈ l := by
          by_contra hnot
          simp [hkey, heq, hnot] at h
        obtain ⟨value, l', rfl, hvalue⟩ := List.eq_append_cons_of_mem hmem
        rw [heq]
        exact .badValue key value l' ⟨hkey, hall⟩ hvalue
      · exact .badKey key c l ⟨hkey, hall⟩ hc heq

theorem of_completePair {segment : List UInt8} {p : Pair} (h : completePair segment = some p) :
    IsKey p.1 ∧ '='.toUInt8 ∉ p.2 ∧ segment = p.1 ++ '='.toUInt8 :: p.2 := by
  have hsplit := List.takeWhile_append_dropWhile (p := isalnum) (l := segment)
  have hall : ∀ c ∈ segment.takeWhile isalnum, isalnum c = true := fun c hc => List.mem_takeWhile_imp hc
  unfold completePair at h
  generalize segment.takeWhile isalnum = key at *
  generalize segment.dropWhile isalnum = rest at *
  subst hsplit
  cases rest with
  | nil => cases h
  | cons c l =>
    dsimp only at h
    split at h
    · rename_i hpair
      obtain ⟨hkey, rfl, hvalue⟩ := hpair
      cases h
      exact ⟨⟨hkey, hall⟩, hvalue, rfl⟩
    · cases h

/-! ## Parts -/

theorem key_append_inj {key key' rest rest' : List UInt8} (hkey : IsKey key) (hkey' : IsKey key')
    (hrest : NoAlnumFirst rest) (hrest' : NoAlnumFirst rest') (h : key ++ rest = key' ++ rest') :
    key = key' ∧ rest = rest' := by
  obtain ⟨htake, hdrop⟩ := span_key hkey hrest
  obtain ⟨htake', hdrop'⟩ := span_key hkey' hrest'
  rw [h] at htake hdrop
  exact ⟨htake.symm.trans htake', hdrop.symm.trans hdrop'⟩

/-- The first equals sign is at one place. -/
theorem first_equals_inj {c : UInt8} {value value' l l' : List UInt8} (hvalue : c ∉ value) (hvalue' : c ∉ value')
    (h : value ++ c :: l = value' ++ c :: l') : value = value' ∧ l = l' := by
  have hall {v : List UInt8} (hv : c ∉ v) : ∀ d ∈ v, decide (d ≠ c) = true := by
    intro d hd
    exact decide_eq_true fun hdc => hv (hdc ▸ hd)
  have htake := congrArg (List.takeWhile fun d => decide (d ≠ c)) h
  rw [List.takeWhile_append_of_pos (hall hvalue), List.takeWhile_append_of_pos (hall hvalue')] at htake
  have hv : value = value' := by simpa using htake
  subst hv
  exact ⟨rfl, (List.cons.inj (List.append_cancel_left h)).2⟩

section
variable {unEscape : List UInt8 → Option (List UInt8)} {key value l : List UInt8} {c : UInt8}
  {rest : List (List UInt8)}

/-- Every part begins with a key. -/
theorem IsPart.exists_key {segment : List UInt8} (h : IsPart unEscape segment rest) :
    ∃ key tail, IsKey key ∧ NoAlnumFirst tail ∧ segment = key ++ tail := by
  obtain ⟨key, hkey, ⟨rfl, -⟩ | ⟨-, ⟨c, hc, -, rfl⟩ | ⟨value, -, -, rfl⟩⟩⟩ := h
  · exact ⟨segment, [], hkey, noAlnumFirst_nil, (List.append_nil segment).symm⟩
  · exact ⟨key, [c], hkey, noAlnumFirst_cons hc [], rfl⟩
  · exact ⟨key, _, hkey, noAlnumFirst_cons isalnum_equals _, rfl⟩

theorem not_isPart_noKey (hc : isalnum c = false) : ¬ IsPart unEscape (c :: l) rest := by
  intro h
  obtain ⟨key, tail, hkey, -, heq⟩ := h.exists_key
  obtain ⟨d, key, rfl⟩ := List.exists_cons_of_ne_nil hkey.1
  obtain ⟨rfl, -⟩ := List.cons.inj heq
  rw [hkey.2 c List.mem_cons_self] at hc
  cases hc

theorem isPart_key (hkey : IsKey key) : IsPart unEscape key rest ↔ rest = [] ∨ rest = [[]] := by
  constructor
  · rintro ⟨key', hkey', ⟨-, h⟩ | ⟨h, -⟩⟩
    · exact h
    · exact .inl h
  · intro h
    exact ⟨key, hkey, .inl ⟨rfl, h⟩⟩

theorem isPart_badKey (hkey : IsKey key) (hc : isalnum c = false) (hceq : c ≠ '='.toUInt8) :
    IsPart unEscape (key ++ c :: l) rest ↔ rest = [] ∧ l = [] := by
  have hrest := noAlnumFirst_cons hc l
  constructor
  · rintro ⟨key', hkey', ⟨h, -⟩ | ⟨hend, ⟨d, hd, -, h⟩ | ⟨value, -, -, h⟩⟩⟩
    · obtain ⟨-, hnil⟩ := key_append_inj hkey hkey' hrest noAlnumFirst_nil (h.trans (List.append_nil key').symm)
      cases hnil
    · obtain ⟨-, htail⟩ := key_append_inj hkey hkey' hrest (noAlnumFirst_cons hd []) h
      cases htail
      exact ⟨hend, rfl⟩
    · obtain ⟨-, htail⟩ := key_append_inj hkey hkey' hrest (noAlnumFirst_cons isalnum_equals _) h
      exact absurd (List.cons.inj htail).1 hceq
  · rintro ⟨hend, rfl⟩
    exact ⟨key, hkey, .inr ⟨hend, .inl ⟨c, hc, hceq, rfl⟩⟩⟩

theorem isPart_badValue (hkey : IsKey key) (hvalue : '='.toUInt8 ∉ value) :
    IsPart unEscape (key ++ '='.toUInt8 :: (value ++ '='.toUInt8 :: l)) rest ↔
      rest = [] ∧ l = [] ∧ (unEscape value).isSome := by
  have hrest := noAlnumFirst_cons isalnum_equals (value ++ '='.toUInt8 :: l)
  constructor
  · rintro ⟨key', hkey', ⟨h, -⟩ | ⟨hend, ⟨d, hd, hdeq, h⟩ | ⟨value', hvalue', hun, h⟩⟩⟩
    · obtain ⟨-, hnil⟩ := key_append_inj hkey hkey' hrest noAlnumFirst_nil (h.trans (List.append_nil key').symm)
      cases hnil
    · obtain ⟨-, htail⟩ := key_append_inj hkey hkey' hrest (noAlnumFirst_cons hd []) h
      exact absurd (List.cons.inj htail).1.symm hdeq
    · obtain ⟨-, htail⟩ := key_append_inj hkey hkey' hrest (noAlnumFirst_cons isalnum_equals _) h
      obtain ⟨rfl, rfl⟩ := first_equals_inj hvalue hvalue' (List.cons.inj htail).2
      exact ⟨hend, rfl, hun⟩
  · rintro ⟨hend, rfl, hun⟩
    exact ⟨key, hkey, .inr ⟨hend, .inr ⟨value, hvalue, hun, rfl⟩⟩⟩

end

/-- One segment after the other. -/
theorem segments_induction {separator : UInt8} {P : List UInt8 → Prop}
    (single : ∀ segment, separator ∉ segment → P segment)
    (cons : ∀ segment rest, separator ∉ segment → P rest → P (segment ++ separator :: rest)) (text : List UInt8) :
    P text := by
  induction h : text.length using Nat.strong_induction_on generalizing text with
  | _ n ih =>
    by_cases hmem : separator ∈ text
    · obtain ⟨segment, rest, rfl, hnot⟩ := List.eq_append_cons_of_mem hmem
      refine cons segment rest hnot (ih rest.length ?_ rest rfl)
      rw [← h, List.length_append, List.length_cons]
      omega
    · exact single text hmem

/-! ## The loop over a segment -/

section
variable {separator : UInt8} {unEscape : List UInt8 → Option (List UInt8)} {m : PairMap}
  {key value rest l : List UInt8} {c : UInt8}

/-- Within a key or a value nothing is stored before the last character. -/
theorem scan_inside {s t : PairParser} (hs : s.state ≠ .error) (ht : switchState separator s c = t)
    (hstart : t.state ≠ .start) (hrest : rest ≠ []) :
    scan separator unEscape s (c :: rest) = scan separator unEscape t rest := by
  refine scan_pass hs ht ?_
  rintro ⟨hstate | hlast, -⟩
  · exact hstart hstate
  · exact hrest (List.isEmpty_iff.1 hlast)

/-- At the last character the pair is stored, whatever the state. -/
theorem scan_last {s t : PairParser} (hs : s.state ≠ .error) (ht : switchState separator s c = t)
    (hkey : t.key ≠ []) : scan separator unEscape s [c] =
      (unEscape t.value).elim { thrown := true } fun v => { pairs := [(t.key, v)] } :=
  scan_store hs ht ⟨.inr rfl, hkey⟩

/-- An error is the end, where it is not the last character. -/
theorem scan_defect {s : PairParser} (hs : s.state ≠ .error)
    (ht : (switchState separator s c).state = .error) (hl : l ≠ []) :
    scan separator unEscape s (c :: l) = {} := by
  rw [scan_inside hs rfl (by rw [ht]; exact KeyValueState.noConfusion) hl, scan_error ht]

theorem switch_key (hc : isalnum c = true) :
    switchState separator ⟨.key, key, value, m⟩ c = ⟨.key, key ++ [c], value, m⟩ := by
  simp [switchState, hc]

theorem switch_equals :
    switchState separator ⟨.key, key, value, m⟩ '='.toUInt8 = ⟨.value, key, [], m⟩ := by
  simp [switchState, isalnum_equals]

theorem switch_badKey (hc : isalnum c = false) (hne : c ≠ '='.toUInt8) :
    switchState separator ⟨.key, key, value, m⟩ c = ⟨.error, key, value, m⟩ := by
  simp [switchState, hc, hne]

theorem switch_value (hsep : c ≠ separator) (hne : c ≠ '='.toUInt8) :
    switchState separator ⟨.value, key, value, m⟩ c = ⟨.value, key, value ++ [c], m⟩ := by
  simp [switchState, hsep, hne]

theorem switch_badValue :
    switchState separator ⟨.value, key, value, m⟩ '='.toUInt8 = ⟨.error, key, value, m⟩ := by
  simp [switchState]

theorem scan_key {cs : List UInt8} (hcs : ∀ c ∈ cs, isalnum c = true) (hrest : rest ≠ []) :
    scan separator unEscape ⟨.key, key, value, m⟩ (cs ++ rest) =
      scan separator unEscape ⟨.key, key ++ cs, value, m⟩ rest := by
  induction cs generalizing key with
  | nil => rw [List.nil_append, List.append_nil]
  | cons c cs ih =>
    have hinside : scan separator unEscape ⟨.key, key, value, m⟩ (c :: (cs ++ rest)) =
        scan separator unEscape ⟨.key, key ++ [c], value, m⟩ (cs ++ rest) :=
      scan_inside (by simp) (switch_key (hcs c List.mem_cons_self)) (by simp) (by simp [hrest])
    rw [List.cons_append, hinside, ih fun d hd => hcs d (List.mem_cons_of_mem _ hd)]
    simp

theorem scan_value {text : List UInt8} (hsep : separator ∉ text) (heq : '='.toUInt8 ∉ text) (hrest : rest ≠ []) :
    scan separator unEscape ⟨.value, key, value, m⟩ (text ++ rest) =
      scan separator unEscape ⟨.value, key, value ++ text, m⟩ rest := by
  induction text generalizing value with
  | nil => rw [List.nil_append, List.append_nil]
  | cons c text ih =>
    simp only [List.mem_cons, not_or] at hsep heq
    have hinside : scan separator unEscape ⟨.value, key, value, m⟩ (c :: (text ++ rest)) =
        scan separator unEscape ⟨.value, key, value ++ [c], m⟩ (text ++ rest) :=
      scan_inside (by simp) (switch_value (Ne.symm hsep.1) (Ne.symm heq.1)) (by simp) (by simp [hrest])
    rw [List.cons_append, hinside, ih hsep.2 heq.2]
    simp

variable (hsep : isalnum separator = false) (hne : separator ≠ '='.toUInt8)

include hsep

theorem switch_start (hc : isalnum c = true) :
    switchState separator ⟨.start, key, value, m⟩ c = ⟨.key, [c], value, m⟩ := by
  have hc' : c ≠ separator := by
    intro h
    rw [h, hsep] at hc
    cases hc
  simp [switchState, hc, hc']

theorem scan_start (hkey : IsKey key) (hrest : rest ≠ []) :
    scan separator unEscape ⟨.start, [], [], m⟩ (key ++ rest) = scan separator unEscape ⟨.key, key, [], m⟩ rest := by
  obtain ⟨c, cs, rfl⟩ := List.exists_cons_of_ne_nil hkey.1
  have hinside : scan separator unEscape ⟨.start, [], [], m⟩ (c :: (cs ++ rest)) =
      scan separator unEscape ⟨.key, [c], [], m⟩ (cs ++ rest) :=
    scan_inside (by simp) (switch_start hsep (hkey.2 c List.mem_cons_self)) (by simp) (by simp [hrest])
  rw [List.cons_append, hinside, scan_key (fun d hd => hkey.2 d (List.mem_cons_of_mem _ hd)) hrest]
  rfl

/-- A key and its equals sign, with a value behind it that is not yet at its end. -/
theorem scan_equals (hkey : IsKey key) (hvsep : separator ∉ value) (hvalue : '='.toUInt8 ∉ value) (hrest : rest ≠ []) :
    scan separator unEscape ⟨.start, [], [], m⟩ (key ++ '='.toUInt8 :: (value ++ rest)) =
      scan separator unEscape ⟨.value, key, value, m⟩ rest := by
  rw [scan_start hsep hkey (List.cons_ne_nil _ _), scan_inside (by simp) switch_equals (by simp) (by simp [hrest]),
    scan_value hvsep hvalue hrest]
  rfl

/-- A key with nothing behind it is stored. -/
theorem scan_keyAlone (hnil : unEscape [] = some []) (hkey : IsKey key) :
    scan separator unEscape ⟨.start, [], [], m⟩ key = { pairs := [(key, [])] } := by
  rcases List.eq_nil_or_concat key with h | ⟨cs, c, h⟩
  · exact absurd h hkey.1
  · rw [List.concat_eq_append] at h
    subst h
    have hc : isalnum c = true := hkey.2 c (by simp)
    by_cases hcs : cs = []
    · subst hcs
      rw [List.nil_append, scan_last (by simp) (switch_start hsep hc) (by simp), hnil]
      rfl
    · have hcs' : IsKey cs := ⟨hcs, fun d hd => hkey.2 d (List.mem_append_left _ hd)⟩
      rw [scan_start hsep hcs' (by simp), scan_last (by simp) (switch_key hc) (by simp), hnil]
      rfl

/-- A key with a character behind it that cannot follow: it is stored where that is the last one. -/
theorem scan_badKey (hnil : unEscape [] = some []) (hkey : IsKey key) (hc : isalnum c = false)
    (hceq : c ≠ '='.toUInt8) : (scan separator unEscape ⟨.start, [], [], m⟩ (key ++ c :: l)).pairs =
      if l = [] then [(key, [])] else [] := by
  rw [scan_start hsep hkey (List.cons_ne_nil _ _)]
  by_cases hl : l = []
  · rw [if_pos hl, hl, scan_last (by simp) (switch_badKey hc hceq) hkey.1, hnil]
    rfl
  · rw [if_neg hl, scan_defect (by simp) (by rw [switch_badKey hc hceq]) hl]

/-- A value with a second equals sign: it is stored where that is the last character. -/
theorem scan_badValue (hkey : IsKey key) (hvsep : separator ∉ value) (hvalue : '='.toUInt8 ∉ value) :
    (scan separator unEscape ⟨.start, [], [], m⟩ (key ++ '='.toUInt8 :: (value ++ '='.toUInt8 :: l))).pairs =
      if l = [] then (unEscape value).elim [] fun v => [(key, v)] else [] := by
  rw [scan_equals hsep hkey hvsep hvalue (List.cons_ne_nil _ _)]
  by_cases hl : l = []
  · rw [if_pos hl, hl, scan_last (by simp) switch_badValue hkey.1]
    cases unEscape value <;> rfl
  · rw [if_neg hl, scan_defect (by simp) (by rw [switch_badValue]) hl]

omit hsep in
/-- No key at all. -/
theorem scan_noKey (hcsep : c ≠ separator) (hc : isalnum c = false) :
    scan separator unEscape ⟨.start, [], [], m⟩ (c :: l) = {} := by
  have hread : switchState separator ⟨.start, [], [], m⟩ c = ⟨.error, [], [], m⟩ := by
    simp [switchState, hcsep, hc]
  rw [scan_pass (by simp) hread (by simp), scan_error rfl]

/-- The last pair, without a separator. -/
theorem scan_lastPair (hkey : IsKey key) (hvsep : separator ∉ value) (hvalue : '='.toUInt8 ∉ value) :
    scan separator unEscape ⟨.start, [], [], m⟩ (key ++ '='.toUInt8 :: value) =
      (unEscape value).elim { thrown := true } fun v => { pairs := [(key, v)] } := by
  rcases List.eq_nil_or_concat value with rfl | ⟨text, c, h⟩
  · rw [scan_start hsep hkey (List.cons_ne_nil _ _), scan_last (by simp) switch_equals hkey.1]
  · rw [List.concat_eq_append] at h
    subst h
    simp only [List.mem_append, List.mem_singleton, not_or] at hvsep hvalue
    rw [scan_equals hsep hkey hvsep.1 hvalue.1 (List.cons_ne_nil _ _),
      scan_last (by simp) (switch_value (Ne.symm hvsep.2) (Ne.symm hvalue.2)) hkey.1]

omit hsep in
/-- A separator where a key could begin. -/
theorem scan_separator : scan separator unEscape ⟨.start, [], [], m⟩ (separator :: rest) =
    scan separator unEscape ⟨.start, [], [], m⟩ rest := by
  have hread : switchState separator ⟨.start, [], [], m⟩ separator = ⟨.start, [], [], m⟩ := by
    simp [switchState]
  exact scan_pass (by simp) hread (by simp)

include hne

/-- A pair with its separator. -/
theorem scan_pair (hkey : IsKey key) (hvsep : separator ∉ value) (hvalue : '='.toUInt8 ∉ value) :
    scan separator unEscape ⟨.start, [], [], m⟩ (key ++ '='.toUInt8 :: (value ++ separator :: rest)) =
      (unEscape value).elim { thrown := true } fun v =>
        (scan separator unEscape ⟨.start, [], [], m⟩ rest).cons (key, v) := by
  have hread : switchState separator ⟨.value, key, value, m⟩ separator = ⟨.start, key, value, m⟩ := by
    simp [switchState, hne]
  rw [scan_equals hsep hkey hvsep hvalue (List.cons_ne_nil _ _), scan_store (by simp) hread ⟨.inl rfl, hkey.1⟩]

end

/-! ## The loop over a text -/

section
variable {separator : UInt8} {unEscape : List UInt8 → Option (List UInt8)} {m : PairMap}
  (hsep : isalnum separator = false) (hne : separator ≠ '='.toUInt8) (hnil : unEscape [] = some [])
include hsep hne hnil

omit hne in
/-- A defect at the end of the text. -/
theorem scan_last_defect {segment : List UInt8} (hsegment : separator ∉ segment) (h : Defect segment) :
    (scan separator unEscape ⟨.start, [], [], m⟩ segment).pairs = [] ↔ ¬ IsPart unEscape segment [] := by
  cases h with
  | noKey c l hc =>
    have hcsep : c ≠ separator := fun h => hsegment (h ▸ List.mem_cons_self)
    rw [scan_noKey hcsep hc]
    exact iff_of_true rfl (not_isPart_noKey hc)
  | keyAlone key hkey =>
    rw [scan_keyAlone hsep hnil hkey, isPart_key hkey]
    simp
  | badKey key c l hkey hc hceq =>
    rw [scan_badKey hsep hnil hkey hc hceq, isPart_badKey hkey hc hceq]
    simp
  | badValue key value l hkey hvalue =>
    have hvsep : separator ∉ value := fun h => hsegment (by simp [h])
    rw [scan_badValue hsep hkey hvsep hvalue, isPart_badValue hkey hvalue]
    by_cases hl : l = []
    · cases hun : unEscape value <;> simp [hl]
    · simp [hl]

/-- A defect with a separator behind it. -/
theorem scan_inner_defect {segment : List UInt8} (hsegment : separator ∉ segment) (h : Defect segment)
    (rest : List UInt8) : (scan separator unEscape ⟨.start, [], [], m⟩ (segment ++ separator :: rest)).pairs = [] ↔
      ¬ IsPart unEscape segment (rest.splitOn separator) := by
  have hrest : rest.splitOn separator ≠ [] := List.splitOn_ne_nil _ _
  cases h with
  | noKey c l hc =>
    have hcsep : c ≠ separator := fun h => hsegment (h ▸ List.mem_cons_self)
    rw [List.cons_append, scan_noKey hcsep hc]
    exact iff_of_true rfl (not_isPart_noKey hc)
  | keyAlone key hkey =>
    have hempty : rest.splitOn separator = [[]] ↔ rest = [] := by
      constructor
      · intro h
        have hjoin : [separator].intercalate (rest.splitOn separator) = rest := List.intercalate_splitOn separator
        rw [h] at hjoin
        exact hjoin.symm
      · rintro rfl
        rfl
    rw [scan_badKey hsep hnil hkey hsep hne, isPart_key hkey, hempty]
    simp [hrest]
  | badKey key c l hkey hc hceq =>
    rw [List.append_assoc, List.cons_append, scan_badKey hsep hnil hkey hc hceq, isPart_badKey hkey hc hceq]
    simp [hrest]
  | badValue key value l hkey hvalue =>
    have hvsep : separator ∉ value := fun h => hsegment (by simp [h])
    have htext : (key ++ '='.toUInt8 :: (value ++ '='.toUInt8 :: l)) ++ separator :: rest =
        key ++ '='.toUInt8 :: (value ++ '='.toUInt8 :: (l ++ separator :: rest)) := by simp
    rw [htext, scan_badValue hsep hkey hvsep hvalue, isPart_badValue hkey hvalue]
    simp [hrest]

/-- **The loop stores the complete pairs before the first defect** exactly where the text does not end
in a part. -/
theorem scan_pairs_iff (text : List UInt8) : (scan separator unEscape ⟨.start, [], [], m⟩ text).pairs =
    (unEscapePairs unEscape (completePairs separator text)).pairs ↔
      ¬ EndsInPart unEscape (text.splitOn separator) := by
  unfold completePairs
  induction text using @segments_induction separator with
  | single segment hsegment =>
    rw [List.splitOn_eq_singleton hsegment, leadingPairs, EndsInPart]
    by_cases hempty : segment = []
    · rw [if_pos hempty, if_pos hempty, hempty]
      exact iff_of_true rfl id
    rw [if_neg hempty, if_neg hempty]
    cases hpair : completePair segment with
    | none => exact scan_last_defect hsep hnil hsegment (defect_of_completePair hempty hpair)
    | some p =>
      obtain ⟨hkey, hvalue, rfl⟩ := of_completePair hpair
      have hvsep : separator ∉ p.2 := fun h => hsegment (by simp [h])
      rw [scan_lastPair hsep hkey hvsep hvalue]
      refine iff_of_true ?_ fun h => h.2
      show _ = (unEscapePairs unEscape [p]).pairs
      unfold unEscapePairs
      cases unEscape p.2 <;> rfl
  | cons segment rest hsegment ih =>
    rw [List.splitOn_append_cons_self_of_not_mem hsegment, leadingPairs, EndsInPart]
    by_cases hempty : segment = []
    · rw [if_pos hempty, if_pos hempty, hempty, List.nil_append, scan_separator]
      exact ih
    rw [if_neg hempty, if_neg hempty]
    cases hpair : completePair segment with
    | none => exact scan_inner_defect hsep hne hnil hsegment (defect_of_completePair hempty hpair) rest
    | some p =>
      obtain ⟨hkey, hvalue, rfl⟩ := of_completePair hpair
      have hvsep : separator ∉ p.2 := fun h => hsegment (by simp [h])
      rw [List.append_assoc, List.cons_append, scan_pair hsep hne hkey hvsep hvalue]
      simp only [Option.elim_some, unEscapePairs]
      cases unEscape p.2 with
      | none => simp
      | some v => simpa using ih

end

end Oreka.Serializers
