import Mathlib.Data.List.TakeWhile
import Mathlib.Data.Nat.Find
import Oreka.Sip.KeyValues

/-!
# The values in a line

A field is read from a piece `t` of the payload, its rest, and `room` bytes of the memory behind it. What
a key has for a value in its first line is decided in the payload exactly for a `Sealed` key
(`confined_iff_sealed`): nothing is read behind the payload, the line ends in the payload, the value found
in it ends there, or no end of it can be completed to the key within the bytes that are read.
-/

namespace Oreka.Sip

/-- The text before the end of the line. -/
def firstLine (area : List UInt8) : List UInt8 := area.takeWhile fun c => ¬ endsLine c

/-- The value in the line is one of the payload's, whatever the memory behind it holds. -/
def Confined (t : List UInt8) (room : Nat) (key : List UInt8) : Prop :=
  ∃ v, v <:+: t ∧ ∀ r : List UInt8, r.length = room → valueInLine (t ++ r) key = v

/-- An end of the value that starts the text, or of what is passed before it, is in the text. -/
def Closed (text : List UInt8) : Prop := ∃ c ∈ text.dropWhile beforeValue, endsValue c = true

/-- No end of the text can be completed to the key, with a byte of a value behind it, within `room`
more bytes. -/
def NotCompletable (t : List UInt8) (room : Nat) (key : List UInt8) : Prop :=
  (∃ c ∈ key, endsLine c = true) ∨ ∀ i ≤ t.length, t.drop i <+: key → t.length + room ≤ i + key.length

/-- The condition under which the memory behind the payload has no effect. -/
def Sealed (t : List UInt8) (room : Nat) (key : List UInt8) : Prop :=
  room = 0 ∨ (∃ c ∈ t, endsLine c = true) ∨
    (orkStringViewFind t key).elim (NotCompletable t room key) fun i => Closed (t.drop (i + key.length))

/-! ## Values and lines -/

section
variable {t r text key : List UInt8} {room i : Nat}

theorem isInfix_valueAt (text : List UInt8) : valueAt text <:+: text :=
  (List.takeWhile_prefix _).isInfix.trans (List.dropWhile_suffix _).isInfix

/-- What is behind the end of a text is not taken. -/
theorem takeWhile_append_of_end {ends : UInt8 → Bool} (h : ∃ c ∈ text, ends c = true) :
    (text ++ r).takeWhile (fun c => ¬ ends c) = text.takeWhile fun c => ¬ ends c := by
  obtain ⟨c, hc, hends⟩ := h
  rw [List.takeWhile_append, if_neg]
  intro hall
  have hmem : c ∈ text.takeWhile fun c => ¬ ends c := by
    rwa [(List.takeWhile_prefix _).eq_of_length hall]
  have hnot := List.mem_takeWhile_imp hmem
  simp [hends] at hnot

theorem valueAt_append (h : Closed text) : valueAt (text ++ r) = valueAt text := by
  obtain ⟨c, hc, hends⟩ := h
  have hne : text.dropWhile beforeValue ≠ [] := List.ne_nil_of_mem hc
  unfold valueAt
  rw [List.dropWhile_append, if_neg (by simpa using hne)]
  exact takeWhile_append_of_end ⟨c, hc, hends⟩

theorem firstLine_append (h : ∃ c ∈ t, endsLine c = true) : firstLine (t ++ r) = firstLine t :=
  takeWhile_append_of_end h

theorem firstLine_append_of_none (h : ∀ c ∈ t, endsLine c = false) : firstLine (t ++ r) = t ++ firstLine r :=
  List.takeWhile_append_of_pos (by simpa using h)

theorem valueInLine_eq (area key : List UInt8) : valueInLine area key =
    (orkStringViewFind (firstLine area) key).elim []
      fun i => valueAt ((firstLine area).drop (i + key.length)) := rfl

theorem isInfix_valueInLine (area key : List UInt8) : valueInLine area key <:+: firstLine area := by
  rw [valueInLine_eq]
  cases orkStringViewFind (firstLine area) key with
  | none => exact List.nil_infix
  | some i => exact (isInfix_valueAt _).trans (List.drop_suffix _ _).isInfix

theorem isInfix_firstLine (area : List UInt8) : firstLine area <:+: area := (List.takeWhile_prefix _).isInfix

end

/-! ## Sealed keys -/

section
variable {t r key : List UInt8} {room : Nat}

theorem confined_of_line (h : ∃ c ∈ t, endsLine c = true) : Confined t room key := by
  refine ⟨valueInLine t key, (isInfix_valueInLine t key).trans (isInfix_firstLine t), fun r _ => ?_⟩
  rw [valueInLine_eq, valueInLine_eq, firstLine_append h]

/-- The key is in the line, and the value behind it ends in the line. -/
theorem confined_of_found (hline : ∀ c ∈ t, endsLine c = false) {i : Nat}
    (hi : orkStringViewFind t key = some i) (hclosed : Closed (t.drop (i + key.length))) :
    Confined t room key := by
  have hinfix : valueAt (t.drop (i + key.length)) <:+: t :=
    (isInfix_valueAt _).trans (List.drop_suffix _ _).isInfix
  refine ⟨_, hinfix, fun r _ => ?_⟩
  have hfind : orkStringViewFind (t ++ firstLine r) key = some i := Infix.first_append hi
  rw [valueInLine_eq, firstLine_append_of_none hline, hfind, Option.elim_some,
    List.drop_append_of_le_length (Infix.add_length_le_of_first hi), valueAt_append hclosed]

/-- The key is not in the line, and what is read behind it has no room for it and a value. -/
theorem confined_of_not_found (hline : ∀ c ∈ t, endsLine c = false) (hnone : orkStringViewFind t key = none)
    (hnot : NotCompletable t room key) : Confined t room key := by
  refine ⟨[], List.nil_infix, fun r hr => ?_⟩
  rw [valueInLine_eq, firstLine_append_of_none hline]
  cases hi : orkStringViewFind (t ++ firstLine r) key with
  | none => rfl
  | some i =>
    obtain ⟨hcut, -⟩ := Infix.cut_of_first_append hnone hi
    obtain ⟨hlt, hkey, -⟩ := Infix.first_eq_some_iff.1 hi
    have hend := Infix.add_length_le_of_first hi
    have hroom : (t ++ firstLine r).length ≤ t.length + room := by
      have hr' := (isInfix_firstLine r).length_le
      rw [List.length_append]
      omega
    have hfull : t.length + room ≤ i + key.length := by
      rcases hnot with ⟨c, hc, hends⟩ | hnot
      · have hmem : c ∈ t ++ firstLine r := List.mem_of_mem_drop (hkey.subset hc)
        rcases List.mem_append.1 hmem with hmem | hmem
        · rw [hline c hmem] at hends
          cases hends
        · have hends' := List.mem_takeWhile_imp hmem
          simp [hends] at hends'
      · rcases Nat.le_total i t.length with hle | hge
        · exact hnot i hle hcut
        · have hall := hnot t.length le_rfl (by simp)
          omega
    rw [Option.elim_some, List.drop_eq_nil_of_le (by omega)]
    rfl

theorem confined_of_sealed (h : Sealed t room key) : Confined t room key := by
  by_cases hline : ∃ c ∈ t, endsLine c = true
  · exact confined_of_line hline
  · have hnoline : ∀ c ∈ t, endsLine c = false := by simpa using hline
    rcases h with rfl | hline' | h
    · refine ⟨valueInLine t key, (isInfix_valueInLine t key).trans (isInfix_firstLine t), fun r hr => ?_⟩
      rw [List.length_eq_zero_iff.1 hr, List.append_nil]
    · exact absurd hline' hline
    · cases hfind : orkStringViewFind t key with
      | some i =>
        rw [hfind] at h
        exact confined_of_found hnoline hfind h
      | none =>
        rw [hfind] at h
        exact confined_of_not_found hnoline hfind h

end

/-! ## Keys that are not sealed -/

section
variable {t key : List UInt8} {room : Nat}

/-- A text that goes on to the end of the line, and is not passed before a value. -/
structure Plain (r : List UInt8) : Prop where
  value : ∀ c ∈ r, endsValue c = false
  passed : ∀ c ∈ r, beforeValue c = false

theorem Plain.line {r : List UInt8} (h : Plain r) : ∀ c ∈ r, endsLine c = false := by
  intro c hc
  have hvalue := h.value c hc
  unfold endsValue at hvalue
  unfold endsLine
  simp only [decide_eq_false_iff_not, not_or] at hvalue ⊢
  exact ⟨hvalue.2.2.1, hvalue.2.1⟩

theorem plain_replicate {c : UInt8} (hvalue : endsValue c = false) (hpassed : beforeValue c = false) (n : Nat) :
    Plain (List.replicate n c) := by
  constructor
  · intro d hd
    rw [List.eq_of_mem_replicate hd]
    exact hvalue
  · intro d hd
    rw [List.eq_of_mem_replicate hd]
    exact hpassed

/-- A value that is not closed goes on with what is behind it. -/
theorem valueAt_append_plain {text r : List UInt8} (h : ¬ Closed text) (hr : Plain r) :
    valueAt (text ++ r) = text.dropWhile beforeValue ++ r := by
  have hopen : ∀ c ∈ text.dropWhile beforeValue, endsValue c = false := by
    intro c hc
    rw [← Bool.not_eq_true]
    exact fun hends => h ⟨c, hc, hends⟩
  have hdrop : (text ++ r).dropWhile beforeValue = text.dropWhile beforeValue ++ r := by
    rw [List.dropWhile_append]
    split
    · rename_i hnil
      have hr' : r.dropWhile beforeValue = r := by
        rw [List.dropWhile_eq_self_iff]
        intro hpos
        simp [hr.passed _ (List.getElem_mem hpos)]
      rw [hr', List.isEmpty_iff.1 hnil, List.nil_append]
    · rfl
  unfold valueAt
  rw [hdrop, List.takeWhile_eq_self_iff]
  intro c hc
  rcases List.mem_append.1 hc with hc | hc
  · simp [hopen c hc]
  · simp [hr.value c hc]

/-- An open value has what is behind the payload for its end. -/
theorem valueInLine_open {r : List UInt8} {i : Nat} (hline : ∀ c ∈ t, endsLine c = false)
    (hi : orkStringViewFind t key = some i) (hopen : ¬ Closed (t.drop (i + key.length))) (hr : Plain r) :
    valueInLine (t ++ r) key = (t.drop (i + key.length)).dropWhile beforeValue ++ r := by
  have hwhole : firstLine r = r := List.takeWhile_eq_self_iff.2 (by simpa using hr.line)
  have hfind : orkStringViewFind (t ++ r) key = some i := Infix.first_append hi
  rw [valueInLine_eq, firstLine_append_of_none hline, hwhole, hfind, Option.elim_some,
    List.drop_append_of_le_length (Infix.add_length_le_of_first hi), valueAt_append_plain hopen hr]

/-- A key that is completed behind the payload has a value from there. -/
theorem valueInLine_completed (hline : ∀ c ∈ t, endsLine c = false) (hkey : ∀ c ∈ key, endsLine c = false)
    (hnone : orkStringViewFind t key = none) {i : Nat} (hi : i ≤ t.length) (hcut : t.drop i <+: key)
    (hfirst : ∀ j < i, ¬ t.drop j <+: key) {r : List UInt8} (hr : Plain r) (hne : r ≠ []) :
    valueInLine (t ++ (key.drop (t.length - i) ++ r)) key = r := by
  obtain ⟨rest, rfl⟩ := hcut
  have hrest : (t.drop i ++ rest).drop (t.length - i) = rest := by
    rw [← List.length_drop, List.drop_left]
  have hwhole : firstLine (rest ++ r) = rest ++ r := by
    refine List.takeWhile_eq_self_iff.2 fun c hc => ?_
    rcases List.mem_append.1 hc with hc | hc
    · simp [hkey c (List.mem_append_right _ hc)]
    · simp [hr.line c hc]
  have hfind : orkStringViewFind (t ++ (rest ++ r)) (t.drop i ++ rest) = some i :=
    Infix.first_append_cut hnone hi hfirst (by simp [hne])
  have hdrop : (t ++ (rest ++ r)).drop (i + (t.drop i ++ rest).length) = r := by
    have hlength : i + (t.drop i ++ rest).length = (t ++ rest).length := by
      simp only [List.length_append, List.length_drop]
      omega
    rw [hlength, ← List.append_assoc, List.drop_left]
  rw [hrest, valueInLine_eq, firstLine_append_of_none hline, hwhole, hfind, Option.elim_some, hdrop]
  have hopen : ¬ Closed [] := by
    rintro ⟨c, hc, -⟩
    cases hc
  exact valueAt_append_plain hopen hr

/-- Two texts of one length. -/
theorem exists_plain (n : Nat) (hn : 0 < n) :
    ∃ r r' : List UInt8, r.length = n ∧ r'.length = n ∧ Plain r ∧ Plain r' ∧ r ≠ r' := by
  refine ⟨List.replicate n 0x61, List.replicate n 0x62, List.length_replicate, List.length_replicate,
    plain_replicate (by decide) (by decide) n, plain_replicate (by decide) (by decide) n, fun heq => ?_⟩
  obtain ⟨-, h⟩ := List.replicate_inj.1 heq
  rcases h with h | h
  · omega
  · exact absurd h (by decide)

/-- **A key that is not sealed** has values that depend on the memory behind the payload. -/
theorem exists_ne_of_not_sealed (h : ¬ Sealed t room key) : ∃ r r' : List UInt8, r.length = room ∧
    r'.length = room ∧ valueInLine (t ++ r) key ≠ valueInLine (t ++ r') key := by
  classical
  obtain ⟨hroom, hend, hfind⟩ : room ≠ 0 ∧ (¬ ∃ c ∈ t, endsLine c = true) ∧ ¬ _ :=
    ⟨fun h' => h (.inl h'), fun h' => h (.inr (.inl h')), fun h' => h (.inr (.inr h'))⟩
  have hline : ∀ c ∈ t, endsLine c = false := by simpa using hend
  cases hkey : orkStringViewFind t key with
  | some i =>
    rw [hkey] at hfind
    obtain ⟨r, r', hr, hr', hplain, hplain', hne⟩ := exists_plain room (by omega)
    refine ⟨r, r', hr, hr', ?_⟩
    rw [valueInLine_open hline hkey hfind hplain, valueInLine_open hline hkey hfind hplain']
    exact fun heq => hne (List.append_cancel_left heq)
  | none =>
    rw [hkey] at hfind
    unfold NotCompletable at hfind
    simp only [Option.elim_none, not_or, not_forall, not_le] at hfind
    obtain ⟨hkeyline, i, hi, hcut, hlt⟩ := hfind
    -- The longest end leaves most room.
    have hex : ∃ j, t.drop j <+: key := ⟨i, hcut⟩
    have hle : Nat.find hex ≤ i := Nat.find_min' hex hcut
    obtain ⟨r, r', hr, hr', hplain, hplain', hne⟩ :=
      exists_plain (t.length + room - (Nat.find hex + key.length)) (by omega)
    have hvalue : ∀ r : List UInt8, Plain r → r ≠ [] →
        valueInLine (t ++ (key.drop (t.length - Nat.find hex) ++ r)) key = r := fun r hr hne =>
      valueInLine_completed hline (by simpa using hkeyline) hkey (by omega) (Nat.find_spec hex)
        (fun j hj => Nat.find_min hex hj) hr hne
    have hlength := (Nat.find_spec hex).length_le
    rw [List.length_drop] at hlength
    refine ⟨key.drop (t.length - Nat.find hex) ++ r, key.drop (t.length - Nat.find hex) ++ r', ?_, ?_, ?_⟩
    · rw [List.length_append, List.length_drop]
      omega
    · rw [List.length_append, List.length_drop]
      omega
    · rw [hvalue r hplain (List.ne_nil_of_length_pos (by omega)),
        hvalue r' hplain' (List.ne_nil_of_length_pos (by omega))]
      exact hne

/-- **The value of a key is the payload's** exactly for a sealed key. -/
theorem confined_iff_sealed : Confined t room key ↔ Sealed t room key := by
  refine ⟨fun h => ?_, confined_of_sealed⟩
  by_contra hnot
  obtain ⟨v, -, hv⟩ := h
  obtain ⟨r, r', hr, hr', hne⟩ := exists_ne_of_not_sealed hnot
  exact hne ((hv r hr).trans (hv r' hr').symm)

end

end Oreka.Sip
