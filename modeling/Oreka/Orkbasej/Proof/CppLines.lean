import Oreka.Orkbasej.Proof.JavaLines

/-!
# C++ writes, Java reads

C++ escapes equals signs, which Java drops as an escape it does not know; colons it takes as they are. The
parser takes one pair after the other (`run_pair`, `run_last`), and puts it under its key in lower case. A key
that `FormatV` has cut stands without its equals sign, which is an exception here (`run_noEquals`).
-/

open Std

namespace Oreka.Orkbasej.SingleLineSerializer

open Serializers KeyedMap LineParser

theorem isLetterOrDigit_of_isalnum {c : UInt8} (h : isalnum c = true) : isLetterOrDigit c = true := by
  simp [isLetterOrDigit, h]

/-- Java undoes what C++ writes for a plain value. -/
theorem unEscapeSingleLine_cppEscape {v : List UInt8} (hv : Plain v) :
    unEscapeSingleLine (cppEscape v) = .ok v := by
  induction v with
  | nil => rfl
  | cons c v ih =>
    obtain ⟨⟨hequals, -⟩, hv⟩ := plain_cons.1 hv
    have hcons : cppEscape (c :: v) = Serializers.SingleLineSerializer.escapeByte c ++ cppEscape v := rfl
    rw [hcons]
    unfold Serializers.SingleLineSerializer.escapeByte
    split
    · rename_i h
      show (unEscapeChar 's'.toUInt8 ++ ·) <$> unEscapeSingleLine (cppEscape v) = _
      rw [ih hv, h]
      rfl
    · split
      · rename_i h
        show (unEscapeChar 'p'.toUInt8 ++ ·) <$> unEscapeSingleLine (cppEscape v) = _
        rw [ih hv, h]
        rfl
      · rename_i hpercent
        have hne : c ≠ 37 := hpercent
        rw [List.singleton_append, unEscapeSingleLine, ih hv]
        · rfl
        · simp [hne]
        · simp [hne]

section
variable {input : List UInt8} {i : Nat} {key value text v rest : List UInt8} {m : PairMap}
  {first : Option (List UInt8)} {s s₁ s₂ : LineParser} {c : UInt8}

theorem run_cons (h₁ : s.switchState input i c = .ok s₁) (h₂ : s₁.store rest.isEmpty = .ok s₂) :
    s.run input i (c :: rest) = s₂.run input (i + 1) rest := by
  rw [LineParser.run, h₁]
  show (s₁.store rest.isEmpty >>= fun s => s.run input (i + 1) rest) = _
  rw [h₂]
  rfl

/-- Within a key or a value nothing is stored before the last character. -/
theorem store_of_ne (h : s.state ≠ .startState) : s.store false = .ok s := by
  simp [store, h]

/-- Behind a pair it is stored. -/
theorem store_pair (hkey : s.key ≠ []) (hv : unEscapeSingleLine s.value = .ok v) {last : Bool}
    (hlast : s.state = .startState ∨ last = true) : s.store last = .ok { s with
      map := s.map.insert (toLowerCase s.key) v
      firstValue := s.firstValue.or (some (toLowerCase s.value))
      key := []
      value := [] } := by
  rw [store, if_pos hlast, if_pos hkey, hv]
  rfl

variable (input i m first)

theorem run_key (key value : List UInt8) (htext : ∀ c ∈ text, isLetterOrDigit c = true)
    (hrest : rest ≠ []) :
    ∃ j, run input i ⟨.keyState, key, value, m, first⟩ (text ++ rest) =
      run input j ⟨.keyState, key ++ text, value, m, first⟩ rest := by
  induction text generalizing i key with
  | nil => exact ⟨i, by simp⟩
  | cons c text ih =>
    obtain ⟨hc, htext⟩ := List.forall_mem_cons.1 htext
    obtain ⟨j, hj⟩ := ih (i + 1) (key ++ [c]) htext
    have hempty : (text ++ rest).isEmpty = false := by simp [hrest]
    have h₁ : switchState input i ⟨.keyState, key, value, m, first⟩ c =
        .ok ⟨.keyState, key ++ [c], value, m, first⟩ := by
      simp [switchState, hc]
    refine ⟨j, ?_⟩
    rw [List.cons_append, run_cons h₁ (hempty ▸ store_of_ne (by simp)), hj]
    simp

/-- A key from its first character on. -/
theorem run_start (htext : ∀ c ∈ text, isalnum c = true) (hne : text ≠ []) (hrest : rest ≠ []) :
    ∃ j, run input i ⟨.startState, [], [], m, first⟩ (text ++ rest) =
      run input j ⟨.keyState, text, [], m, first⟩ rest := by
  obtain ⟨c, cs, rfl⟩ := List.exists_cons_of_ne_nil hne
  obtain ⟨hc, hcs⟩ := List.forall_mem_cons.1 htext
  have hempty : (cs ++ rest).isEmpty = false := by simp [hrest]
  have hspace : c ≠ ' '.toUInt8 := Serializers.SingleLineSerializer.codec.ne_of_isalnum hc
  have h₁ : switchState input i ⟨.startState, [], [], m, first⟩ c =
      .ok ⟨.keyState, [c], [], m, first⟩ := by
    simp [switchState, hspace, isLetterOrDigit_of_isalnum hc]
  obtain ⟨j, hj⟩ := run_key input (i + 1) m first [c] []
    (fun c hc => isLetterOrDigit_of_isalnum (hcs c hc)) hrest
  refine ⟨j, ?_⟩
  rw [List.cons_append, run_cons h₁ (hempty ▸ store_of_ne (by simp)), hj]
  rfl

theorem run_value (key value : List UInt8) (hspace : ' '.toUInt8 ∉ text) (hequals : '='.toUInt8 ∉ text)
    (hrest : rest ≠ []) :
    ∃ j, run input i ⟨.valueState, key, value, m, first⟩ (text ++ rest) =
      run input j ⟨.valueState, key, value ++ text, m, first⟩ rest := by
  induction text generalizing i value with
  | nil => exact ⟨i, by simp⟩
  | cons c text ih =>
    simp only [List.mem_cons, not_or] at hspace hequals
    obtain ⟨j, hj⟩ := ih (i + 1) (value ++ [c]) hspace.2 hequals.2
    have hempty : (text ++ rest).isEmpty = false := by simp [hrest]
    have h₁ : switchState input i ⟨.valueState, key, value, m, first⟩ c =
        .ok ⟨.valueState, key, value ++ [c], m, first⟩ := by
      simp [switchState, Ne.symm hspace.1, Ne.symm hequals.1]
    refine ⟨j, ?_⟩
    rw [List.cons_append, run_cons h₁ (hempty ▸ store_of_ne (by simp)), hj]
    simp

/-- A key and its equals sign. -/
theorem run_key_equals (hkey : IsKey key) (hrest : rest ≠ []) :
    ∃ j, run input i ⟨.startState, [], [], m, first⟩ (key ++ '='.toUInt8 :: rest) =
      run input j ⟨.valueState, key, [], m, first⟩ rest := by
  obtain ⟨j, hj⟩ := run_start input i m first hkey.2 hkey.1 (List.cons_ne_nil '='.toUInt8 rest)
  have hempty : rest.isEmpty = false := by simp [hrest]
  have h₁ : switchState input j ⟨.keyState, key, [], m, first⟩ '='.toUInt8 =
      .ok ⟨.valueState, key, [], m, first⟩ := rfl
  exact ⟨j + 1, by rw [hj, run_cons h₁ (hempty ▸ store_of_ne (by simp))]⟩

/-- A pair with the space behind it. -/
theorem run_pair (hkey : IsKey key) (hv : Plain v) (rest : List UInt8) :
    ∃ j first', run input i ⟨.startState, [], [], m, first⟩
        (key ++ '='.toUInt8 :: (cppEscape v ++ ' '.toUInt8 :: rest)) =
      run input j ⟨.startState, [], [], m.insert (toLowerCase key) v, first'⟩ rest := by
  have hrest : ' '.toUInt8 :: rest ≠ [] := List.cons_ne_nil _ _
  have hcodec := Serializers.SingleLineSerializer.codec
  obtain ⟨j, hj⟩ := run_key_equals input i m first hkey
    (List.append_ne_nil_of_right_ne_nil (cppEscape v) hrest)
  obtain ⟨k, hk⟩ := run_value input j m first key [] (hcodec.no_separator v) (hcodec.no_equals v) hrest
  have h₁ : switchState input k ⟨.valueState, key, cppEscape v, m, first⟩ ' '.toUInt8 =
      .ok ⟨.startState, key, cppEscape v, m, first⟩ := rfl
  exact ⟨k + 1, _, by
    rw [hj, hk, List.nil_append, run_cons h₁ (store_pair hkey.1 (unEscapeSingleLine_cppEscape hv) (.inl rfl))]⟩

/-- The last pair, without a space behind it. -/
theorem run_last (hkey : IsKey key) (hv : Plain v) :
    ∃ s, run input i ⟨.startState, [], [], m, first⟩ (key ++ '='.toUInt8 :: cppEscape v) = .ok s ∧
      s.map = m.insert (toLowerCase key) v := by
  have hcodec := Serializers.SingleLineSerializer.codec
  have hread := unEscapeSingleLine_cppEscape hv
  have hspace := hcodec.no_separator v
  have hequals := hcodec.no_equals v
  rcases List.eq_nil_or_concat (cppEscape v) with hnil | ⟨text, c, htext⟩
  · rw [hnil] at hread ⊢
    obtain ⟨j, hj⟩ := run_start input i m first hkey.2 hkey.1 (List.cons_ne_nil '='.toUInt8 [])
    have h₁ : switchState input j ⟨.keyState, key, [], m, first⟩ '='.toUInt8 =
        .ok ⟨.valueState, key, [], m, first⟩ := rfl
    rw [hj, run_cons h₁ (store_pair hkey.1 hread (.inr rfl))]
    exact ⟨_, rfl, rfl⟩
  · change ' '.toUInt8 ∉ cppEscape v at hspace
    change '='.toUInt8 ∉ cppEscape v at hequals
    rw [htext, List.concat_eq_append] at hread hspace hequals ⊢
    simp only [List.mem_append, List.mem_singleton, not_or] at hspace hequals
    have hc : [c] ≠ [] := List.cons_ne_nil _ _
    obtain ⟨j, hj⟩ := run_key_equals input i m first hkey (List.append_ne_nil_of_right_ne_nil text hc)
    obtain ⟨k, hk⟩ := run_value input j m first key [] hspace.1 hequals.1 hc
    have h₁ : switchState input k ⟨.valueState, key, text, m, first⟩ c =
        .ok ⟨.valueState, key, text ++ [c], m, first⟩ := by
      simp [switchState, Ne.symm hspace.2, Ne.symm hequals.2]
    rw [hj, hk, List.nil_append, run_cons h₁ (store_pair hkey.1 hread (.inr rfl))]
    exact ⟨_, rfl, rfl⟩

/-- Letters and digits to the end: they are a key, with an empty value. -/
theorem run_key_end (key : List UInt8) (htext : ∀ c ∈ text, isLetterOrDigit c = true) (hne : text ≠ []) :
    ∃ s, run input i ⟨.keyState, key, [], m, first⟩ text = .ok s ∧
      s.map = m.insert (toLowerCase (key ++ text)) [] := by
  rcases List.eq_nil_or_concat text with hnil | ⟨init, c, rfl⟩
  · exact absurd hnil hne
  · rw [List.concat_eq_append] at htext ⊢
    have hinit : ∀ d ∈ init, isLetterOrDigit d = true := fun d hd => htext d (List.mem_append_left _ hd)
    have hc : isLetterOrDigit c = true := htext c (by simp)
    obtain ⟨j, hj⟩ := run_key input i m first key [] hinit (List.cons_ne_nil c [])
    have h₁ : switchState input j ⟨.keyState, key ++ init, [], m, first⟩ c =
        .ok ⟨.keyState, key ++ init ++ [c], [], m, first⟩ := by
      simp [switchState, hc]
    rw [hj, run_cons h₁ (store_pair (by simp) rfl (.inr rfl)), ← List.append_assoc]
    exact ⟨_, rfl, rfl⟩

/-- A key, and then letters and digits to the end. -/
theorem run_start_end (hkey : ∀ c ∈ key, isalnum c = true) (hne : key ≠ [])
    (htext : ∀ c ∈ text, isLetterOrDigit c = true) :
    ∃ s, run input i ⟨.startState, [], [], m, first⟩ (key ++ text) = .ok s ∧
      s.map = m.insert (toLowerCase (key ++ text)) [] := by
  obtain ⟨c, cs, rfl⟩ := List.exists_cons_of_ne_nil hne
  obtain ⟨hc, hcs⟩ := List.forall_mem_cons.1 hkey
  have hspace : c ≠ ' '.toUInt8 := Serializers.SingleLineSerializer.codec.ne_of_isalnum hc
  have h₁ : switchState input i ⟨.startState, [], [], m, first⟩ c =
      .ok ⟨.keyState, [c], [], m, first⟩ := by
    simp [switchState, hspace, isLetterOrDigit_of_isalnum hc]
  have hrest : ∀ d ∈ cs ++ text, isLetterOrDigit d = true := fun d hd =>
    (List.mem_append.1 hd).elim (fun h => isLetterOrDigit_of_isalnum (hcs d h)) (htext d)
  rw [List.cons_append]
  by_cases hempty : cs ++ text = []
  · rw [hempty, run_cons h₁ (store_pair (by simp) rfl (.inr rfl))]
    exact ⟨_, rfl, rfl⟩
  · have hfalse : (cs ++ text).isEmpty = false := by rwa [List.isEmpty_eq_false_iff]
    rw [run_cons h₁ (hfalse ▸ store_of_ne (by simp))]
    exact run_key_end input (i + 1) m first [c] hrest hempty

/-- Another character before the equals sign is an exception. -/
theorem run_noEquals (key : List UInt8) (hequals : '='.toUInt8 ∉ text)
    (hc : ∃ c ∈ text, isLetterOrDigit c = false) :
    run input i ⟨.keyState, key, [], m, first⟩ (text ++ rest) ≠ .ok s := by
  induction text generalizing i key with
  | nil =>
    obtain ⟨c, hc, -⟩ := hc
    cases hc
  | cons c text ih =>
    simp only [List.mem_cons, not_or] at hequals
    rw [List.cons_append]
    cases hletter : isLetterOrDigit c with
    | true =>
      have hc' : ∃ d ∈ text, isLetterOrDigit d = false := by
        obtain ⟨d, hd, hfalse⟩ := hc
        obtain rfl | hd := List.mem_cons.1 hd
        · rw [hletter] at hfalse
          cases hfalse
        · exact ⟨d, hd, hfalse⟩
      have h₁ : switchState input i ⟨.keyState, key, [], m, first⟩ c =
          .ok ⟨.keyState, key ++ [c], [], m, first⟩ := by
        simp [switchState, hletter]
      have hempty : (text ++ rest).isEmpty = false := by
        obtain ⟨d, hd, -⟩ := hc'
        simp [List.ne_nil_of_mem hd]
      rw [run_cons h₁ (hempty ▸ store_of_ne (by simp))]
      exact ih (i + 1) (key ++ [c]) hequals.2 hc'
    | false =>
      have h₁ : switchState input i ⟨.keyState, key, [], m, first⟩ c =
          .error (wrongChar input "Invalid key character" c) := by
        simp [switchState, hletter, Ne.symm hequals.1]
      rw [LineParser.run, h₁]
      nofun

/-- So is it behind a key that has been cut. -/
theorem run_cut (hkey : IsKey key) (hequals : '='.toUInt8 ∉ text)
    (hc : ∃ c ∈ text, isLetterOrDigit c = false) :
    run input i ⟨.startState, [], [], m, first⟩ (key ++ (text ++ rest)) ≠ .ok s := by
  have hne : text ++ rest ≠ [] := by
    obtain ⟨c, hc, -⟩ := hc
    exact List.append_ne_nil_of_left_ne_nil (List.ne_nil_of_mem hc) rest
  obtain ⟨j, hj⟩ := run_start input i m first hkey.2 hkey.1 hne
  rw [hj]
  exact run_noEquals input j m first key hequals hc

end

end Oreka.Orkbasej.SingleLineSerializer
