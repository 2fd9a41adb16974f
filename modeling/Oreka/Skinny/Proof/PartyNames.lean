import Oreka.Lib.Memory
import Oreka.Skinny.SkinnyParsers

/-!
# Transcoded party names

The table holds the UTF-8 codes of the Cyrillic letters (`shortBytes_table`), and the field holds the
first bytes of the converted text (`convert_field`). The text is a string there, and the exact
conversion, if the NUL behind it fits too; a longer one is cut without a NUL (`transcodes_iff`).
-/

namespace Oreka.Skinny

open Memory

/-! ## The table -/

theorem fillTable_apply (start n code : Nat) (utf : Nat → UInt16) (c : Nat) : fillTable start n code utf c =
    if start ≤ c ∧ c < start + n then htons (UInt16.ofNat (code + (c - start))) else utf c := by
  induction n with
  | zero =>
    rw [if_neg (by omega)]
    rfl
  | succ n ih =>
    have hsucc : fillTable start (n + 1) code utf =
        Function.update (fillTable start n code utf) (start + n) (htons (UInt16.ofNat (code + n))) := by
      simp [fillTable, List.range_succ]
    rw [hsucc]
    by_cases hc : c = start + n
    · subst hc
      rw [Function.update_self, if_pos (by omega), Nat.add_sub_cancel_left]
    · rw [Function.update_of_ne hc, ih]
      by_cases hin : start ≤ c ∧ c < start + n
      · rw [if_pos hin, if_pos (by omega)]
      · rw [if_neg hin, if_neg (by omega)]

/-- The characters from 192 on are Cyrillic letters, from U+0410 on. -/
def utf8Code (c : UInt8) : List UInt8 := String.utf8EncodeChar (Char.ofNat (0x410 + (c.toNat - 192)))

theorem exists_letter {c : UInt8} (hc : c > 191) : ∃ i < 64, c.toNat = 192 + i := by
  have hge : 191 < c.toNat := UInt8.lt_iff_toNat_lt.1 hc
  have hlt := c.toNat_lt
  exact ⟨c.toNat - 192, by omega, by omega⟩

/-- **The table holds the UTF-8 codes.** -/
theorem shortBytes_table (utf : Nat → UInt16) {c : UInt8} (hc : c > 191) :
    shortBytes (initializeWin1251Table utf c.toNat) = utf8Code c := by
  obtain ⟨i, hi, hic⟩ := exists_letter hc
  have hcodes : ∀ i < 64, shortBytes (if 240 ≤ 192 + i ∧ 192 + i < 240 + 16 then
      htons (UInt16.ofNat (D1_CYR_UTF_HEX + (192 + i - 240))) else htons (UInt16.ofNat (D0_CYR_UTF_HEX + i))) =
        String.utf8EncodeChar (Char.ofNat (0x410 + i)) := by decide
  unfold utf8Code
  rw [hic, Nat.add_sub_cancel_left, ← hcodes i hi]
  unfold initializeWin1251Table
  rw [fillTable_apply]
  by_cases h : 240 ≤ 192 + i ∧ 192 + i < 240 + 16
  · rw [if_pos h, if_pos h]
  · rw [if_neg h, if_neg h, Function.update_of_ne (by omega), fillTable_apply, if_pos (by omega),
      Nat.add_sub_cancel_left]

/-- A code is two bytes, neither of them a NUL. -/
theorem utf8Code_spec {c : UInt8} (hc : c > 191) : (utf8Code c).length = 2 ∧ 0 ∉ utf8Code c := by
  obtain ⟨i, hi, hic⟩ := exists_letter hc
  have hcodes : ∀ i < 64, (String.utf8EncodeChar (Char.ofNat (0x410 + i))).length = 2 ∧
      0 ∉ String.utf8EncodeChar (Char.ofNat (0x410 + i)) := by decide
  unfold utf8Code
  rw [hic, Nat.add_sub_cancel_left]
  exact hcodes i hi

/-! ## The conversion -/

/-- A name in UTF-8. -/
def toUtf8 (name : List UInt8) : List UInt8 := name.flatMap fun c => if c > 191 then utf8Code c else [c]

@[simp] theorem toUtf8_nil : toUtf8 [] = [] := rfl

@[simp] theorem toUtf8_cons (c : UInt8) (cs : List UInt8) :
    toUtf8 (c :: cs) = (if c > 191 then utf8Code c else [c]) ++ toUtf8 cs := rfl

theorem toUtf8_append (cs ds : List UInt8) : toUtf8 (cs ++ ds) = toUtf8 cs ++ toUtf8 ds := List.flatMap_append

theorem length_toUtf8 (name : List UInt8) : (toUtf8 name).length = name.length + name.countP (· > 191) := by
  induction name with
  | nil => rfl
  | cons c cs ih =>
    rw [toUtf8_cons, List.length_append, ih, List.countP_cons, List.length_cons]
    by_cases hc : c > 191
    · simp [hc, (utf8Code_spec hc).1]
      omega
    · simp [hc]
      omega

theorem zero_not_mem_toUtf8 {name : List UInt8} (h : 0 ∉ name) : 0 ∉ toUtf8 name := by
  induction name with
  | nil => exact h
  | cons c cs ih =>
    rw [List.mem_cons, not_or] at h
    rw [toUtf8_cons, List.mem_append, not_or]
    refine ⟨?_, ih h.2⟩
    by_cases hc : c > 191
    · rw [if_pos hc]
      exact (utf8Code_spec hc).2
    · simpa [hc] using h.1

variable {m : Nat → UInt8} {p : Nat} {name : List UInt8}

/-- The converted text of the whole field. -/
theorem convert_eq (utf : Nat → UInt16) (m : Nat → UInt8) (p : Nat) :
    convertWin1251ToUtf8 (initializeWin1251Table utf) m p =
      put (put m p (List.replicate PARTY_NAME_SIZE 0)) p
        ((toUtf8 (read m p PARTY_NAME_SIZE)).take PARTY_NAME_SIZE) := by
  have hchar : ∀ c, convertChar (initializeWin1251Table utf) c = if c > 191 then utf8Code c else [c] := by
    intro c
    unfold convertChar
    by_cases hc : c > 191
    · rw [if_pos hc, if_pos hc, shortBytes_table utf hc]
    · rw [if_neg hc, if_neg hc]
  unfold convertWin1251ToUtf8 toUtf8
  dsimp only
  rw [List.flatMap_eq_foldl]
  simp only [hchar]

/-- It fills the field. -/
theorem length_converted (m : Nat → UInt8) (p : Nat) :
    ((toUtf8 (read m p PARTY_NAME_SIZE)).take PARTY_NAME_SIZE).length = PARTY_NAME_SIZE := by
  rw [List.length_take, length_toUtf8, length_read]
  omega

theorem convert_other (utf : Nat → UInt16) (m : Nat → UInt8) (p i : Nat)
    (hi : i < p ∨ p + PARTY_NAME_SIZE ≤ i) :
    convertWin1251ToUtf8 (initializeWin1251Table utf) m p i = m i := by
  rw [convert_eq, put_other _ (by rwa [length_converted]), put_other _ (by rwa [List.length_replicate])]

/-- The field of a name begins with the name's conversion, and a NUL. -/
theorem convert_field (utf : Nat → UInt16) (h : IsCString m p name) (hfits : name.length < PARTY_NAME_SIZE) :
    ∃ junk, read (convertWin1251ToUtf8 (initializeWin1251Table utf) m p) p PARTY_NAME_SIZE =
      (toUtf8 name ++ 0 :: junk).take PARTY_NAME_SIZE := by
  obtain ⟨n, hn⟩ := Nat.exists_eq_add_of_lt hfits
  have hfield : read m p PARTY_NAME_SIZE = name ++ 0 :: read m (p + name.length + 1) n := by
    rw [hn, Nat.add_assoc, Nat.add_comm n, read_add, read_add, h.1, ← h.2.2]
    rfl
  refine ⟨toUtf8 (read m (p + name.length + 1) n), ?_⟩
  rw [convert_eq, read_put_eq _ _ (length_converted m p), hfield, toUtf8_append]
  rfl

/-! ## The field -/

/-- What the field should be left with: the conversion of the longest beginning of the name for which
there is room, and nothing else changed. -/
structure Transcodes (utf : Nat → UInt16) (m : Nat → UInt8) (p : Nat) (name : List UInt8) : Prop where
  text : ∃ k ≤ name.length, IsCString (convertWin1251ToUtf8 utf m p) p (toUtf8 (name.take k)) ∧
    (toUtf8 (name.take k)).length < PARTY_NAME_SIZE ∧
      (k < name.length → PARTY_NAME_SIZE ≤ (toUtf8 (name.take (k + 1))).length)
  other : ∀ i, i < p ∨ p + PARTY_NAME_SIZE ≤ i → convertWin1251ToUtf8 utf m p i = m i

/-- The conversion of a longer name fills the field without a NUL. -/
theorem not_transcodes_of_le (utf : Nat → UInt16) (h : IsCString m p name)
    (hfits : name.length < PARTY_NAME_SIZE) (hlong : PARTY_NAME_SIZE ≤ (toUtf8 name).length) :
    ¬ Transcodes (initializeWin1251Table utf) m p name := by
  intro ht
  obtain ⟨k, -, hk, hlt, -⟩ := ht.text
  obtain ⟨junk, hfield⟩ := convert_field utf h hfits
  rw [List.take_append_of_le_length hlong] at hfield
  apply zero_not_mem_toUtf8 h.2.1
  apply List.mem_of_mem_take (i := PARTY_NAME_SIZE)
  rw [← hfield, ← hk.2.2]
  exact List.mem_map.2 ⟨_, List.mem_range.2 hlt, rfl⟩

/-- **The field is left with what it should be** exactly where the whole conversion fits, with a NUL
behind it. -/
theorem transcodes_iff (utf : Nat → UInt16) (h : IsCString m p name)
    (hfits : name.length < PARTY_NAME_SIZE) : Transcodes (initializeWin1251Table utf) m p name ↔
      name.length + name.countP (· > 191) < PARTY_NAME_SIZE := by
  rw [← length_toUtf8]
  constructor
  · intro ht
    by_contra hlong
    exact not_transcodes_of_le utf h hfits (Nat.le_of_not_lt hlong) ht
  · intro hlt
    refine ⟨⟨name.length, Nat.le_refl _, ?_, ?_, fun hk => absurd hk (Nat.lt_irrefl _)⟩, convert_other utf m p⟩
    · rw [List.take_length]
      obtain ⟨junk, hfield⟩ := convert_field utf h hfits
      obtain ⟨n, hn⟩ := Nat.exists_eq_add_of_lt hlt
      rw [hn, Nat.add_assoc, List.take_length_add_append, read_add] at hfield
      obtain ⟨htext, hrest⟩ := List.append_inj hfield (length_read ..)
      rw [List.take_succ_cons, Nat.add_comm n, read_add] at hrest
      exact ⟨htext, zero_not_mem_toUtf8 h.2.1, (List.cons.inj hrest).1⟩
    · rwa [List.take_length]

/-- A letter of each kind. -/
theorem transcodes_short : Transcodes (initializeWin1251Table fun _ => 0)
    (put (fun _ => 0) 12 [65, 192, 255]) 12 [65, 192, 255] :=
  (transcodes_iff _ (isCString_put (by decide) rfl) (by decide)).2 (by decide)

/-- Twenty Cyrillic letters fill the field, and no NUL is behind them. -/
theorem not_transcodes : IsCString (put (fun _ => 0) 12 (List.replicate 20 192)) 12 (List.replicate 20 192) ∧
    (List.replicate 20 (192 : UInt8)).length < PARTY_NAME_SIZE ∧
      ¬ Transcodes (initializeWin1251Table fun _ => 0) (put (fun _ => 0) 12 (List.replicate 20 192)) 12
        (List.replicate 20 192) := by
  have hstring : IsCString (put (fun _ => 0) 12 (List.replicate 20 192)) 12 (List.replicate 20 192) :=
    isCString_put (by decide) rfl
  refine ⟨hstring, by decide, not_transcodes_of_le _ hstring (by decide) ?_⟩
  rw [length_toUtf8]
  decide

end Oreka.Skinny
