import Oreka.Lib.Memory
import Oreka.Sip.KeyValues

/-!
# The lines of keys with a dot

The loop for the line of a key goes from the payload to the strings that start behind its newlines, which
end at the next NUL, wherever that is. It ends (`lineLoop_ne_outOfRounds`), and `substr` throws only in the
first round, where the payload ends with the key and a colon is behind it (`lineLoop_outOfRange`). What
else is found behind the payload has no value there: the value is the one that is found in the payload
alone (`lineLoop_agrees`).
-/

namespace Oreka.Sip

open Net (byte byte_append byte_append_right byte_of_length_le read_byte)

section
variable {mem key strToFind buffer : List UInt8} {rounds start pos : Nat}

/-! ## A round -/

/-- The key is at the start of a line, and a colon behind it. -/
def StartsLine (mem key : List UInt8) (start : Nat) (buffer : List UInt8) (pos : Nat) : Prop :=
  atStartOfLine buffer pos = true ∧ byte mem (start + (pos + key.length)) = 0x3A

theorem lineLoop_missing (h : orkStringViewFind buffer key = none) :
    lineLoop mem key strToFind (rounds + 1) start buffer = .ok none := by
  rw [lineLoop]
  by_cases hb : buffer = []
  · rw [if_pos hb]
  · rw [if_neg hb, h]

theorem lineLoop_found (h : orkStringViewFind buffer key = some pos)
    (hline : StartsLine mem key start buffer pos) :
    lineLoop mem key strToFind (rounds + 1) start buffer =
      if buffer.length < pos + key.length + 1 then .error .outOfRange
      else .ok ((orkStringViewFind (buffer.drop (pos + key.length + 1)) strToFind).map fun location =>
        location + (start + (pos + key.length + 1)) + strToFind.length) := by
  have hb : buffer ≠ [] := List.ne_nil_of_length_pos (Nat.zero_lt_of_lt (Infix.lt_of_first h))
  rw [lineLoop, if_neg hb, h]
  dsimp only
  rw [if_pos (c := _ ∧ _) hline]

/-- The loop goes on with the next line. -/
theorem lineLoop_next (h : orkStringViewFind buffer key = some pos)
    (hline : ¬ StartsLine mem key start buffer pos) :
    lineLoop mem key strToFind (rounds + 1) start buffer =
      (buffer.idxOf? 0x0A).elim (.ok none) fun nextLinePos =>
        lineLoop mem key strToFind rounds (start + (nextLinePos + 1))
          (cString mem (start + (nextLinePos + 1))) := by
  have hb : buffer ≠ [] := List.ne_nil_of_length_pos (Nat.zero_lt_of_lt (Infix.lt_of_first h))
  rw [lineLoop, if_neg hb, h]
  dsimp only
  rw [if_neg (c := _ ∧ _) hline]
  cases buffer.idxOf? 0x0A with
  | none => rfl
  | some nextLinePos => rfl

theorem lt_of_idxOf? {c : UInt8} {i : Nat} (h : buffer.idxOf? c = some i) : i < buffer.length :=
  (List.idxOf?_eq_some_iff.1 h).1

theorem isPrefix_cString (mem : List UInt8) (p : Nat) : cString mem p <+: mem.drop p := List.takeWhile_prefix _

theorem byte_cString (mem : List UInt8) (p : Nat) : byte mem (p + (cString mem p).length) = 0 := by
  have hread : Memory.read (byte mem) p (mem.drop p).length = mem.drop p := by
    rw [List.length_drop, read_byte]
  have hnul : byte mem (p + (mem.drop p).length) = 0 := by
    apply byte_of_length_le
    rw [List.length_drop]
    omega
  exact (Memory.isCString_takeWhile hread hnul).2.2

/-! ## The loop -/

/-- The loop ends: each round leaves less of the memory. -/
theorem lineLoop_ne_outOfRounds (hbuffer : start + buffer.length ≤ mem.length)
    (hrounds : mem.length < start + rounds) :
    lineLoop mem key strToFind rounds start buffer ≠ .error .outOfRounds := by
  induction rounds generalizing start buffer with
  | zero => omega
  | succ rounds ih =>
    cases hfind : orkStringViewFind buffer key with
    | none =>
      rw [lineLoop_missing hfind]
      exact fun h => by cases h
    | some pos =>
      by_cases hline : StartsLine mem key start buffer pos
      · rw [lineLoop_found hfind hline]
        split
        · exact fun h => by cases h
        · exact fun h => by cases h
      · rw [lineLoop_next hfind hline]
        cases hnext : buffer.idxOf? 0x0A with
        | none => exact fun h => by cases h
        | some nl =>
          have hnl := lt_of_idxOf? hnext
          have hlength := (isPrefix_cString mem (start + (nl + 1))).length_le
          rw [List.length_drop] at hlength
          exact ih (by omega) (by omega)

/-- The strings behind the newlines are not searched beyond their ends. -/
theorem lineLoop_cString (rounds start : Nat) :
    lineLoop mem key strToFind rounds start (cString mem start) ≠ .error .outOfRange := by
  induction rounds generalizing start with
  | zero => exact fun h => by cases h
  | succ rounds ih =>
    cases hfind : orkStringViewFind (cString mem start) key with
    | none =>
      rw [lineLoop_missing hfind]
      exact fun h => by cases h
    | some pos =>
      by_cases hline : StartsLine mem key start (cString mem start) pos
      · have hle := Infix.add_length_le_of_first hfind
        have hne : pos + key.length ≠ (cString mem start).length := by
          intro heq
          have hcolon := hline.2
          rw [heq, byte_cString] at hcolon
          exact absurd hcolon (by decide)
        rw [lineLoop_found hfind hline, if_neg (by omega)]
        exact fun h => by cases h
      · rw [lineLoop_next hfind hline]
        cases (cString mem start).idxOf? 0x0A with
        | none => exact fun h => by cases h
        | some nl => exact ih _

/-- What is found lies behind a place of the key. -/
theorem lineLoop_location {l : Nat} (hbuffer : buffer <+: mem.drop start)
    (h : lineLoop mem key strToFind rounds start buffer = .ok (some l)) :
    ∃ p, start ≤ p ∧ key <+: mem.drop p ∧ p + key.length < l := by
  induction rounds generalizing start buffer with
  | zero => cases h
  | succ rounds ih =>
    cases hfind : orkStringViewFind buffer key with
    | none =>
      rw [lineLoop_missing hfind] at h
      cases h
    | some pos =>
      by_cases hline : StartsLine mem key start buffer pos
      · rw [lineLoop_found hfind hline] at h
        split at h
        · cases h
        · obtain ⟨location, -, rfl⟩ := Option.map_eq_some_iff.1 (Except.ok.inj h)
          obtain ⟨-, hkey, -⟩ := Infix.first_eq_some_iff.1 hfind
          refine ⟨start + pos, by omega, ?_, by omega⟩
          rw [← List.drop_drop]
          obtain ⟨rest, hrest⟩ := hbuffer
          rw [← hrest]
          exact Infix.prefix_append_drop hkey
      · rw [lineLoop_next hfind hline] at h
        cases hnext : buffer.idxOf? 0x0A with
        | none =>
          rw [hnext] at h
          cases h
        | some nl =>
          rw [hnext] at h
          obtain ⟨p, hp, hkey, hlt⟩ := ih (isPrefix_cString _ _) h
          exact ⟨p, by omega, hkey, hlt⟩

end

/-! ## Behind the payload -/

section
variable {payload behind key strToFind b c : List UInt8} {rounds start pos : Nat} {loc : Option Nat}

/-- The payload ends with the first place of the key, at the start of a line. -/
def EndsWithKey (payload key : List UInt8) : Prop :=
  ∃ pos, orkStringViewFind payload key = some pos ∧ pos + key.length = payload.length ∧
    atStartOfLine payload pos = true

/-- `substr` throws where a colon is behind such a payload. -/
theorem lineLoop_outOfRange (payload behind key strToFind : List UInt8) (rounds : Nat) :
    lineLoop (payload ++ behind) key strToFind (rounds + 1) 0 payload = .error .outOfRange ↔
      EndsWithKey payload key ∧ byte behind 0 = 0x3A := by
  have hbyte : byte (payload ++ behind) payload.length = byte behind 0 := by
    rw [← byte_append_right payload behind 0, Nat.add_zero]
  cases hfind : orkStringViewFind payload key with
  | none =>
    rw [lineLoop_missing hfind]
    refine iff_of_false (fun h => by cases h) ?_
    rintro ⟨⟨pos, hpos, -⟩, -⟩
    rw [hfind] at hpos
    cases hpos
  | some pos =>
    have hle := Infix.add_length_le_of_first hfind
    by_cases hline : StartsLine (payload ++ behind) key 0 payload pos
    · rw [lineLoop_found hfind hline]
      by_cases hlast : pos + key.length = payload.length
      · have hcolon := hline.2
        rw [hlast, Nat.zero_add, hbyte] at hcolon
        rw [if_pos (by omega)]
        exact iff_of_true rfl ⟨⟨pos, hfind, hlast, hline.1⟩, hcolon⟩
      · rw [if_neg (by omega)]
        refine iff_of_false (fun h => by cases h) ?_
        rintro ⟨⟨pos', hpos', hlast', -⟩, -⟩
        obtain rfl : pos = pos' := Option.some.inj (hfind.symm.trans hpos')
        exact hlast hlast'
    · rw [lineLoop_next hfind hline]
      refine iff_of_false ?_ ?_
      · cases payload.idxOf? 0x0A with
        | none => exact fun h => by cases h
        | some nl => exact lineLoop_cString _ _
      · rintro ⟨⟨pos', hpos', hlast, hat⟩, hcolon⟩
        obtain rfl : pos = pos' := Option.some.inj (hfind.symm.trans hpos')
        apply hline
        refine ⟨hat, ?_⟩
        rw [hlast, Nat.zero_add, hbyte, hcolon]

/-- The value at a location, in the payload. -/
def valueIn (payload : List UInt8) (loc : Option Nat) : List UInt8 :=
  loc.elim [] fun p => valueAt (payload.drop p)

theorem valueIn_late {l : Nat} (h : payload.length ≤ l) : valueIn payload (some l) = [] := by
  unfold valueIn
  rw [Option.elim_some, List.drop_eq_nil_of_le h]
  rfl

/-- Where the rest of the payload has no place of the key but at its end, no value is found. -/
theorem valueIn_of_none (hbuffer : b <+: (payload ++ behind).drop start)
    (h : lineLoop (payload ++ behind) key strToFind rounds start b = .ok loc)
    (hnone : ∀ p, start ≤ p → key <+: payload.drop p → payload.length ≤ p + key.length) :
    valueIn payload loc = [] := by
  cases loc with
  | none => rfl
  | some l =>
    obtain ⟨p, hp, hkey, hlt⟩ := lineLoop_location hbuffer h
    apply valueIn_late
    by_contra hl
    have hend := hnone p hp (Infix.prefix_of_prefix_append hkey (by omega))
    omega

theorem cString_append (behind : List UInt8) (h : start ≤ payload.length) :
    ∃ c, cString (payload ++ behind) start = cString payload start ++ c ∧
      (c = [] ∨ cString payload start = payload.drop start) := by
  unfold cString
  rw [List.drop_append_of_le_length h, List.takeWhile_append]
  split
  · rename_i hall
    have hwhole := (List.takeWhile_prefix (· ≠ (0 : UInt8))).eq_of_length hall
    exact ⟨_, by rw [hwhole], .inr hwhole⟩
  · exact ⟨[], by rw [List.append_nil], .inl rfl⟩

theorem skipBack_append (h : pos < b.length) : skipBack (b ++ c) pos = skipBack b pos := by
  induction pos with
  | zero => rfl
  | succ pos ih =>
    unfold skipBack
    rw [byte_append h, ih (by omega)]

theorem skipBack_le (b : List UInt8) : ∀ pos, skipBack b pos ≤ pos
  | 0 => Nat.le_refl 0
  | pos + 1 => by
    unfold skipBack
    split
    · exact Nat.le_succ_of_le (skipBack_le b pos)
    · exact Nat.le_refl _

theorem atStartOfLine_append (h : pos < b.length) : atStartOfLine (b ++ c) pos = atStartOfLine b pos := by
  have hle := skipBack_le b pos
  unfold atStartOfLine
  rw [skipBack_append h, byte_append (by omega)]

theorem startsLine_append (behind c : List UInt8) (hb : start + b.length ≤ payload.length)
    (hpos : pos < b.length) (hcolon : pos + key.length < b.length) :
    StartsLine (payload ++ behind) key start (b ++ c) pos ↔ StartsLine payload key start b pos := by
  unfold StartsLine
  rw [atStartOfLine_append hpos, byte_append (by omega)]

theorem idxOf?_append {x : UInt8} {i : Nat} (h : b.idxOf? x = some i) : (b ++ c).idxOf? x = some i := by
  obtain ⟨hi, hx, hfirst⟩ := List.idxOf?_eq_some_iff.1 h
  refine List.idxOf?_eq_some_iff.2 ⟨by rw [List.length_append]; omega, ?_, fun j hj => ?_⟩
  · rwa [List.getElem_append_left hi]
  · rw [List.getElem_append_left (by omega)]
    exact hfirst j hj

theorem length_le_of_idxOf? {x : UInt8} {i : Nat} (hnone : b.idxOf? x = none) (h : (b ++ c).idxOf? x = some i) :
    b.length ≤ i := by
  obtain ⟨hi, hx, -⟩ := List.idxOf?_eq_some_iff.1 h
  by_contra hlt
  rw [List.getElem_append_left (by omega)] at hx
  exact List.idxOf?_eq_none_iff.1 hnone (hx ▸ List.getElem_mem _)

end

/-! ## Two memories with one payload -/

section
variable {payload behind behind' key strToFind b c c' : List UInt8} {rounds rounds' start pos : Nat}
  {loc loc' : Option Nat}

/-- A location in a string that goes on behind the payload counts if it does in the payload. -/
theorem valueIn_found (hb : b = payload.drop start ∨ c = []) (hpos : pos ≤ b.length) :
    valueIn payload ((orkStringViewFind ((b ++ c).drop pos) strToFind).map fun location =>
      location + (start + pos) + strToFind.length) =
    valueIn payload ((orkStringViewFind (b.drop pos) strToFind).map fun location =>
      location + (start + pos) + strToFind.length) := by
  rcases hb with rfl | rfl
  · rw [List.drop_append_of_le_length hpos]
    cases hfind : orkStringViewFind ((payload.drop start).drop pos) strToFind with
    | some location =>
      have hfind' : orkStringViewFind ((payload.drop start).drop pos ++ c) strToFind = some location :=
        Infix.first_append hfind
      rw [hfind']
    | none =>
      cases hfind' : orkStringViewFind ((payload.drop start).drop pos ++ c) strToFind with
      | none => rfl
      | some location =>
        have hend := (Infix.cut_of_first_append hfind hfind').2
        rw [List.length_drop, List.length_drop] at hend
        rw [List.length_drop] at hpos
        have hlate : payload.length ≤ location + (start + pos) + strToFind.length := by omega
        exact valueIn_late hlate
  · rw [List.append_nil]

/-- No line of the payload is left. -/
theorem valueIn_of_last (hb : b = payload.drop start ∨ c = []) (hnone : b.idxOf? 0x0A = none)
    (h : (((b ++ c).idxOf? 0x0A).elim (.ok none) fun nextLinePos =>
      lineLoop (payload ++ behind) key strToFind rounds (start + (nextLinePos + 1))
        (cString (payload ++ behind) (start + (nextLinePos + 1)))) = .ok loc) : valueIn payload loc = [] := by
  cases hnext : (b ++ c).idxOf? 0x0A with
  | none =>
    rw [hnext] at h
    cases h
    rfl
  | some nl =>
    rw [hnext] at h
    rcases hb with rfl | rfl
    · have hle := length_le_of_idxOf? hnone hnext
      rw [List.length_drop] at hle
      exact valueIn_of_none (isPrefix_cString _ _) h fun p hp _ => by omega
    · rw [List.append_nil, hnone] at hnext
      cases hnext

/-- The first place of the key in the rest of the payload is its last, or there is none. -/
theorem late_of_first (h : ∀ pos, orkStringViewFind (payload.drop start) key = some pos →
    (payload.drop start).length ≤ pos + key.length) :
    ∀ p, start ≤ p → key <+: payload.drop p → payload.length ≤ p + key.length := by
  intro p hp hkey
  by_contra hlt
  have hkey' : key <+: (payload.drop start).drop (p - start) := by
    rw [List.drop_drop]
    rwa [Nat.add_sub_cancel' hp]
  have hlength : p - start < (payload.drop start).length := by
    rw [List.length_drop]
    omega
  cases hfind : orkStringViewFind (payload.drop start) key with
  | none => exact Infix.first_eq_none_iff.1 hfind _ hlength hkey'
  | some pos =>
    obtain ⟨-, -, hfirst⟩ := Infix.first_eq_some_iff.1 hfind
    have hle : pos ≤ p - start := by
      by_contra hnot
      exact hfirst _ (by omega) hkey'
    have hend := h pos hfind
    rw [List.length_drop] at hend
    omega

/-- **The value is the same**, whatever is behind the payload. -/
theorem lineLoop_agrees (hstart : start ≤ payload.length) (hb : b <+: payload.drop start)
    (hc : b = payload.drop start ∨ c = []) (hc' : b = payload.drop start ∨ c' = [])
    (hbegins : b ++ c <+: (payload ++ behind).drop start)
    (hbegins' : b ++ c' <+: (payload ++ behind').drop start)
    (h : lineLoop (payload ++ behind) key strToFind rounds start (b ++ c) = .ok loc)
    (h' : lineLoop (payload ++ behind') key strToFind rounds' start (b ++ c') = .ok loc') :
    valueIn payload loc = valueIn payload loc' := by
  induction rounds generalizing start b c c' rounds' with
  | zero => cases h
  | succ rounds ih =>
    cases rounds' with
    | zero => cases h'
    | succ rounds' =>
      have hlength := hb.length_le
      rw [List.length_drop] at hlength
      -- Where the rest of the payload has no place of the key before its end.
      have hlate : b = payload.drop start →
          (∀ pos, orkStringViewFind b key = some pos → b.length ≤ pos + key.length) →
          valueIn payload loc = valueIn payload loc' := by
        rintro rfl hlast
        have hnone := late_of_first hlast
        rw [valueIn_of_none hbegins h hnone, valueIn_of_none hbegins' h' hnone]
      cases hfind : orkStringViewFind b key with
      | none =>
        by_cases hwhole : b = payload.drop start
        · refine hlate hwhole fun pos hpos => ?_
          rw [hfind] at hpos
          cases hpos
        · obtain rfl := hc.resolve_left hwhole
          obtain rfl := hc'.resolve_left hwhole
          rw [List.append_nil] at h h'
          rw [lineLoop_missing hfind] at h h'
          cases h
          cases h'
          rfl
      | some pos =>
        have hle := Infix.add_length_le_of_first hfind
        have hfound : orkStringViewFind (b ++ c) key = some pos := Infix.first_append hfind
        have hfound' : orkStringViewFind (b ++ c') key = some pos := Infix.first_append hfind
        have hnext : ¬ StartsLine (payload ++ behind) key start (b ++ c) pos →
            ¬ StartsLine (payload ++ behind') key start (b ++ c') pos →
            valueIn payload loc = valueIn payload loc' := by
          intro hline hline'
          rw [lineLoop_next hfound hline] at h
          rw [lineLoop_next hfound' hline'] at h'
          cases hnl : b.idxOf? 0x0A with
          | none => rw [valueIn_of_last hc hnl h, valueIn_of_last hc' hnl h']
          | some nl =>
            have hlt := lt_of_idxOf? hnl
            rw [idxOf?_append hnl] at h h'
            have hstart' : start + (nl + 1) ≤ payload.length := by omega
            obtain ⟨d, hd, hwhole⟩ := cString_append behind hstart'
            obtain ⟨d', hd', hwhole'⟩ := cString_append behind' hstart'
            rw [Option.elim_some, hd] at h
            rw [Option.elim_some, hd'] at h'
            exact ih hstart' (isPrefix_cString _ _) hwhole.symm hwhole'.symm (hd ▸ isPrefix_cString _ _)
              (hd' ▸ isPrefix_cString _ _) h h'
        by_cases hcolon : pos + key.length < b.length
        · have hpos : pos < b.length := by omega
          have hend : start + b.length ≤ payload.length := by omega
          have hiff := startsLine_append behind c hend hpos hcolon
          have hiff' := startsLine_append behind' c' hend hpos hcolon
          have hinside : ∀ c, ¬ (b ++ c).length < pos + key.length + 1 := by
            intro c
            rw [List.length_append]
            omega
          by_cases hline : StartsLine payload key start b pos
          · rw [lineLoop_found hfound (hiff.2 hline), if_neg (hinside c)] at h
            rw [lineLoop_found hfound' (hiff'.2 hline), if_neg (hinside c')] at h'
            rw [← Except.ok.inj h, ← Except.ok.inj h', valueIn_found hc hcolon, valueIn_found hc' hcolon]
          · exact hnext (mt hiff.1 hline) (mt hiff'.1 hline)
        · by_cases hwhole : b = payload.drop start
          · refine hlate hwhole fun pos' hpos' => ?_
            obtain rfl : pos = pos' := Option.some.inj (hfind.symm.trans hpos')
            omega
          · obtain rfl := hc.resolve_left hwhole
            obtain rfl := hc'.resolve_left hwhole
            rw [List.append_nil] at h h' hfound hfound' hnext
            refine hnext (fun hline => ?_) fun hline => ?_
            · rw [lineLoop_found hfound hline, if_pos (by omega)] at h
              cases h
            · rw [lineLoop_found hfound' hline, if_pos (by omega)] at h'
              cases h'

end

end Oreka.Sip
