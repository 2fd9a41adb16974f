import Oreka.Client.OrkHttpClient

/-!
# What `ExecuteSSLRequest` takes for the response line

`getline` ends a line at the end of what has been read, too. `receive_iff` says which line is taken: the
body line where no read begins within it, nor before the end of a header field or of the empty line.
-/

namespace Oreka.Client

open Serializers (bytes)

/-! ## Where reads begin -/

/-- The reads stand from position `n` on; one of them begins at position `k`. -/
def Begins (n : Nat) : List (List UInt8) → Nat → Prop
  | [], _ => False
  | read :: reads, k => k = n ∨ Begins (n + read.length) reads k

instance decidableBegins (n : Nat) : ∀ reads k, Decidable (Begins n reads k)
  | [], _ => inferInstanceAs (Decidable False)
  | read :: reads, k =>
    have := decidableBegins (n + read.length) reads k
    inferInstanceAs (Decidable (_ ∨ _))

theorem begins_add (m n : Nat) (reads : List (List UInt8)) (k : Nat) :
    Begins (m + n) reads (m + k) ↔ Begins n reads k := by
  induction reads generalizing n with
  | nil => exact Iff.rfl
  | cons read reads ih =>
    have hadd : m + n + read.length = m + (n + read.length) := Nat.add_assoc _ _ _
    rw [Begins, Begins, hadd, ih, Nat.add_left_cancel_iff]

theorem le_of_begins {n k : Nat} {reads : List (List UInt8)} (h : Begins n reads k) : n ≤ k := by
  induction reads generalizing n with
  | nil => exact h.elim
  | cons read reads ih =>
    obtain rfl | h := h
    · exact Nat.le_refl _
    · exact Nat.le_trans (Nat.le_add_right _ _) (ih h)

/-! ## One line -/

variable {s line rest : List UInt8} {reads : List (List UInt8)}

theorem forall_ne_lf (hs : lf ∉ s) : ∀ c ∈ s, decide (c ≠ 10) = true := by
  intro c hc
  refine decide_eq_true fun h => ?_
  subst h
  exact hs hc

theorem getline_line (hline : lf ∉ line) : getline (line ++ lf :: rest) = some (line, rest) := by
  have hall := forall_ne_lf hline
  have hne : line ++ lf :: rest ≠ [] := by simp
  rw [getline, if_neg hne, List.takeWhile_append_of_pos hall, List.dropWhile_append_of_pos hall]
  simp

theorem getline_last (hs : lf ∉ s) (hne : s ≠ []) : getline s = some (s, []) := by
  have hall := forall_ne_lf hs
  rw [getline, if_neg hne, List.takeWhile_eq_self_iff.2 hall, List.dropWhile_eq_nil_iff.2 hall]
  rfl

theorem readLines_some {readContent : Bool} (h : getline s = some (line, rest)) :
    readLines readContent s = if readContent then (readContent, some line) else readLines (line = [13]) rest := by
  rw [readLines]
  split
  · rename_i hnone
    rw [hnone] at h
    cases h
  · rename_i h'
    rw [h'] at h
    cases h
    rfl

theorem receive_nil (readContent : Bool) (read : List UInt8) (reads : List (List UInt8)) :
    receive readContent [] (read :: reads) = receive readContent read reads := by
  have hnone : readLines readContent [] = (readContent, none) := by
    rw [readLines]
    rfl
  rw [receive, hnone]

/-- The line behind the header. -/
theorem receive_content (h : getline s = some (line, rest)) : receive true s reads = some line := by
  cases reads with
  | nil => rw [receive, readLines_some h]; rfl
  | cons read reads => rw [receive, readLines_some h]; rfl

/-- A line of the header. -/
theorem receive_header (h : getline s = some (line, rest)) :
    receive false s reads = receive (line = [13]) rest reads := by
  cases reads with
  | nil => rw [receive, receive, readLines_some h]; rfl
  | cons read reads => rw [receive, receive, readLines_some h]; rfl

/-- What is left of a line of the header at the end of a read, unless it is taken for the empty line. -/
theorem receive_refill (hs : lf ∉ s) (hcr : s ≠ [cr]) (read : List UInt8) :
    receive false s (read :: reads) = receive false read reads := by
  by_cases hne : s = []
  · rw [hne, receive_nil]
  · have hfalse : decide (s = [13]) = false := decide_eq_false hcr
    rw [receive_header (getline_last hs hne), hfalse, receive_nil]

/-! ## Text of the header -/

variable {f y z : List UInt8}

/-- Behind a text of the header, `z`: it begins a read, or it is on with the read that ends the text. -/
theorem receive_text (hreads : ∀ read ∈ reads, read ≠ []) (hf : IsText f) (hne : f ≠ []) (hz : z ≠ [])
    (hs : s ++ reads.flatten = f ++ z) :
    (Begins s.length reads f.length ∧ ∃ reads', (∀ read ∈ reads', read ≠ []) ∧ reads'.flatten = z ∧
      receive false s reads = receive false [] reads' ∧
      ∀ k, Begins 0 reads' k ↔ Begins s.length reads (f.length + k)) ∨
    (¬ Begins s.length reads f.length ∧ ∃ t s' reads', IsText t ∧ t ≠ [] ∧ s' ≠ [] ∧
      (∀ read ∈ reads', read ≠ []) ∧ s' ++ reads'.flatten = z ∧
      receive false s reads = receive false (t ++ s') reads' ∧
      ∀ k, Begins s'.length reads' k ↔ Begins s.length reads (f.length + k)) := by
  induction reads generalizing s f with
  | nil =>
    have hs' : s = f ++ z := by simpa using hs
    refine .inr ⟨id, f, z, [], hf, hne, hz, hreads, by simp, by rw [hs'], fun k => Iff.rfl⟩
  | cons read reads ih =>
    obtain ⟨hread, hreads'⟩ := List.forall_mem_cons.1 hreads
    obtain ⟨a, rfl, ha⟩ | ⟨c, rfl, hc⟩ := List.append_eq_append_iff.1 hs
    · have hslf : lf ∉ s := fun h => hf.2 (List.mem_append_left _ h)
      have hscr : s ≠ [cr] := by
        rintro rfl
        exact hf.1 (by simp)
      rw [receive_refill hslf hscr]
      by_cases hnil : a = []
      · subst hnil
        refine .inl ⟨.inl (by simp), read :: reads, hreads, ha, (receive_nil _ _ _).symm, fun k => ?_⟩
        simpa using (begins_add s.length 0 (read :: reads) k).symm
      · have hpos := List.length_pos_of_ne_nil hnil
        have hbegins (k : Nat) : Begins s.length (read :: reads) ((s ++ a).length + k) ↔
            Begins read.length reads (a.length + k) := by
          rw [Begins, List.length_append, Nat.add_assoc, begins_add]
          exact or_iff_right (by omega)
        have hbegins' : Begins s.length (read :: reads) (s ++ a).length ↔
            Begins read.length reads a.length := hbegins 0
        rw [hbegins']
        simp only [hbegins]
        exact ih hreads' ⟨fun h => hf.1 (List.mem_append_right _ h), fun h => hf.2 (List.mem_append_right _ h)⟩
          hnil (by simpa using ha)
    · by_cases hnil : c = []
      · subst hnil
        have hfcr : f ≠ [cr] := by
          rintro rfl
          exact hf.1 (by simp)
        simp only [List.append_nil, List.nil_append] at hc ⊢
        rw [receive_refill hf.2 hfcr]
        refine .inl ⟨.inl rfl, read :: reads, hreads, hc.symm, (receive_nil _ _ _).symm, fun k => ?_⟩
        simpa using (begins_add f.length 0 (read :: reads) k).symm
      · have hpos := List.length_pos_of_ne_nil hnil
        refine .inr ⟨fun h => ?_, f, c, read :: reads, hf, hne, hnil, hreads, hc.symm, rfl, fun k => ?_⟩
        · have hle := le_of_begins h
          rw [List.length_append] at hle
          omega
        · rw [List.length_append, begins_add]

/-- Behind a field, its line end is read over: it is not the empty line. -/
theorem receive_lineEnd {t s' : List UInt8} (hreads : ∀ read ∈ reads, read ≠ []) (ht : IsText t) (hne : t ≠ [])
    (hs' : s' ≠ []) (hs : s' ++ reads.flatten = crlf ++ y) :
    ∃ s₁ reads₁, (∀ read ∈ reads₁, read ≠ []) ∧ s₁ ++ reads₁.flatten = y ∧
      receive false (t ++ s') reads = receive false s₁ reads₁ ∧
      ∀ k, Begins s₁.length reads₁ k ↔ Begins s'.length reads (2 + k) := by
  have hnot : lf ∉ t ++ [cr] := by
    simp only [List.mem_append, not_or]
    exact ⟨ht.2, by decide⟩
  have hline : t ++ [cr] ≠ [cr] := by simpa using hne
  obtain ⟨c, s', rfl⟩ := List.exists_cons_of_ne_nil hs'
  rw [List.cons_append, List.cons_append, List.cons_eq_cons] at hs
  obtain ⟨rfl, hs⟩ := hs
  cases s' with
  | cons c s' =>
    rw [List.cons_append, List.cons_append, List.cons_eq_cons] at hs
    obtain ⟨rfl, hs⟩ := hs
    have hget : getline (t ++ cr :: lf :: s') = some (t ++ [cr], s') := by
      rw [show t ++ cr :: lf :: s' = (t ++ [cr]) ++ lf :: s' by simp]
      exact getline_line hnot
    have hfalse : decide (t ++ [cr] = [13]) = false := decide_eq_false hline
    refine ⟨s', reads, hreads, hs, by rw [receive_header hget, hfalse], fun k => ?_⟩
    rw [List.length_cons, List.length_cons, Nat.add_comm s'.length, Nat.add_comm _ 1, ← Nat.add_assoc, begins_add]
  | nil =>
    cases reads with
    | nil => cases hs
    | cons read reads =>
      obtain ⟨hread, hreads'⟩ := List.forall_mem_cons.1 hreads
      obtain ⟨c, read, rfl⟩ := List.exists_cons_of_ne_nil hread
      rw [List.nil_append, List.flatten_cons, List.cons_append, List.cons_append, List.cons_eq_cons] at hs
      obtain ⟨rfl, hs⟩ := hs
      have hget : getline (lf :: read) = some ([], read) := getline_line List.not_mem_nil
      have hfalse : decide (([] : List UInt8) = [13]) = false := rfl
      refine ⟨read, reads, hreads', hs, ?_, fun k => ?_⟩
      · rw [receive_refill hnot hline, receive_header hget, hfalse]
      · have hadd : [cr].length + (lf :: read).length = 2 + read.length := by
          simp only [List.length_cons, List.length_nil]
          omega
        rw [Begins, hadd, begins_add]
        exact (or_iff_right (by simp only [List.length_cons, List.length_nil]; omega)).symm

theorem begins_nil (read : List UInt8) (reads : List (List UInt8)) {k : Nat} (hk : 0 < k) :
    Begins 0 (read :: reads) k ↔ Begins read.length reads k := by
  rw [Begins, Nat.zero_add]
  exact or_iff_right (Nat.ne_of_gt hk)

/-- The empty line, or what is taken for it: the response is behind it, unless a read begins between its
CR and LF. -/
theorem receive_empty_of_ne (hreads : ∀ read ∈ reads, read ≠ []) (hs : s ++ reads.flatten = crlf ++ y)
    (hne : s ≠ []) :
    (Begins s.length reads 1 ∧ receive false s reads = some []) ∨
    (¬ Begins s.length reads 1 ∧ ∃ s' reads', (∀ read ∈ reads', read ≠ []) ∧ s' ++ reads'.flatten = y ∧
      receive false s reads = receive true s' reads' ∧
      ∀ k, Begins s'.length reads' k ↔ Begins s.length reads (2 + k)) := by
  obtain ⟨c, s, rfl⟩ := List.exists_cons_of_ne_nil hne
  rw [List.cons_append, List.cons_append, List.cons_eq_cons] at hs
  obtain ⟨rfl, hs⟩ := hs
  have htrue : decide ([cr] = [13]) = true := rfl
  cases s with
  | cons c s =>
    rw [List.cons_append, List.cons_append, List.cons_eq_cons] at hs
    obtain ⟨rfl, hs⟩ := hs
    have hcr : lf ∉ [cr] := by decide
    have hget : getline (cr :: lf :: s) = some ([cr], s) := getline_line hcr
    refine .inr ⟨fun h => ?_, s, reads, hreads, hs, by rw [receive_header hget, htrue], fun k => ?_⟩
    · have hle := le_of_begins h
      simp only [List.length_cons] at hle
      omega
    · have hadd : (cr :: lf :: s).length = 2 + s.length := by
        simp only [List.length_cons]
        omega
      rw [hadd, begins_add]
  | nil =>
    cases reads with
    | nil => cases hs
    | cons read reads =>
      obtain ⟨hread, -⟩ := List.forall_mem_cons.1 hreads
      obtain ⟨c, read, rfl⟩ := List.exists_cons_of_ne_nil hread
      rw [List.nil_append, List.flatten_cons, List.cons_append, List.cons_append, List.cons_eq_cons] at hs
      obtain ⟨rfl, hs⟩ := hs
      have hlast : getline [cr] = some ([cr], []) := getline_last (by decide) (by decide)
      have hget : getline (lf :: read) = some ([], read) := getline_line List.not_mem_nil
      refine .inl ⟨.inl rfl, ?_⟩
      rw [receive_header hlast, htrue, receive_nil, receive_content hget]

theorem receive_empty (hreads : ∀ read ∈ reads, read ≠ []) (hs : s ++ reads.flatten = crlf ++ y) :
    (Begins s.length reads 1 ∧ receive false s reads = some []) ∨
    (¬ Begins s.length reads 1 ∧ ∃ s' reads', (∀ read ∈ reads', read ≠ []) ∧ s' ++ reads'.flatten = y ∧
      receive false s reads = receive true s' reads' ∧
      ∀ k, Begins s'.length reads' k ↔ Begins s.length reads (2 + k)) := by
  by_cases hne : s = []
  · subst hne
    cases reads with
    | nil => cases hs
    | cons read reads =>
      obtain ⟨hread, hreads⟩ := List.forall_mem_cons.1 hreads
      have hone : Begins ([] : List UInt8).length (read :: reads) 1 ↔ Begins read.length reads 1 :=
        begins_nil read reads (by decide)
      have htwo (k : Nat) : Begins ([] : List UInt8).length (read :: reads) (2 + k) ↔
          Begins read.length reads (2 + k) := begins_nil read reads (by omega)
      rw [receive_nil, hone]
      simp only [htwo]
      exact receive_empty_of_ne hreads hs hread
  · exact receive_empty_of_ne hreads hs hne

/-! ## The response line -/

/-- What is read at once of a text: the text up to where the next read begins. -/
def Part (cut : Nat → Prop) (text x : List UInt8) : Prop :=
  ∃ k ≤ text.length, x = text.take k ∧ (∀ j < k, 0 < j → ¬ cut j) ∧ (k < text.length → 0 < k ∧ cut k)

theorem Part.unique {cut : Nat → Prop} {text x x' : List UInt8} (h : Part cut text x)
    (h' : Part cut text x') : x = x' := by
  obtain ⟨k, hk, rfl, hno, hcut⟩ := h
  obtain ⟨k', hk', rfl, hno', hcut'⟩ := h'
  obtain hlt | rfl | hlt := Nat.lt_trichotomy k k'
  · obtain ⟨hpos, hk⟩ := hcut (Nat.lt_of_lt_of_le hlt hk')
    exact absurd hk (hno' k hlt hpos)
  · rfl
  · obtain ⟨hpos, hk'⟩ := hcut' (Nat.lt_of_lt_of_le hlt hk)
    exact absurd hk' (hno k' hlt hpos)

theorem part_self_iff {cut : Nat → Prop} {text : List UInt8} :
    Part cut text text ↔ ∀ k < text.length, 0 < k → ¬ cut k := by
  constructor
  · rintro ⟨k, hk, htake, hno, -⟩ j hj hpos
    have hlen := congrArg List.length htake
    rw [List.length_take, Nat.min_eq_left hk] at hlen
    exact hno j (hlen ▸ hj) hpos
  · intro h
    exact ⟨text.length, Nat.le_refl _, List.take_length.symm, h, fun hlt => absurd hlt (Nat.lt_irrefl _)⟩

theorem Part.mono {cut cut' : Nat → Prop} {text x : List UInt8} (h : Part cut text x)
    (hcut : ∀ k, 0 < k → (cut k ↔ cut' k)) : Part cut' text x := by
  obtain ⟨k, hk, hx, hno, hend⟩ := h
  exact ⟨k, hk, hx, fun j hj hpos hc => hno j hj hpos ((hcut j hpos).2 hc),
    fun hlt => ⟨(hend hlt).1, (hcut k (hend hlt).1).1 (hend hlt).2⟩⟩

theorem chomp_takeWhile (s : List UInt8) : chomp (s.takeWhile (· ≠ 10)) = chomp s := by
  rw [chomp, chomp, List.takeWhile_takeWhile]
  refine congrArg (fun p => s.takeWhile p) (funext fun c => ?_)
  simp

theorem chomp_text {text : List UInt8} (ht : IsText text) (hz : ∀ c ∈ z.head?, c = cr ∨ c = lf) :
    chomp (text ++ z) = text := by
  have hall : ∀ c ∈ text, decide (c ≠ cr ∧ c ≠ lf) = true := by
    intro c hc
    refine decide_eq_true ⟨?_, ?_⟩
    · rintro rfl
      exact ht.1 hc
    · rintro rfl
      exact ht.2 hc
  have hend : z.takeWhile (fun c => decide (c ≠ cr ∧ c ≠ lf)) = [] := by
    cases z with
    | nil => rfl
    | cons c z =>
      have hc := hz c rfl
      exact List.takeWhile_cons_of_neg (by simpa [imp_iff_not_or] using hc)
  rw [chomp, List.takeWhile_append_of_pos hall, hend, List.append_nil]

theorem receive_part_of_ne {text : List UInt8} (ht : IsText text)
    (hz : ∀ c ∈ z.head?, c = cr ∨ c = lf) (hs : s ++ reads.flatten = text ++ z) (hne : s ≠ []) :
    ∃ l, receive true s reads = some l ∧ Part (Begins s.length reads) text (chomp l) := by
  have hget : getline s = some (s.takeWhile (· ≠ 10), (s.dropWhile (· ≠ 10)).drop 1) := if_neg hne
  refine ⟨_, receive_content hget, ?_⟩
  rw [chomp_takeWhile]
  obtain ⟨a, rfl, ha⟩ | ⟨c, rfl, hc⟩ := List.append_eq_append_iff.1 hs
  · have hsub : IsText s := ⟨fun h => ht.1 (List.mem_append_left _ h), fun h => ht.2 (List.mem_append_left _ h)⟩
    have hchomp : chomp s = s := by simpa using chomp_text (z := []) hsub (by simp)
    refine ⟨s.length, by simp, by rw [hchomp, List.take_left], fun j hj _ hc => ?_, fun hlt => ?_⟩
    · exact absurd (le_of_begins hc) (Nat.not_le_of_lt hj)
    · refine ⟨List.length_pos_of_ne_nil hne, ?_⟩
      cases reads with
      | nil =>
        rw [List.flatten_nil, eq_comm, List.append_eq_nil_iff] at ha
        rw [ha.1, List.append_nil] at hlt
        exact absurd hlt (Nat.lt_irrefl _)
      | cons read reads => exact .inl rfl
  · have hc' : ∀ x ∈ c.head?, x = cr ∨ x = lf := by
      intro x hx
      refine hz x ?_
      rw [hc]
      cases c with
      | nil => cases hx
      | cons d c => exact hx
    rw [chomp_text ht hc', part_self_iff]
    intro k hk _ hbegins
    have hle := le_of_begins hbegins
    rw [List.length_append] at hle
    omega

/-- The response line: what is read at once of the text behind the header. -/
theorem receive_part (hreads : ∀ read ∈ reads, read ≠ []) {text : List UInt8} (ht : IsText text)
    (hz : ∀ c ∈ z.head?, c = cr ∨ c = lf) (hne : text ++ z ≠ []) (hs : s ++ reads.flatten = text ++ z) :
    ∃ l, receive true s reads = some l ∧ Part (Begins s.length reads) text (chomp l) := by
  by_cases hnil : s = []
  · subst hnil
    cases reads with
    | nil => exact absurd hs.symm hne
    | cons read reads =>
      obtain ⟨hread, -⟩ := List.forall_mem_cons.1 hreads
      obtain ⟨l, hl, hpart⟩ := receive_part_of_ne ht hz (by simpa using hs) hread
      exact ⟨l, by rw [receive_nil, hl], hpart.mono fun k hk => (begins_nil read reads hk).symm⟩
  · exact receive_part_of_ne ht hz hs hnil

/-! ## The whole response -/

/-- The reads leave whole what stands behind the status line: none begins just before the line end of a
field, between the CR and the LF of the empty line, or within the response line. Positions count from there. -/
def Whole (line : List UInt8) : (Nat → Prop) → List (List UInt8) → Prop
  | cut, [] => ¬ cut 1 ∧ ∀ k < line.length, 0 < k → ¬ cut (2 + k)
  | cut, f :: fields => ¬ cut f.length ∧ Whole line (fun k => cut (f.length + 2 + k)) fields

instance decidableWhole (line : List UInt8) : ∀ (cut : Nat → Prop) [DecidablePred cut] (fields),
    Decidable (Whole line cut fields)
  | cut, _, [] => inferInstanceAs (Decidable (¬ cut 1 ∧ ∀ k < line.length, 0 < k → ¬ cut (2 + k)))
  | cut, _, f :: fields =>
    have := decidableWhole line (fun k => cut (f.length + 2 + k)) fields
    inferInstanceAs (Decidable (¬ cut f.length ∧ Whole line (fun k => cut (f.length + 2 + k)) fields))

/-- What is taken for the response line instead is the same: nothing, behind a line end that the reads tear;
the next field or what is read of it, behind a field whose line end is taken for the empty line. -/
def Coincides (line : List UInt8) : (Nat → Prop) → List (List UInt8) → Prop
  | cut, [] => cut 1 ∧ line = []
  | cut, f :: fields =>
    (cut f.length ∧ (cut (f.length + 1) ∧ line = [] ∨
      ¬ cut (f.length + 1) ∧ Part (fun k => cut (f.length + 2 + k)) (fields.headD []) line)) ∨
    (¬ cut f.length ∧ Coincides line (fun k => cut (f.length + 2 + k)) fields)

variable {terminator : List UInt8} {fields : List (List UInt8)}

theorem exists_chomp_iff {o : Option (List UInt8)} {l : List UInt8} (ho : o = some l) :
    (∃ l, o = some l ∧ chomp l = line) ↔ chomp l = line := by
  constructor
  · rintro ⟨l', hl', hchomp⟩
    rw [ho] at hl'
    cases hl'
    exact hchomp
  · intro h
    exact ⟨l, ho, h⟩

/-- The text that a header begins with. -/
theorem fieldLines_head (fields : List (List UInt8)) (hfields : ∀ f ∈ fields, f ≠ [] ∧ IsText f)
    (y : List UInt8) : ∃ z, HttpResponse.fieldLines fields ++ y = fields.headD [] ++ z ∧
      IsText (fields.headD []) ∧ ∀ c ∈ z.head?, c = cr ∨ c = lf := by
  cases fields with
  | nil => exact ⟨crlf ++ y, by simp [HttpResponse.fieldLines], by decide, by simp⟩
  | cons f fields =>
    have hf := (hfields f List.mem_cons_self).2
    exact ⟨crlf ++ HttpResponse.fieldLines fields ++ y, by simp [HttpResponse.fieldLines], hf, by simp⟩

theorem receive_iff (hreads : ∀ read ∈ reads, read ≠ []) (hfields : ∀ f ∈ fields, f ≠ [] ∧ IsText f)
    (hline : IsText line) (hterminator : ∀ c ∈ terminator.head?, c = cr ∨ c = lf)
    (hbody : line ++ terminator ≠ [])
    (hs : s ++ reads.flatten = HttpResponse.fieldLines fields ++ (line ++ terminator)) :
    (∃ l, receive false s reads = some l ∧ chomp l = line) ↔
      Whole line (Begins s.length reads) fields ∨ Coincides line (Begins s.length reads) fields := by
  induction fields generalizing s reads with
  | nil =>
    obtain ⟨hcut, hl⟩ | ⟨hcut, s', reads', hreads', hs', heq, hbegins⟩ :=
      receive_empty (y := line ++ terminator) hreads (by simpa [HttpResponse.fieldLines] using hs)
    · rw [exists_chomp_iff hl, Whole, Coincides]
      simp [hcut, chomp, eq_comm]
    · obtain ⟨l, hl, hpart⟩ := receive_part hreads' hline hterminator hbody hs'
      rw [exists_chomp_iff (heq.trans hl), Whole, Coincides]
      simp only [hcut, not_false_eq_true, true_and, false_and, or_false, ← hbegins]
      rw [← part_self_iff]
      exact ⟨fun h => h ▸ hpart, fun h => hpart.unique h⟩
  | cons f fields ih =>
    obtain ⟨⟨hne, hf⟩, hfields⟩ := List.forall_mem_cons.1 hfields
    have hcons : HttpResponse.fieldLines (f :: fields) ++ (line ++ terminator) =
        f ++ (crlf ++ (HttpResponse.fieldLines fields ++ (line ++ terminator))) := by
      simp [HttpResponse.fieldLines]
    rw [hcons] at hs
    rw [Whole, Coincides]
    obtain ⟨hcut, reads₁, hreads₁, hs₁, heq, hbegins⟩ | ⟨hcut, t, s₁, reads₁, ht, htne, hs₁ne, hreads₁, hs₁,
      heq, hbegins⟩ := receive_text hreads hf hne (by simp) hs
    · simp only [hcut, not_true_eq_false, true_and, false_and, false_or, or_false]
      obtain ⟨hone, hl⟩ | ⟨hone, s₂, reads₂, hreads₂, hs₂, heq₂, hbegins₂⟩ :=
        receive_empty (s := []) hreads₁ (by simpa using hs₁)
      · have hcut₁ := (hbegins 1).1 hone
        rw [exists_chomp_iff (heq.trans hl)]
        simp [hcut₁, chomp, eq_comm]
      · have hcut₁ : ¬ Begins s.length reads (f.length + 1) := fun h => hone ((hbegins 1).2 h)
        obtain ⟨z, hz, htext, hzhead⟩ := fieldLines_head fields hfields (line ++ terminator)
        have hzne : fields.headD [] ++ z ≠ [] := by
          rw [← hz]
          exact List.append_ne_nil_of_right_ne_nil _ hbody
        obtain ⟨l, hl, hpart⟩ := receive_part hreads₂ htext hzhead hzne (hs₂.trans hz)
        have hshift (k : Nat) : Begins s₂.length reads₂ k ↔ Begins s.length reads (f.length + 2 + k) := by
          rw [Nat.add_assoc, ← hbegins, hbegins₂]
          rfl
        rw [exists_chomp_iff ((heq.trans heq₂).trans hl)]
        simp only [hcut₁, not_false_eq_true, true_and, false_and, false_or, ← hshift]
        exact ⟨fun h => h ▸ hpart, fun h => hpart.unique h⟩
    · simp only [hcut, not_false_eq_true, true_and, false_and, false_or]
      obtain ⟨s₂, reads₂, hreads₂, hs₂, heq₂, hbegins₂⟩ := receive_lineEnd hreads₁ ht htne hs₁ne hs₁
      have hshift : Begins s₂.length reads₂ = fun k => Begins s.length reads (f.length + 2 + k) := by
        funext k
        rw [eq_iff_iff, Nat.add_assoc, ← hbegins, hbegins₂]
      rw [heq, heq₂, ← hshift]
      exact ih hreads₂ hfields hs₂

end Oreka.Client
