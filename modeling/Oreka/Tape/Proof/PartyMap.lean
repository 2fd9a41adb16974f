import Mathlib.Data.List.Basic
import Oreka.Lib.Infix
import Oreka.Tape.PartyFilter

/-!
# Where the characters of a party go

An entry of the map sends each character of a party to another one, or away (`send`), and its loop ends
with all of them sent unless it looks for the character that it has just written
(`replaceAll_eq_some_iff`). A run over the map sends each character through all the entries (`carry`).
`filters_iff` says when the loops end.
-/

namespace Oreka

open Serializers

/-- Where an entry sends a character. -/
def send (entry : UInt8 × UInt8) (c : UInt8) : Option UInt8 :=
  if c = entry.1 then if entry.2 = '?'.toUInt8 then none else some entry.2 else some c

/-- Where the entries send a character, one after the other. -/
def carry (entries : List (UInt8 × UInt8)) (c : UInt8) : Option UInt8 :=
  entries.foldlM (fun c entry => send entry c) c

/-- The loop of the entry finds what it has written. -/
def Stuck (entry : UInt8 × UInt8) (party : List UInt8) : Prop :=
  entry.2 = entry.1 ∧ entry.1 ≠ '?'.toUInt8 ∧ entry.1 ∈ party

variable {entry : UInt8 × UInt8} {party s : List UInt8} {c d : UInt8}

theorem send_ne (h : c ≠ entry.1) : send entry c = some c := if_neg h

theorem send_self : send entry entry.1 = if entry.2 = '?'.toUInt8 then none else some entry.2 := if_pos rfl

/-- What is sent stays where it is, if the entry does not send its character to itself. -/
theorem send_send (hself : send entry entry.1 ≠ some entry.1) (h : send entry c = some d) :
    send entry d = some d := by
  apply send_ne
  rintro rfl
  by_cases hc : c = entry.1
  · exact hself (hc ▸ h)
  · rw [send_ne hc] at h
    exact hc (Option.some.inj h)

theorem filterMap_send_of_not_mem (h : entry.1 ∉ party) : party.filterMap (send entry) = party := by
  have hsend : ∀ c ∈ party, send entry c = some c := by
    intro c hc
    apply send_ne
    rintro rfl
    exact h hc
  rw [List.filterMap_congr hsend, List.filterMap_some]

/-- A round sends the first such character. -/
theorem replaceFirst_append (h : entry.1 ∉ s) (rest : List UInt8) :
    replaceFirst entry (s ++ entry.1 :: rest) = some (s ++ ((send entry entry.1).toList ++ rest)) := by
  rw [replaceFirst, Infix.idxOf?_append_cons h, Option.map_some, send_self]
  by_cases hremove : entry.2 = '?'.toUInt8
  · rw [if_neg (not_not.2 hremove), if_pos hremove, List.eraseIdx_append_of_length_le (Nat.le_refl _)]
    simp
  · rw [if_pos hremove, if_neg hremove, List.set_append_right _ _ (Nat.le_refl _)]
    simp

theorem replaceFirst_eq_none (h : entry.1 ∉ party) : replaceFirst entry party = none := by
  rw [replaceFirst, List.idxOf?_eq_none_iff.2 h]
  rfl

theorem stuck_of_send_self (hself : send entry entry.1 = some entry.1) (h : entry.1 ∈ party) :
    Stuck entry party := by
  rw [send_self] at hself
  split at hself
  · cases hself
  · rename_i hne
    have heq := Option.some.inj hself
    exact ⟨heq, fun hc => hne (heq.trans hc), h⟩

theorem not_stuck_of_send_self (hself : send entry entry.1 ≠ some entry.1) : ¬ Stuck entry party := by
  rintro ⟨heq, hne, -⟩
  rw [send_self, heq, if_neg hne] at hself
  exact hself rfl

/-- **The loop of an entry.** It takes as many rounds as its character stands there, and one more. -/
theorem replaceAll_eq_some_iff {rounds : Nat} : replaceAll entry rounds party = some s ↔
    ¬ Stuck entry party ∧ party.count entry.1 < rounds ∧ s = party.filterMap (send entry) := by
  induction rounds generalizing party with
  | zero => simp [replaceAll]
  | succ rounds ih =>
    rw [replaceAll]
    by_cases hmem : entry.1 ∈ party
    · obtain ⟨l, r, rfl, hl⟩ := List.eq_append_cons_of_mem hmem
      rw [replaceFirst_append hl]
      dsimp only
      rw [ih]
      by_cases hself : send entry entry.1 = some entry.1
      · have hstuck := stuck_of_send_self hself hmem
        have hmem' : entry.1 ∈ l ++ ((send entry entry.1).toList ++ r) := by simp [hself]
        have hstuck' := stuck_of_send_self hself hmem'
        simp only [hstuck, hstuck', not_true_eq_false, false_and]
      · have hgone : entry.1 ∉ (send entry entry.1).toList := by
          intro h
          exact hself (Option.mem_toList.1 h)
        have hstays : (send entry entry.1).toList.filterMap (send entry) = (send entry entry.1).toList := by
          cases hsend : send entry entry.1 with
          | none => rfl
          | some d => simp [send_send hself hsend]
        have hcount : (l ++ entry.1 :: r).count entry.1 =
            (l ++ ((send entry entry.1).toList ++ r)).count entry.1 + 1 := by
          rw [List.count_append, List.count_append, List.count_append, List.count_cons_self,
            List.count_eq_zero_of_not_mem hgone]
          omega
        have hsame : (l ++ ((send entry entry.1).toList ++ r)).filterMap (send entry) =
            (l ++ entry.1 :: r).filterMap (send entry) := by
          rw [List.filterMap_append, List.filterMap_append, List.filterMap_append, hstays,
            List.filterMap_cons]
          cases send entry entry.1 with
          | none => rfl
          | some d => rfl
        rw [hsame, hcount]
        simp only [not_stuck_of_send_self hself, not_false_eq_true, true_and, Nat.add_lt_add_iff_right]
    · rw [replaceFirst_eq_none hmem, filterMap_send_of_not_mem hmem, List.count_eq_zero_of_not_mem hmem]
      have hfree : ¬ Stuck entry party := fun h => hmem h.2.2
      simp only [hfree, not_false_eq_true, Nat.zero_lt_succ, true_and, Option.some.injEq]
      exact eq_comm

/-! ## The run over the map -/

/-- No entry sends a character to itself that a character of the party is when its turn comes. -/
def Clear (entries : List (UInt8 × UInt8)) (party : List UInt8) : Prop :=
  ∀ before c after, entries = before ++ (c, c) :: after → c ≠ '?'.toUInt8 →
    ∀ x ∈ party, carry before x ≠ some c

theorem carry_cons (entries : List (UInt8 × UInt8)) (c : UInt8) :
    carry (entry :: entries) c = (send entry c).bind (carry entries) := List.foldlM_cons

theorem filterMap_carry_cons (entries : List (UInt8 × UInt8)) :
    party.filterMap (carry (entry :: entries)) = (party.filterMap (send entry)).filterMap (carry entries) := by
  rw [List.filterMap_filterMap]
  exact List.filterMap_congr fun c _ => carry_cons entries c

theorem clear_cons {entries : List (UInt8 × UInt8)} : Clear (entry :: entries) party ↔
    ¬ Stuck entry party ∧ Clear entries (party.filterMap (send entry)) := by
  constructor
  · intro h
    refine ⟨?_, ?_⟩
    · rintro ⟨heq, hne, hmem⟩
      exact h [] entry.1 entries (congrArg (· :: entries) (Prod.ext rfl heq)) hne entry.1 hmem rfl
    · rintro before c after rfl hne x hx
      obtain ⟨y, hy, hsend⟩ := List.mem_filterMap.1 hx
      have hcarry := h (entry :: before) c after rfl hne y hy
      rwa [carry_cons, hsend] at hcarry
  · rintro ⟨hfree, hclear⟩ before c after heq hne x hx
    rcases List.cons_eq_append_iff.1 heq with ⟨rfl, hhead⟩ | ⟨before, rfl, rfl⟩
    · intro hc
      obtain ⟨rfl, rfl⟩ := List.cons.inj hhead
      obtain rfl := Option.some.inj hc
      exact hfree ⟨rfl, hne, hx⟩
    · rw [carry_cons]
      cases hsend : send entry x with
      | none => exact nofun
      | some y => exact hclear before c after rfl hne y (List.mem_filterMap.2 ⟨x, hx, hsend⟩)

theorem foldlM_replaceAll {entries : List (UInt8 × UInt8)} (h : Clear entries party) {rounds : Nat}
    (hrounds : party.length < rounds) :
    entries.foldlM (fun party entry => replaceAll entry rounds party) party =
      some (party.filterMap (carry entries)) := by
  induction entries generalizing party with
  | nil => exact congrArg some List.filterMap_some.symm
  | cons entry entries ih =>
    obtain ⟨hfree, hclear⟩ := clear_cons.1 h
    have hcount := List.count_le_length (a := entry.1) (l := party)
    have hlength := List.length_filterMap_le (send entry) party
    rw [List.foldlM_cons, replaceAll_eq_some_iff.2 ⟨hfree, by omega, rfl⟩, Option.bind_eq_bind,
      Option.bind_some, ih hclear (by omega), filterMap_carry_cons]

theorem foldlM_replaceAll_eq_none {entries : List (UInt8 × UInt8)} (h : ¬ Clear entries party)
    (rounds : Nat) : entries.foldlM (fun party entry => replaceAll entry rounds party) party = none := by
  induction entries generalizing party with
  | nil =>
    refine absurd ?_ h
    intro before c after heq
    exact absurd heq.symm (List.append_ne_nil_of_right_ne_nil _ (List.cons_ne_nil _ _))
  | cons entry entries ih =>
    rw [List.foldlM_cons]
    cases hall : replaceAll entry rounds party with
    | none => rfl
    | some s =>
      obtain ⟨hfree, -, rfl⟩ := replaceAll_eq_some_iff.1 hall
      exact ih fun hclear => h (clear_cons.2 ⟨hfree, hclear⟩)

/-! ## The substitution -/

/-- The character that a map puts in the place of one: none where the replacement is a question mark. -/
def substitute (entries : List (UInt8 × UInt8)) (c : UInt8) : Option UInt8 :=
  match entries.lookup c with
  | none => some c
  | some d => if d = '?'.toUInt8 then none else some d

/-- The characters that are mapped. -/
def Mapped (entries : List (UInt8 × UInt8)) (c : UInt8) : Prop := ∃ e ∈ entries, e.1 = c

/-- No replacement is mapped itself. -/
def Simple (entries : List (UInt8 × UInt8)) : Prop :=
  ∀ e ∈ entries, e.2 ≠ '?'.toUInt8 → ¬ Mapped entries e.2

variable {entries : List (UInt8 × UInt8)}

theorem Mapped.cons (h : Mapped entries c) : Mapped (entry :: entries) c := by
  obtain ⟨e, he, hc⟩ := h
  exact ⟨e, List.mem_cons_of_mem _ he, hc⟩

theorem carry_of_not_mapped (h : ¬ Mapped entries c) : carry entries c = some c := by
  induction entries with
  | nil => rfl
  | cons entry entries ih =>
    have hne : c ≠ entry.1 := fun heq => h ⟨entry, List.mem_cons_self, heq.symm⟩
    rw [carry_cons, send_ne hne, Option.bind_some]
    exact ih fun hmapped => h hmapped.cons

/-- Without mapped replacements, what the entries do one after the other is the substitution. -/
theorem carry_eq_substitute (h : Simple entries) (c : UInt8) : carry entries c = substitute entries c := by
  induction entries with
  | nil => rfl
  | cons entry entries ih =>
    have hsimple : Simple entries := by
      intro e he hne hmapped
      exact h e (List.mem_cons_of_mem _ he) hne hmapped.cons
    by_cases hc : c = entry.1
    · subst hc
      have hlookup : (entry :: entries).lookup entry.1 = some entry.2 := List.lookup_cons_self
      rw [carry_cons, send_self, substitute, hlookup]
      dsimp only
      by_cases hremove : entry.2 = '?'.toUInt8
      · rw [if_pos hremove]
        rfl
      · have hfree : ¬ Mapped entries entry.2 := fun hm => h entry List.mem_cons_self hremove hm.cons
        rw [if_neg hremove, Option.bind_some, carry_of_not_mapped hfree]
    · have hlookup : (entry :: entries).lookup c = entries.lookup c := by
        rw [List.lookup_cons, beq_false_of_ne hc]
      rw [carry_cons, send_ne hc, Option.bind_some, ih hsimple, substitute, substitute, hlookup]

theorem mapped_of_lookup (h : entries.lookup c = some d) : ∃ e ∈ entries, e.1 = c ∧ e.2 = d := by
  obtain ⟨l₁, l₂, rfl, -⟩ := List.lookup_eq_some_iff.1 h
  exact ⟨(c, d), List.mem_append_right _ List.mem_cons_self, rfl, rfl⟩

theorem not_mapped_of_substitute (h : Simple entries) (hd : substitute entries c = some d) :
    ¬ Mapped entries d := by
  unfold substitute at hd
  cases hlookup : entries.lookup c with
  | none =>
    rw [hlookup] at hd
    obtain rfl := Option.some.inj hd
    rintro ⟨e, he, rfl⟩
    exact absurd (List.lookup_eq_none_iff.1 hlookup e he) (by simp)
  | some d' =>
    rw [hlookup] at hd
    dsimp only at hd
    split at hd
    · cases hd
    · rename_i hne
      obtain rfl := Option.some.inj hd
      obtain ⟨e, he, -, rfl⟩ := mapped_of_lookup hlookup
      exact h e he hne

/-- A map without mapped replacements sends no character to itself. -/
theorem Simple.clear (h : Simple entries) (party : List UInt8) : Clear entries party := by
  rintro before c after rfl hne x -
  have hmem : (c, c) ∈ before ++ (c, c) :: after := List.mem_append_right _ List.mem_cons_self
  exact absurd ⟨(c, c), hmem, rfl⟩ (h (c, c) hmem hne)

/-! ## The filter -/

/-- The loops over the map end, and put the substitution in the place of the party where no replacement
is mapped. -/
structure Filters (map : PartyFilterMap) (party : List UInt8) : Prop where
  ends : ∃ n, ∀ rounds ≥ n, (filterParty map rounds party).isSome
  substituted : Simple map.entries → ∃ n, ∀ rounds ≥ n, ∃ result,
    filterParty map rounds party = some result ∧ result = party.filterMap (substitute map.entries) ∧
      ∀ c ∈ result, ¬ Mapped map.entries c

theorem filterParty_eq {map : PartyFilterMap} (h : Clear map.entries party) {rounds : Nat}
    (hrounds : party.length < rounds) :
    filterParty map rounds party = some (party.filterMap (carry map.entries)) :=
  foldlM_replaceAll h hrounds

/-- Without mapped replacements the loops end for every party, with the substitution. -/
theorem filterParty_simple {map : PartyFilterMap} (h : Simple map.entries) (party : List UInt8) :
    ∃ n, ∀ rounds ≥ n, ∃ result, filterParty map rounds party = some result ∧
      result = party.filterMap (substitute map.entries) ∧ ∀ c ∈ result, ¬ Mapped map.entries c := by
  refine ⟨party.length + 1, fun rounds hrounds => ⟨_, filterParty_eq (h.clear party) (by omega), ?_, ?_⟩⟩
  · exact List.filterMap_congr fun c _ => carry_eq_substitute h c
  · intro c hc
    obtain ⟨x, -, hx⟩ := List.mem_filterMap.1 hc
    rw [carry_eq_substitute h] at hx
    exact not_mapped_of_substitute h hx

/-- **When the loops end**: unless an entry sends a character to itself that stands in the party when its
turn comes. -/
theorem filters_iff (map : PartyFilterMap) (party : List UInt8) :
    Filters map party ↔ Clear map.entries party := by
  constructor
  · intro h
    by_contra hclear
    obtain ⟨n, hn⟩ := h.ends
    have hsome := hn n (Nat.le_refl n)
    rw [filterParty, foldlM_replaceAll_eq_none hclear] at hsome
    cases hsome
  · intro h
    refine ⟨⟨party.length + 1, fun rounds hrounds => ?_⟩, fun hsimple => filterParty_simple hsimple party⟩
    rw [filterParty_eq h (by omega)]
    rfl

/-- A plus sign that is kept by mapping it to itself. -/
theorem not_filters_plus : ¬ ∀ map party, Filters map party := by
  intro h
  have hclear : ¬ Clear [('+'.toUInt8, '+'.toUInt8)] (bytes "+15551234") := fun hclear =>
    hclear [] '+'.toUInt8 [] rfl (by decide) '+'.toUInt8 (by decide) rfl
  obtain ⟨n, hn⟩ := (h ⟨[('+'.toUInt8, '+'.toUInt8)], List.pairwise_singleton _ _⟩ (bytes "+15551234")).ends
  have hsome := hn n (Nat.le_refl n)
  rw [filterParty, foldlM_replaceAll_eq_none hclear] at hsome
  cases hsome

end Oreka
