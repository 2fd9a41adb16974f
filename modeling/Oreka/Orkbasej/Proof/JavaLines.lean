import Mathlib.Data.List.Chain
import Oreka.Orkbasej.SingleLineSerializer
import Oreka.Serializers.Proof.CsvMap
import Oreka.Serializers.Proof.SingleLineRoundTrip

/-!
# Java writes, C++ reads

Java escapes colons and leaves equals signs as they are; to C++ the escape is unknown and the equals sign
an error. Whatever the line, no value that C++ reads has either (`plain_of_deSerialize`); values without
them come over (`deSerialize_flatMap`).
-/

open Std

namespace Oreka.Orkbasej.SingleLineSerializer

open Serializers KeyedMap

/-! ## What is read -/

/-- No percent sign before an `e`: Java writes no escape that stands for an equals sign in C++. -/
def NotE (a b : UInt8) : Prop := ¬ (a = '%'.toUInt8 ∧ b = 'e'.toUInt8)

/-- Neither an equals sign nor a colon. -/
def Plain (v : List UInt8) : Prop := '='.toUInt8 ∉ v ∧ ':'.toUInt8 ∉ v

instance : DecidablePred Plain := fun _ => inferInstanceAs (Decidable (_ ∧ _))

theorem plain_nil : Plain [] := by decide

theorem plain_cons {c : UInt8} {v : List UInt8} :
    Plain (c :: v) ↔ (c ≠ '='.toUInt8 ∧ c ≠ ':'.toUInt8) ∧ Plain v := by
  simp only [Plain, List.mem_cons, not_or, ne_comm (a := c)]
  tauto

theorem plain_append {v w : List UInt8} : Plain (v ++ w) ↔ Plain v ∧ Plain w := by
  simp only [Plain, List.mem_append, not_or]
  tauto

theorem plain_unEscapeChar {c : UInt8} (hc : c ≠ 'e'.toUInt8) :
    Plain (Serializers.SingleLineSerializer.unEscapeChar c) := by
  unfold Serializers.SingleLineSerializer.unEscapeChar
  split
  · decide
  · split
    · decide
    · exact plain_nil

theorem plain_unEscapeSingleLine {v : List UInt8} (hchain : v.IsChain NotE) (hplain : Plain v) :
    Plain (Serializers.SingleLineSerializer.unEscapeSingleLine v) := by
  fun_induction Serializers.SingleLineSerializer.unEscapeSingleLine v with
  | case1 => exact plain_nil
  | case2 => exact plain_nil
  | case3 c rest ih =>
    obtain ⟨hne, hchain⟩ := List.isChain_cons_cons.1 hchain
    obtain ⟨-, hplain⟩ := plain_cons.1 (plain_cons.1 hplain).2
    have hc : c ≠ 'e'.toUInt8 := fun h => hne ⟨rfl, h⟩
    exact plain_append.2 ⟨plain_unEscapeChar hc, ih hchain.tail hplain⟩
  | case4 c rest _ _ ih =>
    exact plain_cons.2 ⟨(plain_cons.1 hplain).1, ih hchain.tail (plain_cons.1 hplain).2⟩

/-- What the parser has read so far and has yet to read, if its line has neither a colon nor a percent sign
before an `e`. -/
structure ReadsPlain (s : PairParser) (rest : List UInt8) : Prop where
  key : s.state = .key ∨ s.state = .value → s.key ≠ []
  value : s.state ≠ .value → s.value = []
  text : Plain s.value
  chain : (s.value ++ rest).IsChain NotE
  colon : ':'.toUInt8 ∉ rest
  map : ∀ key v : List UInt8, s.map[key]? = some v → Plain v

/-- The parser of `Serializers.SingleLineSerializer`. -/
abbrev cppStore (s : PairParser) (last : Bool) : Option PairParser :=
  s.store (fun v => some (Serializers.SingleLineSerializer.unEscapeSingleLine v)) last

theorem cppStore_cases (s : PairParser) (last : Bool) :
    cppStore s last = some s ∨
    cppStore s last = some { s with
      map := s.map.insertIfNew s.key (Serializers.SingleLineSerializer.unEscapeSingleLine s.value)
      key := []
      value := [] } := by
  unfold cppStore PairParser.store
  by_cases hlast : s.state = .start ∨ last = true
  · by_cases hkey : s.key = []
    · exact .inl (by simp [hlast, hkey])
    · exact .inr (by simp [hlast, hkey])
  · exact .inl (by simp [hlast])

/-- Whatever is stored is plain. -/
theorem cppStore_map {s s' : PairParser} {last : Bool} (hs : cppStore s last = some s')
    (htext : Plain s.value) (hchain : s.value.IsChain NotE)
    (hmap : ∀ key v : List UInt8, s.map[key]? = some v → Plain v) (key v : List UInt8)
    (hv : s'.map[key]? = some v) : Plain v := by
  obtain heq | heq := cppStore_cases s last
  · rw [heq] at hs
    cases hs
    exact hmap key v hv
  · rw [heq] at hs
    cases hs
    rw [getElem?_insertIfNew] at hv
    split at hv
    · cases hv
      exact plain_unEscapeSingleLine hchain htext
    · exact hmap key v hv

/-- What a character leaves, before anything is stored. -/
structure SwitchedPlain (s : PairParser) (rest : List UInt8) : Prop where
  key : s.state = .key ∨ s.state = .value → s.key ≠ []
  start : s.state = .start → s.key = [] → s.value = []
  value : s.state = .key → s.value = []
  text : Plain s.value
  chain : s.value.IsChain NotE
  tail : rest.IsChain NotE
  all : s.state = .value → (s.value ++ rest).IsChain NotE

theorem ReadsPlain.switchState {s : PairParser} {c : UInt8} {rest : List UInt8}
    (h : ReadsPlain s (c :: rest)) (hs : s.state ≠ .error) :
    SwitchedPlain (s.switchState ' '.toUInt8 c) rest := by
  have hrest : rest.IsChain NotE := (h.chain.right_of_append).tail
  have hvalue : s.value.IsChain NotE := h.chain.left_of_append
  have hcolon : c ≠ ':'.toUInt8 := fun hc => h.colon (hc ▸ List.mem_cons_self)
  unfold PairParser.switchState
  cases hstate : s.state with
  | start =>
    have hnil : s.value = [] := h.value (by simp [hstate])
    dsimp only
    split
    · exact ⟨by simp [hstate], fun _ _ => hnil, by simp [hstate], h.text, hvalue, hrest, by simp [hstate]⟩
    · split
      · exact ⟨by simp, nofun, fun _ => hnil, h.text, hvalue, hrest, nofun⟩
      · exact ⟨by simp, nofun, nofun, h.text, hvalue, hrest, nofun⟩
  | key =>
    have hnil : s.value = [] := h.value (by simp [hstate])
    have hkey : s.key ≠ [] := h.key (.inl hstate)
    dsimp only
    split
    · exact ⟨by simp, by simp, fun _ => hnil, h.text, hvalue, hrest, by simp⟩
    · split
      · exact ⟨fun _ => hkey, nofun, nofun, plain_nil, List.isChain_nil, hrest, fun _ => hrest⟩
      · exact ⟨by simp, nofun, nofun, h.text, hvalue, hrest, nofun⟩
  | value =>
    have hkey : s.key ≠ [] := h.key (.inr hstate)
    dsimp only
    split
    · exact ⟨by simp, nofun, nofun, h.text, hvalue, hrest, nofun⟩
    · rename_i hequals
      split
      · exact ⟨by simp, fun _ hnil => absurd hnil hkey, nofun, h.text, hvalue, hrest, nofun⟩
      · have hall : ((s.value ++ [c]) ++ rest).IsChain NotE := by simpa using h.chain
        exact ⟨fun _ => hkey, by simp, by simp,
          plain_append.2 ⟨h.text, plain_cons.2 ⟨⟨hequals, hcolon⟩, plain_nil⟩⟩, hall.left_of_append, hrest,
          fun _ => hall⟩
  | error => exact absurd hstate hs

theorem switchState_map (s : PairParser) (c : UInt8) : (s.switchState ' '.toUInt8 c).map = s.map := by
  unfold PairParser.switchState
  repeat' split
  all_goals rfl

/-- One character: what is stored is plain, and so is what is read on. -/
theorem ReadsPlain.step {s s' : PairParser} {c : UInt8} {rest : List UInt8} (h : ReadsPlain s (c :: rest))
    (hstate : s.state ≠ .error) (hs : cppStore (s.switchState ' '.toUInt8 c) rest.isEmpty = some s') :
    (∀ key v : List UInt8, s'.map[key]? = some v → Plain v) ∧
      (rest ≠ [] → s'.state ≠ .error → ReadsPlain s' rest) := by
  have h₁ := h.switchState hstate
  have hmap := cppStore_map hs h₁.text h₁.chain (switchState_map s c ▸ h.map)
  refine ⟨hmap, fun hne hstate' => ?_⟩
  have hcolon : ':'.toUInt8 ∉ rest := fun hc => h.colon (List.mem_cons_of_mem _ hc)
  unfold cppStore PairParser.store at hs
  generalize s.switchState ' '.toUInt8 c = s₁ at h₁ hs
  have hempty : rest.isEmpty = false := by simp [hne]
  by_cases hstart : s₁.state = .start
  · rw [if_pos (.inl hstart)] at hs
    by_cases hkey : s₁.key = []
    · rw [if_neg (not_not.2 hkey)] at hs
      cases hs
      have hnil : s'.value = [] := h₁.start hstart hkey
      exact ⟨by simp [hstart], fun _ => hnil, h₁.text, by simpa [hnil] using h₁.tail, hcolon, hmap⟩
    · rw [if_pos hkey] at hs
      cases hs
      exact ⟨by simp [hstart], fun _ => rfl, plain_nil, h₁.tail, hcolon, hmap⟩
  · rw [if_neg (by simp [hstart, hempty])] at hs
    cases hs
    have hchain : (s'.value ++ rest).IsChain NotE := by
      cases hs₁ : s'.state with
      | start => exact absurd hs₁ hstart
      | key => simpa [h₁.value hs₁] using h₁.tail
      | value => exact h₁.all hs₁
      | error => exact absurd hs₁ hstate'
    refine ⟨h₁.key, fun hvalue => ?_, h₁.text, hchain, hcolon, hmap⟩
    cases hs₁ : s'.state with
    | start => exact absurd hs₁ hstart
    | key => exact h₁.value hs₁
    | value => exact absurd hs₁ hvalue
    | error => exact absurd hs₁ hstate'

theorem run_plain {s s' : PairParser} {rest : List UInt8} (h : ReadsPlain s rest)
    (hs : PairParser.run ' '.toUInt8
      (fun v => some (Serializers.SingleLineSerializer.unEscapeSingleLine v)) s rest = some s')
    {key v : List UInt8} (hv : s'.map[key]? = some v) : Plain v := by
  induction rest generalizing s with
  | nil =>
    cases hs
    exact h.map key v hv
  | cons c rest ih =>
    unfold PairParser.run at hs
    split at hs
    · cases hs
      exact h.map key v hv
    · rename_i hstate
      obtain ⟨s₁, hs₁, hs⟩ := Option.bind_eq_some_iff.1 hs
      obtain ⟨hmap, hnext⟩ := h.step hstate hs₁
      cases rest with
      | nil =>
        cases hs
        exact hmap key v hv
      | cons d rest =>
        by_cases herror : s₁.state = .error
        · rw [run_error herror] at hs
          cases hs
          exact hmap key v hv
        · exact ih (hnext (List.cons_ne_nil _ _) herror) hs

/-! ## What is written -/

/-- A line in which escapes are complete, and none of which is that of an equals sign. -/
structure Complete (s : List UInt8) : Prop where
  chain : s.IsChain NotE
  last : ∀ x ∈ s.getLast?, x ≠ '%'.toUInt8

theorem Complete.append {s t : List UInt8} (hs : Complete s) (ht : Complete t) : Complete (s ++ t) where
  chain := hs.chain.append ht.chain fun x hx _ _ h => hs.last x hx h.1
  last x hx := by
    rw [List.getLast?_append] at hx
    cases hlast : t.getLast? with
    | none =>
      rw [hlast] at hx
      exact hs.last x hx
    | some y =>
      rw [hlast] at hx
      cases hx
      exact ht.last x hlast

theorem complete_of_not_mem {s : List UInt8} (h : '%'.toUInt8 ∉ s) : Complete s where
  chain := by
    induction s with
    | nil => exact List.isChain_nil
    | cons c s ih =>
      simp only [List.mem_cons, not_or] at h
      exact (ih h.2).cons fun _ _ he => h.1 he.1.symm
  last x hx hpercent := h (hpercent ▸ List.mem_of_getLast? hx)

/-- What stands for a character. -/
def escapeByte (c : UInt8) : List UInt8 :=
  if c = ' '.toUInt8 then ['%'.toUInt8, 's'.toUInt8]
  else if c = ':'.toUInt8 then ['%'.toUInt8, 'c'.toUInt8]
  else if c = '%'.toUInt8 then ['%'.toUInt8, 'p'.toUInt8]
  else [c]

theorem escapeByte_complete (c : UInt8) : Complete (escapeByte c) ∧ ':'.toUInt8 ∉ escapeByte c := by
  have hletter {l : UInt8} (hl : l ≠ 'e'.toUInt8 ∧ l ≠ '%'.toUInt8) : Complete ['%'.toUInt8, l] := by
    refine ⟨List.isChain_pair.2 fun h => hl.1 h.2, fun x hx => ?_⟩
    cases hx
    exact hl.2
  unfold escapeByte
  split
  · exact ⟨hletter (by decide), by decide⟩
  · split
    · exact ⟨hletter (by decide), by decide⟩
    · rename_i hcolon
      split
      · exact ⟨hletter (by decide), by decide⟩
      · rename_i hpercent
        exact ⟨complete_of_not_mem (by simpa using Ne.symm hpercent), by simpa using Ne.symm hcolon⟩

theorem escapeSingleLine_complete (v : List UInt8) :
    Complete (escapeSingleLine v) ∧ ':'.toUInt8 ∉ escapeSingleLine v := by
  induction v with
  | nil => exact ⟨complete_of_not_mem List.not_mem_nil, List.not_mem_nil⟩
  | cons c v ih =>
    have hcons : escapeSingleLine (c :: v) = escapeByte c ++ escapeSingleLine v := rfl
    obtain ⟨hc, hcolon⟩ := escapeByte_complete c
    rw [hcons]
    exact ⟨hc.append ih.1, by simp [hcolon, ih.2]⟩

theorem addString_complete {key : List UInt8} (hkey : IsKey key) (v : List UInt8) :
    Complete (addString key v) ∧ ':'.toUInt8 ∉ addString key v := by
  have hnot {c : UInt8} (hc : isalnum c = false) : c ∉ key := fun h => by
    rw [hkey.2 c h] at hc
    cases hc
  obtain ⟨hv, hcolon⟩ := escapeSingleLine_complete v
  have hequals : Complete ['='.toUInt8] := complete_of_not_mem (by decide)
  have hspace : Complete [' '.toUInt8] := complete_of_not_mem (by decide)
  refine ⟨(complete_of_not_mem (hnot (by decide))).append (hequals.append (hv.append hspace)), ?_⟩
  have hkey' : ':'.toUInt8 ∉ key := hnot (by decide)
  simp only [addString, List.mem_append, List.mem_cons, List.not_mem_nil, or_false, not_or]
  exact ⟨hkey', by decide, hcolon, by decide⟩

theorem flatMap_complete {pairs : List (List UInt8 × List UInt8)} (hkeys : ∀ p ∈ pairs, IsKey p.1) :
    Complete (pairs.flatMap fun p => addString p.1 p.2) ∧
      ':'.toUInt8 ∉ pairs.flatMap fun p => addString p.1 p.2 := by
  induction pairs with
  | nil => exact ⟨complete_of_not_mem List.not_mem_nil, List.not_mem_nil⟩
  | cons p pairs ih =>
    obtain ⟨hp, hpairs⟩ := List.forall_mem_cons.1 hkeys
    obtain ⟨hc, hcolon⟩ := addString_complete hp p.2
    obtain ⟨hcs, hcolons⟩ := ih hpairs
    rw [List.flatMap_cons]
    exact ⟨hc.append hcs, by simp only [List.mem_append, not_or]; exact ⟨hcolon, hcolons⟩⟩

theorem trim_infix (s : List UInt8) : Serializers.trim s <:+: s :=
  (List.rdropWhile_prefix _ _).isInfix.trans (List.dropWhile_suffix _).isInfix

/-- No value that C++ reads from a line that Java has written has an equals sign or a colon. -/
theorem plain_of_deSerialize {pairs : List (List UInt8 × List UInt8)} (hkeys : ∀ p ∈ pairs, IsKey p.1)
    {m : PairMap} (hm : Serializers.SingleLineSerializer.deSerialize
      (pairs.flatMap fun p => addString p.1 p.2) = some m) {key v : List UInt8} (hv : m[key]? = some v) :
    Plain v := by
  obtain ⟨hcomplete, hcolon⟩ := flatMap_complete hkeys
  have hpart := trim_infix (pairs.flatMap fun p => addString p.1 p.2)
  have hreads : ReadsPlain {} (Serializers.trim (pairs.flatMap fun p => addString p.1 p.2)) :=
    ⟨by simp, fun _ => rfl, plain_nil, hcomplete.chain.infix hpart,
      fun h => hcolon (hpart.subset h), by simp⟩
  obtain ⟨s, hs, rfl⟩ := Option.map_eq_some_iff.1 hm
  exact run_plain hreads hs hv

/-! ## Plain values -/

/-- What C++ writes for a value. -/
abbrev cppEscape (v : List UInt8) : List UInt8 := Serializers.SingleLineSerializer.escapeSingleLine v

/-- Both escape a plain value alike. -/
theorem escapeSingleLine_eq {v : List UInt8} (hv : Plain v) : escapeSingleLine v = cppEscape v := by
  refine List.flatMap_congr fun c hc => ?_
  have hequals : c ≠ '='.toUInt8 := fun h => hv.1 (h ▸ hc)
  have hcolon : c ≠ ':'.toUInt8 := fun h => hv.2 (h ▸ hc)
  simp [hequals, hcolon]

/-- The pairs, a space between any two. -/
def joined : List (List UInt8 × List UInt8) → List UInt8
  | [] => []
  | [p] => p.1 ++ '='.toUInt8 :: cppEscape p.2
  | p :: q :: rest => p.1 ++ '='.toUInt8 :: (cppEscape p.2 ++ ' '.toUInt8 :: joined (q :: rest))

theorem flatMap_addString {p : List UInt8 × List UInt8} {pairs : List (List UInt8 × List UInt8)}
    (hplain : ∀ q ∈ p :: pairs, Plain q.2) :
    ((p :: pairs).flatMap fun p => addString p.1 p.2) = joined (p :: pairs) ++ [' '.toUInt8] := by
  induction pairs generalizing p with
  | nil => simp [joined, addString, escapeSingleLine_eq (hplain p List.mem_cons_self)]
  | cons q pairs ih =>
    obtain ⟨hp, hpairs⟩ := List.forall_mem_cons.1 hplain
    rw [List.flatMap_cons, ih hpairs, addString, escapeSingleLine_eq hp, joined]
    simp

/-- Printable ASCII. -/
def Printable (v : List UInt8) : Prop := ∀ c ∈ v, 32 ≤ c ∧ c ≤ 126

instance : DecidablePred Printable := fun v => inferInstanceAs (Decidable (∀ c ∈ v, 32 ≤ c ∧ c ≤ 126))

theorem isspace_of_printable {c : UInt8} (h : 32 ≤ c ∧ c ≤ 126) (hspace : c ≠ ' '.toUInt8) :
    isspace c = false := by
  revert h hspace
  exact UrlSerializer.forall_byte (P := fun c => (32 ≤ c ∧ c ≤ 126) → c ≠ ' '.toUInt8 → isspace c = false)
    (by decide +kernel) c

theorem printable_cppEscape {v : List UInt8} (hv : Printable v) : Printable (cppEscape v) := by
  intro x hx
  obtain ⟨c, hc, hx⟩ := List.mem_flatMap.1 hx
  have hletter (l : UInt8) (hl : 32 ≤ l ∧ l ≤ 126) (hx : x ∈ ['%'.toUInt8, l]) : 32 ≤ x ∧ x ≤ 126 := by
    obtain rfl | hx := List.mem_cons.1 hx
    · decide
    · rwa [List.mem_singleton.1 hx]
  split at hx
  · exact hletter _ (by decide) hx
  · split at hx
    · exact hletter _ (by decide) hx
    · split at hx
      · exact hletter _ (by decide) hx
      · rw [List.mem_singleton.1 hx]
        exact hv c hc

theorem joined_last {p : List UInt8 × List UInt8} {pairs : List (List UInt8 × List UInt8)}
    (hvalues : ∀ q ∈ p :: pairs, Printable q.2) :
    ∃ l d, joined (p :: pairs) = l ++ [d] ∧ isspace d = false := by
  induction pairs generalizing p with
  | nil =>
    rcases List.eq_nil_or_concat (cppEscape p.2) with hnil | ⟨t, d, hd⟩
    · exact ⟨p.1, '='.toUInt8, by rw [joined, hnil], by decide⟩
    · rw [List.concat_eq_append] at hd
      have hmem : d ∈ cppEscape p.2 := by simp [hd]
      refine ⟨p.1 ++ '='.toUInt8 :: t, d, by simp [joined, hd], ?_⟩
      refine isspace_of_printable (printable_cppEscape (hvalues p List.mem_cons_self) d hmem) ?_
      rintro rfl
      exact Serializers.SingleLineSerializer.codec.no_separator _ hmem
  | cons q pairs ih =>
    obtain ⟨l, d, hl, hd⟩ := ih (p := q) (List.forall_mem_cons.1 hvalues).2
    exact ⟨p.1 ++ '='.toUInt8 :: (cppEscape p.2 ++ ' '.toUInt8 :: l), d, by simp [joined, hl], hd⟩

theorem joined_first {p : List UInt8 × List UInt8} (hp : IsKey p.1) (pairs : List (List UInt8 × List UInt8)) :
    ∃ c l, joined (p :: pairs) = c :: l ∧ isspace c = false := by
  obtain ⟨c, cs, hc⟩ := List.exists_cons_of_ne_nil hp.1
  have hspace := isspace_of_isalnum (hp.2 c (hc ▸ List.mem_cons_self))
  cases pairs with
  | nil => exact ⟨c, _, by rw [joined, hc]; rfl, hspace⟩
  | cons q pairs => exact ⟨c, _, by rw [joined, hc]; rfl, hspace⟩

theorem run_joined {pairs : List (List UInt8 × List UInt8)} (hkeys : ∀ p ∈ pairs, IsKey p.1) (m : PairMap) :
    ∃ s, PairParser.run ' '.toUInt8
      (fun v => some (Serializers.SingleLineSerializer.unEscapeSingleLine v)) ⟨.start, [], [], m⟩
      (joined pairs) = some s ∧ s.map = insertAll m pairs := by
  induction pairs generalizing m with
  | nil => exact ⟨_, rfl, rfl⟩
  | cons p pairs ih =>
    obtain ⟨hp, hpairs⟩ := List.forall_mem_cons.1 hkeys
    cases pairs with
    | nil => exact run_last Serializers.SingleLineSerializer.codec hp p.2 m
    | cons q pairs =>
      rw [joined, run_pair Serializers.SingleLineSerializer.codec hp]
      exact ih hpairs _

/-- **What C++ reads** of plain values that Java has written. -/
theorem deSerialize_flatMap {p : List UInt8 × List UInt8} {pairs : List (List UInt8 × List UInt8)}
    (hkeys : ∀ q ∈ p :: pairs, IsKey q.1) (hvalues : ∀ q ∈ p :: pairs, Printable q.2)
    (hplain : ∀ q ∈ p :: pairs, Plain q.2) :
    Serializers.SingleLineSerializer.deSerialize ((p :: pairs).flatMap fun p => addString p.1 p.2) =
      some (insertAll ∅ (p :: pairs)) := by
  have htrim := trim_append (joined_first (hkeys p List.mem_cons_self) pairs) (joined_last hvalues)
    [' '.toUInt8]
  have hspace : [' '.toUInt8].rdropWhile isspace = [] := by decide
  obtain ⟨s, hs, hmap⟩ := run_joined hkeys ∅
  rw [Serializers.SingleLineSerializer.deSerialize, Serializers.deSerialize, flatMap_addString hplain, htrim,
    hspace, List.append_nil]
  exact Option.map_eq_some_iff.2 ⟨s, hs, hmap⟩

end Oreka.Orkbasej.SingleLineSerializer
