import Oreka.Orkbasej.Proof.CppLines

/-!
# Where the two single-line serialisers agree

`agree_iff`: on pairs of plain values, whose keys fit the buffer of `FormatV`, and of which those with the
same key in lower case have the same value.
-/

open Std

namespace Oreka.Orkbasej.SingleLineSerializer

open Serializers KeyedMap LineParser

/-- Each side reads, of the line that the other has written, the map of these pairs; the keys as it looks
them up. Java writes its class name first, and the pairs begin with it. -/
structure Agree (classKey className : List UInt8) (pairs : List (List UInt8 × List UInt8))
    (m m' : PairMap) (first : Option (List UInt8)) : Prop where
  cpp : Serializers.SingleLineSerializer.deSerialize (serialize classKey className pairs) = some m
  java : deSerialize (Serializers.SingleLineSerializer.serialize ((classKey, className) :: pairs)) =
    .ok (m', first)
  values : ∀ p ∈ (classKey, className) :: pairs, m[p.1]? = some p.2 ∧ get m' p.1 = some p.2
  cppKeys : ∀ key v : List UInt8, m[key]? = some v → ∃ p ∈ (classKey, className) :: pairs, key = p.1
  javaKeys : ∀ key v : List UInt8, m'[key]? = some v →
    ∃ p ∈ (classKey, className) :: pairs, key = toLowerCase p.1

/-- The pairs as Java's map has them. -/
def lowered (p : List UInt8 × List UInt8) : List UInt8 × List UInt8 := (toLowerCase p.1, p.2)

theorem length_toLowerCase (s : List UInt8) : (toLowerCase s).length = s.length := by simp [toLowerCase]

variable {pairs : List (List UInt8 × List UInt8)}

/-- Pairs whose keys fit are read. -/
theorem run_lines (hkeys : ∀ p ∈ pairs, IsKey p.1) (hplain : ∀ p ∈ pairs, Plain p.2)
    (hfit : KeysFit pairs) (input : List UInt8) (i : Nat) (m : PairMap) (first : Option (List UInt8)) :
    ∃ s, run input i ⟨.startState, [], [], m, first⟩
        (lines ' '.toUInt8 Serializers.SingleLineSerializer.escapeSingleLine [] pairs) = .ok s ∧
      s.map = putAll m (pairs.map lowered) := by
  induction pairs generalizing i m first with
  | nil => exact ⟨_, rfl, rfl⟩
  | cons p rest ih =>
    obtain ⟨hp, hrest⟩ := List.forall_mem_cons.1 hkeys
    obtain ⟨hv, hvs⟩ := List.forall_mem_cons.1 hplain
    cases rest with
    | nil =>
      obtain hshort | ⟨hlen, hnil, -⟩ := hfit.1
      · rw [lines, formatKey_short hshort, List.append_assoc, List.append_nil]
        exact run_last input i m first hp hv
      · have htake : p.1.take 1025 = p.1 := List.take_of_length_le (Nat.le_of_eq hlen)
        have hall : putAll m ([p].map lowered) = m.insert (toLowerCase (p.1 ++ [])) [] := by
          simp [putAll, lowered, hnil]
        rw [lines, formatKey_long (Nat.le_of_eq hlen.symm), htake, hnil, hall]
        exact run_start_end input i m first hp.2 hp.1 (fun _ h => absurd h List.not_mem_nil)
    | cons q rest =>
      have hshort : p.1.length ≤ 1024 := by simpa using hfit.1
      obtain ⟨j, first', hj⟩ := run_pair input i m first hp hv
        (lines ' '.toUInt8 Serializers.SingleLineSerializer.escapeSingleLine [] (q :: rest))
      obtain ⟨s, hs, hmap⟩ := ih hrest hvs hfit.2 j (m.insert (toLowerCase p.1) p.2) first'
      refine ⟨s, ?_, hmap⟩
      rw [lines, Serializers.addString, formatKey_short hshort, List.append_assoc, List.append_assoc,
        List.append_assoc, List.singleton_append, List.singleton_append]
      exact hj.trans hs

/-- Where a key does not fit, the pair is not read. -/
theorem keysFit_of_run (hkeys : ∀ p ∈ pairs, IsKey p.1) (hplain : ∀ p ∈ pairs, Plain p.2)
    {input : List UInt8} {i : Nat} {m : PairMap} {first : Option (List UInt8)} {s : LineParser}
    (hm : ∀ key v : List UInt8, m[key]? = some v → key.length ≤ 1024)
    (hs : run input i ⟨.startState, [], [], m, first⟩
      (lines ' '.toUInt8 Serializers.SingleLineSerializer.escapeSingleLine [] pairs) = .ok s)
    (hvalues : ∀ p ∈ pairs, get s.map p.1 = some p.2) : KeysFit pairs := by
  induction pairs generalizing i m first with
  | nil => trivial
  | cons p rest ih =>
    obtain ⟨hp, hrest⟩ := List.forall_mem_cons.1 hkeys
    obtain ⟨hv, hvs⟩ := List.forall_mem_cons.1 hplain
    obtain ⟨hvalue, hvalues⟩ := List.forall_mem_cons.1 hvalues
    have hequals : '='.toUInt8 ∉ cppEscape p.2 := Serializers.SingleLineSerializer.codec.no_equals p.2
    by_cases hshort : p.1.length ≤ 1024
    · cases rest with
      | nil => exact ⟨.inl hshort, trivial⟩
      | cons q rest =>
        obtain ⟨j, first', hj⟩ := run_pair input i m first hp hv
          (lines ' '.toUInt8 Serializers.SingleLineSerializer.escapeSingleLine [] (q :: rest))
        rw [lines, Serializers.addString, formatKey_short hshort, List.append_assoc, List.append_assoc,
          List.append_assoc, List.singleton_append, List.singleton_append] at hs
        refine ⟨.inl hshort, ih hrest hvs (fun key v h => ?_) (hj.symm.trans hs) hvalues⟩
        rw [getElem?_insert] at h
        split at h
        · rename_i hkey
          rw [← hkey, length_toLowerCase]
          exact hshort
        · exact hm key v h
    · have hlong : 1025 ≤ p.1.length := Nat.lt_of_not_le hshort
      cases rest with
      | cons q rest =>
        -- The space behind the pair comes before the next equals sign.
        have hspace : ∃ c ∈ cppEscape p.2 ++ [' '.toUInt8], isLetterOrDigit c = false :=
          ⟨' '.toUInt8, by simp, by decide⟩
        have hnot : '='.toUInt8 ∉ cppEscape p.2 ++ [' '.toUInt8] := by
          simp only [List.mem_append, not_or]
          exact ⟨hequals, by decide⟩
        rw [lines, Serializers.addString, formatKey_long hlong, List.append_assoc, List.append_assoc,
          ← List.append_assoc (cppEscape p.2)] at hs
        exact absurd hs (run_cut input i m first hp.take hnot hspace)
      | nil =>
        rw [lines, formatKey_long hlong] at hs
        by_cases hletters : ∃ c ∈ cppEscape p.2, isLetterOrDigit c = false
        · exact absurd hs (run_cut input i m first hp.take hequals hletters)
        · -- What is read has the whole line for its key.
          have hall : ∀ c ∈ cppEscape p.2, isLetterOrDigit c = true := fun c hc => by
            simpa using fun h => hletters ⟨c, hc, h⟩
          obtain ⟨s', hs', hmap⟩ := run_start_end input i m first hp.take.2 hp.take.1 hall
          rw [List.append_nil] at hs
          have hsame : s' = s := Except.ok.inj (hs'.symm.trans hs)
          rw [← hsame, get, hmap, getElem?_insert] at hvalue
          split at hvalue
          · rename_i hkey
            have hnil : p.2 = [] := (Option.some.inj hvalue).symm
            rw [hnil] at hkey
            have hlen := congrArg List.length hkey
            simp only [length_toLowerCase, List.length_append, List.length_take] at hlen
            have hzero : (cppEscape []).length = 0 := rfl
            exact ⟨.inr ⟨by omega, hnil, rfl⟩, trivial⟩
          · have hlen := hm _ _ hvalue
            rw [length_toLowerCase] at hlen
            omega

/-! ## Trimming in Java -/

theorem dropWhile_congr {f g : UInt8 → Bool} {l : List UInt8} (h : ∀ c ∈ l, f c = g c) :
    l.dropWhile f = l.dropWhile g := by
  induction l with
  | nil => rfl
  | cons c l ih =>
    obtain ⟨hc, hl⟩ := List.forall_mem_cons.1 h
    rw [List.dropWhile_cons, List.dropWhile_cons, hc, ih hl]

/-- Of text without control characters both trim the same. -/
theorem trim_eq {s : List UInt8} (h : ∀ c ∈ s, 32 ≤ c) : trim s = Serializers.trim s := by
  have hspace : ∀ c ∈ s, decide (c ≤ 32) = isspace c := fun c hc => by
    have hle : c ≤ 32 ↔ c = 32 := ⟨fun hle => UInt8.le_antisymm hle (h c hc), fun he => he ▸ UInt8.le_refl _⟩
    have hsmall : ¬ c ≤ 13 := fun hle => absurd (UInt8.le_trans (h c hc) hle) (by decide)
    simp [isspace, hsmall, hle, Bool.beq_eq_decide_eq]
  have hdrop : s.dropWhile (· ≤ 32) = s.dropWhile isspace := dropWhile_congr hspace
  have hmem : ∀ c ∈ (s.dropWhile isspace).reverse, decide (c ≤ 32) = isspace c := fun c hc =>
    hspace c ((List.dropWhile_suffix _).subset (List.mem_reverse.1 hc))
  rw [trim, Serializers.trim, hdrop, List.rdropWhile, List.rdropWhile, dropWhile_congr hmem]

theorem le_of_isalnum {c : UInt8} (h : isalnum c = true) : 32 ≤ c := by
  simp only [isalnum, Bool.or_eq_true, Bool.and_eq_true, decide_eq_true_eq, UInt8.le_iff_toNat_le] at h ⊢
  simp at h ⊢
  omega

theorem printable_serialize (hkeys : ∀ p ∈ pairs, IsKey p.1) (hvalues : ∀ p ∈ pairs, Printable p.2) :
    ∀ c ∈ Serializers.SingleLineSerializer.serialize pairs, 32 ≤ c := by
  intro c hc
  obtain ⟨p, hp, hc⟩ := List.mem_flatMap.1 hc
  simp only [Serializers.SingleLineSerializer.addString, Serializers.addString, List.mem_append,
    List.mem_singleton] at hc
  obtain hc | hc | rfl := hc
  · obtain hc | hc := List.mem_append.1 (List.mem_of_mem_take hc)
    · exact le_of_isalnum ((hkeys p hp).2 c hc)
    · rw [List.mem_singleton.1 hc]
      decide
  · exact (printable_cppEscape (hvalues p hp) c hc).1
  · decide

/-- What Java trims of a line of C++ is the space at its end. -/
theorem trim_lines (hkeys : ∀ p ∈ pairs, IsKey p.1) (hvalues : ∀ p ∈ pairs, Printable p.2)
    (hne : pairs ≠ []) : trim (Serializers.SingleLineSerializer.serialize pairs) =
      lines ' '.toUInt8 Serializers.SingleLineSerializer.escapeSingleLine [] pairs := by
  rw [trim_eq (printable_serialize hkeys hvalues)]
  rcases List.eq_nil_or_concat pairs with hnil | ⟨init, p, hp⟩
  · exact absurd hnil hne
  rw [List.concat_eq_append] at hp
  subst hp
  have hlast : Serializers.SingleLineSerializer.trimmed p = p := by
    refine (Serializers.SingleLineSerializer.lastFits_iff init p).1 fun q hq c hc => ?_
    have hprintable := hvalues q (List.mem_of_getLast? hq) c (List.mem_of_getLast? hc)
    have hsmall : ¬ c ≤ 13 := fun hle => absurd (UInt8.le_trans hprintable.1 hle) (by decide)
    simp [Serializers.SingleLineSerializer.isControlSpace, hsmall]
  rw [Serializers.SingleLineSerializer.trim_serialize hkeys, hlast]

/-! ## Agreement -/

/-- Of entries of which those with the same key are the same, each is found. -/
theorem lookup_of_unique {p : List UInt8 × List UInt8} (hp : p ∈ pairs)
    (hunique : ∀ q ∈ pairs, q.1 = p.1 → q.2 = p.2) : pairs.lookup p.1 = some p.2 := by
  cases hlookup : pairs.lookup p.1 with
  | none =>
    have hnone := List.lookup_eq_none_iff.1 hlookup p hp
    simp at hnone
  | some v => exact congrArg some (hunique (p.1, v) (mem_of_lookup hlookup) rfl)

/-- No two keys that are the same in lower case have different values. -/
def KeysAgree (pairs : List (List UInt8 × List UInt8)) : Prop :=
  ∀ p ∈ pairs, ∀ q ∈ pairs, toLowerCase p.1 = toLowerCase q.1 → p.2 = q.2

instance (pairs : List (List UInt8 × List UInt8)) : Decidable (KeysAgree pairs) :=
  inferInstanceAs (Decidable (∀ p ∈ pairs, ∀ q ∈ pairs, _))

theorem getElem?_insertAll_of_mem (hagree : KeysAgree pairs) {p : List UInt8 × List UInt8} (hp : p ∈ pairs) :
    (insertAll ∅ pairs)[p.1]? = some p.2 := by
  rw [getElem?_insertAll, lookup_of_unique hp fun q hq h => hagree q hq p hp (congrArg toLowerCase h)]
  simp

theorem get_putAll_of_mem (hagree : KeysAgree pairs) {p : List UInt8 × List UInt8} (hp : p ∈ pairs) :
    get (putAll ∅ (pairs.map lowered)) p.1 = some p.2 := by
  have hmem : lowered p ∈ (pairs.map lowered).reverse := by
    rw [List.mem_reverse]
    exact List.mem_map_of_mem hp
  have hunique : ∀ q ∈ (pairs.map lowered).reverse, q.1 = (lowered p).1 → q.2 = (lowered p).2 := by
    intro q hq hkey
    obtain ⟨r, hr, rfl⟩ := List.mem_map.1 (List.mem_reverse.1 hq)
    exact hagree r hr p hp hkey
  have hlookup := lookup_of_unique hmem hunique
  rw [get, getElem?_putAll, show toLowerCase p.1 = (lowered p).1 from rfl, hlookup]
  rfl

/-- **Either side reads what the other has written** exactly where no value has a colon or an equals sign,
keys that are the same in lower case have the same value, and the keys fit the buffer of `FormatV`. -/
theorem agree_iff (classKey className : List UInt8) (pairs : List (List UInt8 × List UInt8))
    (hkeys : ∀ p ∈ (classKey, className) :: pairs, IsKey p.1)
    (hvalues : ∀ p ∈ (classKey, className) :: pairs, Printable p.2) :
    (∃ m m' first, Agree classKey className pairs m m' first) ↔
      (∀ p ∈ (classKey, className) :: pairs, Plain p.2) ∧
      KeysAgree ((classKey, className) :: pairs) ∧ KeysFit ((classKey, className) :: pairs) := by
  have htrim := trim_lines hkeys hvalues (List.cons_ne_nil _ _)
  have hline : serialize classKey className pairs =
      ((classKey, className) :: pairs).flatMap fun p => addString p.1 p.2 := rfl
  constructor
  · rintro ⟨m, m', first, h⟩
    have hplain : ∀ p ∈ (classKey, className) :: pairs, Plain p.2 := fun p hp =>
      plain_of_deSerialize hkeys (hline ▸ h.cpp) (h.values p hp).1
    refine ⟨hplain, fun p hp q hq hkey => ?_, ?_⟩
    · have hvalue := (h.values p hp).2
      rw [get, hkey] at hvalue
      exact Option.some.inj (hvalue.symm.trans (h.values q hq).2)
    · have hjava := h.java
      rw [deSerialize, htrim] at hjava
      cases hrun : run (lines ' '.toUInt8 Serializers.SingleLineSerializer.escapeSingleLine []
        ((classKey, className) :: pairs)) 0 {} (lines ' '.toUInt8
        Serializers.SingleLineSerializer.escapeSingleLine [] ((classKey, className) :: pairs)) with
      | error e =>
        rw [hrun] at hjava
        cases hjava
      | ok s =>
        rw [hrun] at hjava
        cases hjava
        exact keysFit_of_run hkeys hplain (by simp) hrun fun p hp => (h.values p hp).2
  · rintro ⟨hplain, hagree, hfit⟩
    obtain ⟨s, hs, hmap⟩ := run_lines hkeys hplain hfit
      (lines ' '.toUInt8 Serializers.SingleLineSerializer.escapeSingleLine []
        ((classKey, className) :: pairs)) 0 ∅ none
    refine ⟨insertAll ∅ ((classKey, className) :: pairs), s.map, s.firstValue, ?_, ?_, ?_, ?_, ?_⟩
    · rw [hline]
      exact deSerialize_flatMap hkeys hvalues hplain
    · rw [deSerialize, htrim, hs]
      rfl
    · rw [hmap]
      exact fun p hp => ⟨getElem?_insertAll_of_mem hagree hp, get_putAll_of_mem hagree hp⟩
    · intro key v hv
      rw [getElem?_insertAll] at hv
      exact ⟨(key, v), mem_of_lookup (by simpa using hv), rfl⟩
    · intro key v hv
      rw [hmap, getElem?_putAll] at hv
      have hmem : (key, v) ∈ (((classKey, className) :: pairs).map lowered).reverse :=
        mem_of_lookup (by simpa using hv)
      obtain ⟨p, hp, heq⟩ := List.mem_map.1 (List.mem_reverse.1 hmem)
      exact ⟨p, hp, (congrArg Prod.fst heq).symm⟩

/-- Spaces and percent signs come over, to Java under the key in lower case. -/
theorem agree_metadata : ∃ m m' first, Agree (bytes "type") (bytes "metadata")
    [(bytes "localParty", bytes "John 100%"), (bytes "LocalParty", bytes "John 100%"), (bytes "dtmf", [])]
    m m' first :=
  (agree_iff _ _ _ (by decide +kernel) (by decide +kernel)).2
    ⟨by decide, by decide, by decide⟩

/-- A colon does not. -/
theorem not_agree_colon : ¬ ∃ m m' first, Agree (bytes "type") (bytes "metadata")
    [(bytes "remoteParty", bytes "sip:100")] m m' first := by
  rintro ⟨m, m', first, h⟩
  have hkeys : ∀ p ∈ [(bytes "type", bytes "metadata"), (bytes "remoteParty", bytes "sip:100")], IsKey p.1 := by
    decide +kernel
  have hplain : Plain (bytes "sip:100") :=
    plain_of_deSerialize hkeys h.cpp (h.values (bytes "remoteParty", bytes "sip:100") (by simp)).1
  exact absurd hplain (by decide)

end Oreka.Orkbasej.SingleLineSerializer
