import Mathlib.Data.Nat.Find
import Oreka.Sip.HeaderSearch
import Oreka.Sip.Proof.Framing

/-!
# What the searches find

The first place in a buffer where a token stands, in whatever case, is what each of the searches should
find. All of them do exactly where the first character of that place has the case it has in the token,
or the place is the start, and where no beginning of a token that is missing ends the buffer
(`findsToken_iff`): `memchr` goes by the case, and the comparison goes on behind the buffer, or stops
there.
-/

namespace Oreka.Sip

open Net (byte byte_append byte_append_right)

/-- The token stands at `p`, as a whole within the buffer. -/
def Occurs (f b : List UInt8) (p : Nat) : Prop :=
  p < b.length ∧ p + f.length ≤ b.length ∧ ∀ i < f.length, toLower (byte b (p + i)) = toLower (byte f i)

/-- The leftmost place of the token. -/
def IsFirst (f b : List UInt8) (p : Nat) : Prop := Occurs f b p ∧ ∀ q < p, ¬ Occurs f b q

/-- The buffer ends within a token that begins at `p`. -/
def CutAt (f b : List UInt8) (p : Nat) : Prop :=
  p < b.length ∧ b.length < p + f.length ∧ ∀ i, p + i < b.length → toLower (byte b (p + i)) = toLower (byte f i)

theorem exists_first {f b : List UInt8} {p : Nat} (h : Occurs f b p) : ∃ q, IsFirst f b q := by
  classical
  have hex : ∃ q, Occurs f b q := ⟨p, h⟩
  exact ⟨Nat.find hex, Nat.find_spec hex, fun q hq => Nat.find_min hex hq⟩

/-! ## Comparisons -/

section
variable {f b t : List UInt8} {p : Nat}

theorem matchesAt_inside (hp : p < b.length) (h : p + f.length ≤ b.length) :
    matchesAt f (b ++ t) p = true ↔ Occurs f b p := by
  have hbyte : ∀ i < f.length, byte (b ++ t) (p + i) = byte b (p + i) := fun i hi => byte_append (by omega)
  rw [matchesAt_iff]
  constructor
  · intro hm
    exact ⟨hp, h, fun i hi => by rw [← hbyte i hi, hm i hi]⟩
  · intro hm i hi
    rw [hbyte i hi, hm.2.2 i hi]

/-- A comparison that goes on behind the buffer. -/
theorem cutAt_of_matchesAt (hp : p < b.length) (h : b.length < p + f.length)
    (hm : matchesAt f (b ++ t) p = true) : CutAt f b p := by
  refine ⟨hp, h, fun i hi => ?_⟩
  rw [← matchesAt_iff.1 hm i (by omega), byte_append hi]

/-- A comparison that stops at the end of the buffer. -/
theorem matchesAt_take (hp : p < b.length) : matchesAt (f.take (b.length - p)) (b ++ t) p = true ↔
    Occurs f b p ∨ CutAt f b p := by
  rcases Nat.lt_or_ge b.length (p + f.length) with hout | hin
  · have hnot : ¬ Occurs f b p := fun h => absurd h.2.1 (by omega)
    have hlength : (f.take (b.length - p)).length = b.length - p := by
      rw [List.length_take]
      omega
    have hbyte : ∀ i < b.length - p, byte (f.take (b.length - p)) i = byte f i := by
      intro i hi
      simp [byte, hi]
    rw [or_iff_right hnot, matchesAt_iff, hlength]
    constructor
    · intro hm
      refine ⟨hp, hout, fun i hi => ?_⟩
      rw [← hbyte i (by omega), ← hm i (by omega), byte_append hi]
    · intro hm i hi
      rw [hbyte i hi, byte_append (by omega), hm.2.2 i (by omega)]
  · have hnot : ¬ CutAt f b p := fun h => absurd h.2.1 (by omega)
    rw [or_iff_left hnot, List.take_of_length_le (by omega)]
    exact matchesAt_inside hp hin

end

/-! ## Searches -/

section
variable {f b t : List UInt8} {candidate : Nat → Prop} {hit : Nat → Bool}

/-- The place at which a search ends. -/
def FirstHit (candidate : Nat → Prop) (hit : Nat → Bool) (stop q : Nat) : Prop :=
  Search.Hits candidate hit stop 0 q ∧ ∀ r < q, ¬ Search.Hits candidate hit stop 0 r

theorem exists_firstHit {stop p : Nat} (h : Search.Hits candidate hit stop 0 p) :
    ∃ q, FirstHit candidate hit stop q := by
  classical
  have hex : ∃ q, Search.Hits candidate hit stop 0 q := ⟨p, h⟩
  exact ⟨Nat.find hex, Nat.find_spec hex, fun q hq => Nat.find_min hex hq⟩

/-- A search that compares at the leftmost place, and succeeds nowhere where the token is missing, finds
it. -/
theorem firstHit_iff (inside : ∀ p < b.length, p + f.length ≤ b.length → (hit p = true ↔ Occurs f b p))
    (first : ∀ p, IsFirst f b p → p = 0 ∨ candidate p)
    (outside : (∀ p, ¬ Occurs f b p) → ∀ p < b.length, b.length < p + f.length → hit p = false) (q : Nat) :
    FirstHit candidate hit b.length q ↔ IsFirst f b q := by
  have hits_first : ∀ p, IsFirst f b p → Search.Hits candidate hit b.length 0 p := by
    intro p hp
    exact ⟨Nat.zero_le p, hp.1.1, first p hp, (inside p hp.1.1 hp.1.2.1).2 hp.1⟩
  have hits_inside : ∀ p, p + f.length ≤ b.length → Search.Hits candidate hit b.length 0 p → Occurs f b p :=
    fun p hp h => (inside p h.2.1 hp).1 h.2.2.2
  constructor
  · rintro ⟨hq, hfirst⟩
    by_cases hex : ∃ p, Occurs f b p
    · obtain ⟨p, hp⟩ := hex.elim fun p hp => exists_first hp
      have hle : q ≤ p := by
        by_contra hlt
        exact hfirst p (by omega) (hits_first p hp)
      have hin := hp.1.2.1
      have hoccurs := hits_inside q (by omega) hq
      rcases Nat.eq_or_lt_of_le hle with rfl | hlt
      · exact hp
      · exact absurd hoccurs (hp.2 q hlt)
    · have hnone : ∀ p, ¬ Occurs f b p := fun p hp => hex ⟨p, hp⟩
      rcases Nat.lt_or_ge b.length (q + f.length) with hout | hin
      · have hhit := hq.2.2.2
        rw [outside hnone q hq.2.1 hout] at hhit
        cases hhit
      · exact absurd (hits_inside q hin hq) (hnone q)
  · intro hq
    refine ⟨hits_first q hq, fun r hr hits => ?_⟩
    have hin := hq.1.2.1
    exact hq.2 r hr (hits_inside r (by omega) hits)

end

section
variable {f mem : List UInt8} {stop e : Nat}

theorem searchLoop_eq_some {next : Nat → Option Nat} {hit : Nat → Bool} {candidate : Nat → Prop}
    (h : Search.Steps next candidate stop) : searchLoop next hit stop = some e ↔ FirstHit candidate hit stop e :=
  Search.loop_eq_some_iff h stop 0 (by omega)

/-- The candidates of `memchr`, and of `memnchr`. -/
def SameByte (f mem : List UInt8) (p : Nat) : Prop := byte mem p = byte f 0

def SameLetter (f mem : List UInt8) (p : Nat) : Prop := toLower (byte mem p) = toLower (byte f 0)

theorem steps_memchr {n : Nat → Nat} (hn : ∀ p, stop - p - 1 ≤ n p) :
    Search.Steps (fun p => memchr mem (p + 1) (byte f 0) (n p)) (SameByte f mem) stop := by
  have h : Search.Steps (fun p => memchr mem (p + 1) (byte f 0) (n p)) (fun p => decide (byte mem p = byte f 0)) stop :=
    steps_find (fun p => rfl) hn
  have hcandidate : (fun p => decide (byte mem p = byte f 0) = true) = SameByte f mem := by
    funext p
    exact decide_eq_true_eq
  exact hcandidate ▸ h

theorem steps_memnchr : Search.Steps (fun p => memnchr mem (p + 1) (byte f 0) (stop - p - 1)) (SameLetter f mem)
    stop := by
  have h : Search.Steps (fun p => memnchr mem (p + 1) (byte f 0) (stop - p - 1))
      (fun p => decide (byte mem p = toLower (byte f 0) ∨ byte mem p = toUpper (byte f 0))) stop :=
    steps_find (fun p => rfl) fun p => le_rfl
  have hcandidate : (fun p => decide (byte mem p = toLower (byte f 0) ∨ byte mem p = toUpper (byte f 0)) = true) =
      SameLetter f mem := by
    funext p
    rw [decide_eq_true_eq, toUpper_or_toLower]
    rfl
  exact hcandidate ▸ h

theorem memFindStr_eq_some : ParsingUtils.memFindStr f mem stop = some e ↔
    FirstHit (SameByte f mem) (fun p => matchesAt (f.take (stop - p)) mem p) stop e :=
  searchLoop_eq_some (steps_memchr fun _ => le_rfl)

theorem parsingUtils_memFindAfter_eq_some : ParsingUtils.memFindAfter f mem stop = some e ↔
    ∃ p, FirstHit (SameLetter f mem) (matchesAt f mem) stop p ∧ e = p + f.length := by
  unfold ParsingUtils.memFindAfter
  rw [Option.map_eq_some_iff]
  exact exists_congr fun p => and_congr (searchLoop_eq_some steps_memnchr) eq_comm

theorem memUtils_memFindAfter_eq_some : MemUtils.memFindAfter f mem stop = some e ↔
    ∃ p, FirstHit (SameByte f mem) (matchesAt f mem) stop p ∧ e = p + f.length := by
  unfold MemUtils.memFindAfter
  rw [Option.map_eq_some_iff]
  exact exists_congr fun p => and_congr (searchLoop_eq_some (steps_memchr fun _ => by omega)) eq_comm

theorem sipTcp_memFindAfter_eq_some : memFindAfter f mem stop = some e ↔
    ∃ p, FirstHit (SameByte f mem) (matchesAt f mem) stop p ∧ e = p + f.length := by
  have hits : ∀ p, p < stop → (Search.Hits (SameByte f mem) (matchesAt f mem) stop 0 p ↔ Hit f mem p) := by
    intro p hp
    unfold Search.Hits Hit SameByte
    simp [hp]
  rw [memFindAfter_eq_some]
  constructor
  · rintro ⟨p, hp, hhit, hfirst, rfl⟩
    exact ⟨p, ⟨(hits p hp).2 hhit, fun r hr h => hfirst r hr ((hits r (by omega)).1 h)⟩, rfl⟩
  · rintro ⟨p, ⟨hhit, hfirst⟩, rfl⟩
    have hp := hhit.2.1
    exact ⟨p, hp, (hits p hp).1 hhit, fun r hr h => hfirst r hr ((hits r (by omega)).2 h), rfl⟩

end

/-! ## All searches -/

/-- What is said of the searches: each finds the leftmost place of the token in the buffer, or nothing
where there is none, whatever lies behind the buffer. -/
structure FindsToken (f b : List UInt8) : Prop where
  sipTcp : ∀ t e, memFindAfter f (b ++ t) b.length = some e ↔ ∃ p, IsFirst f b p ∧ e = p + f.length
  parsingUtils : ∀ t e, ParsingUtils.memFindAfter f (b ++ t) b.length = some e ↔
    ∃ p, IsFirst f b p ∧ e = p + f.length
  memUtils : ∀ t e, MemUtils.memFindAfter f (b ++ t) b.length = some e ↔ ∃ p, IsFirst f b p ∧ e = p + f.length
  memFindStr : ∀ t p, ParsingUtils.memFindStr f (b ++ t) b.length = some p ↔ IsFirst f b p

/-- The token has the case it is searched in, at its leftmost place, unless that is the start; and where
it is missing, the buffer does not end with a beginning of it. -/
def Searchable (f b : List UInt8) : Prop :=
  (∀ p, IsFirst f b p → p = 0 ∨ byte b p = byte f 0) ∧ ((∀ p, ¬ Occurs f b p) → ∀ p, ¬ CutAt f b p)

/-- A token cut by the end of the buffer, with the rest of it in the memory behind. -/
theorem matchesAt_of_cutAt {f b : List UInt8} {p : Nat} (h : CutAt f b p) :
    matchesAt f (b ++ f.drop (b.length - p)) p = true := by
  rw [matchesAt_iff]
  intro i hi
  rcases Nat.lt_or_ge (p + i) b.length with hin | hout
  · rw [byte_append hin, h.2.2 i hin]
  · have hp := h.1
    have hrest : byte (b ++ f.drop (b.length - p)) (p + i) = byte f i := by
      rw [show p + i = b.length + (p + i - b.length) by omega, byte_append_right, Net.byte_drop]
      congr 1
      omega
    rw [hrest]

/-- **The searches find the token** exactly in a buffer that is searchable for it. -/
theorem findsToken_iff (f b : List UInt8) : FindsToken f b ↔ Searchable f b := by
  constructor
  · intro h
    refine ⟨fun p hp => ?_, fun hnone p hcut => ?_⟩
    · obtain ⟨q, hq, heq⟩ := sipTcp_memFindAfter_eq_some.1 ((h.sipTcp [] (p + f.length)).2 ⟨p, hp, rfl⟩)
      obtain rfl : p = q := Nat.add_right_cancel heq
      have hcandidate := hq.1.2.2.1
      rwa [List.append_nil] at hcandidate
    · have hhit : Search.Hits (SameLetter f (b ++ f.drop (b.length - p)))
          (matchesAt f (b ++ f.drop (b.length - p))) b.length 0 p := by
        have hm := matchesAt_of_cutAt hcut
        have hfirst : SameLetter f (b ++ f.drop (b.length - p)) p := matchesAt_iff.1 hm 0 (by
          have := hcut.1
          have := hcut.2.1
          omega)
        exact ⟨Nat.zero_le p, hcut.1, .inr hfirst, hm⟩
      obtain ⟨q, hq⟩ := exists_firstHit hhit
      obtain ⟨r, hr, -⟩ := (h.parsingUtils _ _).1 (parsingUtils_memFindAfter_eq_some.2 ⟨q, hq, rfl⟩)
      exact hnone r hr.1
  · rintro ⟨hcase, hcut⟩
    have hcandidate : ∀ t p, IsFirst f b p → p = 0 ∨ SameByte f (b ++ t) p := by
      intro t p hp
      unfold SameByte
      rw [byte_append hp.1.1]
      exact hcase p hp
    have hletter : ∀ t p, IsFirst f b p → p = 0 ∨ SameLetter f (b ++ t) p := by
      intro t p hp
      exact (hcandidate t p hp).imp_right (congrArg toLower)
    have hinside : ∀ t, ∀ p < b.length, p + f.length ≤ b.length →
        (matchesAt f (b ++ t) p = true ↔ Occurs f b p) := fun t p hp hin => matchesAt_inside hp hin
    have houtside : ∀ t, (∀ p, ¬ Occurs f b p) → ∀ p < b.length, b.length < p + f.length →
        matchesAt f (b ++ t) p = false := by
      intro t hnone p hp hout
      rw [Bool.eq_false_iff]
      exact fun hm => hcut hnone p (cutAt_of_matchesAt hp hout hm)
    refine ⟨fun t e => ?_, fun t e => ?_, fun t e => ?_, fun t p => ?_⟩
    · rw [sipTcp_memFindAfter_eq_some]
      simp only [firstHit_iff (hinside t) (hcandidate t) (houtside t)]
    · rw [parsingUtils_memFindAfter_eq_some]
      simp only [firstHit_iff (hinside t) (hletter t) (houtside t)]
    · rw [memUtils_memFindAfter_eq_some]
      simp only [firstHit_iff (hinside t) (hcandidate t) (houtside t)]
    · rw [memFindStr_eq_some]
      refine firstHit_iff (fun q hq hin => ?_) (hcandidate t) (fun hnone q hq hout => ?_) p
      · have hnot : ¬ CutAt f b q := fun h => absurd h.2.1 (by omega)
        rw [matchesAt_take hq, or_iff_left hnot]
      · rw [Bool.eq_false_iff, Ne, matchesAt_take hq]
        exact fun hm => hm.elim (hnone q) (hcut hnone q)

/-- A header field in small letters: `memnchr` leads to it, `memchr` does not. -/
theorem not_findsToken : ¬ FindsToken contentLength ([13, 10] ++ contentLength.map toLower) := by
  intro h
  have hparsing : ParsingUtils.memFindAfter contentLength ([13, 10] ++ contentLength.map toLower ++ [])
      ([13, 10] ++ contentLength.map toLower).length = some 18 := by decide
  have hsip := (h.sipTcp [] 18).2 ((h.parsingUtils [] 18).1 hparsing)
  revert hsip
  decide

end Oreka.Sip
