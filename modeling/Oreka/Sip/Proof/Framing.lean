import Oreka.Lib.Frames
import Oreka.Sip.SipTcp

/-!
# What the parser makes of the beginning of a stream

A `SipRequest` is a message whose Content-Length field is the first one its head mentions and gives
the size of its body. Of a stream of such requests, however much of it has arrived and whatever lies
in memory behind that, `ParseSipStream` finds the requests that are there in full and stops where they
end (`parseLoop_requests`): a search that runs past the end of what has arrived never yields a message,
because the end of the message is then past it too.
-/

namespace Oreka.Sip

open Net (byte byte_append byte_append_right byte_drop)

/-- CR LF. -/
def crlf : List UInt8 := [13, 10]

/-- A SIP message with a correct Content-Length. -/
structure SipRequest where
  /-- The request line and the header fields before Content-Length. -/
  start : List UInt8
  /-- The value of Content-Length. -/
  digits : List UInt8
  /-- The header fields after it. -/
  fields : List UInt8
  body : List UInt8
  /-- Content-Length is not mentioned before. -/
  first : ∀ p < start.length, matchesAt contentLength (start ++ contentLength) p = false
  digits_ne : digits ≠ []
  digits_digit : ∀ d ∈ digits, isDigit d = true
  correct : decimal digits = body.length
  /-- An `int` holds it. -/
  body_lt : body.length < 2147483648
  /-- The blank line at the end of the head is the first one. -/
  blank_first : ∀ p < fields.length, matchesAt blankLine (crlf ++ fields ++ crlf) p = false
  blank : matchesAt blankLine (crlf ++ fields ++ crlf) fields.length = true

namespace SipRequest

/-- What follows the value of Content-Length in the head. -/
def tail (r : SipRequest) : List UInt8 := crlf ++ r.fields ++ crlf

/-- The message as sent. -/
def bytes (r : SipRequest) : List UInt8 :=
  r.start ++ (contentLength ++ (r.digits ++ (r.tail ++ r.body)))

end SipRequest

/-! ## Searches -/

theorem toLower_eq_of_lt {a b : UInt8} (hb : b < 65) (h : toLower a = toLower b) : a = b := by
  unfold toLower at h
  grind

theorem matchesAt_iff {f mem : List UInt8} {p : Nat} :
    matchesAt f mem p = true ↔ ∀ i < f.length, toLower (byte mem (p + i)) = toLower (byte f i) := by
  simp [matchesAt]

/-- A comparison reads no more than the length of what is looked for. -/
theorem matchesAt_congr {f mem mem' : List UInt8} {p p' : Nat}
    (h : ∀ i < f.length, byte mem (p + i) = byte mem' (p' + i)) :
    matchesAt f mem p = matchesAt f mem' p' := by
  rw [Bool.eq_iff_iff, matchesAt_iff, matchesAt_iff]
  constructor
  · intro hm i hi
    rw [← h i hi]
    exact hm i hi
  · intro hm i hi
    rw [h i hi]
    exact hm i hi

/-- `memFindAfter` compares at `p` and finds. -/
def Hit (f mem : List UInt8) (p : Nat) : Prop :=
  (p = 0 ∨ byte mem p = byte f 0) ∧ matchesAt f mem p = true

theorem memFindAfter_eq_some {f mem : List UInt8} {len e : Nat} :
    memFindAfter f mem len = some e ↔
      ∃ p < len, Hit f mem p ∧ (∀ j < p, ¬ Hit f mem j) ∧ e = p + f.length := by
  unfold memFindAfter
  dsimp only
  rw [Option.map_eq_some_iff]
  constructor
  · rintro ⟨p, hp, rfl⟩
    obtain ⟨h, hm, hj⟩ := List.find?_range_eq_some.1 hp
    refine ⟨p, List.mem_range.1 hm, by simpa [Hit] using h, ?_, rfl⟩
    intro j hjp hh
    have := hj j hjp
    unfold Hit at hh
    simp [hh.1, hh.2] at this
  · rintro ⟨p, hlt, h, hj, rfl⟩
    refine ⟨p, List.find?_range_eq_some.2 ⟨by simpa [Hit] using h, List.mem_range.2 hlt, ?_⟩, rfl⟩
    intro j hjp
    rw [Bool.not_eq_true', ← Bool.not_eq_true]
    intro hh
    exact hj j hjp (by simpa [Hit] using hh)

/-- Where `mem` agrees with `T` on its first `n` bytes, and `p` is the first hit in `T`: a search of
`mem` finds `p` if the match lies within the `n` bytes; otherwise it finds nothing, or what it finds
ends after them. -/
theorem memFindAfter_prefix {f T mem : List UInt8} {n p : Nat} (hf : f ≠ [])
    (hmem : ∀ i < n, byte mem i = byte T i) (hp : Hit f T p) (hfirst : ∀ j < p, ¬ Hit f T j) :
    (p + f.length ≤ n → memFindAfter f mem n = some (p + f.length)) ∧
      (n < p + f.length → ∀ e, memFindAfter f mem n = some e → n < e) := by
  have hpos : 0 < f.length := List.length_pos_of_ne_nil hf
  -- within the `n` bytes a hit is the same in both
  have hiff : ∀ j, j + f.length ≤ n → (Hit f mem j ↔ Hit f T j) := by
    intro j hj
    have hb : byte mem j = byte T j := hmem j (by omega)
    have hm : matchesAt f mem j = matchesAt f T j :=
      matchesAt_congr fun i hi => hmem (j + i) (by omega)
    unfold Hit
    rw [hb, hm]
  constructor
  · intro hle
    refine memFindAfter_eq_some.2 ⟨p, by omega, (hiff p hle).2 hp, ?_, rfl⟩
    intro j hj hh
    exact hfirst j hj ((hiff j (by omega)).1 hh)
  · intro hlt e he
    obtain ⟨q, hq, hh, -, rfl⟩ := memFindAfter_eq_some.1 he
    by_contra hle
    have hle : q + f.length ≤ n := Nat.le_of_not_lt hle
    exact hfirst q (by omega) ((hiff q hle).1 hh)

/-- Nothing is found in no bytes. -/
theorem memFindAfter_zero (f mem : List UInt8) : memFindAfter f mem 0 = none := rfl

/-! ## Numbers -/

theorem isDigit_not_space {d : UInt8} (h : isDigit d = true) : isSpace d = false := by
  unfold isDigit at h
  unfold isSpace
  grind

theorem isDigit_toLower {d : UInt8} (h : isDigit d = true) : toLower d = d ∧ d ≠ 13 := by
  unfold isDigit at h
  unfold toLower
  grind

theorem scanInt_digits {ds rest : List UInt8} (hne : ds ≠ []) (hds : ∀ d ∈ ds, isDigit d = true)
    (hlt : decimal ds < 2147483648) : scanInt (ds ++ 13 :: rest) = some (decimal ds : Int) := by
  obtain ⟨d, ds', rfl⟩ := List.exists_cons_of_ne_nil hne
  have hd : isDigit d = true := hds d (by simp)
  have hsp := isDigit_not_space hd
  have hsign : d ≠ 45 ∧ d ≠ 43 := by
    unfold isDigit at hd
    grind
  have htake : ((d :: ds') ++ 13 :: rest).takeWhile isDigit = d :: ds' := by
    rw [List.takeWhile_append_of_pos (fun a ha => hds a ha)]
    have h13 : isDigit 13 = false := by decide
    simp [h13]
  have hdrop : ((d :: ds') ++ 13 :: rest).dropWhile isSpace = (d :: ds') ++ 13 :: rest := by
    simp [hsp]
  have hclamp : max (-9223372036854775808) (min (decimal (d :: ds') : Int) 9223372036854775807) =
      (decimal (d :: ds') : Int) := by omega
  have hint : toInt (decimal (d :: ds') : Int) = (decimal (d :: ds') : Int) := by
    unfold toInt
    rw [Int.bmod_eq_of_le (by omega) (by omega)]
  unfold scanInt
  simp only [hdrop]
  have hneg : ¬ ((d :: ds') ++ 13 :: rest).head? = some 45 := by simp [hsign.1]
  have hpos : ¬ ((d :: ds') ++ 13 :: rest).head? = some 43 := by simp [hsign.2]
  simp only [hneg, hpos, or_self, if_false, htake]
  rw [hclamp, hint, if_neg hne]

/-! ## One message -/

namespace SipRequest

variable (r : SipRequest)

theorem length_bytes : r.bytes.length =
    r.start.length + contentLength.length + (r.digits.length + r.tail.length) + r.body.length := by
  simp only [bytes, List.length_append]
  omega

/-- The first Content-Length of the stream is the request's. -/
theorem first_contentLength (more : List UInt8) :
    Hit contentLength (r.bytes ++ more) r.start.length ∧
      ∀ j < r.start.length, ¬ Hit contentLength (r.bytes ++ more) j := by
  have hT : r.bytes ++ more =
      r.start ++ (contentLength ++ (r.digits ++ (r.tail ++ r.body) ++ more)) := by
    simp [bytes]
  have hat : ∀ i < contentLength.length,
      byte (r.bytes ++ more) (r.start.length + i) = byte contentLength i := by
    intro i hi
    rw [hT, byte_append_right, byte_append hi]
  constructor
  · refine ⟨.inr (hat 0 (by decide)), matchesAt_iff.2 fun i hi => ?_⟩
    rw [hat i hi]
  · rintro j hj ⟨-, hm⟩
    have hcongr : matchesAt contentLength (r.bytes ++ more) j =
        matchesAt contentLength (r.start ++ contentLength) j := by
      refine matchesAt_congr fun i hi => ?_
      have hlen : j + i < (r.start ++ contentLength).length := by
        rw [List.length_append]
        omega
      rw [hT, ← List.append_assoc, byte_append hlen]
    rw [hcongr, r.first j hj] at hm
    cases hm

/-- What follows "Content-Length: " in the stream. -/
def afterName (more : List UInt8) : List UInt8 := r.digits ++ (r.tail ++ (r.body ++ more))

theorem drop_contentLength (more : List UInt8) :
    (r.bytes ++ more).drop (r.start.length + contentLength.length) = r.afterName more := by
  have hT : r.bytes ++ more = (r.start ++ contentLength) ++ r.afterName more := by
    simp [bytes, afterName]
  rw [hT]
  exact List.drop_left' (by simp)

theorem blankLine_head {mem : List UInt8} {p : Nat} (h : matchesAt blankLine mem p = true) :
    byte mem p = 13 := by
  have h0 := matchesAt_iff.1 h 0 (by decide)
  exact toLower_eq_of_lt (by decide) h0

/-- The first blank line after "Content-Length: " ends the head. -/
theorem first_blankLine (more : List UInt8) :
    Hit blankLine (r.afterName more) (r.digits.length + r.fields.length) ∧
      ∀ j < r.digits.length + r.fields.length, ¬ Hit blankLine (r.afterName more) j := by
  have hlen : r.tail.length = r.fields.length + 4 := by
    simp [tail, crlf]
  have hmatch : ∀ p ≤ r.fields.length, matchesAt blankLine (r.afterName more) (r.digits.length + p) =
      matchesAt blankLine r.tail p := by
    intro p hp
    refine matchesAt_congr fun i hi => ?_
    have hi : i < 4 := hi
    rw [afterName, Nat.add_assoc, byte_append_right, byte_append (by omega)]
  constructor
  · have hm := (hmatch _ (Nat.le_refl _)).trans r.blank
    exact ⟨.inr (blankLine_head hm), hm⟩
  · rintro j hj ⟨-, hm⟩
    by_cases hd : j < r.digits.length
    · -- a digit is not a carriage return
      have h13 := blankLine_head hm
      rw [afterName, byte_append hd] at h13
      have hmem : byte r.digits j ∈ r.digits := by
        rw [← Net.getElem_eq_byte hd]
        exact List.getElem_mem hd
      exact (isDigit_toLower (r.digits_digit _ hmem)).2 h13
    · obtain ⟨p, rfl⟩ := Nat.exists_eq_add_of_le (Nat.le_of_not_lt hd)
      rw [hmatch p (by omega), tail, r.blank_first p (by omega)] at hm
      cases hm

theorem length_tail : r.tail.length = r.fields.length + 4 := by
  simp [tail, crlf]

/-- What the parser makes of the first `n` bytes of a stream that begins with the request: it has
the request if they hold all of it. -/
theorem messageEnd_take (env : Env) (more z : List UInt8) {n : Nat}
    (hn : n ≤ (r.bytes ++ more).length) :
    messageEnd env ((r.bytes ++ more).take n ++ z) n =
      if r.bytes.length ≤ n then some (r.bytes.length : Int) else none := by
  have hlen := r.length_bytes
  have htail := r.length_tail
  set T := r.bytes ++ more with hT
  set mem := T.take n ++ z with hmem
  have hagree : ∀ i < n, byte mem i = byte T i := by
    intro i hi
    have hlt : i < (T.take n).length := by
      rw [List.length_take]
      omega
    have hsplit : byte T i = byte (T.take n ++ T.drop n) i := by rw [List.take_append_drop]
    rw [hmem, byte_append hlt, hsplit, byte_append hlt]
  obtain ⟨hit₁, first₁⟩ := r.first_contentLength more
  obtain ⟨hit₂, first₂⟩ := r.first_blankLine more
  obtain ⟨hin₁, hout₁⟩ := memFindAfter_prefix (by decide) hagree hit₁ first₁
  unfold messageEnd
  by_cases hv : r.start.length + contentLength.length ≤ n
  · rw [hin₁ hv]
    dsimp only
    set v := r.start.length + contentLength.length with hvdef
    have hdrop : mem.drop v = (r.afterName more).take (n - v) ++ z := by
      have hle : v ≤ (T.take n).length := by
        rw [List.length_take]
        omega
      rw [hmem, List.drop_append_of_le_length hle, List.drop_take, r.drop_contentLength]
    have hagree' : ∀ i < n - v, byte (mem.drop v) i = byte (r.afterName more) i := by
      intro i hi
      rw [byte_drop, hagree _ (by omega), ← r.drop_contentLength more, byte_drop]
    obtain ⟨hin₂, hout₂⟩ := memFindAfter_prefix (by decide) hagree' hit₂ first₂
    have hblank : blankLine.length = 4 := rfl
    -- once the carriage return after the digits has arrived, the number is read in full
    have hscan : r.digits.length < n - v → scanInt (mem.drop v) = some (r.body.length : Int) := by
      intro hlt
      have hsplit : ∃ rest, mem.drop v = r.digits ++ 13 :: rest := by
        refine ⟨((r.tail ++ (r.body ++ more)).drop 1).take (n - v - r.digits.length - 1) ++ z, ?_⟩
        have hcons : r.tail ++ (r.body ++ more) = 13 :: (r.tail ++ (r.body ++ more)).drop 1 := by
          simp [tail, crlf]
        have hm : n - v = r.digits.length + (n - v - r.digits.length - 1 + 1) := by omega
        rw [hdrop, afterName, hm, List.take_length_add_append, hcons, List.take_succ_cons]
        simp
      obtain ⟨rest, hrest⟩ := hsplit
      rw [hrest, scanInt_digits r.digits_ne r.digits_digit]
      · rw [r.correct]
      · rw [r.correct]
        exact r.body_lt
    by_cases hH : r.digits.length + r.fields.length + blankLine.length ≤ n - v
    · rw [hin₂ hH, hscan (by omega)]
      dsimp only [Option.getD_some]
      by_cases hall : r.bytes.length ≤ n
      · rw [if_pos hall, if_neg (by omega)]
        congr 1
        omega
      · rw [if_neg hall, if_pos (by omega)]
    · rw [if_neg (by omega)]
      split
      · rfl
      · rename_i e he
        have hne := hout₂ (by omega) e he
        obtain ⟨p, hp, hhit, -, rfl⟩ := memFindAfter_eq_some.1 he
        -- the blank line found begins with a carriage return that has arrived
        have h13 := blankLine_head hhit.2
        rw [hagree' p hp] at h13
        have hdig : r.digits.length ≤ p := by
          by_contra hlt
          have hlt : p < r.digits.length := Nat.lt_of_not_le hlt
          rw [afterName, byte_append hlt] at h13
          have hmem : byte r.digits p ∈ r.digits := by
            rw [← Net.getElem_eq_byte hlt]
            exact List.getElem_mem hlt
          exact (isDigit_toLower (r.digits_digit _ hmem)).2 h13
        rw [hscan (by omega)]
        dsimp only [Option.getD_some]
        rw [if_pos (by omega)]
  · rw [if_neg (by omega)]
    split
    · rfl
    · rename_i e he
      have hne := hout₁ (by omega) e he
      have hz : n - e = 0 := by omega
      rw [hz, memFindAfter_zero]

end SipRequest

/-! ## The messages of a stream -/

/-- The requests of a stream, as sent. -/
def frames (rs : List SipRequest) : List (List UInt8) := rs.map SipRequest.bytes

theorem messageEnd_nil (env : Env) (z : List UInt8) : messageEnd env z 0 = none := rfl

/-- **`ParseSipStream` on the first `n` bytes of a stream of requests**: the requests that they hold in
full, and where those end. -/
theorem parseLoop_requests (env : Env) (rs : List SipRequest) (pre z : List UInt8) {n : Nat}
    (hn : n ≤ (frames rs).flatten.length) {rounds : Nat} (hr : rs.length < rounds) :
    parseLoop env (pre ++ ((frames rs).flatten.take n ++ z)) (pre.length + n) rounds pre.length =
      some (Frames.complete (frames rs) n, pre.length + Frames.consumed (frames rs) n) := by
  induction rs generalizing pre n rounds with
  | nil =>
    obtain ⟨k, rfl⟩ := Nat.exists_eq_succ_of_ne_zero (by omega : rounds ≠ 0)
    have hn0 : n = 0 := by simpa [frames] using hn
    subst hn0
    simp [parseLoop, frames, messageEnd_nil, Frames.complete, Frames.consumed]
  | cons r rs ih =>
    obtain ⟨k, rfl⟩ := Nat.exists_eq_succ_of_ne_zero (by omega : rounds ≠ 0)
    have hcons : (frames (r :: rs)).flatten = r.bytes ++ (frames rs).flatten := by simp [frames]
    rw [hcons] at hn ⊢
    have hend := r.messageEnd_take env (frames rs).flatten z hn
    unfold parseLoop
    rw [List.drop_left, Nat.add_sub_cancel_left, hend]
    by_cases hle : r.bytes.length ≤ n
    · rw [if_pos hle]
      dsimp only
      have hneg : ¬ ((pre.length : Int) + (r.bytes.length : Int) < 0) := by omega
      have hnext : ((pre.length : Int) + (r.bytes.length : Int)).toNat =
          (pre ++ r.bytes).length := by
        rw [List.length_append]
        omega
      have htake : (r.bytes ++ (frames rs).flatten).take n =
          r.bytes ++ (frames rs).flatten.take (n - r.bytes.length) := by
        rw [List.take_append, List.take_of_length_le hle]
      have hmem : pre ++ ((r.bytes ++ (frames rs).flatten).take n ++ z) =
          (pre ++ r.bytes) ++ ((frames rs).flatten.take (n - r.bytes.length) ++ z) := by
        rw [htake]
        simp only [List.append_assoc]
      have hsum : pre.length + n = (pre ++ r.bytes).length + (n - r.bytes.length) := by
        rw [List.length_append]
        omega
      have hn' : n - r.bytes.length ≤ (frames rs).flatten.length := by
        rw [List.length_append] at hn
        omega
      have hmsg : ((r.bytes ++ (frames rs).flatten).take n ++ z).take
          (r.bytes.length : Int).toNat = r.bytes := by
        rw [htake, Int.toNat_natCast, List.append_assoc, List.take_left]
      rw [if_neg hneg, hmsg, hnext, hmem, hsum, ih (pre ++ r.bytes) hn' (by simpa using hr)]
      simp only [frames, List.map_cons, Frames.complete, Frames.consumed, hle, if_true,
        Option.map_some, List.flatten_cons, List.length_append]
      rw [Nat.add_assoc]
    · rw [if_neg hle]
      simp [frames, Frames.complete, Frames.consumed, hle]

theorem parseSipStream_requests (env : Env) (rs : List SipRequest) (z : List UInt8) {n : Nat}
    (hn : n ≤ (frames rs).flatten.length) (hfuel : rs.length < env.fuel) :
    parseSipStream env ((frames rs).flatten.take n ++ z) n =
      some (Frames.complete (frames rs) n, Frames.consumed (frames rs) n) := by
  simpa [parseSipStream] using parseLoop_requests env rs [] z hn hfuel

/-- The search of the first `n'` bytes, from where the requests in the first `n` end. -/
theorem parseSipStream_remaining (env : Env) (rs : List SipRequest) {n n' : Nat} (hle : n ≤ n')
    (hn : n' ≤ (frames rs).flatten.length) (hfuel : rs.length < env.fuel) :
    parseSipStream env (((frames rs).flatten.take n').drop (Frames.consumed (frames rs) n))
        (n' - Frames.consumed (frames rs) n) =
      some (Frames.complete (Frames.remaining (frames rs) n) (n' - Frames.consumed (frames rs) n),
        Frames.consumed (Frames.remaining (frames rs) n) (n' - Frames.consumed (frames rs) n)) := by
  have hcle := Frames.consumed_le (frames rs) n
  have hsplit := Frames.consumed_add_remaining (frames rs) n
  have hrem : Frames.remaining (frames rs) n =
      frames (rs.drop (Frames.complete (frames rs) n).length) := by
    simp [Frames.remaining, frames, List.map_drop]
  rw [List.drop_take, Frames.drop_consumed]
  rw [hrem] at hsplit ⊢
  have hle : n' - Frames.consumed (frames rs) n ≤
      (frames (rs.drop (Frames.complete (frames rs) n).length)).flatten.length := by omega
  have hdrop : (rs.drop (Frames.complete (frames rs) n).length).length < env.fuel := by
    rw [List.length_drop]
    omega
  simpa using parseSipStream_requests env _ [] hle hdrop

end Oreka.Sip
