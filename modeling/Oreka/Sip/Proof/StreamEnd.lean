import Oreka.Sip.Proof.Segmentation

/-!
# Where the search of a stream ends

`ParseSipStream` returns, with an offset inside the buffer and past every message it has taken, exactly where
no message it gets to has a Content-Length of minus the length of its head or less (`advances_iff`). Nothing
else in a Content-Length can stop it: where there is no number the value is what the `int` held, a number that is
too large for an `int` is cut down to one, and either can be such a value. At minus the length of the head the
loop stays at the message for ever.
-/

namespace Oreka.Sip

variable (unset : Int) (mem : List UInt8) (len : Nat)

/-- A head at `p`: the blank line after the first "Content-Length: " ends `h` bytes on, and `n` is the number
that is read, or what the `int` held where there is none. -/
def HeadAt (p h : Nat) (n : Int) : Prop :=
  ∃ v b, memFindAfter contentLength (mem.drop p) (len - p) = some v ∧
    memFindAfter blankLine ((mem.drop p).drop v) (len - p - v) = some b ∧
    h = v + b ∧ n = (scanInt ((mem.drop p).drop v)).getD unset

/-- The messages of the buffer in turn lead to `p`. -/
inductive Reached : Nat → Prop
  | start : Reached 0
  | next {p h : Nat} {n : Int} : Reached p → HeadAt unset mem len p h n → 0 < h + n → p + h + n ≤ len →
    Reached (p + (h + n).toNat)

/-- `ParseSipStream` returns; the messages it has taken have a byte each, and they are the bytes in front of the
offset that it returns, which is in the buffer. -/
def Advances : Prop :=
  ∃ rounds messages offset, parseSipStream ⟨rounds, unset⟩ mem len = some (messages, offset) ∧
    offset ≤ len ∧ [] ∉ messages ∧ messages.flatten = mem.take offset

/-- The same for the loop from `p` on. -/
def AdvancesFrom (p : Nat) : Prop :=
  ∃ rounds messages offset, parseLoop ⟨0, unset⟩ mem len rounds p = some (messages, offset) ∧
    offset ≤ len ∧ [] ∉ messages ∧ messages.flatten = (mem.take offset).drop p

variable {unset mem len}

theorem parseLoop_unset (fuel : Nat) : ∀ rounds p,
    parseLoop ⟨fuel, unset⟩ mem len rounds p = parseLoop ⟨0, unset⟩ mem len rounds p
  | 0, _ => rfl
  | rounds + 1, p => by
    have hend : messageEnd ⟨fuel, unset⟩ (mem.drop p) (len - p) =
      messageEnd ⟨0, unset⟩ (mem.drop p) (len - p) := rfl
    simp only [parseLoop, hend, parseLoop_unset fuel rounds]

theorem advances_iff_from : Advances unset mem len ↔ AdvancesFrom unset mem len 0 := by
  unfold Advances AdvancesFrom parseSipStream
  simp only [parseLoop_unset, List.drop_zero]

theorem messageEnd_eq_some {p : Nat} {e : Int} (hp : p ≤ len) :
    messageEnd ⟨0, unset⟩ (mem.drop p) (len - p) = some e ↔
      ∃ h n, HeadAt unset mem len p h n ∧ e = h + n ∧ p + h + n ≤ len := by
  unfold messageEnd HeadAt
  cases hv : memFindAfter contentLength (mem.drop p) (len - p) with
  | none => simp
  | some v =>
    cases hb : memFindAfter blankLine ((mem.drop p).drop v) (len - p - v) with
    | none =>
      simp only [hb, reduceCtorEq, false_iff]
      rintro ⟨h, n, ⟨v', b, ⟨⟩, hb', -⟩, -⟩
      rw [hb] at hb'
      cases hb'
    | some b =>
      simp only [hb]
      constructor
      · intro h
        split at h
        · cases h
        · rename_i hle
          cases h
          exact ⟨v + b, _, ⟨v, b, rfl, hb, rfl, rfl⟩, rfl, by omega⟩
      · rintro ⟨h, n, ⟨v', b', ⟨⟩, hb', rfl, rfl⟩, rfl, hle⟩
        obtain rfl := Option.some.inj (hb.symm.trans hb')
        rw [if_neg (by omega)]

/-- No head, or too little behind it: the loop ends. -/
theorem advancesFrom_of_none {p : Nat} (hp : p ≤ len)
    (h : messageEnd ⟨0, unset⟩ (mem.drop p) (len - p) = none) : AdvancesFrom unset mem len p := by
  refine ⟨1, [], p, by simp [parseLoop, h], hp, by simp, ?_⟩
  rw [List.drop_eq_nil_of_le (List.length_take_le ..), List.flatten_nil]

/-- A message: the loop goes on from its end, if that is further on. -/
theorem advancesFrom_step {p h : Nat} {n : Int} (hlen : len ≤ mem.length) (hp : p ≤ len)
    (hhead : HeadAt unset mem len p h n) (hle : p + h + n ≤ len) :
    AdvancesFrom unset mem len p ↔ 0 < h + n ∧ AdvancesFrom unset mem len (p + (h + n).toNat) := by
  have hend : messageEnd ⟨0, unset⟩ (mem.drop p) (len - p) = some (h + n) :=
    (messageEnd_eq_some hp).mpr ⟨h, n, hhead, rfl, hle⟩
  constructor
  · rintro ⟨rounds, messages, offset, hloop, hoff, hmsg, hflat⟩
    obtain ⟨rounds, rfl⟩ : ∃ k, rounds = k + 1 := by
      cases rounds with
      | zero => cases hloop
      | succ k => exact ⟨k, rfl⟩
    simp only [parseLoop, hend] at hloop
    split at hloop
    · cases hloop
    · rename_i hneg
      obtain ⟨⟨out, off⟩, hrest, heq⟩ := Option.map_eq_some_iff.mp hloop
      cases heq
      obtain ⟨hfirst, hout⟩ := not_or.mp (mt List.mem_cons.mpr hmsg)
      have hpos : 0 < h + n := by
        by_contra h0
        have h0 : (h + n : Int).toNat = 0 := by omega
        rw [h0] at hfirst
        exact hfirst rfl
      have hnext : ((p : Int) + (h + n)).toNat = p + (h + n : Int).toNat := by omega
      rw [hnext] at hrest
      refine ⟨hpos, rounds, out, off, hrest, hoff, hout, ?_⟩
      have hmore := (parseLoop_length hrest hout (by omega)).1
      rw [List.flatten_cons] at hflat
      have hlen' : ((mem.drop p).take (h + n : Int).toNat).length = (h + n : Int).toNat := by
        rw [List.length_take, List.length_drop]
        omega
      have hdrop := congrArg (List.drop (h + n : Int).toNat) hflat
      rw [List.drop_left' hlen', List.drop_drop] at hdrop
      exact hdrop
  · rintro ⟨hpos, rounds, out, off, hrest, hoff, hout, hflat⟩
    have hnext : ((p : Int) + (h + n)).toNat = p + (h + n : Int).toNat := by omega
    refine ⟨rounds + 1, (mem.drop p).take (h + n : Int).toNat :: out, off, ?_, hoff, ?_, ?_⟩
    · simp only [parseLoop, hend]
      rw [if_neg (by omega), hnext, hrest]
      rfl
    · rw [List.mem_cons, not_or]
      refine ⟨?_, hout⟩
      intro hnil
      have hlen' := congrArg List.length hnil
      rw [List.length_take, List.length_drop, List.length_nil] at hlen'
      omega
    · have hmore := (parseLoop_length hrest hout (by omega)).1
      rw [List.flatten_cons, hflat]
      have hsplit : (mem.drop p).take (h + n : Int).toNat = ((mem.take off).drop p).take (h + n : Int).toNat := by
        rw [List.drop_take, List.take_take, min_eq_left (by omega)]
      rw [hsplit, ← List.drop_drop, List.take_append_drop]

theorem Reached.advancesFrom (hlen : len ≤ mem.length) {p : Nat} (h : Reached unset mem len p)
    (h0 : AdvancesFrom unset mem len 0) : p ≤ len ∧ AdvancesFrom unset mem len p := by
  induction h with
  | start => exact ⟨Nat.zero_le _, h0⟩
  | next _ hhead hpos hle ih =>
    obtain ⟨hp, hfrom⟩ := ih
    exact ⟨by omega, ((advancesFrom_step hlen hp hhead hle).mp hfrom).2⟩

theorem advancesFrom_of_heads (hlen : len ≤ mem.length)
    (hheads : ∀ p h n, Reached unset mem len p → HeadAt unset mem len p h n → -(h : Int) < n) {p : Nat}
    (hp : p ≤ len) (hr : Reached unset mem len p) : AdvancesFrom unset mem len p := by
  -- on what is left of the buffer
  induction hk : len - p using Nat.strongRecOn generalizing p with
  | ind k ih =>
    cases hend : messageEnd ⟨0, unset⟩ (mem.drop p) (len - p) with
    | none => exact advancesFrom_of_none hp hend
    | some e =>
      obtain ⟨h, n, hhead, rfl, hle⟩ := (messageEnd_eq_some hp).mp hend
      have hpos : 0 < h + n := by
        have := hheads p h n hr hhead
        omega
      refine (advancesFrom_step hlen hp hhead hle).mpr ⟨hpos, ?_⟩
      exact ih (len - (p + (h + n).toNat)) (by omega) (by omega) (.next hr hhead hpos hle) rfl

/-- The `len` bytes at the start of `mem` are the buffer, `unset` what the `int` holds where no number is
read. -/
theorem advances_iff (unset : Int) {mem : List UInt8} {len : Nat} (hlen : len ≤ mem.length) :
    Advances unset mem len ↔
      ∀ p h n, Reached unset mem len p → HeadAt unset mem len p h n → -(h : Int) < n := by
  rw [advances_iff_from]
  constructor
  · intro h0 p h n hr hhead
    by_contra hn
    obtain ⟨hp, hfrom⟩ := hr.advancesFrom hlen h0
    have := ((advancesFrom_step hlen hp hhead (by omega)).mp hfrom).1
    omega
  · intro hheads
    exact advancesFrom_of_heads hlen hheads (Nat.zero_le _) .start

def emptyReply : List UInt8 := ascii "SIP/2.0 200 OK\r\nContent-Length: 0\r\n\r\n"

theorem headAt_emptyReply {h : Nat} {n : Int} (hhead : HeadAt 0 emptyReply 37 0 h n) : h = 37 ∧ n = 0 := by
  obtain ⟨v, b, hv, hb, rfl, rfl⟩ := hhead
  have hv' : memFindAfter contentLength (emptyReply.drop 0) (37 - 0) = some 32 := by decide
  obtain rfl := Option.some.inj (hv.symm.trans hv')
  have hb' : memFindAfter blankLine ((emptyReply.drop 0).drop 32) (37 - 0 - 32) = some 5 := by decide
  obtain rfl := Option.some.inj (hb.symm.trans hb')
  exact ⟨rfl, by decide⟩

theorem reached_emptyReply {p : Nat} (h : Reached 0 emptyReply 37 p) : p = 0 ∨ p = 37 := by
  induction h with
  | start => exact .inl rfl
  | next _ hhead _ hle ih =>
    rcases ih with rfl | rfl
    · obtain ⟨rfl, rfl⟩ := headAt_emptyReply hhead
      exact .inr rfl
    · obtain ⟨v, b, hv, -⟩ := hhead
      rw [Nat.sub_self, memFindAfter_zero] at hv
      cases hv

theorem advances_emptyReply : Advances 0 emptyReply 37 := by
  refine (advances_iff 0 (by decide)).mpr fun p h n hr hhead => ?_
  rcases reached_emptyReply hr with rfl | rfl
  · obtain ⟨rfl, rfl⟩ := headAt_emptyReply hhead
    decide
  · obtain ⟨v, b, hv, -⟩ := hhead
    rw [Nat.sub_self, memFindAfter_zero] at hv
    cases hv

/-- A reply whose Content-Length is minus the length of its head. -/
def endlessReply : List UInt8 := ascii "SIP/2.0 200 OK\r\nContent-Length: -39\r\n\r\n"

theorem not_advances : ¬Advances 0 endlessReply endlessReply.length := by
  rw [advances_iff_from]
  have hhead : HeadAt 0 endlessReply endlessReply.length 0 39 (-39) :=
    ⟨32, 7, by decide, by decide, rfl, by decide⟩
  intro h
  have := ((advancesFrom_step le_rfl (Nat.zero_le _) hhead (by decide)).mp h).1
  omega

end Oreka.Sip
