import Oreka.Capture.Rtcp

/-!
# What passes for RTCP

The validity check accepts compound packets only, but not all of them: the loop over the headers compares the
number of headers that would fit in what is left with the size of one, so it ends in front of a packet that has
less than 16 bytes, unless that is the first. The check is right about a payload exactly when it is not a
compound packet that ends so (`headersValid_exact_iff`).
-/

namespace Oreka.Capture.Rtcp

open Oreka.Net Walk

/-- Packets of version 2 with these sizes tile the payload from `r` on. -/
def Tiles (m : List UInt8) (size : Nat) : Nat → List Nat → Prop
  | r, [] => r = size
  | r, n :: ns => (byte m r).toNat / 64 = 2 ∧ n = 4 * (ntohs m (r + 2) + 1) ∧ Tiles m size (r + n) ns

/-- A compound packet of packets of these sizes: the first is an SR or an RR, without padding. -/
def Compound (m : List UInt8) (size : Nat) (ns : List Nat) : Prop :=
  ns ≠ [] ∧ Tiles m size 0 ns ∧ ((byte m 1).toNat = RTCP_SR ∨ (byte m 1).toNat = RTCP_RR) ∧
    (byte m 0).toNat / 32 % 2 = 0

variable {m : List UInt8} {size r : Nat} {ns : List Nat}

theorem Tiles.sum : ∀ {ns : List Nat} {r : Nat}, Tiles m size r ns → r + ns.sum = size
  | [], _, h => h
  | n :: ns, r, h => by
    have := Tiles.sum h.2.2
    rw [List.sum_cons]
    omega

theorem Tiles.unique : ∀ {ns ns' : List Nat} {r : Nat}, Tiles m size r ns → Tiles m size r ns' → ns = ns'
  | [], [], _, _, _ => rfl
  | [], n :: ns', _, h, h' => by
    obtain ⟨-, hn, htail⟩ := h'
    have := htail.sum
    have hr : _ = size := h
    omega
  | n :: ns, [], _, h, h' => by
    obtain ⟨-, hn, htail⟩ := h
    have := htail.sum
    have hr : _ = size := h'
    omega
  | n :: ns, n' :: ns', r, h, h' => by
    obtain ⟨-, rfl, htail⟩ := h
    obtain ⟨-, rfl, htail'⟩ := h'
    rw [htail.unique htail']

theorem inCompound_iff : InCompound size r ↔ r + 16 ≤ size := by
  unfold InCompound rtcpCommonHeaderSize
  omega

/-- The last packet has 16 bytes or more, if there is any. -/
def LongTail (ns : List Nat) : Prop := ∀ n ∈ ns.getLast?, 16 ≤ n

theorem longTail_cons {n n' : Nat} : LongTail (n :: n' :: ns) ↔ LongTail (n' :: ns) := by
  unfold LongTail
  rw [List.getLast?_cons_cons]

theorem Tiles.inCompound : ∀ {ns : List Nat} {r : Nat}, Tiles m size r ns → LongTail ns → ns ≠ [] →
    InCompound size r
  | [], _, _, _, hne => absurd rfl hne
  | [n], r, h, hlong, _ => by
    have hn : 16 ≤ n := hlong n rfl
    have hsum := h.sum
    rw [inCompound_iff]
    simp only [List.sum_cons, List.sum_nil] at hsum
    omega
  | n :: n' :: ns, r, h, hlong, _ => by
    have hnext := Tiles.inCompound h.2.2 (longTail_cons.mp hlong) (by simp)
    rw [inCompound_iff] at hnext ⊢
    omega

theorem validateHeaders_value_eq : (validateHeaders m size r).value = size ↔ ∃ ns, Tiles m size r ns ∧ LongTail ns := by
  induction hk : size - r using Nat.strongRecOn generalizing r with
  | ind k ih =>
    rw [validateHeaders]
    split
    case isTrue h =>
      have h16 := inCompound_iff.mp h
      by_cases hv : (byte m r).toNat / 64 = 2
      · have hrec : (validateHeaders m size (r + 4 * (ntohs m (r + 2) + 1))).value = size ↔ _ :=
          ih (size - (r + 4 * (ntohs m (r + 2) + 1))) (by omega) rfl
        simp only [Reading.bind_value, readByte_value, readShort_value, hv, ne_eq, not_true_eq_false, if_false]
        rw [hrec]
        constructor
        · rintro ⟨ns, htail, hlong⟩
          refine ⟨_ :: ns, ⟨hv, rfl, htail⟩, ?_⟩
          cases ns with
          | nil =>
            have hend : r + 4 * (ntohs m (r + 2) + 1) = size := htail
            intro n hn
            obtain rfl : 4 * (ntohs m (r + 2) + 1) = n := Option.mem_some_iff.mp hn
            omega
          | cons n ns => exact longTail_cons.mpr hlong
        · rintro ⟨ns, htiles, hlong⟩
          cases ns with
          | nil =>
            have hend : r = size := htiles
            omega
          | cons n ns =>
            obtain ⟨-, rfl, htail⟩ := htiles
            refine ⟨ns, htail, ?_⟩
            cases ns with
            | nil => exact fun _ h => nomatch h
            | cons n ns => exact longTail_cons.mp hlong
      · simp only [Reading.bind_value, readByte_value, ne_eq, hv, not_false_eq_true, if_true, Reading.pure_value]
        constructor
        · intro hr
          omega
        · rintro ⟨ns, htiles, -⟩
          cases ns with
          | nil => exact htiles
          | cons n ns => exact absurd htiles.1 hv
    case isFalse h =>
      rw [Reading.pure_value]
      constructor
      · intro hr
        exact ⟨[], hr, fun _ h => nomatch h⟩
      · rintro ⟨ns, htiles, hlong⟩
        by_contra hne
        refine h (htiles.inCompound hlong ?_)
        rintro rfl
        exact hne htiles

/-- What the check accepts: compound packets of one packet, or whose last packet has 16 bytes. -/
theorem headersValid_iff :
    (headersValid m size).value = true ↔ ∃ ns, Compound m size ns ∧ (ns.length = 1 ∨ LongTail ns) := by
  unfold headersValid
  constructor
  · intro h
    split at h
    · cases h
    · simp only [Reading.bind_value, readByte_value] at h
      split at h
      · cases h
      · rename_i hv
        simp only [Reading.bind_value, readByte_value] at h
        split at h
        · cases h
        · rename_i hpt
          split at h
          · cases h
          · rename_i hp
            simp only [Reading.bind_value, readShort_value, Reading.pure_value, decide_eq_true_eq] at h
            obtain ⟨ns, htail, hlong⟩ := validateHeaders_value_eq.mp h
            refine ⟨4 * (ntohs m 2 + 1) :: ns, ⟨by simp, ⟨by omega, rfl, by simpa using htail⟩, by omega, by omega⟩, ?_⟩
            cases ns with
            | nil => exact .inl rfl
            | cons n ns => exact .inr (longTail_cons.mpr hlong)
  · rintro ⟨ns, ⟨hne, htiles, hpt, hp⟩, hlong⟩
    cases ns with
    | nil => exact absurd rfl hne
    | cons n ns =>
      have hsum := htiles.sum
      obtain ⟨hv, rfl, htail⟩ := htiles
      rw [List.sum_cons] at hsum
      rw [Nat.zero_add] at htail
      have hsize : ¬size < rtcpCommonHeaderSize := by
        unfold rtcpCommonHeaderSize
        omega
      have hpt' : ¬((byte m 1).toNat ≠ RTCP_SR ∧ (byte m 1).toNat ≠ RTCP_RR) := by
        rintro ⟨hsr, hrr⟩
        exact hpt.elim hsr hrr
      rw [if_neg hsize]
      simp only [Reading.bind_value, readByte_value, hv, ne_eq, not_true_eq_false, if_false]
      rw [if_neg hpt', hp, if_neg (by decide)]
      simp only [Reading.bind_value, readShort_value, Reading.pure_value, decide_eq_true_eq]
      refine validateHeaders_value_eq.mpr ⟨ns, htail, ?_⟩
      cases ns with
      | nil => exact fun _ h => nomatch h
      | cons n' ns =>
        rcases hlong with hone | hlong
        · simp at hone
        · exact longTail_cons.mp hlong

/-- The check accepts a payload if and only if it is a compound packet, which is to say that it is no compound
packet of two or more packets whose last has less than 16 bytes. -/
theorem headersValid_exact_iff (u : UdpPacket) :
    ((headersValid u.memory u.size).value = true ↔ ∃ ns, Compound u.memory u.size ns) ↔
      ∀ ns, Compound u.memory u.size ns → ns.length = 1 ∨ LongTail ns := by
  constructor
  · intro hexact ns hns
    obtain ⟨ns', hns', hlong⟩ := headersValid_iff.mp (hexact.mpr ⟨ns, hns⟩)
    rwa [hns.2.1.unique hns'.2.1]
  · intro hlong
    rw [headersValid_iff]
    constructor
    · rintro ⟨ns, hns, -⟩
      exact ⟨ns, hns⟩
    · rintro ⟨ns, hns⟩
      exact ⟨ns, hns, hlong ns hns⟩

/-- An empty receiver report and a BYE for its source, eight bytes each. -/
def reportAndBye : UdpPacket where
  payload := [0x80, 201, 0, 1, 1, 2, 3, 4, 0x81, 203, 0, 1, 1, 2, 3, 4]
  payload_lt := by decide

theorem not_headersValid_exact : ¬((headersValid reportAndBye.memory reportAndBye.size).value = true ↔
    ∃ ns, Compound reportAndBye.memory reportAndBye.size ns) := by
  intro h
  have hcompound : ∃ ns, Compound reportAndBye.memory reportAndBye.size ns :=
    ⟨[8, 8], by simp, by simp [Tiles]; decide, by decide, by decide⟩
  obtain ⟨ns, hns, hlong⟩ := headersValid_iff.mp (h.mpr hcompound)
  have htiles : Tiles reportAndBye.memory reportAndBye.size 0 [8, 8] := by simp [Tiles]; decide
  obtain rfl := htiles.unique hns.2.1
  rcases hlong with hone | hlong
  · simp at hone
  · exact absurd (hlong 8 rfl) (by decide)

end Oreka.Capture.Rtcp

/-!
## The items of a chunk

From an item of a chunk the walk of `TryRtcp` goes on by the value of the length byte, without the two bytes of
type and length (`Passes`). It ends where that leads past the packet, to an END or to what looks like a CNAME
(`Ends`), which it gets to if every item passed moves it on (`skipItems_of_moves`).
-/

namespace Oreka.Capture.Rtcp

open Oreka.Net Walk

variable {m : List UInt8} {size rounds : Nat}

/-! ## The items of a chunk -/

def itemType (m : List UInt8) (i : Nat) : Nat := (byte m i).toNat

def itemLength (m : List UInt8) (i : Nat) : Nat := (byte m (i + 1)).toNat

/-- The walk goes on from this item. -/
def Skipped (m : List UInt8) (stop i : Nat) : Prop :=
  i < stop ∧ itemType m i ≠ SDES_CNAME ∧ itemType m i ≠ SDES_END

/-- The walk gets from one item to another. -/
inductive Passes (m : List UInt8) (stop : Nat) : Nat → Nat → Prop
  | refl (i : Nat) : Passes m stop i i
  | skip {i j : Nat} : Skipped m stop i → Passes m stop (i + itemLength m i) j → Passes m stop i j

/-- The walk from `i` ends at `j`. -/
def Ends (m : List UInt8) (stop i j : Nat) : Prop := Passes m stop i j ∧ ¬Skipped m stop j

variable {stop i j : Nat}

theorem skipItems_succ (rounds i : Nat) :
    skipItems m stop (rounds + 1) i =
      if i < stop then do
        let type ← readByte m i
        if type ≠ SDES_CNAME ∧ type ≠ SDES_END then do
          let length ← readByte m (i + 1)
          skipItems m stop rounds (i + length)
        else return some i
      else return some i := rfl

theorem skipItems_skipped (h : Skipped m stop i) :
    (skipItems m stop (rounds + 1) i).value = (skipItems m stop rounds (i + itemLength m i)).value := by
  obtain ⟨hlt, htype⟩ := h
  have htype' : (byte m i).toNat ≠ SDES_CNAME ∧ (byte m i).toNat ≠ SDES_END := htype
  rw [skipItems_succ, if_pos hlt]
  simp only [Reading.bind_value, readByte_value, if_pos htype']
  rfl

theorem skipItems_not_skipped (h : ¬Skipped m stop i) : (skipItems m stop (rounds + 1) i).value = some i := by
  rw [skipItems_succ]
  by_cases hlt : i < stop
  · have htype : ¬((byte m i).toNat ≠ SDES_CNAME ∧ (byte m i).toNat ≠ SDES_END) := fun h' => h ⟨hlt, h'⟩
    rw [if_pos hlt]
    simp only [Reading.bind_value, readByte_value, if_neg htype, Reading.pure_value]
  · rw [if_neg hlt, Reading.pure_value]

theorem within_skipItems_skipped {n : Nat} (h : Skipped m stop i) :
    (skipItems m stop (rounds + 1) i).Within n ↔
      i + 2 ≤ n ∧ (skipItems m stop rounds (i + itemLength m i)).Within n := by
  obtain ⟨hlt, htype⟩ := h
  have htype' : (byte m i).toNat ≠ SDES_CNAME ∧ (byte m i).toNat ≠ SDES_END := htype
  rw [skipItems_succ, if_pos hlt, Reading.within_bind, readByte_value, if_pos htype', Reading.within_bind,
    within_readByte, within_readByte, readByte_value, ← and_assoc]
  have hlen : itemLength m i = (byte m (i + 1)).toNat := rfl
  rw [hlen]
  constructor
  · rintro ⟨⟨-, h2⟩, h⟩
    exact ⟨h2, h⟩
  · rintro ⟨h2, h⟩
    exact ⟨⟨by omega, h2⟩, h⟩

theorem within_skipItems_not_skipped {n : Nat} (h : ¬Skipped m stop i) :
    (skipItems m stop (rounds + 1) i).Within n ↔ (i < stop → i + 1 ≤ n) := by
  rw [skipItems_succ]
  by_cases hlt : i < stop
  · have htype : ¬((byte m i).toNat ≠ SDES_CNAME ∧ (byte m i).toNat ≠ SDES_END) := fun h' => h ⟨hlt, h'⟩
    rw [if_pos hlt, Reading.within_bind, within_readByte, readByte_value, if_neg htype]
    simp [hlt]
  · rw [if_neg hlt]
    simp [hlt]

/-- Where the loop ends, the walk ends. -/
theorem ends_of_skipItems : ∀ {rounds i : Nat}, (skipItems m stop rounds i).value = some j → Ends m stop i j
  | 0, _, h => nomatch h
  | rounds + 1, i, h => by
    by_cases hs : Skipped m stop i
    · rw [skipItems_skipped hs] at h
      obtain ⟨hp, hj⟩ := ends_of_skipItems h
      exact ⟨.skip hs hp, hj⟩
    · rw [skipItems_not_skipped hs] at h
      obtain rfl := Option.some.inj h
      exact ⟨.refl i, hs⟩

/-- Every item passed moves the walk on, and lies in the first `n` bytes. -/
def Moves (m : List UInt8) (stop n i : Nat) : Prop :=
  ∀ k, Passes m stop i k → Skipped m stop k → 0 < itemLength m k ∧ k + 2 ≤ n

theorem moves_of_skipItems {n : Nat} : ∀ {rounds i : Nat}, (skipItems m stop rounds i).value = some j →
    (skipItems m stop rounds i).Within n → Moves m stop n i
  | 0, _, h, _ => nomatch h
  | rounds + 1, i, h, hw => by
    intro k hk hsk
    by_cases hs : Skipped m stop i
    · rw [skipItems_skipped hs] at h
      obtain ⟨hi, hw⟩ := (within_skipItems_skipped hs).mp hw
      have hrest := moves_of_skipItems h hw
      cases hk with
      | refl =>
        refine ⟨?_, hi⟩
        by_contra h0
        -- an item of length zero would be passed again, with a round less
        have h0 : itemLength m i = 0 := by omega
        have hself := hrest i (by rw [h0]; exact .refl i) hs
        omega
      | skip _ hk => exact hrest k hk hsk
    · cases hk with
      | refl => exact absurd hsk hs
      | skip hs' _ => exact absurd hs' hs

theorem skipItems_of_moves {n : Nat} (hstop : stop ≤ n) : ∀ {rounds i : Nat}, Moves m stop n i →
    stop - i < rounds → ∃ j, (skipItems m stop rounds i).value = some j ∧ (skipItems m stop rounds i).Within n
  | 0, _, _, h => absurd h (Nat.not_lt_zero _)
  | rounds + 1, i, hm, hr => by
    by_cases hs : Skipped m stop i
    · obtain ⟨hlen, hi⟩ := hm i (.refl i) hs
      have hlt := hs.1
      obtain ⟨j, hj, hw⟩ : ∃ j, (skipItems m stop rounds (i + itemLength m i)).value = some j ∧ _ :=
        skipItems_of_moves hstop (fun k hk => hm k (.skip hs hk)) (by omega)
      exact ⟨j, (skipItems_skipped hs).trans hj, (within_skipItems_skipped hs).mpr ⟨hi, hw⟩⟩
    · exact ⟨i, skipItems_not_skipped hs, (within_skipItems_not_skipped hs).mpr fun hlt => by omega⟩

theorem Ends.unique (h : Ends m stop i j) {j' : Nat} (h' : Ends m stop i j') : j = j' := by
  obtain ⟨hp, hj⟩ := h
  induction hp with
  | refl =>
    cases h'.1 with
    | refl => rfl
    | skip hs _ => exact absurd hs hj
  | skip hs _ ih =>
    obtain ⟨hp', hj'⟩ := h'
    cases hp' with
    | refl => exact absurd hs hj'
    | skip _ hp' => exact ih ⟨hp', hj'⟩ hj

end Oreka.Capture.Rtcp
