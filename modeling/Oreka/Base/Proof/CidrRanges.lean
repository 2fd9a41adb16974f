import Oreka.Base.Proof.DottedAddress
import Oreka.Lib.Infix

/-!
# Which ranges match

An address matches a list of entries where it agrees with the address of one of them on its first bits
(`compute_formed`). `Compute` refuses an entry that it cannot read, but it reads more than it should: a
prefix length is an `int` that `strtol` has read, with white space, a sign and a value modulo 2^32
(`addEntry_eq_ok`), and `strict_iff` says when that shows.
-/

namespace Oreka

open Serializers

/-! ## Bits -/

/-- The address as a number, its first byte the highest. -/
def InAddr.number (a : InAddr) : Nat :=
  a.b0.toNat * 16777216 + a.b1.toNat * 65536 + a.b2.toNat * 256 + a.b3.toNat

/-- A bit of an address, counted from the front. -/
def InAddr.bit (a : InAddr) (i : Nat) : Bool := a.number.testBit (31 - i)

/-- Two addresses agree on their first `n` bits. -/
def Agrees (a b : InAddr) (n : Nat) : Prop := ∀ i < n, a.bit i = b.bit i

theorem number_lt (a : InAddr) : a.number < 2 ^ 32 := by
  have h₀ := a.b0.toNat_lt
  have h₁ := a.b1.toNat_lt
  have h₂ := a.b2.toNat_lt
  have h₃ := a.b3.toNat_lt
  unfold InAddr.number
  omega

theorem or_shiftLeft {x k : Nat} (y : Nat) (hx : x < 2 ^ k) : x ||| y <<< k = y * 2 ^ k + x := by
  rw [Nat.or_comm, ← Nat.shiftLeft_add_eq_or_of_lt hx, Nat.shiftLeft_eq]

theorem toNat_toUInt32_shiftLeft (b : UInt8) {k : UInt32} (hk : k.toNat ≤ 24) :
    (b.toUInt32 <<< k).toNat = b.toNat <<< k.toNat := by
  have hb := b.toNat_lt
  have hpow : 2 ^ k.toNat ≤ 2 ^ 24 := Nat.pow_le_pow_right (by decide) hk
  have hlt : b.toNat * 2 ^ k.toNat < 2 ^ 32 :=
    calc b.toNat * 2 ^ k.toNat ≤ b.toNat * 2 ^ 24 := Nat.mul_le_mul_left _ hpow
      _ < 2 ^ 32 := by omega
  rw [UInt32.toNat_shiftLeft, UInt8.toNat_toUInt32, Nat.mod_eq_of_lt (show k.toNat < 32 by omega),
    Nat.shiftLeft_eq, Nat.mod_eq_of_lt hlt]

theorem toNat_sAddr (a : InAddr) : a.sAddr.toNat =
    a.b3.toNat * 2 ^ 24 + (a.b2.toNat * 2 ^ 16 + (a.b1.toNat * 2 ^ 8 + a.b0.toNat)) := by
  have h₀ := a.b0.toNat_lt
  have h₁ := a.b1.toNat_lt
  have h₂ := a.b2.toNat_lt
  rw [InAddr.sAddr, UInt32.toNat_or, UInt32.toNat_or, UInt32.toNat_or,
    toNat_toUInt32_shiftLeft a.b1 (k := 8) (by decide), toNat_toUInt32_shiftLeft a.b2 (k := 16) (by decide),
    toNat_toUInt32_shiftLeft a.b3 (k := 24) (by decide), UInt8.toNat_toUInt32]
  change ((a.b0.toNat ||| a.b1.toNat <<< 8) ||| a.b2.toNat <<< 16) ||| a.b3.toNat <<< 24 = _
  rw [or_shiftLeft _ h₀, or_shiftLeft _ (show a.b1.toNat * 2 ^ 8 + a.b0.toNat < 2 ^ 16 by omega),
    or_shiftLeft _ (show a.b2.toNat * 2 ^ 16 + (a.b1.toNat * 2 ^ 8 + a.b0.toNat) < 2 ^ 24 by omega)]

theorem toNat_ntohl_sAddr (a : InAddr) : (ntohl a.sAddr).toNat = a.number := by
  have h₀ := a.b0.toNat_lt
  have h₁ := a.b1.toNat_lt
  have h₂ := a.b2.toNat_lt
  have h₃ := a.b3.toNat_lt
  obtain ⟨x, hx⟩ : ∃ x, a.sAddr.toNat = x := ⟨_, rfl⟩
  have hbytes := hx
  rw [toNat_sAddr] at hbytes
  have hb₀ : x % 256 = a.b0.toNat := by omega
  have hb₁ : x / 256 % 256 = a.b1.toNat := by omega
  have hb₂ : x / 65536 % 256 = a.b2.toNat := by omega
  have hb₃ : x / 16777216 = a.b3.toNat := by omega
  rw [ntohl, UInt32.toNat_ofNat', hx, hb₀, hb₁, hb₂, hb₃]
  exact Nat.mod_eq_of_lt (number_lt a)

/-- The prefixes are the same exactly if the addresses agree on so many bits. -/
theorem prefix_eq_iff (a b : InAddr) {n : UInt32} (hpos : 1 ≤ n.toNat) (hle : n.toNat ≤ 32) :
    ntohl a.sAddr >>> (32 - n) = ntohl b.sAddr >>> (32 - n) ↔ Agrees a b n.toNat := by
  have hwidth : (32 - n).toNat % 32 = 32 - n.toNat := by
    rw [UInt32.toNat_sub_of_le _ _ (UInt32.le_iff_toNat_le.2 hle)]
    exact Nat.mod_eq_of_lt (by change 32 - n.toNat < 32; omega)
  rw [← UInt32.toNat_inj, UInt32.toNat_shiftRight, UInt32.toNat_shiftRight, hwidth, toNat_ntohl_sAddr,
    toNat_ntohl_sAddr]
  constructor
  · intro h i hi
    have hbit := congrArg (Nat.testBit · (n.toNat - 1 - i)) h
    rw [Nat.testBit_shiftRight, Nat.testBit_shiftRight,
      show 32 - n.toNat + (n.toNat - 1 - i) = 31 - i by omega] at hbit
    exact hbit
  · intro h
    apply Nat.eq_of_testBit_eq
    intro i
    rw [Nat.testBit_shiftRight, Nat.testBit_shiftRight]
    by_cases hi : i < n.toNat
    · have hbit := h (n.toNat - 1 - i) (by omega)
      rwa [InAddr.bit, InAddr.bit, show 31 - (n.toNat - 1 - i) = 32 - n.toNat + i by omega] at hbit
    · have hhigh (c : InAddr) : c.number.testBit (32 - n.toNat + i) = false :=
        Nat.testBit_lt_two_pow ((number_lt c).trans_le (Nat.pow_le_pow_right (by decide) (by omega)))
      rw [hhigh, hhigh]

/-! ## Entries -/

/-- An address, or an address and the number of its bits that count. -/
inductive Entry : List UInt8 → InAddr → Nat → Prop
  | address {s : List UInt8} {a : InAddr} (h : Dotted s a) : Entry s a 32
  | cidr {s digits : List UInt8} {a : InAddr} (h : Dotted s a) (hne : digits ≠ [])
      (hdigits : ∀ c ∈ digits, isdigit c = true) (hpos : 1 ≤ decimal digits) (hle : decimal digits ≤ 32) :
      Entry (s ++ '/'.toUInt8 :: digits) a (decimal digits)

/-- What `Compute` reads: of each part no more than is before a NUL, and as a prefix length any integer
that is between 1 and 32 modulo 2^32. -/
inductive ReadEntry : List UInt8 → InAddr → UInt32 → Prop
  | address {s : List UInt8} {a : InAddr} (hslash : '/'.toUInt8 ∉ s)
      (h : Dotted (UrlSerializer.cString s) a) : ReadEntry s a 32
  | cidr {s suffix : List UInt8} {a : InAddr} {k : Int} {n : UInt32} (hslash : '/'.toUInt8 ∉ s)
      (h : Dotted (UrlSerializer.cString s) a) (hk : IntText (UrlSerializer.cString suffix) k)
      (hn : (n.toNat : Int) = clampLong k % 2 ^ 32) (hpos : 1 ≤ n.toNat) (hle : n.toNat ≤ 32) :
      ReadEntry (s ++ '/'.toUInt8 :: suffix) a n

theorem ReadEntry.bounds {e : List UInt8} {a : InAddr} {n : UInt32} (h : ReadEntry e a n) :
    1 ≤ n.toNat ∧ n.toNat ≤ 32 := by
  cases h with
  | address => decide
  | cidr _ _ _ _ hpos hle => exact ⟨hpos, hle⟩

theorem toNat_toUInt32_ofInt (i : Int) : ((Int32.ofInt i).toUInt32.toNat : Int) = i % 2 ^ 32 := by
  change (((BitVec.ofInt 32 i).toNat : Nat) : Int) = _
  rw [BitVec.toNat_ofInt]
  omega

theorem cidrPrefixLength_eq_some {s : List UInt8} {n : UInt32} : cidrPrefixLength s = some n ↔
    (∃ k, IntText (UrlSerializer.cString s) k ∧ (n.toNat : Int) = clampLong k % 2 ^ 32) ∧
      1 ≤ n.toNat ∧ n.toNat ≤ 32 := by
  have hrange (m : UInt32) : (m < 1 ∨ m > 32) ↔ ¬(1 ≤ m.toNat ∧ m.toNat ≤ 32) := by
    rw [gt_iff_lt, UInt32.lt_iff_toNat_lt, UInt32.lt_iff_toNat_lt]
    change (m.toNat < 1 ∨ 32 < m.toNat) ↔ _
    omega
  unfold cidrPrefixLength
  constructor
  · intro h
    split at h
    · rename_i i hi
      split at h
      · cases h
      · rename_i hin
        injection h with h
        subst h
        have hbounds := Decidable.not_not.1 fun hout => hin ((hrange _).2 hout)
        obtain ⟨-, rfl⟩ | ⟨k, hk, rfl⟩ := stringToInt_eq_ok.1 hi
        · exact absurd hbounds.1 (by decide)
        · exact ⟨⟨k, hk, toNat_toUInt32_ofInt _⟩, hbounds⟩
    · cases h
  · rintro ⟨⟨k, hk, hn⟩, hbounds⟩
    have hlength : (Int32.ofInt (clampLong k)).toUInt32 = n := by
      rw [← UInt32.toNat_inj]
      exact Int.ofNat_inj.1 ((toNat_toUInt32_ofInt _).trans hn.symm)
    rw [stringToInt_eq_ok.2 (.inr ⟨k, hk, rfl⟩)]
    dsimp only
    rw [hlength, if_neg fun h => (hrange n).1 h hbounds]

theorem splitCidr_address {s : List UInt8} (h : '/'.toUInt8 ∉ s) : splitCidr s = (s, none) := by
  rw [splitCidr, List.idxOf?_eq_none_iff.2 h]

theorem splitCidr_cidr {s suffix : List UInt8} (h : '/'.toUInt8 ∉ s) (hne : s ≠ []) :
    splitCidr (s ++ '/'.toUInt8 :: suffix) = (s, some suffix) := by
  obtain ⟨k, hk⟩ := Nat.exists_eq_succ_of_ne_zero fun h0 => hne (List.eq_nil_of_length_eq_zero h0)
  have htake : (s ++ '/'.toUInt8 :: suffix).take (k + 1) = s := by
    rw [← Nat.succ_eq_add_one, ← hk, List.take_left]
  have hdrop : (s ++ '/'.toUInt8 :: suffix).drop (k + 2) = suffix := by
    rw [show k + 2 = s.length + 1 by omega, ← List.drop_drop, List.drop_left]
    rfl
  rw [splitCidr, Infix.idxOf?_append_cons h, hk]
  dsimp only
  rw [htake, hdrop]

theorem splitCidr_slash (suffix : List UInt8) :
    splitCidr ('/'.toUInt8 :: suffix) = ('/'.toUInt8 :: suffix, none) := by
  rw [splitCidr, List.idxOf?_cons]
  rfl

/-- An entry without a slash, or the two sides of its first one. -/
theorem entry_cases (e : List UInt8) :
    '/'.toUInt8 ∉ e ∨ ∃ s suffix, e = s ++ '/'.toUInt8 :: suffix ∧ '/'.toUInt8 ∉ s := by
  by_cases h : '/'.toUInt8 ∈ e
  · obtain ⟨s, suffix, rfl, hs⟩ := List.eq_append_cons_of_mem h
    exact .inr ⟨s, suffix, rfl, hs⟩
  · exact .inl h

theorem readEntry_address {e : List UInt8} {a : InAddr} {n : UInt32} (hslash : '/'.toUInt8 ∉ e) :
    ReadEntry e a n ↔ Dotted (UrlSerializer.cString e) a ∧ n = 32 := by
  constructor
  · intro h
    cases h with
    | address _ ha => exact ⟨ha, rfl⟩
    | cidr => exact absurd (List.mem_append_right _ List.mem_cons_self) hslash
  · rintro ⟨ha, rfl⟩
    exact .address hslash ha

theorem readEntry_cidr {s suffix : List UInt8} {a : InAddr} {n : UInt32} (hslash : '/'.toUInt8 ∉ s) :
    ReadEntry (s ++ '/'.toUInt8 :: suffix) a n ↔
      Dotted (UrlSerializer.cString s) a ∧ cidrPrefixLength suffix = some n := by
  rw [cidrPrefixLength_eq_some]
  constructor
  · intro h
    generalize he : s ++ '/'.toUInt8 :: suffix = e at h
    cases h with
    | address hnot => exact absurd (he ▸ List.mem_append_right _ List.mem_cons_self) hnot
    | cidr hslash' ha hk hn hpos hle =>
      obtain ⟨rfl, rfl⟩ := Infix.append_cons_inj hslash hslash' he
      exact ⟨ha, ⟨_, hk, hn⟩, hpos, hle⟩
  · rintro ⟨ha, ⟨k, hk, hn⟩, hpos, hle⟩
    exact .cidr hslash ha hk hn hpos hle

theorem ReadEntry.unique {e : List UInt8} {a a' : InAddr} {n n' : UInt32} (h : ReadEntry e a n)
    (h' : ReadEntry e a' n') : a = a' ∧ n = n' := by
  have hdotted {s : List UInt8} (ha : Dotted (UrlSerializer.cString s) a)
      (ha' : Dotted (UrlSerializer.cString s) a') : a = a' :=
    Option.some.inj ((inetPton4_eq_some.2 ha).symm.trans (inetPton4_eq_some.2 ha'))
  rcases entry_cases e with hslash | ⟨s, suffix, rfl, hslash⟩
  · rw [readEntry_address hslash] at h h'
    exact ⟨hdotted h.1 h'.1, h.2.trans h'.2.symm⟩
  · rw [readEntry_cidr hslash] at h h'
    exact ⟨hdotted h.1 h'.1, Option.some.inj (h.2.symm.trans h'.2)⟩

namespace IpRangeLists

variable {r r' : IpRangeLists} {e address : List UInt8} {n : UInt32}

theorem addAddress_eq_ok : r.addAddress e address n = .ok r' ↔
    ∃ a, Dotted (UrlSerializer.cString address) a ∧ r' = r.push a n := by
  unfold addAddress
  constructor
  · intro h
    split at h
    · rename_i a ha
      cases h
      exact ⟨a, inetPton4_eq_some.1 ha, rfl⟩
    · cases h
  · rintro ⟨a, ha, rfl⟩
    rw [inetPton4_eq_some.2 ha]

/-- **What `Compute` reads as an entry**, and what it keeps of it. -/
theorem addEntry_eq_ok : r.addEntry e = .ok r' ↔ ∃ a n, ReadEntry e a n ∧ r' = r.push a n := by
  rcases entry_cases e with hslash | ⟨s, suffix, rfl, hslash⟩
  · rw [addEntry, splitCidr_address hslash]
    dsimp only
    simp only [addAddress_eq_ok, readEntry_address hslash]
    constructor
    · rintro ⟨a, ha, rfl⟩
      exact ⟨a, 32, ⟨ha, rfl⟩, rfl⟩
    · rintro ⟨a, n, ⟨ha, rfl⟩, rfl⟩
      exact ⟨a, ha, rfl⟩
  · simp only [readEntry_cidr hslash]
    rcases eq_or_ne s [] with rfl | hne
    · -- A slash at the beginning is taken for a part of the address.
      have hnone (a : InAddr) : ¬ Dotted (UrlSerializer.cString ('/'.toUInt8 :: suffix)) a := by
        intro h
        rcases h.mem (show '/'.toUInt8 ∈ _ from List.mem_cons_self) with h | h
        · cases h
        · cases h
      have hempty (a : InAddr) : ¬ Dotted (UrlSerializer.cString []) a := by
        rintro ⟨o₀, o₁, o₂, o₃, h, -⟩
        exact List.append_ne_nil_of_right_ne_nil _ (List.cons_ne_nil _ _) h.symm
      rw [List.nil_append, addEntry, splitCidr_slash]
      dsimp only
      simp only [addAddress_eq_ok, hnone, hempty, false_and, exists_false]
    · rw [addEntry, splitCidr_cidr hslash hne]
      dsimp only
      constructor
      · intro h
        split at h
        · rename_i length hlength
          obtain ⟨a, ha, rfl⟩ := addAddress_eq_ok.1 h
          exact ⟨a, length, ⟨ha, hlength⟩, rfl⟩
        · cases h
      · rintro ⟨a, n, ⟨ha, hn⟩, rfl⟩
        rw [hn]
        exact addAddress_eq_ok.2 ⟨a, ha, rfl⟩

/-! ## The list -/

/-- There is a width for each prefix, and an address matches where one of these entries does. -/
structure Holds (r : IpRangeLists) (entries : List (List UInt8)) : Prop where
  widths : r.ipRangePrefixes.length = r.ipRangeBitWidths.length
  found (ip : InAddr) : r.matchesIp ip = true ↔ ∃ e ∈ entries, ∃ a n, ReadEntry e a n ∧ Agrees ip a n.toNat

theorem matchesIp_push (hwidths : r.ipRangePrefixes.length = r.ipRangeBitWidths.length) (a ip : InAddr) :
    (r.push a n).matchesIp ip =
      (r.matchesIp ip || ntohl ip.sAddr >>> (32 - n) == ntohl a.sAddr >>> (32 - n)) := by
  rw [matchesIp, push]
  dsimp only
  rw [List.zip_append hwidths, List.any_append]
  simp [matchesIp]

theorem Holds.push {entries : List (List UInt8)} (h : r.Holds entries) {a : InAddr} (he : ReadEntry e a n) :
    (r.push a n).Holds (entries ++ [e]) where
  widths := by
    have hwidths := h.widths
    simp only [IpRangeLists.push, List.length_append, hwidths, List.length_singleton]
  found ip := by
    obtain ⟨hpos, hle⟩ := he.bounds
    rw [matchesIp_push h.widths, Bool.or_eq_true, h.found, beq_iff_eq, prefix_eq_iff ip a hpos hle]
    simp only [List.mem_append, List.mem_singleton, or_and_right, exists_or, exists_eq_left]
    refine or_congr_right ⟨fun hagrees => ⟨a, n, he, hagrees⟩, ?_⟩
    rintro ⟨a', n', he', hagrees⟩
    obtain ⟨rfl, rfl⟩ := he'.unique he
    exact hagrees

/-- The list is read if all its entries are. -/
theorem foldlM_addEntry {done entries : List (List UInt8)} (h : r.Holds done)
    (hread : ∀ e ∈ entries, ∃ a n, ReadEntry e a n) :
    ∃ r', entries.foldlM addEntry r = .ok r' ∧ r'.Holds (done ++ entries) := by
  induction entries generalizing r done with
  | nil => exact ⟨r, rfl, by rwa [List.append_nil]⟩
  | cons e entries ih =>
    obtain ⟨⟨a, n, he⟩, hread⟩ := List.forall_mem_cons.1 hread
    obtain ⟨r', hr', hholds⟩ := ih (h.push he) hread
    refine ⟨r', ?_, by rwa [List.append_cons]⟩
    rw [List.foldlM_cons, addEntry_eq_ok.2 ⟨a, n, he, rfl⟩]
    exact hr'

/-- It is refused if one of them is. -/
theorem foldlM_addEntry_error {entries : List (List UInt8)} (he : e ∈ entries)
    (hunread : ¬ ∃ a n, ReadEntry e a n) : ∃ f, entries.foldlM addEntry r = .error f := by
  induction entries generalizing r with
  | nil => cases he
  | cons e' entries ih =>
    rw [List.foldlM_cons]
    cases hadd : r.addEntry e' with
    | error f => exact ⟨f, rfl⟩
    | ok r₁ =>
      rcases List.mem_cons.1 he with rfl | he
      · obtain ⟨a, n, hread, -⟩ := addEntry_eq_ok.1 hadd
        exact absurd ⟨a, n, hread⟩ hunread
      · exact ih he

theorem holds_nil : ({} : IpRangeLists).Holds [] where
  widths := rfl
  found ip := by simp [matchesIp]

/-- An entry without NUL, and with nothing but the digits of a number up to 32 behind its first slash. -/
def Plain (e : List UInt8) : Prop :=
  0 ∉ e ∧ ∀ s suffix, e = s ++ '/'.toUInt8 :: suffix → '/'.toUInt8 ∉ s →
    (∀ c ∈ suffix, isdigit c = true) ∧ decimal suffix ≤ 32

theorem Plain.entry {a : InAddr} (h : Plain e) (he : ReadEntry e a n) : Entry e a n.toNat := by
  obtain ⟨hnul, hsuffix⟩ := h
  cases he with
  | address _ ha =>
    rw [UrlSerializer.cString_eq_self.2 hnul] at ha
    exact .address ha
  | cidr _ ha hk hn hpos hle =>
    rename_i s suffix k hslash
    obtain ⟨hdigits, hdecimal⟩ := hsuffix s suffix rfl hslash
    have hs : 0 ∉ s := fun h0 => hnul (List.mem_append_left _ h0)
    have hsuffixNul : 0 ∉ suffix := fun h0 => hnul (List.mem_append_right _ (List.mem_cons_of_mem _ h0))
    rw [UrlSerializer.cString_eq_self.2 hs] at ha
    rw [UrlSerializer.cString_eq_self.2 hsuffixNul] at hk
    have hne := intText_ne_nil hk
    have hclamp := intText_clampLong_unique hk (intText_digits hne hdigits)
    rw [clampLong_eq (n := (decimal suffix : Int)) (by omega) (by omega)] at hclamp
    have hvalue : n.toNat = decimal suffix := by omega
    rw [hvalue] at hpos ⊢
    exact .cidr ha hne hdigits hpos hdecimal

end IpRangeLists

open IpRangeLists

theorem Dotted.not_mem {s : List UInt8} {a : InAddr} (h : Dotted s a) {c : UInt8} (hc : isdigit c = false)
    (hdot : c ≠ '.'.toUInt8) : c ∉ s := by
  intro hmem
  rcases h.mem hmem with hdigit | heq
  · rw [hc] at hdigit
    cases hdigit
  · exact hdot heq

/-- What is well formed is read. -/
theorem Entry.read {e : List UInt8} {a : InAddr} {n : Nat} (h : Entry e a n) :
    ReadEntry e a (.ofNat n) ∧ n ≤ 32 ∧ Plain e := by
  cases h with
  | address ha =>
    have hslash := ha.not_mem (c := '/'.toUInt8) (by decide) (by decide)
    have hnul := ha.not_mem (c := 0) (by decide) (by decide)
    refine ⟨.address hslash (by rwa [UrlSerializer.cString_eq_self.2 hnul]), Nat.le_refl 32, hnul, ?_⟩
    rintro s suffix rfl -
    exact absurd (List.mem_append_right _ List.mem_cons_self) hslash
  | cidr ha hne hdigits hpos hle =>
    rename_i s digits
    have hslash := ha.not_mem (c := '/'.toUInt8) (by decide) (by decide)
    have hnul := ha.not_mem (c := 0) (by decide) (by decide)
    have hnul' : 0 ∉ digits := fun h0 => absurd (hdigits 0 h0) (by decide)
    have hvalue : (UInt32.ofNat (decimal digits)).toNat = decimal digits := by
      rw [UInt32.toNat_ofNat']
      omega
    have hdotted : Dotted (UrlSerializer.cString s) a := by rwa [UrlSerializer.cString_eq_self.2 hnul]
    refine ⟨.cidr (k := decimal digits) hslash hdotted ?_ ?_ ?_ ?_, hle, ?_, ?_⟩
    · rw [UrlSerializer.cString_eq_self.2 hnul']
      exact intText_digits hne hdigits
    · rw [hvalue, clampLong_eq (by omega) (by omega)]
      omega
    · rwa [hvalue]
    · rwa [hvalue]
    · intro h0
      rcases List.mem_append.1 h0 with h0 | h0
      · exact hnul h0
      · rcases List.mem_cons.1 h0 with h0 | h0
        · cases h0
        · exact hnul' h0
    · intro s' suffix heq hslash'
      obtain ⟨rfl, rfl⟩ := Infix.append_cons_inj hslash hslash' heq
      exact ⟨hdigits, hle⟩

/-- **The first half holds of every list**: well-formed entries are read, and match what they should. -/
theorem compute_formed {entries : List (List UInt8)} (hformed : ∀ e ∈ entries, ∃ a n, Entry e a n) :
    ∃ r, compute entries = .ok r ∧
      ∀ ip, r.matchesIp ip = true ↔ ∃ e ∈ entries, ∃ a n, Entry e a n ∧ Agrees ip a n := by
  have hread : ∀ e ∈ entries, ∃ a n, ReadEntry e a n := by
    intro e he
    obtain ⟨a, n, h⟩ := hformed e he
    exact ⟨a, .ofNat n, h.read.1⟩
  obtain ⟨r, hr, hholds⟩ := foldlM_addEntry holds_nil hread
  refine ⟨r, hr, fun ip => (hholds.found ip).trans ⟨?_, ?_⟩⟩
  · rintro ⟨e, he, a, n, hread, hagrees⟩
    obtain ⟨a', n', h⟩ := hformed e he
    exact ⟨e, he, a, n.toNat, h.read.2.2.entry hread, hagrees⟩
  · rintro ⟨e, he, a, n, h, hagrees⟩
    obtain ⟨hread, hle, -⟩ := h.read
    have hn : (UInt32.ofNat n).toNat = n := by
      rw [UInt32.toNat_ofNat']
      omega
    exact ⟨e, he, a, .ofNat n, hread, by rwa [hn]⟩

/-- The ranges of a configuration are those of its entries. -/
theorem ofAscii_formed {entries : List (List UInt8)} (hformed : ∀ e ∈ entries, ∃ a n, Entry e a n) :
    ∃ ranges, IpRanges.ofAscii entries = .ok ranges ∧ ranges.isEmpty = entries.isEmpty ∧
      ∀ ip, ranges.contains ip = true ↔ ∃ e ∈ entries, ∃ a n, Entry e a n ∧ Agrees ip a n := by
  obtain ⟨r, hr, hfound⟩ := compute_formed hformed
  refine ⟨{ isEmpty := entries.isEmpty, contains := r.matchesIp }, ?_, rfl, hfound⟩
  rw [IpRanges.ofAscii, hr]
  rfl

/-- Well-formed lists are read and match what they should, and any other is refused. -/
structure Strict (entries : List (List UInt8)) : Prop where
  formed : (∀ e ∈ entries, ∃ a n, Entry e a n) → ∃ r, compute entries = .ok r ∧
    ∀ ip, r.matchesIp ip = true ↔ ∃ e ∈ entries, ∃ a n, Entry e a n ∧ Agrees ip a n
  refused : (∃ e ∈ entries, ¬ ∃ a n, Entry e a n) → ∃ f, compute entries = .error f

/-- **When `Compute` is strict**: unless each entry can be read, and one of them only leniently. -/
theorem strict_iff (entries : List (List UInt8)) :
    Strict entries ↔ ((∀ e ∈ entries, ∃ a n, ReadEntry e a n) → ∀ e ∈ entries, Plain e) := by
  constructor
  · intro hstrict hread e he
    by_contra hnot
    have hnone : ¬ ∃ a n, Entry e a n := by
      rintro ⟨a, n, h⟩
      exact hnot h.read.2.2
    obtain ⟨f, hf⟩ := hstrict.refused ⟨e, he, hnone⟩
    obtain ⟨r, hr, -⟩ := foldlM_addEntry holds_nil hread
    rw [compute, hr] at hf
    cases hf
  · intro hplain
    refine ⟨compute_formed, ?_⟩
    rintro ⟨e, he, hnone⟩
    by_cases hread : ∀ e ∈ entries, ∃ a n, ReadEntry e a n
    · obtain ⟨a, n, h⟩ := hread e he
      exact absurd ⟨a, _, (hplain hread e he).entry h⟩ hnone
    · push Not at hread
      obtain ⟨e', he', hunread⟩ := hread
      exact foldlM_addEntry_error he' (by simpa using hunread)

/-- A prefix length that wraps around is one of 8 bits. -/
theorem not_strict_wrapped : ¬ ∀ entries, Strict entries := by
  intro h
  obtain ⟨f, hf⟩ := (h [bytes "10.0.0.0/4294967304"]).refused ⟨_, List.mem_singleton.2 rfl, by
    rintro ⟨a, n, he⟩
    have hsuffix := he.read.2.2.2 (bytes "10.0.0.0") (bytes "4294967304") (by decide) (by decide)
    exact absurd hsuffix.2 (by decide)⟩
  have hok : (compute [bytes "10.0.0.0/4294967304"]).isOk = true := by decide
  rw [hf] at hok
  cases hok

end Oreka
