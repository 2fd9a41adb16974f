import Mathlib.Data.List.Forall2
import Oreka.Base.IpRanges
import Oreka.Serializers.Proof.Integers

/-!
# The addresses that are read

`inetPton4_eq_some`: `inet_pton4` reads four octets with dots between them and nothing else. An octet is
any number of digits of a value up to 255.
-/

namespace Oreka

open Serializers

/-- The decimal digits of a byte. -/
structure Octet (o : List UInt8) (b : UInt8) : Prop where
  ne_nil : o ≠ []
  digits : ∀ c ∈ o, isdigit c = true
  value : decimal o = b.toNat

/-- The dotted form of an address. -/
def Dotted (s : List UInt8) (a : InAddr) : Prop :=
  ∃ o₀ o₁ o₂ o₃, s = o₀ ++ '.'.toUInt8 :: (o₁ ++ '.'.toUInt8 :: (o₂ ++ '.'.toUInt8 :: o₃)) ∧
    Octet o₀ a.b0 ∧ Octet o₁ a.b1 ∧ Octet o₂ a.b2 ∧ Octet o₃ a.b3

theorem Dotted.mem {s : List UInt8} {a : InAddr} (h : Dotted s a) {c : UInt8} (hc : c ∈ s) :
    isdigit c = true ∨ c = '.'.toUInt8 := by
  obtain ⟨o₀, o₁, o₂, o₃, rfl, h₀, h₁, h₂, h₃⟩ := h
  simp only [List.mem_append, List.mem_cons] at hc
  rcases hc with hc | hc | hc | hc | hc | hc | hc
  · exact .inl (h₀.digits c hc)
  · exact .inr hc
  · exact .inl (h₁.digits c hc)
  · exact .inr hc
  · exact .inl (h₂.digits c hc)
  · exact .inr hc
  · exact .inl (h₃.digits c hc)

theorem decimal_concat (o : List UInt8) (c : UInt8) :
    decimal (o ++ [c]) = decimal o * 10 + (c.toNat - 48) := by
  rw [decimal, decimal, List.foldl_append]
  rfl

/-! ## What is read is dotted -/

namespace Pton

/-- `t` is read: complete octets with a dot behind each, and the digits of the next one. -/
structure Reads (t : List UInt8) (s : Pton) (os : List (List UInt8)) (cur : List UInt8) : Prop where
  text : t = (os.map (· ++ ['.'.toUInt8])).flatten ++ cur
  done : List.Forall₂ Octet os s.done
  few : os.length ≤ 3
  octets : s.octets = os.length + if cur = [] then 0 else 1
  sawDigit : s.sawDigit = true ↔ cur ≠ []
  digits : ∀ c ∈ cur, isdigit c = true
  value : decimal cur = s.tp.toNat

variable {t : List UInt8} {s s' : Pton} {os : List (List UInt8)} {cur : List UInt8} {ch : UInt8}

theorem Reads.digit (h : Reads t s os cur) (hch : isdigit ch = true) (hs : s.read ch = some s') :
    Reads (t ++ [ch]) s' os (cur ++ [ch]) := by
  have hcur : cur ++ [ch] ≠ [] := List.append_ne_nil_of_right_ne_nil _ (List.cons_ne_nil _ _)
  have hdigits : ∀ c ∈ cur ++ [ch], isdigit c = true := by
    intro c hc
    obtain hc | hc := List.mem_append.1 hc
    · exact h.digits c hc
    · exact List.mem_singleton.1 hc ▸ hch
  have htext : t ++ [ch] = (os.map (· ++ ['.'.toUInt8])).flatten ++ (cur ++ [ch]) := by
    rw [h.text, List.append_assoc]
  rw [read, if_pos hch] at hs
  dsimp only at hs
  split at hs
  · cases hs
  · rename_i hval
    have hvalue : decimal (cur ++ [ch]) = (UInt8.ofNat (s.tp.toNat * 10 + (ch.toNat - 48))).toNat := by
      rw [decimal_concat, h.value, UInt8.toNat_ofNat']
      omega
    split at hs
    · rename_i hsaw
      cases hs
      refine ⟨htext, h.done, h.few, ?_, ⟨fun _ => hcur, fun _ => hsaw⟩, hdigits, hvalue⟩
      rw [if_neg hcur, h.octets, if_neg (h.sawDigit.1 hsaw)]
    · rename_i hsaw
      split at hs
      · cases hs
      · cases hs
        refine ⟨htext, h.done, h.few, ?_, ⟨fun _ => hcur, fun _ => rfl⟩, hdigits, hvalue⟩
        have hnil : cur = [] := Decidable.not_not.1 fun hne => hsaw (h.sawDigit.2 hne)
        rw [if_neg hcur, h.octets, if_pos hnil]

theorem Reads.dot (h : Reads t s os cur) (hch : isdigit ch = false) (hs : s.read ch = some s') :
    Reads (t ++ [ch]) s' (os ++ [cur]) [] := by
  rw [read, if_neg (by simp [hch])] at hs
  split at hs
  · rename_i hdot
    obtain ⟨rfl, hsaw⟩ := hdot
    have hne := h.sawDigit.1 hsaw
    split at hs
    · cases hs
    · rename_i hfull
      cases hs
      have hoctets := h.octets
      rw [if_neg hne] at hoctets
      refine ⟨?_, ?_, ?_, ?_, ⟨nofun, fun hnil => absurd rfl hnil⟩,
        fun _ hc => absurd hc List.not_mem_nil, rfl⟩
      · simp [h.text]
      · exact List.rel_append h.done (.cons ⟨hne, h.digits, h.value⟩ .nil)
      · have := h.few
        rw [List.length_append, List.length_singleton]
        omega
      · rw [List.length_append, List.length_singleton, if_pos rfl]
        exact hoctets
  · cases hs

theorem reads_foldlM (ht : t.foldlM read {} = some s) : ∃ os cur, Reads t s os cur := by
  induction t using List.reverseRecOn generalizing s with
  | nil =>
    cases ht
    exact ⟨[], [], rfl, .nil, Nat.zero_le _, rfl, ⟨nofun, fun h => absurd rfl h⟩,
      fun _ hc => absurd hc List.not_mem_nil, rfl⟩
  | append_singleton t ch ih =>
    rw [List.foldlM_append] at ht
    obtain ⟨s₁, h₁, h₂⟩ := Option.bind_eq_some_iff.1 ht
    obtain ⟨os, cur, h⟩ := ih h₁
    rw [List.foldlM_cons] at h₂
    have hread : s₁.read ch = some s := by simpa using h₂
    cases hch : isdigit ch with
    | true => exact ⟨_, _, h.digit hch hread⟩
    | false => exact ⟨_, _, h.dot hch hread⟩

/-! ## What is dotted is read -/

theorem le_foldl_decimal (o : List UInt8) (n : Nat) :
    n ≤ o.foldl (fun n c => n * 10 + (c.toNat - 48)) n := by
  induction o generalizing n with
  | nil => exact Nat.le_refl n
  | cons c o ih =>
    have h := ih (n * 10 + (c.toNat - 48))
    rw [List.foldl_cons]
    omega

theorem read_digit (hch : isdigit ch = true) (hval : s.tp.toNat * 10 + (ch.toNat - 48) ≤ 255)
    (hoctets : s.sawDigit = true ∨ s.octets < 4) : s.read ch = some { s with
      tp := .ofNat (s.tp.toNat * 10 + (ch.toNat - 48)), sawDigit := true,
      octets := if s.sawDigit then s.octets else s.octets + 1 } := by
  rw [read, if_pos hch]
  dsimp only
  rw [if_neg (by omega)]
  cases hsaw : s.sawDigit with
  | true => rfl
  | false =>
    rw [hsaw] at hoctets
    rw [if_neg Bool.false_ne_true, if_neg (by rcases hoctets with h | h; cases h; omega),
      if_neg Bool.false_ne_true]

/-- The rest of an octet. -/
theorem foldlM_digits {o : List UInt8} (ho : ∀ c ∈ o, isdigit c = true) (hsaw : s.sawDigit = true)
    (hval : o.foldl (fun n c => n * 10 + (c.toNat - 48)) s.tp.toNat ≤ 255) :
    o.foldlM read s =
      some { s with tp := .ofNat (o.foldl (fun n c => n * 10 + (c.toNat - 48)) s.tp.toNat) } := by
  induction o generalizing s with
  | nil => simp
  | cons c o ih =>
    obtain ⟨hc, ho⟩ := List.forall_mem_cons.1 ho
    rw [List.foldl_cons] at hval
    have hle := le_foldl_decimal o (s.tp.toNat * 10 + (c.toNat - 48))
    have hbyte : (UInt8.ofNat (s.tp.toNat * 10 + (c.toNat - 48))).toNat =
        s.tp.toNat * 10 + (c.toNat - 48) := by
      rw [UInt8.toNat_ofNat']
      omega
    rw [List.foldlM_cons, read_digit hc (by omega) (.inl hsaw), List.foldl_cons]
    have h := ih (s := { s with
      tp := .ofNat (s.tp.toNat * 10 + (c.toNat - 48)), sawDigit := true,
      octets := if s.sawDigit then s.octets else s.octets + 1 }) ho rfl (by rwa [hbyte])
    rw [hbyte] at h
    rw [Option.bind_eq_bind, Option.bind_some, h, hsaw]
    rfl

theorem foldlM_octet {o : List UInt8} {b : UInt8} (ho : Octet o b) (hsaw : s.sawDigit = false)
    (htp : s.tp = 0) (hoctets : s.octets < 4) :
    o.foldlM read s = some { s with tp := b, sawDigit := true, octets := s.octets + 1 } := by
  obtain ⟨c, rest, rfl⟩ := List.exists_cons_of_ne_nil ho.ne_nil
  obtain ⟨hc, hrest⟩ := List.forall_mem_cons.1 ho.digits
  have hvalue : rest.foldl (fun n c => n * 10 + (c.toNat - 48)) (0 * 10 + (c.toNat - 48)) = b.toNat := ho.value
  have hle := le_foldl_decimal rest (0 * 10 + (c.toNat - 48))
  have hb := b.toNat_lt
  have hbyte : (UInt8.ofNat (0 * 10 + (c.toNat - 48))).toNat = 0 * 10 + (c.toNat - 48) := by
    rw [UInt8.toNat_ofNat']
    omega
  have htp0 : s.tp.toNat = 0 := by rw [htp]; rfl
  have hfirst := read_digit hc (by rw [htp0]; omega) (.inr hoctets)
  rw [htp0, hsaw, if_neg Bool.false_ne_true] at hfirst
  have hnext := foldlM_digits (s := { s with
    tp := .ofNat (0 * 10 + (c.toNat - 48)), sawDigit := true, octets := s.octets + 1 }) hrest rfl (by
      rw [hbyte, hvalue]
      omega)
  rw [hbyte, hvalue, UInt8.ofNat_toNat] at hnext
  rw [List.foldlM_cons, hfirst, Option.bind_eq_bind, Option.bind_some, hnext]

theorem read_dot (hsaw : s.sawDigit = true) (hoctets : s.octets ≠ 4) :
    s.read '.'.toUInt8 = some { s with done := s.done ++ [s.tp], tp := 0, sawDigit := false } := by
  rw [read, if_neg (by decide), if_pos ⟨rfl, hsaw⟩, if_neg hoctets]

/-- An octet and its dot, and what is behind them. -/
theorem foldlM_octet_dot {o : List UInt8} {b : UInt8} (ho : Octet o b) (hsaw : s.sawDigit = false)
    (htp : s.tp = 0) (hoctets : s.octets < 3) (rest : List UInt8) :
    (o ++ '.'.toUInt8 :: rest).foldlM read s = rest.foldlM read
      { s with done := s.done ++ [b], tp := 0, sawDigit := false, octets := s.octets + 1 } := by
  rw [List.foldlM_append, foldlM_octet ho hsaw htp (by omega), Option.bind_eq_bind, Option.bind_some,
    List.foldlM_cons, read_dot rfl (by dsimp only; omega)]
  rfl

end Pton

/-- **What `inet_pton4` reads.** -/
theorem inetPton4_eq_some {src : List UInt8} {a : InAddr} :
    inetPton4 src = some a ↔ Dotted (UrlSerializer.cString src) a := by
  constructor
  · intro h
    rw [inetPton4] at h
    cases hs : (UrlSerializer.cString src).foldlM Pton.read {} with
    | none =>
      rw [hs] at h
      cases h
    | some s =>
      rw [hs] at h
      obtain ⟨os, cur, hr⟩ := Pton.reads_foldlM hs
      dsimp only at h
      split at h
      · cases h
      · rename_i hoctets
        cases h
        have hcur : cur ≠ [] := by
          intro hnil
          have heq := hr.octets
          have hfew := hr.few
          rw [if_pos hnil] at heq
          omega
        have hlen : os.length = 3 := by
          have heq := hr.octets
          have hfew := hr.few
          rw [if_neg hcur] at heq
          omega
        obtain ⟨o₀, o₁, o₂, rfl⟩ := List.length_eq_three.1 hlen
        have hdone := hr.done
        rw [List.forall₂_cons_left_iff] at hdone
        obtain ⟨b₀, l, h₀, hdone, hl⟩ := hdone
        rw [List.forall₂_cons_left_iff] at hdone
        obtain ⟨b₁, l₁, h₁, hdone, rfl⟩ := hdone
        rw [List.forall₂_cons_left_iff] at hdone
        obtain ⟨b₂, l₂, h₂, hdone, rfl⟩ := hdone
        rw [List.forall₂_nil_left_iff] at hdone
        rw [hl, hdone]
        exact ⟨o₀, o₁, o₂, cur, by rw [hr.text]; simp, h₀, h₁, h₂, hcur, hr.digits, hr.value⟩
  · rintro ⟨o₀, o₁, o₂, o₃, hs, h₀, h₁, h₂, h₃⟩
    have h := Pton.foldlM_octet_dot (s := {}) h₀ rfl rfl (by decide)
      (o₁ ++ '.'.toUInt8 :: (o₂ ++ '.'.toUInt8 :: o₃))
    rw [Pton.foldlM_octet_dot h₁ rfl rfl (show 1 < 3 by decide),
      Pton.foldlM_octet_dot h₂ rfl rfl (show 2 < 3 by decide),
      Pton.foldlM_octet h₃ rfl rfl (show 3 < 4 by decide)] at h
    rw [inetPton4, hs, h]
    rfl

end Oreka
