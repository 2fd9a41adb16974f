import Oreka.Serializers.Proof.UrlRoundTrip
import Oreka.Server.MultiThreadedServer

/-!
# What a request depends on

A search in the received bytes goes on into what stood in the buffer before, up to its last byte, and
behind the buffer where that byte was received, too. `confined_iff` says for which requests the answer
is the same whatever stands there.
-/

namespace Oreka.Server

open Serializers (bytes)
open Serializers.UrlSerializer

/-- The two servers. -/
inductive Transport
  | http | https
  deriving DecidableEq, Repr

namespace Transport

/-- How much one read gets. -/
def capacity : Transport → Nat
  | http => 2047
  | https => 2048

def handle : Transport → List UInt8 → List UInt8 → List UInt8 → HttpRequest
  | http => handleHttpMessage
  | https => handleSslHttpMessage

end Transport

/-- What one read can get. -/
abbrev Received (t : Transport) := { received : List UInt8 // received.length ≤ t.capacity }

/-- The answer is a function of the received bytes: what stood in the buffer, and stands behind it, makes
no difference. -/
def Confined (t : Transport) (received : List UInt8) : Prop :=
  ∀ buf behind buf' behind' : List UInt8, buf.length = httpBufSize → buf'.length = httpBufSize →
    t.handle buf behind received = t.handle buf' behind' received

/-! ## What follows the received bytes -/

/-- So many bytes can stand between what was received and the next NUL. -/
def Room (size n : Nat) : Prop := size + n ≤ 2047 ∨ size = httpBufSize

/-- The string that begins behind the received bytes. -/
def tailOf (buf behind : List UInt8) (size : Nat) : List UInt8 :=
  cString ((buf.set 2047 0 ++ behind).drop size)

theorem length_cString_append_zero (s rest : List UInt8) : (cString (s ++ 0 :: rest)).length ≤ s.length := by
  by_cases h : 0 ∈ s
  · rw [cString_append_of_mem h]
    exact (List.takeWhile_prefix _).length_le
  · rw [cString_append_of_not_mem h]
    simp [cString]

/-- The string ends at the last byte of the buffer, unless that was received. -/
theorem room_tailOf {buf : List UInt8} (hbuf : buf.length = 2048) (behind : List UInt8) {size : Nat}
    (hsize : size ≤ 2048) : Room size (tailOf buf behind size).length := by
  rcases Nat.lt_or_eq_of_le hsize with hlt | heq
  · have hset : buf.set 2047 0 = buf.take 2047 ++ [0] := by
      rw [List.set_eq_take_append_cons_drop, if_pos (by omega), List.drop_eq_nil_of_le (by omega)]
    have hdrop : (buf.set 2047 0 ++ behind).drop size = (buf.take 2047).drop size ++ 0 :: behind := by
      rw [hset, List.append_assoc, List.drop_append_of_le_length (by rw [List.length_take]; omega)]
      rfl
    have hle := length_cString_append_zero ((buf.take 2047).drop size) behind
    rw [← hdrop, List.length_drop, List.length_take] at hle
    refine .inl ?_
    unfold tailOf
    omega
  · exact .inr heq

/-- Any string for which there is room can stand there. -/
theorem exists_tailOf {s : List UInt8} (hs : 0 ∉ s) {size : Nat} (hroom : Room size s.length) :
    ∃ buf behind, buf.length = 2048 ∧ tailOf buf behind size = s := by
  rcases hroom with hroom | heq
  · obtain ⟨k, hk⟩ : ∃ k, 2048 = size + s.length + (k + 1) := ⟨2047 - size - s.length, by omega⟩
    refine ⟨List.replicate size 0 ++ s ++ List.replicate (k + 1) 0, [], by simp; omega, ?_⟩
    have hset : (List.replicate size 0 ++ s ++ List.replicate (k + 1) (0 : UInt8)).set 2047 0 =
        List.replicate size 0 ++ (s ++ List.replicate (k + 1) 0) := by
      rw [List.set_append_right _ _ (by simp; omega), List.set_replicate_self, List.append_assoc]
    have hdrop : (List.replicate size 0 ++ (s ++ List.replicate (k + 1) (0 : UInt8))).drop size =
        s ++ List.replicate (k + 1) 0 :=
      List.drop_left' List.length_replicate
    rw [tailOf, hset, List.append_nil, hdrop, List.replicate_succ, cString_append_of_not_mem hs]
    simp [cString]
  · refine ⟨List.replicate 2048 0, s ++ [0], List.length_replicate, ?_⟩
    have hlength : ((List.replicate 2048 (0 : UInt8)).set 2047 0).length = size := by
      rw [List.length_set, List.length_replicate, heq]
    rw [tailOf, List.drop_left' hlength, cString_append_of_not_mem hs]
    simp [cString]

/-- The string from a position within the received bytes: they are cut at a NUL, or go on. -/
def extend (t s : List UInt8) : List UInt8 := if 0 ∈ t then cString t else t ++ s

theorem cString_receive (buf behind : List UInt8) {received : List UInt8} {i : Nat} (hi : i ≤ received.length) :
    cString ((receive buf behind received).drop i) =
      extend (received.drop i) (tailOf buf behind received.length) := by
  rw [receive, List.drop_append_of_le_length hi, extend]
  split
  · exact cString_append_of_mem ‹_› _
  · exact cString_append_of_not_mem ‹_› _

/-! ## Searches -/

/-- An end of the bytes can be completed to the key by what there is room for. -/
def Completable (t key : List UInt8) (size : Nat) : Prop :=
  ∃ i ≤ t.length, t.drop i <+: key ∧ Room size (i + key.length - t.length)

/-- The search for the key does not get behind the bytes with another result: they have a NUL, or the
key, or no end that can be completed to it. -/
def Settled (t key : List UInt8) (size : Nat) : Prop :=
  0 ∈ t ∨ (Infix.first t key).isSome ∨ ¬ Completable t key size

variable {t key s : List UInt8} {size : Nat}

theorem Room.mono {n n' : Nat} (h : Room size n) (hle : n' ≤ n) : Room size n' := by
  rcases h with h | h
  · exact .inl (by omega)
  · exact .inr h

/-- A settled search has the same result whatever follows. -/
theorem Settled.first_extend (h : Settled t key size) (hroom : Room size s.length) :
    Infix.first (extend t s) key = Infix.first (cString t) key := by
  unfold extend
  split
  · rfl
  · rename_i hnul
    rw [cString_eq_self.2 hnul]
    rcases h.resolve_left hnul with hfound | hcut
    · obtain ⟨i, hi⟩ := Option.isSome_iff_exists.1 hfound
      rw [hi, Infix.first_append hi]
    · cases hfirst : Infix.first t key with
      | some i => exact Infix.first_append hfirst
      | none =>
        cases hwhole : Infix.first (t ++ s) key with
        | none => rfl
        | some i =>
          have hend := Infix.add_length_le_of_first hwhole
          rw [List.length_append] at hend
          obtain ⟨hdrop, -⟩ := Infix.cut_of_first_append hfirst hwhole
          refine absurd ?_ hcut
          rcases Nat.le_total i t.length with hle | hle
          · exact ⟨i, hle, hdrop, hroom.mono (by omega)⟩
          · refine ⟨t.length, Nat.le_refl _, ?_, hroom.mono (by omega)⟩
            rw [List.drop_length]
            exact List.nil_prefix

/-- Any other is decided by what follows. -/
theorem exists_first_extend (h : ¬ Settled t key size) (hkey : 0 ∉ key) (hne : key ≠ []) :
    ∃ s, 0 ∉ s ∧ Room size s.length ∧ (Infix.first (extend t s) key).isSome ∧
      Infix.first (extend t []) key = none := by
  unfold Settled at h
  push Not at h
  obtain ⟨hnul, hnone, i, hi, ⟨r, hr⟩, hroom⟩ := h
  have hlength : key.length = t.length - i + r.length := by
    rw [← hr, List.length_append, List.length_drop]
  refine ⟨r, ?_, hroom.mono (by omega), ?_, ?_⟩
  · intro h0
    exact hkey (hr ▸ List.mem_append_right _ h0)
  · rw [extend, if_neg hnul]
    by_contra hnot
    have hpos := List.length_pos_iff.2 hne
    rw [Bool.not_eq_true, Option.isSome_eq_false_iff, Option.isNone_iff_eq_none] at hnot
    refine Infix.first_eq_none_iff.1 hnot i ?_ ?_
    · rw [List.length_append]
      omega
    · rw [List.drop_append_of_le_length hi, hr]
  · rw [extend, if_neg hnul, List.append_nil]
    simpa using hnone

/-! ## The URL -/

/-- The URL in the string from `startUrlOffset` on. -/
def urlOf (text : List UInt8) : Except HttpRequest (List UInt8) :=
  match Infix.first text (bytes " HTTP") with
  | none => .error .malformedRequest
  | some stopUrl =>
    if (text.take stopUrl).any fun c => c < 33 || c > 126 then .error .invalidCharacter
    else .ok (stripQuery (text.take stopUrl))

theorem findUrl_eq (mem : List UInt8) : findUrl mem = urlOf (cString (mem.drop 5)) := by
  unfold findUrl urlOf strstr
  cases hfirst : Infix.first (cString (mem.drop 5)) (bytes " HTTP") with
  | none => rfl
  | some stopUrl =>
    have hlt := Infix.lt_of_first hfirst
    have htake : (cString (mem.drop 5)).take stopUrl = (mem.drop 5).take stopUrl := by
      obtain ⟨rest, hrest⟩ := List.takeWhile_prefix (· ≠ (0 : UInt8)) (l := mem.drop 5)
      conv_rhs => rw [← hrest]
      exact (List.take_append_of_le_length hlt.le).symm
    dsimp only
    rw [htake]

theorem Settled.urlOf_extend (h : Settled t (bytes " HTTP") size) (hroom : Room size s.length) :
    urlOf (extend t s) = urlOf (cString t) := by
  have hfirst := h.first_extend hroom
  unfold urlOf
  rw [hfirst]
  cases hstop : Infix.first (cString t) (bytes " HTTP") with
  | none => rfl
  | some stopUrl =>
    have htake : (extend t s).take stopUrl = (cString t).take stopUrl := by
      unfold extend
      split
      · rfl
      · rename_i hnul
        have hlt := Infix.lt_of_first hstop
        rw [cString_eq_self.2 hnul] at hlt ⊢
        exact List.take_append_of_le_length hlt.le
    dsimp only
    rw [htake]

theorem urlOf_none (h : Infix.first t (bytes " HTTP") = none) : urlOf t = .error .malformedRequest := by
  rw [urlOf, h]

theorem urlOf_some (h : (Infix.first t (bytes " HTTP")).isSome) : urlOf t ≠ .error .malformedRequest := by
  obtain ⟨stopUrl, hstop⟩ := Option.isSome_iff_exists.1 h
  rw [urlOf, hstop]
  dsimp only
  split
  · exact fun heq => by injection heq with heq; cases heq
  · exact nofun

/-! ## The answer -/

/-- What is answered, once the URL is known. -/
def answer : Except HttpRequest (List UInt8) → Bool → HttpRequest
  | .error e, _ => e
  | .ok url, singleLineResp => .command (findClass url) url singleLineResp

/-- Whether the answer is to be on a single line. -/
def singleLine : Transport → List UInt8 → Bool
  | .http, text => (Infix.first text (bytes "text/single-line")).isSome
  | .https, _ => false

theorem answer_malformed {r : Except HttpRequest (List UInt8)} {b : Bool} (h : answer r b = .malformedRequest) :
    r = .error .malformedRequest := by
  cases r with
  | error e => exact congrArg Except.error h
  | ok url => cases h

theorem handle_short (t : Transport) (buf behind : List UInt8) {received : List UInt8}
    (h : received.length ≤ 5) : t.handle buf behind received = .notFound := by
  cases t with
  | http => exact if_neg (by omega)
  | https => exact if_neg (by omega)

/-- The answer depends on the strings that begin at `startUrlOffset` and at the beginning. -/
theorem handle_eq (t : Transport) (buf behind : List UInt8) {received : List UInt8}
    (h : 5 < received.length) : t.handle buf behind received =
      answer (urlOf (extend (received.drop 5) (tailOf buf behind received.length)))
        (singleLine t (extend received (tailOf buf behind received.length))) := by
  have hurl := cString_receive buf behind h.le
  have hmem := cString_receive buf behind (Nat.zero_le received.length)
  rw [List.drop_zero, List.drop_zero] at hmem
  have hparse (b : Bool) : parseRequest received.length (receive buf behind received) b =
      answer (urlOf (extend (received.drop 5) (tailOf buf behind received.length))) b := by
    rw [parseRequest, if_pos h, findUrl_eq, hurl]
    cases urlOf (extend (received.drop 5) (tailOf buf behind received.length)) with
    | error e => rfl
    | ok url => rfl
  cases t with
  | http =>
    rw [singleLine, ← hmem]
    exact hparse _
  | https => exact hparse _

/-- A request that says itself what is answered: it is too short, or both searches are settled, where the
second one counts only if there is a URL. -/
def Settles (t : Transport) (received : List UInt8) : Prop :=
  received.length ≤ 5 ∨ Settled (received.drop 5) (bytes " HTTP") received.length ∧
    (t = .https ∨ (∀ url, findUrl received ≠ .ok url) ∨
      Settled received (bytes "text/single-line") received.length)

theorem Transport.capacity_le (t : Transport) : t.capacity ≤ 2048 := by
  cases t with
  | http => exact Nat.le_succ _
  | https => exact Nat.le_refl _

theorem confined_of_settles {t : Transport} {received : List UInt8} (hsize : received.length ≤ 2048)
    (h : Settles t received) : Confined t received := by
  intro buf behind buf' behind' hbuf hbuf'
  rcases Nat.lt_or_ge 5 received.length with hlong | hshort
  · obtain ⟨hhttp, hsingle⟩ := h.resolve_left (by omega)
    have hroom := room_tailOf hbuf behind hsize
    have hroom' := room_tailOf hbuf' behind' hsize
    rw [handle_eq t buf behind hlong, handle_eq t buf' behind' hlong, hhttp.urlOf_extend hroom,
      hhttp.urlOf_extend hroom', ← findUrl_eq]
    rcases hsingle with rfl | hnone | hsettled
    · rfl
    · cases hurl : findUrl received with
      | error e => rfl
      | ok url => exact absurd hurl (hnone url)
    · cases t with
      | http => rw [singleLine, singleLine, hsettled.first_extend hroom, hsettled.first_extend hroom']
      | https => rfl
  · rw [handle_short t buf behind hshort, handle_short t buf' behind' hshort]

/-- A request whose URL is not settled has two answers. -/
theorem not_confined_of_url {t : Transport} {received : List UInt8} (hlong : 5 < received.length)
    (h : ¬ Settled (received.drop 5) (bytes " HTTP") received.length) :
    ¬ Confined t received := by
  intro hconfined
  obtain ⟨s, hs, hroom, hfound, hnone⟩ := exists_first_extend h (by decide) (by decide)
  obtain ⟨buf, behind, hbuf, rfl⟩ := exists_tailOf hs hroom
  obtain ⟨buf', behind', hbuf', htail⟩ := exists_tailOf List.not_mem_nil (hroom.mono (Nat.zero_le _))
  have heq := hconfined buf behind buf' behind' hbuf hbuf'
  rw [handle_eq t buf behind hlong, handle_eq t buf' behind' hlong, htail, urlOf_none hnone] at heq
  exact urlOf_some hfound (answer_malformed heq)

/-- So has one with a URL whose other search is not. -/
theorem not_confined_of_singleLine {received : List UInt8} (hlong : 5 < received.length)
    (hhttp : Settled (received.drop 5) (bytes " HTTP") received.length)
    {url : List UInt8} (hurl : findUrl received = .ok url)
    (h : ¬ Settled received (bytes "text/single-line") received.length) : ¬ Confined .http received := by
  intro hconfined
  obtain ⟨s, hs, hroom, hfound, hnone⟩ := exists_first_extend h (by decide) (by decide)
  obtain ⟨buf, behind, hbuf, rfl⟩ := exists_tailOf hs hroom
  have hroom₀ : Room received.length ([] : List UInt8).length := hroom.mono (Nat.zero_le _)
  obtain ⟨buf', behind', hbuf', htail⟩ := exists_tailOf List.not_mem_nil hroom₀
  have heq := hconfined buf behind buf' behind' hbuf hbuf'
  rw [handle_eq .http buf behind hlong, handle_eq .http buf' behind' hlong, htail,
    hhttp.urlOf_extend hroom, hhttp.urlOf_extend hroom₀, ← findUrl_eq, hurl, singleLine, singleLine, hnone,
    hfound] at heq
  injection heq with _ _ hflag
  cases hflag

/-- **When the answer depends on the request alone.** -/
theorem confined_iff (t : Transport) (received : Received t) : Confined t received ↔ Settles t received := by
  have hsize : received.val.length ≤ 2048 := received.property.trans t.capacity_le
  refine ⟨fun hconfined => ?_, confined_of_settles hsize⟩
  rcases Nat.lt_or_ge 5 received.val.length with hlong | hshort
  · refine .inr ?_
    by_cases hhttp : Settled (received.val.drop 5) (bytes " HTTP") received.val.length
    · refine ⟨hhttp, ?_⟩
      by_contra hnot
      push Not at hnot
      obtain ⟨hne, ⟨url, hurl⟩, hsingle⟩ := hnot
      cases t with
      | http => exact not_confined_of_singleLine hlong hhttp hurl hsingle hconfined
      | https => exact hne rfl
    · exact absurd hconfined (not_confined_of_url hlong hhttp)
  · exact .inl hshort

/-- `GET /x` gets its end from what stood in the buffer before. -/
theorem not_confined_get : ¬ ∀ (t : Transport) (received : Received t), Confined t received := by
  intro h
  have hlong : 5 < (bytes "GET /x").length := by decide
  refine not_confined_of_url hlong ?_ (h .http ⟨bytes "GET /x", by decide⟩)
  rintro (hnul | hfound | hcut)
  · exact absurd hnul (by decide)
  · exact absurd hfound (by decide)
  · exact hcut ⟨1, by decide, List.nil_prefix, .inl (by decide)⟩

end Oreka.Server
