import Oreka.Sip.PayloadMapping
import Oreka.Sip.Proof.Occurrences

/-!
# The attributes of an SDP block

The loop of `GetDynamicPayloadMapping` goes from one search to the next. What it reads is one attribute
a line at most: the line from its first "a=rtpmap:" on, wherever that stands (`attributes`). The whole
loop is a fold over these, and its rounds suffice (`getDynamicPayloadMapping_eq`). A beginning of
"a=rtpmap:" that ends the block is found too, but it has no payload type.
-/

namespace Oreka.Sip

open Net (byte byte_append byte_append_right read_byte)
open Serializers (Failure)
open ParsingUtils

/-! ## Lines -/

/-- The text up to the end of the line. -/
def lineOf (s : List UInt8) : List UInt8 := s.takeWhile fun c => ¬ endsToken c

/-- The part of a line from its first attribute on; only at the start of a block may its "a" be a
capital. -/
def attributeFrom (first : Bool) : List UInt8 → Option (List UInt8)
  | [] => none
  | c :: l => if (first || c = 97) && matchesAt rtpmap (c :: l) 0 then some (c :: l) else attributeFrom false l

/-- The attributes of some lines, the first of which may be the start of a block. -/
def attributesOf (first : Bool) : List (List UInt8) → List (List UInt8)
  | [] => []
  | l :: lines => (attributeFrom first l).toList ++ lines.filterMap (attributeFrom false)

def linesOf (sdp : List UInt8) : List (List UInt8) := sdp.splitOnP endsToken

/-- The attributes of an SDP block. -/
def attributes (sdp : List UInt8) : List (List UInt8) := attributesOf true (linesOf sdp)

/-- A space or the end of a line. -/
def endsWord (c : UInt8) : Bool := c = 0x20 ∨ endsToken c

/-- The payload type of an attribute, as a text. -/
def attributeToken (a : List UInt8) : List UInt8 := (a.drop rtpmap.length).takeWhile fun c => ¬ endsWord c

section
variable {first : Bool} {c : UInt8} {s : List UInt8}

/-- A text is a line, or a line and what follows its end. -/
theorem line_cases (s : List UInt8) : (lineOf s = s ∧ linesOf s = [s]) ∨
    ∃ e rest, s = lineOf s ++ e :: rest ∧ endsToken e = true ∧ linesOf s = lineOf s :: linesOf rest := by
  have hline : ∀ x ∈ lineOf s, endsToken x = false := fun x hx => by
    simpa using List.mem_takeWhile_imp hx
  have hsplit : lineOf s ++ s.dropWhile (fun c => ¬ endsToken c) = s := List.takeWhile_append_dropWhile
  cases hrest : s.dropWhile fun c => ¬ endsToken c with
  | nil =>
    rw [hrest, List.append_nil] at hsplit
    refine .inl ⟨hsplit, ?_⟩
    exact List.splitOnP_eq_singleton (hsplit ▸ hline)
  | cons e rest =>
    rw [hrest] at hsplit
    have hend : endsToken e = true := by
      have hhead := List.head?_dropWhile_not (fun c => decide ¬ endsToken c = true) s
      rw [hrest] at hhead
      simpa using hhead
    refine .inr ⟨e, rest, hsplit.symm, hend, ?_⟩
    have hlines := List.splitOnP_append_cons_of_forall_mem hline e hend rest
    rwa [hsplit] at hlines

theorem linesOf_cons_end (h : endsToken c = true) : linesOf (c :: s) = [] :: linesOf s := by
  have hnone : ∀ x ∈ ([] : List UInt8), endsToken x = false := fun _ h => by cases h
  exact List.splitOnP_append_cons_of_forall_mem hnone c h s

theorem attributesOf_false (lines : List (List UInt8)) :
    attributesOf false lines = lines.filterMap (attributeFrom false) := by
  cases lines with
  | nil => rfl
  | cons l lines =>
    rw [List.filterMap_cons]
    show (attributeFrom false l).toList ++ _ = _
    cases attributeFrom false l with
    | none => rfl
    | some a => rfl

theorem attributesOf_cons_end (h : endsToken c = true) :
    attributesOf first (linesOf (c :: s)) = attributesOf false (linesOf s) := by
  rw [linesOf_cons_end h, attributesOf_false]
  rfl

/-- The first line, and the attributes of those behind it. -/
theorem exists_linesOf (s : List UInt8) : ∃ tail, linesOf s = lineOf s :: tail ∧
    attributesOf false (linesOf (s.drop (lineOf s).length)) = tail.filterMap (attributeFrom false) := by
  rcases line_cases s with ⟨hline, hlines⟩ | ⟨e, rest, hs, hend, hlines⟩
  · refine ⟨[], by rw [hlines, hline], ?_⟩
    rw [hline, List.drop_length]
    rfl
  · refine ⟨linesOf rest, hlines, ?_⟩
    have hdrop : s.drop (lineOf s).length = e :: rest := by
      conv => lhs; arg 2; rw [hs]
      exact List.drop_left
    rw [hdrop, attributesOf_cons_end hend, attributesOf_false]

theorem attributesOf_cons (hc : endsToken c = false) : attributesOf first (linesOf (c :: s)) =
    if (first || c = 97) && matchesAt rtpmap (c :: lineOf s) 0 then
      (c :: lineOf s) :: attributesOf false (linesOf (s.drop (lineOf s).length))
    else attributesOf false (linesOf s) := by
  obtain ⟨tail, hs, htail⟩ := exists_linesOf s
  have hlines : linesOf (c :: s) = (c :: lineOf s) :: tail := by
    unfold linesOf at hs ⊢
    rw [List.splitOnP_cons_eq_if_modifyHead, hc, if_neg Bool.false_ne_true, hs]
    rfl
  rw [htail, hs, hlines]
  show (attributeFrom first (c :: lineOf s)).toList ++ tail.filterMap (attributeFrom false) = _
  rw [attributeFrom]
  split
  · rfl
  · rfl

/-! ## The name of the attribute -/

/-- The end of a line is in no case a character of the name. -/
theorem toLower_ne_of_endsToken (h : endsToken c = true) {i : Nat} (hi : i < rtpmap.length) :
    toLower c ≠ toLower (byte rtpmap i) := by
  have hall : (rtpmap.all fun x => toLower 0 ≠ toLower x ∧ toLower 13 ≠ toLower x ∧ toLower 10 ≠ toLower x) =
      true := by decide
  have hname : ∀ x ∈ rtpmap, toLower 0 ≠ toLower x ∧ toLower 13 ≠ toLower x ∧ toLower 10 ≠ toLower x := by
    simpa only [List.all_eq_true, decide_eq_true_eq] using hall
  have hmem : byte rtpmap i ∈ rtpmap := by
    rw [← Net.getElem_eq_byte hi]
    exact List.getElem_mem hi
  obtain ⟨hnul, hcr, hlf⟩ := hname _ hmem
  have hc : c = 0 ∨ c = 0x0D ∨ c = 0x0A := by simpa [endsToken] using h
  rcases hc with rfl | rfl | rfl
  · exact hnul
  · exact hcr
  · exact hlf

theorem length_le_of_matchesAt {l : List UInt8} (h : matchesAt rtpmap l 0 = true) :
    rtpmap.length ≤ l.length := by
  by_contra hlt
  have hbehind := matchesAt_iff.1 h l.length (by omega)
  have hzero : byte l (0 + l.length) = 0 := by simp [byte]
  rw [hzero] at hbehind
  exact toLower_ne_of_endsToken (by decide) (by omega) hbehind

/-- In front of the end of a line, the name is compared as a whole. -/
theorem matchesAt_line {l : List UInt8} (h : endsToken c = true) :
    matchesAt (rtpmap.take (l ++ c :: s).length) (l ++ c :: s) 0 = true ↔ matchesAt rtpmap l 0 = true := by
  rcases Nat.lt_or_ge l.length rtpmap.length with hlt | hle
  · refine iff_of_false (fun hm => ?_) fun hm => ?_
    · have hat := matchesAt_iff.1 hm l.length (by simp; omega)
      rw [Nat.zero_add, ← Nat.add_zero l.length, byte_append_right] at hat
      have htake : byte (rtpmap.take (l ++ c :: s).length) (l.length + 0) = byte rtpmap l.length := by
        simp [byte]
      rw [htake] at hat
      exact toLower_ne_of_endsToken h hlt hat
    · exact absurd (length_le_of_matchesAt hm) (by omega)
  · rw [List.take_of_length_le (by simp; omega), matchesAt_iff, matchesAt_iff]
    refine forall_congr' fun i => forall_congr' fun hi => ?_
    rw [byte_append (by omega)]

/-- A beginning of the name that ends the block and is not the whole name. -/
theorem cut_of_matchesAt (h : matchesAt (rtpmap.take (s.length + 1)) (c :: s) 0 = true)
    (hnot : ¬ matchesAt rtpmap (c :: lineOf s) 0 = true) : lineOf s = s ∧ s.length + 1 < rtpmap.length := by
  rcases line_cases s with ⟨hline, -⟩ | ⟨e, rest, hs, hend, -⟩
  · refine ⟨hline, ?_⟩
    by_contra hle
    rw [List.take_of_length_le (by omega)] at h
    rw [hline] at hnot
    exact hnot h
  · have hwhole : matchesAt (rtpmap.take (c :: lineOf s ++ e :: rest).length) (c :: lineOf s ++ e :: rest) 0 =
        true := by
      rw [List.cons_append, ← hs]
      exact h
    exact absurd ((matchesAt_line hend).1 hwhole) hnot

theorem attributeFrom_short : ∀ {l : List UInt8} (first : Bool), l.length < rtpmap.length →
    attributeFrom first l = none
  | [], _, _ => rfl
  | c :: l, first, h => by
    have hnot : ¬ ((first || c = 97) && matchesAt rtpmap (c :: l) 0) = true := fun hm => by
      have hle := length_le_of_matchesAt (Bool.and_eq_true_iff.1 hm).2
      omega
    rw [attributeFrom, if_neg hnot]
    refine attributeFrom_short false ?_
    rw [List.length_cons] at h
    omega

/-! ## The search -/

/-- The search, character by character. -/
def seek (first : Bool) : List UInt8 → Option Nat
  | [] => none
  | c :: s =>
    if (first || c = 97) && matchesAt (rtpmap.take (s.length + 1)) (c :: s) 0 then some 0
    else (seek false s).map (· + 1)

/-- Where the search compares, and succeeds. -/
def Found (first : Bool) (s : List UInt8) (q : Nat) : Prop :=
  q < s.length ∧ ((q = 0 ∧ first = true) ∨ byte s q = 97) ∧ matchesAt (rtpmap.take (s.length - q)) s q = true

theorem found_zero : Found first (c :: s) 0 ↔
    ((first || c = 97) && matchesAt (rtpmap.take (s.length + 1)) (c :: s) 0) = true := by
  simp [Found, byte]

theorem found_succ {q : Nat} : Found first (c :: s) (q + 1) ↔ Found false s q := by
  have hm : matchesAt (rtpmap.take (s.length - q)) (c :: s) (q + 1) =
      matchesAt (rtpmap.take (s.length - q)) s q := by
    rw [Bool.eq_iff_iff, matchesAt_iff, matchesAt_iff]
    refine forall_congr' fun i => forall_congr' fun _ => ?_
    rw [show q + 1 + i = q + i + 1 by omega]
    rfl
  unfold Found
  rw [List.length_cons, Nat.add_sub_add_right, hm]
  simp [byte]

theorem seek_eq_some : ∀ {s : List UInt8} {first : Bool} {q : Nat},
    seek first s = some q ↔ Found first s q ∧ ∀ r < q, ¬ Found first s r
  | [], first, q => by simp [seek, Found]
  | c :: s, first, q => by
    rw [seek]
    split
    · rename_i h
      have h0 := found_zero.2 h
      constructor
      · intro hq
        cases hq
        exact ⟨h0, fun r hr => by omega⟩
      · rintro ⟨-, hfirst⟩
        have hq : q = 0 := by
          by_contra hne
          exact hfirst 0 (by omega) h0
        rw [hq]
    · rename_i h
      have h0 : ¬ Found first (c :: s) 0 := fun hf => h (found_zero.1 hf)
      rw [Option.map_eq_some_iff]
      constructor
      · rintro ⟨q, hq, rfl⟩
        obtain ⟨hf, hfirst⟩ := seek_eq_some.1 hq
        refine ⟨found_succ.2 hf, fun r hr => ?_⟩
        cases r with
        | zero => exact h0
        | succ r => exact fun hr' => hfirst r (by omega) (found_succ.1 hr')
      · rintro ⟨hf, hfirst⟩
        cases q with
        | zero => exact absurd hf h0
        | succ q =>
          have hrest : ∀ r < q, ¬ Found false s r := fun r hr hr' =>
            hfirst (r + 1) (by omega) (found_succ.2 hr')
          exact ⟨q, seek_eq_some.2 ⟨found_succ.1 hf, hrest⟩, rfl⟩

theorem memFindStr_eq_seek (s : List UInt8) : memFindStr rtpmap s s.length = seek true s := by
  have hfound : ∀ q, Search.Hits (SameByte rtpmap s) (fun p => matchesAt (rtpmap.take (s.length - p)) s p)
      s.length 0 q ↔ Found true s q := by
    intro q
    have hname : byte rtpmap 0 = 97 := by decide
    simp [Search.Hits, Found, SameByte, hname]
  apply Option.ext
  intro q
  rw [memFindStr_eq_some, seek_eq_some, FirstHit, hfound]
  refine and_congr_right fun _ => forall_congr' fun r => forall_congr' fun _ => not_congr (hfound r)

/-- What begins like the name is not the end of a line. -/
theorem endsToken_of_matchesAt (h : matchesAt (rtpmap.take (s.length + 1)) (c :: s) 0 = true) :
    endsToken c = false := by
  rw [Bool.eq_false_iff]
  intro hend
  have h0 := matchesAt_iff.1 h 0 (by simp [rtpmap, ascii])
  have hname : byte (rtpmap.take (s.length + 1)) 0 = byte rtpmap 0 := by simp [byte]
  rw [hname] at h0
  exact toLower_ne_of_endsToken hend (by decide) h0

/-- A whole name on the line is found in the block. -/
theorem matchesAt_of_line (h : matchesAt rtpmap (c :: lineOf s) 0 = true) :
    matchesAt (rtpmap.take (s.length + 1)) (c :: s) 0 = true := by
  rcases line_cases s with ⟨hline, -⟩ | ⟨e, rest, hs, hend, -⟩
  · rw [hline] at h
    have hle := length_le_of_matchesAt h
    rw [List.length_cons] at hle
    rwa [List.take_of_length_le hle]
  · have hwhole := (matchesAt_line (s := rest) hend).2 h
    rwa [List.cons_append, ← hs] at hwhole

/-- Where the search does not stop, there is no attribute. -/
theorem attributesOf_miss
    (h : ¬ ((first || c = 97) && matchesAt (rtpmap.take (s.length + 1)) (c :: s) 0) = true) :
    attributesOf first (linesOf (c :: s)) = attributesOf false (linesOf s) := by
  cases hc : endsToken c with
  | true => exact attributesOf_cons_end hc
  | false =>
    have hline : ¬ ((first || c = 97) && matchesAt rtpmap (c :: lineOf s) 0) = true := fun hm => by
      rw [Bool.and_eq_true_iff] at hm h
      exact h ⟨hm.1, matchesAt_of_line hm.2⟩
    rw [attributesOf_cons hc, if_neg hline]

theorem attributes_of_seek_none : ∀ {s : List UInt8} {first : Bool}, seek first s = none →
    attributesOf first (linesOf s) = []
  | [], first, _ => rfl
  | c :: s, first, h => by
    rw [seek] at h
    split at h
    · cases h
    · rename_i hmiss
      rw [attributesOf_miss hmiss]
      exact attributes_of_seek_none (Option.map_eq_none_iff.1 h)

theorem lineOf_cons (hc : endsToken c = false) : lineOf (c :: s) = c :: lineOf s :=
  List.takeWhile_cons_of_pos (by simp [hc])

/-- The search comes to the next attribute, or to a beginning of the name at the end of the block. -/
theorem attributes_of_seek : ∀ {s : List UInt8} {first : Bool} {q : Nat}, seek first s = some q →
    lineOf (s.drop q) ≠ [] ∧
      ((rtpmap.length ≤ (lineOf (s.drop q)).length ∧ attributesOf first (linesOf s) = lineOf (s.drop q) ::
          attributesOf false (linesOf ((s.drop q).drop (lineOf (s.drop q)).length))) ∨
        (lineOf (s.drop q) = s.drop q ∧ (s.drop q).length < rtpmap.length ∧
          attributesOf first (linesOf s) = []))
  | [], first, q, h => by cases h
  | c :: s, first, q, h => by
    rw [seek] at h
    split at h
    · rename_i hhit
      cases h
      rw [Bool.and_eq_true_iff] at hhit
      have hc := endsToken_of_matchesAt hhit.2
      rw [List.drop_zero, lineOf_cons hc]
      refine ⟨List.cons_ne_nil _ _, ?_⟩
      by_cases hline : matchesAt rtpmap (c :: lineOf s) 0 = true
      · refine .inl ⟨length_le_of_matchesAt hline, ?_⟩
        rw [attributesOf_cons hc, if_pos (Bool.and_eq_true_iff.2 ⟨hhit.1, hline⟩)]
        rfl
      · obtain ⟨hs, hlen⟩ := cut_of_matchesAt hhit.2 hline
        refine .inr ⟨by rw [hs], hlen, ?_⟩
        have hmiss : ¬ ((first || c = 97) && matchesAt rtpmap (c :: lineOf s) 0) = true := fun hm =>
          hline (Bool.and_eq_true_iff.1 hm).2
        obtain ⟨tail, hlines, htail⟩ := exists_linesOf s
        rw [hs, List.drop_length] at htail
        rw [attributesOf_cons hc, if_neg hmiss, hlines, attributesOf, ← htail, hs,
          attributeFrom_short false (by omega)]
        rfl
    · rename_i hmiss
      obtain ⟨q, hq, rfl⟩ := Option.map_eq_some_iff.1 h
      obtain ⟨hne, hfound⟩ := attributes_of_seek hq
      rw [attributesOf_miss hmiss]
      exact ⟨hne, hfound⟩

end

/-! ## The loop -/

/-- Behind a line there is its end, so that the "a" of the next attribute is searched in its case again. -/
theorem attributes_behind_line (s : List UInt8) : attributes (s.drop (lineOf s).length) =
    attributesOf false (linesOf (s.drop (lineOf s).length)) := by
  rcases line_cases s with ⟨hline, -⟩ | ⟨e, rest, hs, hend, -⟩
  · rw [hline, List.drop_length]
    rfl
  · have hdrop : s.drop (lineOf s).length = e :: rest := by
      conv => lhs; arg 2; rw [hs]
      exact List.drop_left
    unfold attributes
    rw [hdrop, attributesOf_cons_end hend, attributesOf_cons_end hend]

theorem grabTokenAcceptSpace_eq (s : List UInt8) (p : Nat) :
    grabTokenAcceptSpace (byte s) p s.length = lineOf (s.drop p) := by
  unfold grabTokenAcceptSpace grabUntil
  rw [read_byte]
  rfl

theorem takeWhile_append_cons {α : Type*} {p : α → Bool} {e : α} (h : p e = false) (rest : List α) :
    ∀ l : List α, (l ++ e :: rest).takeWhile p = l.takeWhile p
  | [] => by simp [h]
  | c :: l => by simp [List.takeWhile_cons, takeWhile_append_cons h rest l]

theorem grabToken_eq_takeWhile (s : List UInt8) (p : Nat) :
    grabToken (byte s) p s.length = (s.drop p).takeWhile fun c => ¬ endsWord c := by
  rw [← read_byte]
  rfl

/-- The payload type of an attribute ends with its line. -/
theorem grabToken_eq {s : List UInt8} {p : Nat} (h : rtpmap.length ≤ (lineOf (s.drop p)).length) :
    grabToken (byte s) (p + rtpmap.length) s.length = attributeToken (lineOf (s.drop p)) := by
  rw [grabToken_eq_takeWhile, ← List.drop_drop, attributeToken]
  rcases line_cases (s.drop p) with ⟨hline, -⟩ | ⟨e, rest, hs, hend, -⟩
  · rw [hline]
  · have hdrop : (s.drop p).drop rtpmap.length = (lineOf (s.drop p)).drop rtpmap.length ++ e :: rest := by
      conv => lhs; rw [hs]
      exact List.drop_append_of_le_length h
    rw [hdrop]
    exact takeWhile_append_cons (by simp [endsWord, hend]) rest _

/-- A beginning of the name has no payload type. -/
theorem grabToken_cut {s : List UInt8} {p : Nat} (h : (s.drop p).length < rtpmap.length) :
    grabToken (byte s) (p + rtpmap.length) s.length = [] := by
  have hnil : s.drop (p + rtpmap.length) = [] := by
    rw [List.length_drop] at h
    exact List.drop_eq_nil_of_le (by omega)
  rw [grabToken_eq_takeWhile, hnil]
  rfl

theorem remap_nil (map : PayloadMap) (fullLine : List UInt8) : remap map fullLine [] = .ok map := rfl

/-- An attribute is read into the map. -/
def remapAttribute (map : PayloadMap) (a : List UInt8) : Except Failure PayloadMap :=
  remap map a (attributeToken a)

theorem mappingLoop_eq : ∀ {rounds : Nat} {sdp : List UInt8} (map : PayloadMap), sdp.length < rounds →
    mappingLoop rounds sdp map = some ((attributes sdp).foldlM remapAttribute map)
  | 0, sdp, map, h => by omega
  | rounds + 1, sdp, map, h => by
    unfold mappingLoop
    rw [memFindStr_eq_seek]
    cases hq : seek true sdp with
    | none =>
      unfold attributes
      rw [attributes_of_seek_none hq]
      rfl
    | some q =>
      obtain ⟨hne, hfound⟩ := attributes_of_seek hq
      have hlt : (sdp.drop (q + (lineOf (sdp.drop q)).length)).length < rounds := by
        have hpos := List.length_pos_of_ne_nil hne
        have hline : (lineOf (sdp.drop q)).length ≤ (sdp.drop q).length := (List.takeWhile_sublist _).length_le
        rw [List.length_drop] at hline ⊢
        omega
      dsimp only
      rw [grabTokenAcceptSpace_eq]
      rcases hfound with ⟨hwhole, hattributes⟩ | ⟨hline, hcut, hattributes⟩
      · have hrest := attributes_behind_line (sdp.drop q)
        rw [List.drop_drop] at hrest hattributes
        rw [grabToken_eq hwhole]
        unfold attributes at hrest ⊢
        rw [hattributes, List.foldlM_cons, ← hrest]
        cases hstep : remapAttribute map (lineOf (sdp.drop q)) with
        | error e =>
          unfold remapAttribute at hstep
          rw [hstep]
          rfl
        | ok map =>
          unfold remapAttribute at hstep
          rw [hstep]
          exact mappingLoop_eq map hlt
      · have hend : sdp.drop (q + (lineOf (sdp.drop q)).length) = [] := by
          rw [hline, ← List.drop_drop, List.drop_length]
        rw [grabToken_cut hcut, remap_nil, hend]
        unfold attributes
        rw [hattributes]
        have hnil : ([] : List UInt8).length < rounds := by
          rwa [hend] at hlt
        exact mappingLoop_eq map hnil

theorem getDynamicPayloadMapping_eq (sdp : List UInt8) (map : PayloadMap) :
    getDynamicPayloadMapping sdp map = some ((attributes sdp).foldlM remapAttribute map) :=
  mappingLoop_eq map (Nat.lt_succ_self _)

end Oreka.Sip
