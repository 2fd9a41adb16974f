import Oreka.Lib.Except
import Oreka.Serializers.Proof.Integers
import Oreka.Sip.Proof.RtpmapLines

/-!
# What the rtpmap lines announce

A line "a=rtpmap:" with a payload type and a codec announces the codec for the type, and the last one
counts (`lastAnnounced`). `GetDynamicPayloadMapping` takes more for such lines, an attribute in the
middle of a line or a number with a sign for example (`takes`), and of the type 127 none; where the text
of a payload type is no integer, nothing is mapped at all, and the exception leaves `TrySipInvite`.
`toleratesSdp_iff` says when an INVITE gets through, and when the map has what was announced.
-/

namespace Oreka.Sip

open Net (byte byte_append)
open Serializers (Failure stringToInt isdigit)
open ParsingUtils

/-! ## Announcements -/

/-- The payload type of a line that is "a=rtpmap:", a decimal number, and a space before the codec. -/
def announced (line : List UInt8) : Option Nat :=
  let digits := (line.drop rtpmap.length).takeWhile isdigit
  if rtpmap.isPrefixOf line ∧ digits ≠ [] ∧ (line.drop (rtpmap.length + digits.length)).head? = some 0x20 then
    some (Serializers.decimal digits)
  else none

/-- The codec that a line announces for a payload type. -/
def announces (pt : Nat) (line : List UInt8) : Option UInt8 :=
  if announced line = some pt ∧ getOrekaRtpPayloadTypeForSdpRtpMap line ≠ 0 then
    some (getOrekaRtpPayloadTypeForSdpRtpMap line)
  else none

/-- The codec of the last line that announces one for the payload type. -/
def lastAnnounced (sdp : List UInt8) (pt : Nat) : Option UInt8 :=
  ((linesOf sdp).filterMap (announces pt)).getLast?

/-- The text of the payload type is empty or an integer. -/
def HasNumber (a : List UInt8) : Prop := (plType (attributeToken a)).isOk = true

instance (a : List UInt8) : Decidable (HasNumber a) := inferInstanceAs (Decidable (_ = _))

/-- The codec that an attribute is taken to announce for a payload type. -/
def takes (pt : Nat) (a : List UInt8) : Option UInt8 :=
  if (plType (attributeToken a)).toOption = some (pt : Int) ∧ pt < 127 ∧
      getOrekaRtpPayloadTypeForSdpRtpMap a ≠ 0 then
    some (getOrekaRtpPayloadTypeForSdpRtpMap a)
  else none

def lastTaken (sdp : List UInt8) (pt : Nat) : Option UInt8 := ((attributes sdp).filterMap (takes pt)).getLast?

/-! ## An attribute -/

section
variable {map map' : PayloadMap} {a : List UInt8} {pt : Nat}

theorem remapAttribute_isOk (map : PayloadMap) (a : List UInt8) :
    (remapAttribute map a).isOk = true ↔ HasNumber a := by
  unfold remapAttribute remap HasNumber
  cases plType (attributeToken a) with
  | error e => exact Iff.rfl
  | ok n =>
    refine iff_of_true ?_ rfl
    rw [Except.ok_bind]
    split
    · rfl
    · rfl

theorem remapAttribute_entry (h : remapAttribute map a = .ok map') (hpt : 96 ≤ pt) :
    map' (pt - 96) = (takes pt a).getD (map (pt - 96)) := by
  obtain ⟨n, hn, h⟩ := Except.bind_eq_ok.1 h
  unfold takes
  rw [hn]
  dsimp only at h
  split at h
  · rename_i hrange
    cases h
    generalize getOrekaRtpPayloadTypeForSdpRtpMap a = codec
    have hnumber : (Except.ok n : Except Failure Int).toOption = some (pt : Int) ↔ n = pt := Option.some_inj
    simp only [hnumber]
    by_cases heq : n = pt
    · have hentry : (n - 96).toNat = pt - 96 := by omega
      have hlt : pt < 127 := by omega
      rw [hentry]
      by_cases hcodec : codec = 0
      · rw [if_neg fun h => h.1 hcodec, if_neg fun h => h.2.2 hcodec]
        rfl
      · rw [if_pos (c := n = pt ∧ _) ⟨heq, hlt, hcodec⟩]
        split
        · exact Function.update_self _ codec map
        · rename_i hsame
          have hmap : codec = map (pt - 96) := by
            by_contra hne
            exact hsame ⟨hcodec, hne⟩
          exact hmap.symm
    · have hother : pt - 96 ≠ (n - 96).toNat := by omega
      rw [if_neg (c := n = pt ∧ _) fun h => heq h.1]
      split
      · exact Function.update_of_ne hother codec map
      · rfl
  · rename_i hrange
    cases h
    have hnot : ¬ ((Except.ok n : Except Failure Int).toOption = some (pt : Int) ∧ pt < 127 ∧
        getOrekaRtpPayloadTypeForSdpRtpMap a ≠ 0) := by
      rintro ⟨heq, hlt, -⟩
      cases heq
      omega
    rw [if_neg hnot]
    rfl

end

/-! ## All attributes -/

section
variable {map map' : PayloadMap} {pt : Nat}

theorem isOk_foldlM {σ α ε : Type*} {f : σ → α → Except ε σ} {P : α → Prop}
    (h : ∀ s a, (f s a).isOk = true ↔ P a) : ∀ (l : List α) (s : σ), (l.foldlM f s).isOk = true ↔ ∀ a ∈ l, P a
  | [], s => iff_of_true rfl fun _ h => by cases h
  | a :: l, s => by
    rw [List.foldlM_cons, List.forall_mem_cons, ← h s a]
    cases f s a with
    | error e => exact iff_of_false Bool.false_ne_true fun hall => Bool.false_ne_true hall.1
    | ok s' => exact (isOk_foldlM h l s').trans ⟨fun hall => ⟨rfl, hall⟩, fun hall => hall.2⟩

/-- The last attribute that is taken for a payload type gives its entry. -/
theorem remapAttributes_entry (hpt : 96 ≤ pt) : ∀ {as : List (List UInt8)} {map : PayloadMap},
    as.foldlM remapAttribute map = .ok map' →
      map' (pt - 96) = ((as.filterMap (takes pt)).getLast?).getD (map (pt - 96))
  | [], map, h => by
    cases h
    rfl
  | a :: as, map, h => by
    obtain ⟨map₁, h₁, h₂⟩ := Except.bind_eq_ok.1 ((List.foldlM_cons ..).symm.trans h)
    rw [remapAttributes_entry hpt h₂, remapAttribute_entry h₁ hpt, List.filterMap_cons]
    cases takes pt a with
    | none => rfl
    | some codec =>
      dsimp only
      rw [List.getLast?_cons]
      rfl

end

/-! ## A line that announces a codec -/

section
variable {line : List UInt8} {pt : Nat} {codec : UInt8}

theorem endsWord_of_isdigit {c : UInt8} (h : isdigit c = true) : endsWord c = false := by
  revert h
  exact Serializers.UrlSerializer.forall_byte (P := fun c => isdigit c = true → endsWord c = false)
    (by decide +kernel) c

/-- The parts of the line. -/
theorem announced_eq_some (h : announced line = some pt) : ∃ digits encoding,
    line = rtpmap ++ (digits ++ 0x20 :: encoding) ∧ digits ≠ [] ∧ (∀ c ∈ digits, isdigit c = true) ∧
      Serializers.decimal digits = pt := by
  unfold announced at h
  dsimp only at h
  split at h
  · rename_i hform
    obtain ⟨hname, hne, hspace⟩ := hform
    obtain ⟨rest, hrest⟩ := List.isPrefixOf_iff_prefix.1 hname
    have hdrop : line.drop rtpmap.length = rest := by
      rw [← hrest]
      exact List.drop_left
    rw [← List.drop_drop, hdrop] at hspace
    rw [hdrop] at h hne
    have hsplit : rest.takeWhile isdigit ++ rest.dropWhile isdigit = rest := List.takeWhile_append_dropWhile
    have hbehind : rest.drop (rest.takeWhile isdigit).length = rest.dropWhile isdigit := by
      conv => lhs; arg 2; rw [← hsplit]
      exact List.drop_left
    rw [hbehind] at hspace
    obtain ⟨encoding, hencoding⟩ := List.head?_eq_some_iff.1 hspace
    refine ⟨rest.takeWhile isdigit, encoding, ?_, hne, fun c hc => List.mem_takeWhile_imp hc, Option.some.inj h⟩
    rw [← hencoding, hsplit, hrest]
  · cases h

theorem plType_digits {digits : List UInt8} (hne : digits ≠ []) (hdigits : ∀ c ∈ digits, isdigit c = true)
    (hdecimal : Serializers.decimal digits = pt) (hlt : pt < 127) : plType digits = .ok (pt : Int) := by
  have hnul : 0 ∉ digits := fun h0 => (Serializers.isdigit_ne (hdigits 0 h0)).2.2.2 rfl
  obtain ⟨c, rest, rfl⟩ := List.exists_cons_of_ne_nil hne
  have hsign := Serializers.readSign_digit (hdigits c (.head rest)) rest
  have hread : stringToInt (c :: rest) = .ok (.ofInt pt) := by
    rw [stringToInt, Serializers.UrlSerializer.cString_eq_self.2 hnul,
      Serializers.strtolBase10_digits hsign hne hdigits, hdecimal, Int.one_mul,
      Serializers.clampLong_eq (by omega) (by omega)]
    rfl
  unfold plType
  rw [if_pos (by simp), hread]
  exact congrArg Except.ok (Int32.toInt_ofInt_of_le (by omega) (by omega))

theorem takes_of_announces (h : announces pt line = some codec) (hlt : pt < 127) :
    (∀ first, attributeFrom first line = some line) ∧ takes pt line = some codec := by
  unfold announces at h
  split at h
  · rename_i hcodec
    obtain ⟨digits, encoding, hline, hne, hdigits, hdecimal⟩ := announced_eq_some hcodec.1
    have hname : matchesAt rtpmap line 0 = true := matchesAt_iff.2 fun i hi => by
      rw [hline, Nat.zero_add, byte_append hi]
    have htoken : attributeToken line = digits := by
      unfold attributeToken
      rw [hline, List.drop_left, takeWhile_append_cons (by decide)]
      exact List.takeWhile_eq_self_iff.2 fun c hc => by simp [endsWord_of_isdigit (hdigits c hc)]
    refine ⟨fun first => ?_, ?_⟩
    · have hfirst : ∃ l, line = 97 :: l := ⟨_, hline⟩
      obtain ⟨l, rfl⟩ := hfirst
      rw [attributeFrom, if_pos (by simp [hname])]
    · unfold takes
      rw [htoken, plType_digits hne hdigits hdecimal hlt]
      exact (if_pos ⟨rfl, hlt, hcodec.2⟩).trans h
  · cases h

theorem mem_attributes {sdp : List UInt8} (hmem : line ∈ linesOf sdp)
    (h : ∀ first, attributeFrom first line = some line) : line ∈ attributes sdp := by
  unfold attributes
  cases hlines : linesOf sdp with
  | nil =>
    rw [hlines] at hmem
    cases hmem
  | cons l lines =>
    rw [hlines] at hmem
    show line ∈ (attributeFrom true l).toList ++ lines.filterMap (attributeFrom false)
    rcases List.mem_cons.1 hmem with rfl | hmem
    · rw [h true]
      exact List.mem_append_left _ (.head [])
    · exact List.mem_append_right _ (List.mem_filterMap.2 ⟨line, hmem, h false⟩)

end

/-! ## The map -/

section
variable {sdp : List UInt8} {map : PayloadMap} {pt : Nat}

/-- What is announced is taken, though not always as the last. -/
theorem lastTaken_isSome (hlt : pt < 127) (h : (lastAnnounced sdp pt).isSome) : (lastTaken sdp pt).isSome := by
  unfold lastAnnounced at h
  unfold lastTaken
  rw [List.getLast?_isSome] at h ⊢
  obtain ⟨codec, hcodec⟩ := List.exists_mem_of_ne_nil _ h
  obtain ⟨line, hline, hannounces⟩ := List.mem_filterMap.1 hcodec
  obtain ⟨hwhole, htakes⟩ := takes_of_announces hannounces hlt
  exact List.ne_nil_of_mem (List.mem_filterMap.2 ⟨line, mem_attributes hline hwhole, htakes⟩)

theorem lastTaken_of_le (h : 127 ≤ pt) : lastTaken sdp pt = none := by
  have hnone : (attributes sdp).filterMap (takes pt) = [] :=
    List.filterMap_eq_nil_iff.2 fun a _ => if_neg fun htakes => by
      have hlt := htakes.2.1
      omega
  unfold lastTaken
  rw [hnone]
  rfl

/-- The block is read, each entry gets the codec that is announced last for its payload type, and the
other entries stay as they are. -/
def MapsAnnounced (sdp : List UInt8) (map : PayloadMap) : Prop :=
  ∃ map', getDynamicPayloadMapping sdp map = some (.ok map') ∧
    ∀ i < 32, map' i = (lastAnnounced sdp (96 + i)).getD (map i)

/-- All payload types are integers; the last codec that is taken for a payload type is the one announced
last for it, or else the one that its entry has already; and none is announced for 127 that its entry
does not have already. -/
structure Regular (sdp : List UInt8) (map : PayloadMap) : Prop where
  numbers : ∀ a ∈ attributes sdp, HasNumber a
  taken : ∀ i < 31, ∀ codec, lastTaken sdp (96 + i) = some codec →
    codec = (lastAnnounced sdp (96 + i)).getD (map i)
  last : ∀ codec, lastAnnounced sdp 127 = some codec → codec = map 31

theorem entry_of_map {map' : PayloadMap} (h : (attributes sdp).foldlM remapAttribute map = .ok map') (i : Nat) :
    map' i = (lastTaken sdp (96 + i)).getD (map i) := by
  have hpt : 96 ≤ 96 + i := by omega
  have hentry := remapAttributes_entry hpt h
  rwa [show 96 + i - 96 = i by omega] at hentry

theorem mapsAnnounced_iff (sdp : List UInt8) (map : PayloadMap) : MapsAnnounced sdp map ↔ Regular sdp map := by
  unfold MapsAnnounced
  rw [getDynamicPayloadMapping_eq]
  constructor
  · rintro ⟨map', hmap, hentries⟩
    have hrun := Option.some.inj hmap
    have hok : ((attributes sdp).foldlM remapAttribute map).isOk = true := by
      rw [hrun]
      rfl
    refine ⟨(isOk_foldlM remapAttribute_isOk _ map).1 hok, fun i hi codec htaken => ?_, fun codec hlast => ?_⟩
    · have hentry := hentries i (by omega)
      rwa [entry_of_map hrun, htaken] at hentry
    · have hentry := hentries 31 (by omega)
      rw [entry_of_map hrun, lastTaken_of_le (by omega), hlast] at hentry
      exact hentry.symm
  · rintro ⟨hnumbers, htaken, hlast⟩
    have hok := (isOk_foldlM remapAttribute_isOk _ map).2 hnumbers
    cases hrun : (attributes sdp).foldlM remapAttribute map with
    | error e =>
      rw [hrun] at hok
      cases hok
    | ok map' =>
      refine ⟨map', rfl, fun i hi => ?_⟩
      rw [entry_of_map hrun]
      rcases Nat.lt_or_ge i 31 with hi | hi
      · cases htakes : lastTaken sdp (96 + i) with
        | none =>
          have hnone : lastAnnounced sdp (96 + i) = none := by
            rw [← Option.not_isSome_iff_eq_none]
            intro hsome
            have htakes' := lastTaken_isSome (by omega) hsome
            rw [htakes] at htakes'
            cases htakes'
          rw [hnone]
        | some codec => exact htaken i hi codec htakes
      · obtain rfl : i = 31 := by omega
        rw [lastTaken_of_le (by omega)]
        cases hannounced : lastAnnounced sdp (96 + 31) with
        | none => rfl
        | some codec => exact (hlast codec hannounced).symm

end

/-! ## An INVITE -/

section
variable {udpPayload : List UInt8} {sipEnd audioSdpEnd : Nat}

theorem nextRtpmap_gt {start next : Nat} (h : nextRtpmap udpPayload audioSdpEnd start = some next) :
    start < next := by
  unfold nextRtpmap at h
  obtain ⟨n, hn, rfl⟩ := Option.map_eq_some_iff.1 h
  obtain ⟨p, -, rfl⟩ := parsingUtils_memFindAfter_eq_some.1 hn
  have hname : 0 < rtpmapLine.length := by decide
  omega

/-- The search for telephone events ends, each round being behind the one before. -/
theorem telephoneEventLoop_ends : ∀ {rounds rtpmapAttribute : Nat}, 0 < rounds →
    sipEnd < rounds + rtpmapAttribute →
      telephoneEventLoop udpPayload sipEnd audioSdpEnd rounds rtpmapAttribute ≠ none
  | 0, _, hpos, _ => absurd hpos (Nat.lt_irrefl 0)
  | rounds + 1, rtpmapAttribute, _, h => by
    unfold telephoneEventLoop
    split
    · dsimp only
      split
      · exact Option.some_ne_none _
      · split
        · exact Option.some_ne_none _
        · rename_i next hnext
          have hlt := nextRtpmap_gt hnext
          exact telephoneEventLoop_ends (by omega) (by omega)
    · exact Option.some_ne_none _

end

/-- The rtpmap attributes of an INVITE are read, and no exception is thrown. -/
def ReadsRtpmaps (rtpReportDtmf : Bool) (udpPayload : List UInt8) (sipEnd : Nat) : Prop :=
  ∃ info, readRtpmaps rtpReportDtmf udpPayload sipEnd = some (.ok info)

/-- The payload types of the audio part are integers, and so is what stands in front of
"telephone-event". -/
def HasNumbers (rtpReportDtmf : Bool) (udpPayload : List UInt8) (sipEnd : Nat) : Prop :=
  ∀ rtpmapAttribute, nextRtpmap udpPayload (audioSdp udpPayload sipEnd).2 (audioSdp udpPayload sipEnd).1 =
      some rtpmapAttribute →
    (rtpReportDtmf = true → ∀ rtpPayloadType,
      telephoneEventLoop udpPayload sipEnd (audioSdp udpPayload sipEnd).2 (sipEnd + 1) rtpmapAttribute =
        some (some rtpPayloadType) → (stringToInt rtpPayloadType).isOk = true) ∧
    ∀ a ∈ attributes (Memory.read (byte udpPayload) (audioSdp udpPayload sipEnd).1
      ((audioSdp udpPayload sipEnd).2 - (audioSdp udpPayload sipEnd).1)), HasNumber a

theorem readBlock_ok (sdp : List UInt8) (rtpPayloadType : Option (List UInt8)) :
    (∃ info, readBlock sdp rtpPayloadType = some (.ok info)) ↔
      (∀ s, rtpPayloadType = some s → (stringToInt s).isOk = true) ∧ ∀ a ∈ attributes sdp, HasNumber a := by
  have hmapped : ∀ n : Int, (∃ info, ((getDynamicPayloadMapping sdp fun _ => 0).map fun r =>
      r.map fun m => ({ telephoneEventPayloadType := n, orekaRtpPayloadTypeMap := m } : InviteSdp)) =
        some (.ok info)) ↔ ∀ a ∈ attributes sdp, HasNumber a := by
    intro n
    rw [getDynamicPayloadMapping_eq, ← isOk_foldlM remapAttribute_isOk _ fun _ => 0]
    cases (attributes sdp).foldlM remapAttribute fun _ => 0 with
    | error e => exact iff_of_false (by simp [Except.map]) Bool.false_ne_true
    | ok map => exact iff_of_true ⟨_, rfl⟩ rfl
  unfold readBlock
  cases rtpPayloadType with
  | none =>
    refine (hmapped 0).trans ⟨fun h => ⟨fun _ hs => ?_, h⟩, fun h => h.2⟩
    cases hs
  | some s =>
    cases hs : stringToInt s with
    | error e =>
      rw [Option.elim_some, hs]
      refine iff_of_false (by simp [Except.map]) fun h => ?_
      have hok := h.1 s rfl
      rw [hs] at hok
      cases hok
    | ok n =>
      rw [Option.elim_some, hs]
      refine (hmapped n.toInt).trans ⟨fun h => ⟨fun s' hs' => ?_, h⟩, fun h => h.2⟩
      cases hs'
      rw [hs]
      rfl

theorem readsRtpmaps_iff (rtpReportDtmf : Bool) (udpPayload : List UInt8) (sipEnd : Nat) :
    ReadsRtpmaps rtpReportDtmf udpPayload sipEnd ↔ HasNumbers rtpReportDtmf udpPayload sipEnd := by
  unfold ReadsRtpmaps HasNumbers readRtpmaps
  dsimp only
  cases hnext : nextRtpmap udpPayload (audioSdp udpPayload sipEnd).2 (audioSdp udpPayload sipEnd).1 with
  | none => exact iff_of_true ⟨_, rfl⟩ fun _ h => by cases h
  | some rtpmapAttribute =>
    dsimp only
    cases rtpReportDtmf with
    | false =>
      refine (readBlock_ok _ none).trans ⟨fun h r hr => ?_, fun h => ?_⟩
      · cases hr
        exact ⟨fun hreport => absurd hreport Bool.false_ne_true, h.2⟩
      · exact ⟨fun _ hs => absurd hs (Option.some_ne_none _).symm, (h rtpmapAttribute rfl).2⟩
    | true =>
      cases hloop : telephoneEventLoop udpPayload sipEnd (audioSdp udpPayload sipEnd).2 (sipEnd + 1)
        rtpmapAttribute with
      | none => exact absurd hloop (telephoneEventLoop_ends (by omega) (by omega))
      | some rtpPayloadType =>
        refine (readBlock_ok _ rtpPayloadType).trans ⟨fun h r hr => ?_, fun h => ?_⟩
        · cases hr
          exact ⟨fun _ s hs => h.1 s (Option.some.inj (hloop.symm.trans hs)), h.2⟩
        · obtain ⟨hevent, hnumbers⟩ := h rtpmapAttribute rfl
          exact ⟨fun s hs => hevent rfl s (hs ▸ hloop), hnumbers⟩

/-- "x" for a payload type. -/
def strayNumber : List UInt8 :=
  ascii "INVITE sip:1@a SIP/2.0\r\n\r\nm=audio 9 RTP/AVP 96\r\na=rtpmap:x opus/48000\r\n"

end Oreka.Sip
