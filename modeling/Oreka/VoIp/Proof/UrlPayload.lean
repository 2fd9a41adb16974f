import Oreka.Capture.Proof.WalkBounds
import Oreka.Serializers.Proof.CompletePairs
import Oreka.Serializers.Proof.UrlRoundTrip
import Oreka.VoIp.UrlExtraction

/-!
# The pairs of a TCP payload

Whatever pairs a payload encodes (`EncodesPairs`), the parser finds them (`extracted_of_encodes`), and
the endpoint's map has them over what it had (`extractedValue_storeExtracted`). The text that is parsed
is the payload only where the TCP header has no options: else it goes on behind the packet
(`extracts_iff`).
-/

namespace Oreka.VoIp

open Capture Net Serializers UrlSerializer Walk

/-! ## Payloads -/

/-- A text with percent escapes, and what it stands for. -/
inductive Encodes : List UInt8 → List UInt8 → Prop
  | nil : Encodes [] []
  | plus {w v} : Encodes w v → Encodes ('+'.toUInt8 :: w) (' '.toUInt8 :: v)
  | percent {h l w v} : isxdigit h = true → isxdigit l = true → Encodes w v →
      Encodes ('%'.toUInt8 :: h :: l :: w) ((hexValue h * 16 + hexValue l) :: v)
  | plain {c w v} : c ∉ ['&'.toUInt8, '='.toUInt8, '+'.toUInt8, '%'.toUInt8] → isspace c = false → Encodes w v →
      Encodes (c :: w) (c :: v)

/-- A list of pairs with percent-encoded values and `&` between them; another may follow the last pair. -/
inductive EncodesPairs : List UInt8 → List Pair → Prop
  | nil : EncodesPairs [] []
  | last {key w v} : IsKey key → Encodes w v → EncodesPairs (key ++ '='.toUInt8 :: w) [(key, v)]
  | pair {key w v rest ps} : IsKey key → Encodes w v → EncodesPairs rest ps →
      EncodesPairs (key ++ '='.toUInt8 :: (w ++ '&'.toUInt8 :: rest)) ((key, v) :: ps)

/-- A character of an encoded value is none that the parser looks for, and no white space. -/
def Unreserved (c : UInt8) : Prop := c ≠ '&'.toUInt8 ∧ c ≠ '='.toUInt8 ∧ isspace c = false

theorem unreserved_of_isxdigit {c : UInt8} (h : isxdigit c = true) : Unreserved c ∧ c ≠ '%'.toUInt8 := by
  have hne : ∀ x, isxdigit x = false → c ≠ x := by
    rintro x hx rfl
    rw [h] at hx
    cases hx
  exact ⟨⟨hne _ (by decide), hne _ (by decide), (of_isxdigit h).1⟩, hne _ (by decide)⟩

variable {w v key text : List UInt8} {ps : List Pair}

theorem Encodes.unreserved (h : Encodes w v) : ∀ c ∈ w, Unreserved c := by
  induction h with
  | nil => simp
  | plus _ ih => exact List.forall_mem_cons.2 ⟨⟨by decide, by decide, by decide⟩, ih⟩
  | percent hh hl _ ih =>
    refine List.forall_mem_cons.2 ⟨⟨by decide, by decide, by decide⟩, ?_⟩
    exact List.forall_mem_cons.2 ⟨(unreserved_of_isxdigit hh).1, List.forall_mem_cons.2 ⟨(unreserved_of_isxdigit hl).1, ih⟩⟩
  | plain hc hspace _ ih =>
    simp only [List.mem_cons, not_or] at hc
    exact List.forall_mem_cons.2 ⟨⟨hc.1, hc.2.1, hspace⟩, ih⟩

theorem Encodes.unEscapeUrl (h : Encodes w v) : UrlSerializer.unEscapeUrl w = some v := by
  induction h with
  | nil => rfl
  | plus _ ih => rw [unEscapeUrl_plus, ih, Option.map_some]
  | percent hh hl _ ih => rw [unEscapeUrl_percent (unreserved_of_isxdigit hh).2, ih, Option.map_some, strtol_pair hh hl]
  | plain hc _ _ ih =>
    simp only [List.mem_cons, not_or] at hc
    rw [unEscapeUrl_plain hc.2.2.1 hc.2.2.2.1, ih, Option.map_some]

theorem EncodesPairs.isspace (h : EncodesPairs text ps) : ∀ c ∈ text, Serializers.isspace c = false := by
  have hkey {key : List UInt8} (hk : IsKey key) : ∀ c ∈ key, Serializers.isspace c = false :=
    fun c hc => isspace_of_isalnum (hk.2 c hc)
  have heq : Serializers.isspace '='.toUInt8 = false := by decide
  have hamp : Serializers.isspace '&'.toUInt8 = false := by decide
  induction h with
  | nil => simp
  | last hk hw =>
    refine List.forall_mem_append.2 ⟨hkey hk, List.forall_mem_cons.2 ⟨heq, fun c hc => (hw.unreserved c hc).2.2⟩⟩
  | pair hk hw _ ih =>
    refine List.forall_mem_append.2 ⟨hkey hk, List.forall_mem_cons.2 ⟨heq, ?_⟩⟩
    exact List.forall_mem_append.2 ⟨fun c hc => (hw.unreserved c hc).2.2, List.forall_mem_cons.2 ⟨hamp, ih⟩⟩

theorem trim_eq_self (h : ∀ c ∈ text, isspace c = false) : trim text = text := by
  have hdrop : text.dropWhile isspace = text := by
    cases text with
    | nil => rfl
    | cons c l => exact List.dropWhile_cons_of_neg (by simp [h c List.mem_cons_self])
  unfold trim
  rw [hdrop, List.rdropWhile_eq_self_iff]
  intro hne
  simp [h _ (List.getLast_mem hne)]

/-- **The parser finds the pairs of the payload.** -/
theorem extracted_of_encodes (h : EncodesPairs text ps) : VoIpSessions.extracted text = { pairs := ps } := by
  unfold VoIpSessions.extracted
  rw [trim_eq_self h.isspace]
  have hamp {w v : List UInt8} (hw : Encodes w v) : '&'.toUInt8 ∉ w := fun hm => (hw.unreserved _ hm).1 rfl
  have heq {w v : List UInt8} (hw : Encodes w v) : '='.toUInt8 ∉ w := fun hm => (hw.unreserved _ hm).2.1 rfl
  induction h with
  | nil => rfl
  | last hk hw =>
    refine (scan_lastPair codec.not_alnum hk (hamp hw) (heq hw)).trans ?_
    rw [VoIpSessions.unEscapeUrl, hw.unEscapeUrl]
    rfl
  | pair hk hw _ ih =>
    refine (scan_pair codec.not_alnum codec.ne_equals hk (hamp hw) (heq hw)).trans ?_
    rw [VoIpSessions.unEscapeUrl, hw.unEscapeUrl, Option.elim_some]
    exact congrArg (Scanned.cons _) ih

/-! ## The map of the endpoint -/

open VoIpSessions

/-- One pair more. -/
theorem extractedValue_singleton (σ : VoIpSessions) (cfg : VoIpConfig) (p : String × String) (ip : InAddr)
    (now : Int) (key : String) : (σ.storeExtracted cfg [p] ip now).extractedValue cfg ip key =
      if p.1 = key then some p.2 else σ.extractedValue cfg ip key := by
  unfold extractedValue Directory.getVoIpEndpointInfo storeExtracted Directory.updateEndpoint
  simp only [List.foldl_cons, List.foldl_nil, Std.TreeMap.getElem?_insert_self, Option.bind_eq_bind,
    Option.bind_some, KeyedMap.getElem?_insert]
  by_cases hkey : p.1 = key
  · rw [if_pos hkey, if_pos hkey]
    rfl
  · rw [if_neg hkey, if_neg hkey]
    cases σ.directory.endpoints[cfg.craft64bitMediaAddress ip 0]? with
    | none => simp
    | some ep => rfl

/-- **The map has the pairs over what it had**: of a key the last one. -/
theorem extractedValue_storeExtracted (σ : VoIpSessions) (cfg : VoIpConfig) (pairs : List (String × String))
    (ip : InAddr) (now : Int) (key : String) : (σ.storeExtracted cfg pairs ip now).extractedValue cfg ip key =
      (pairs.reverse.lookup key).or (σ.extractedValue cfg ip key) := by
  induction pairs generalizing σ with
  | nil => simp [storeExtracted]
  | cons p pairs ih =>
    have hstep : σ.storeExtracted cfg (p :: pairs) ip now =
        (σ.storeExtracted cfg [p] ip now).storeExtracted cfg pairs ip now := rfl
    rw [hstep, ih, extractedValue_singleton, List.reverse_cons, List.lookup_append, Option.or_assoc, List.lookup_cons,
      List.lookup_nil]
    by_cases hkey : p.1 = key
    · rw [if_pos hkey, hkey, beq_self_eq_true]
      rfl
    · rw [if_neg hkey, beq_eq_false_iff_ne.2 (Ne.symm hkey)]
      rfl

/-! ## The packet -/

variable {cfg : UrlConfig} {m : List UInt8} {ip : Nat}

/-- The TCP header. -/
def tcpHeader (m : List UInt8) (ip : Nat) : Nat := ip + IpHeader.headerLen (m.drop ip)

/-- The length of the TCP header with its options, in bytes. -/
def dataOffset (m : List UInt8) (ip : Nat) : Nat := (byte m (tcpHeader m ip + 12)).toNat / 16 * 4

/-- The payload of the segment: from the data offset on, to the end of the IP packet. -/
def tcpPayload (m : List UInt8) (ip : Nat) : Span where
  start := tcpHeader m ip + dataOffset m ip
  stop := ip + ntohs m (ip + 2)

/-- A TCP segment for the port of the URL extractor, in memory as a whole, with a payload that encodes
pairs. -/
structure UrlSegment (cfg : UrlConfig) (m : List UInt8) (ip : Nat) (pairs : List Pair) : Prop where
  enabled : cfg.urlExtractorEnable = true
  port : ntohs m (tcpHeader m ip + 2) = cfg.urlExtractorPort
  header : TCP_HEADER_LENGTH ≤ dataOffset m ip
  packet : (tcpPayload m ip).start ≤ (tcpPayload m ip).stop
  captured : (tcpPayload m ip).stop ≤ m.length
  payload : EncodesPairs (copyRange m (tcpPayload m ip)).value pairs

/-- The pairs as the map has them. -/
def texts (pairs : List Pair) : List (String × String) := pairs.map fun p => (ofBytes p.1, ofBytes p.2)

/-- What is said of the extraction: the endpoint's map has the pairs of the payload over what it had,
and nothing is read but headers and the payload. -/
structure Extracts (cfg : UrlConfig) (m : List UInt8) (ip : Nat) (now : Int) (σ : VoIpSessions) (pairs : List Pair) :
    Prop where
  values : ∀ key, (detectUrl cfg m ip (IpHeader.headerLen (m.drop ip)) now σ).value.extractedValue cfg.voIp
    (urlEndpoint cfg m ip) key =
      ((texts pairs).reverse.lookup key).or (σ.extractedValue cfg.voIp (urlEndpoint cfg m ip) key)
  reads : ∀ s ∈ (detectUrl cfg m ip (IpHeader.headerLen (m.drop ip)) now σ).spans,
    s.stop ≤ (tcpPayload m ip).start ∨ (tcpPayload m ip).start ≤ s.start ∧ s.stop ≤ (tcpPayload m ip).stop

/-- The map has every pair already. -/
def HasPairs (cfg : UrlConfig) (m : List UInt8) (ip : Nat) (σ : VoIpSessions) (pairs : List Pair) : Prop :=
  ∀ key v, (texts pairs).reverse.lookup key = some v → σ.extractedValue cfg.voIp (urlEndpoint cfg m ip) key = some v

/-- What was taken for a Skinny or a SIP packet is not looked at. -/
theorem detectUrl_detected (now : Int) (σ : VoIpSessions)
    (h : ¬ NotDetected cfg.toWalkConfig m (tcpHeader m ip)) :
    (detectUrl cfg m ip (IpHeader.headerLen (m.drop ip)) now σ).value = σ ∧
      (detectUrl cfg m ip (IpHeader.headerLen (m.drop ip)) now σ).spans =
        (tryTcp cfg.toWalkConfig m (tcpHeader m ip)).spans := by
  have hdetected : (tryTcp cfg.toWalkConfig m (tcpHeader m ip)).value = true := by
    rw [← tryTcp_value, Bool.not_eq_false] at h
    exact h
  unfold detectUrl
  rw [Reading.bind_value, Reading.bind_spans]
  change (tryTcp cfg.toWalkConfig m (ip + IpHeader.headerLen (m.drop ip))).value = true at hdetected
  rw [if_pos hdetected, Reading.pure_value, Reading.pure_spans, List.append_nil]
  exact ⟨rfl, rfl⟩

theorem extractUrl_value (henabled : cfg.urlExtractorEnable = true)
    (hport : ntohs m (tcpHeader m ip + 2) = cfg.urlExtractorPort) :
    (extractUrl cfg.toWalkConfig m ip (tcpHeader m ip)).value = [urlSpan m ip (tcpHeader m ip)] := by
  unfold extractUrl
  rw [if_pos henabled, Reading.bind_value, readShort_value, if_pos hport]
  rfl

/-- What else goes to the extractor. -/
theorem detectUrl_wanted (now : Int) (σ : VoIpSessions)
    (h : UrlWanted cfg.toWalkConfig m (tcpHeader m ip)) :
    (detectUrl cfg m ip (IpHeader.headerLen (m.drop ip)) now σ).value =
        σ.urlExtraction cfg.voIp (copyRange m (urlSpan m ip (tcpHeader m ip))).value (urlEndpoint cfg m ip) now ∧
      (detectUrl cfg m ip (IpHeader.headerLen (m.drop ip)) now σ).spans =
        (tryTcp cfg.toWalkConfig m (tcpHeader m ip)).spans ++
          ((extractUrl cfg.toWalkConfig m ip (tcpHeader m ip)).spans ++
            (copyRange m (urlSpan m ip (tcpHeader m ip))).spans) := by
  obtain ⟨hnot, henabled, hport⟩ := h
  have hdetected : ¬ (tryTcp cfg.toWalkConfig m (tcpHeader m ip)).value = true := by
    rw [tryTcp_value.2 hnot]
    exact Bool.false_ne_true
  have hvalue := extractUrl_value henabled hport
  unfold detectUrl
  rw [Reading.bind_value, Reading.bind_spans]
  change ¬ (tryTcp cfg.toWalkConfig m (ip + IpHeader.headerLen (m.drop ip))).value = true at hdetected
  change (extractUrl cfg.toWalkConfig m ip (ip + IpHeader.headerLen (m.drop ip))).value = _ at hvalue
  rw [if_neg hdetected, Reading.bind_value, Reading.bind_spans, hvalue]
  refine ⟨rfl, ?_⟩
  simp [tcpHeader]

/-- The headers are read up to the data offset at most. -/
theorem headers_read (cfg : UrlConfig) (hoffset : TCP_HEADER_LENGTH ≤ dataOffset m ip) :
    ∀ s ∈ (tryTcp cfg.toWalkConfig m (tcpHeader m ip)).spans ++
      (extractUrl cfg.toWalkConfig m ip (tcpHeader m ip)).spans, s.stop ≤ (tcpPayload m ip).start := by
  have hstart : tcpHeader m ip + 20 ≤ (tcpPayload m ip).start := Nat.add_le_add_left hoffset _
  have hip : ip ≤ tcpHeader m ip := Nat.le_add_right _ _
  intro s hs
  rcases List.mem_append.1 hs with hs | hs
  · have hstop : s.stop ≤ tcpHeader m ip + 4 := by
      unfold tryTcp at hs
      simp only [Reading.bind_spans, List.mem_append] at hs
      rcases hs with hs | hs
      · simp only [readShort, Reading.look_spans, List.mem_singleton] at hs
        subst hs
        exact Nat.add_le_add_left (by decide) _
      · split at hs
        · simp at hs
        · simp only [Reading.bind_spans, readShort, Reading.look_spans, Reading.pure_spans, List.append_nil,
            List.mem_singleton] at hs
          subst hs
          exact le_rfl
    omega
  · have hstop : s.stop ≤ tcpHeader m ip + 13 := by
      unfold extractUrl at hs
      split at hs
      · simp only [Reading.bind_spans, List.mem_append] at hs
        rcases hs with hs | hs
        · simp only [readShort, Reading.look_spans, List.mem_singleton] at hs
          subst hs
          show tcpHeader m ip + 2 + 2 ≤ _
          omega
        · split at hs
          · simp only [Reading.bind_spans, readShort, readByte, Reading.look_spans, Reading.pure_spans,
              List.append_nil, List.mem_append, List.mem_singleton] at hs
            rcases hs with rfl | rfl | rfl
            · exact le_rfl
            · show ip + 2 + 2 ≤ _
              omega
            · show ip + 1 ≤ _
              omega
          · simp at hs
      · simp at hs
    omega

/-- Where the extractor's text ends, against the end of the packet. -/
theorem urlSpan_stop (h : (tcpPayload m ip).start ≤ (tcpPayload m ip).stop)
    (hoffset : TCP_HEADER_LENGTH ≤ dataOffset m ip) : (urlSpan m ip (tcpHeader m ip)).start = (tcpPayload m ip).start ∧
      (urlSpan m ip (tcpHeader m ip)).stop + TCP_HEADER_LENGTH = (tcpPayload m ip).stop + dataOffset m ip := by
  have hhl := headerLen_drop m ip
  refine ⟨rfl, ?_⟩
  simp only [urlSpan, tcpPayload, tcpHeader, dataOffset] at h hoffset ⊢
  rw [hhl] at h hoffset ⊢
  omega

/-- Nothing but headers and the payload is read, where there are no options. -/
theorem detectUrl_reads_iff (now : Int) (σ : VoIpSessions)
    (hwanted : UrlWanted cfg.toWalkConfig m (tcpHeader m ip))
    (hpacket : (tcpPayload m ip).start ≤ (tcpPayload m ip).stop) (hoffset : TCP_HEADER_LENGTH ≤ dataOffset m ip) :
    (∀ s ∈ (detectUrl cfg m ip (IpHeader.headerLen (m.drop ip)) now σ).spans,
      s.stop ≤ (tcpPayload m ip).start ∨ (tcpPayload m ip).start ≤ s.start ∧ s.stop ≤ (tcpPayload m ip).stop) ↔
        dataOffset m ip = TCP_HEADER_LENGTH := by
  obtain ⟨-, hspans⟩ := detectUrl_wanted now σ hwanted
  obtain ⟨hstart, hstop⟩ := urlSpan_stop hpacket hoffset
  have hcopied : (copyRange m (urlSpan m ip (tcpHeader m ip))).spans =
      [⟨(tcpPayload m ip).start, (urlSpan m ip (tcpHeader m ip)).stop⟩] := by
    have hle : (urlSpan m ip (tcpHeader m ip)).start ≤ (urlSpan m ip (tcpHeader m ip)).stop := Nat.le_add_right _ _
    unfold copyRange
    rw [Reading.look_spans, Nat.add_sub_cancel' hle, hstart]
  rw [hspans, hcopied, ← List.append_assoc]
  constructor
  · intro h
    have htext := h ⟨(tcpPayload m ip).start, (urlSpan m ip (tcpHeader m ip)).stop⟩ (by simp)
    dsimp only at htext
    omega
  · intro h s hs
    rcases List.mem_append.1 hs with hs | hs
    · exact .inl (headers_read cfg hoffset s hs)
    · rw [List.mem_singleton] at hs
      subst hs
      right
      dsimp only
      omega

/-- **The pairs of the payload get into the endpoint's map, and nothing else is read**, exactly where
the TCP header has no options; of a packet that was taken for another one, where the map has the pairs
already. -/
theorem extracts_iff {pairs : List Pair} (h : UrlSegment cfg m ip pairs) (now : Int) (σ : VoIpSessions) :
    Extracts cfg m ip now σ pairs ↔
      (NotDetected cfg.toWalkConfig m (tcpHeader m ip) → dataOffset m ip = TCP_HEADER_LENGTH) ∧
        (¬ NotDetected cfg.toWalkConfig m (tcpHeader m ip) → HasPairs cfg m ip σ pairs) := by
  by_cases hnot : NotDetected cfg.toWalkConfig m (tcpHeader m ip)
  · have hwanted : UrlWanted cfg.toWalkConfig m (tcpHeader m ip) := ⟨hnot, h.enabled, h.port⟩
    have hreads := detectUrl_reads_iff now σ hwanted h.packet h.header
    constructor
    · intro hx
      exact ⟨fun _ => hreads.1 hx.reads, fun hn => absurd hnot hn⟩
    · intro hcond
      have hoffset := hcond.1 hnot
      refine ⟨fun key => ?_, hreads.2 hoffset⟩
      obtain ⟨hstart, hstop⟩ := urlSpan_stop h.packet h.header
      have hspan : urlSpan m ip (tcpHeader m ip) = tcpPayload m ip := by
        have hstop' : (urlSpan m ip (tcpHeader m ip)).stop = (tcpPayload m ip).stop := by omega
        exact congrArg₂ Span.mk hstart hstop'
      rw [(detectUrl_wanted now σ hwanted).1, hspan, urlExtraction, extracted_of_encodes h.payload]
      exact extractedValue_storeExtracted _ _ _ _ _ key
  · obtain ⟨hvalue, hspans⟩ := detectUrl_detected now σ hnot
    have hreads : ∀ s ∈ (tryTcp cfg.toWalkConfig m (tcpHeader m ip)).spans, s.stop ≤ (tcpPayload m ip).start :=
      fun s hs => headers_read cfg h.header s (List.mem_append_left _ hs)
    have hor : ∀ a b : Option String, b = a.or b ↔ ∀ v, a = some v → b = some v := by
      intro a b
      cases a with
      | none => simp
      | some v => simp
    constructor
    · intro hx
      refine ⟨fun hn => absurd hn hnot, fun _ key => ?_⟩
      have hkey := hx.values key
      rw [hvalue] at hkey
      exact (hor _ _).1 hkey
    · intro hcond
      refine ⟨fun key => ?_, fun s hs => .inl (hreads s (hspans ▸ hs))⟩
      rw [hvalue]
      exact (hor _ _).2 (hcond.2 hnot key)

/-- A packet with the TCP header of `offset` words for port 80, and the pair `a=%42`. -/
def urlPacket (offset : UInt8) (options padding : List UInt8) : List UInt8 :=
  [0x45, 0, 0, UInt8.ofNat (45 + options.length), 0, 0, 0, 0, 64, 6, 0, 0, 10, 0, 0, 1, 10, 0, 0, 2] ++
    ([0, 99, 0, 80, 0, 0, 0, 0, 0, 0, 0, 0, offset * 16, 0, 0, 0, 0, 0, 0, 0] ++ options) ++
      ([97, 61, 37, 52, 50] ++ padding)

/-- The URL extractor listens on port 80. -/
def port80 : UrlConfig where
  urlExtractorEnable := true
  urlExtractorPort := 80

theorem encodesPairs_aB : EncodesPairs [97, 61, 37, 52, 50] [([97], [66])] :=
  @EncodesPairs.last [97] [37, 52, 50] [66] ⟨List.cons_ne_nil _ _, List.forall_mem_singleton.2 (by decide)⟩
    (.percent (by decide) (by decide) .nil)

theorem segment_urlPacket : UrlSegment port80 (urlPacket 5 [] []) 0 [([97], [66])] where
  enabled := rfl
  port := by decide
  header := by decide
  packet := by decide
  captured := by decide
  payload := encodesPairs_aB

theorem extracts_urlPacket : Extracts port80 (urlPacket 5 [] []) 0 0 {} [([97], [66])] :=
  (extracts_iff segment_urlPacket 0 {}).2 ⟨fun _ => by decide, fun hn => absurd ⟨by decide, by decide, rfl⟩ hn⟩

/-- With four bytes of options, four bytes behind the packet are read too: another pair, here. -/
theorem not_extracts : UrlSegment port80 (urlPacket 6 [1, 1, 1, 0] [38, 98, 61, 99]) 0 [([97], [66])] ∧
    ¬ Extracts port80 (urlPacket 6 [1, 1, 1, 0] [38, 98, 61, 99]) 0 0 {} [([97], [66])] := by
  have hwanted : UrlWanted port80.toWalkConfig (urlPacket 6 [1, 1, 1, 0] [38, 98, 61, 99])
      (tcpHeader (urlPacket 6 [1, 1, 1, 0] [38, 98, 61, 99]) 0) :=
    ⟨⟨by decide, by decide, rfl⟩, rfl, by decide⟩
  constructor
  · exact {
      enabled := rfl
      port := by decide
      header := by decide
      packet := by decide
      captured := by decide
      payload := encodesPairs_aB }
  · intro h
    exact absurd ((detectUrl_reads_iff 0 {} hwanted (by decide) (by decide)).1 h.reads) (by decide)

end Oreka.VoIp

/-!
## Malformed URL input

`UrlSerializer::DeSerialize` and `VoIpSessions::UrlExtraction` read nothing behind the string, and take
the complete pairs before the first defect; but both also store the part of a pair with which the string
breaks off, or which has its defect at the last character (`leavesNoTrace_iff`).
-/

namespace Oreka.VoIp

open Serializers UrlSerializer

/-- The complete pairs before the first defect, unescaped. -/
def completeUrl (input : List UInt8) : List Pair :=
  (unEscapePairs unEscapeUrl (completePairs '&'.toUInt8 (trim input))).pairs

/-- What is said of both parsers on any input. -/
structure LeavesNoTrace (input : List UInt8) : Prop where
  reads : ∀ value : List UInt8, (unEscapeUrlAt value).Within value.length
  unEscape : ∀ value : List UInt8, (unEscapeUrlAt value).value = unEscapeUrl value
  deSerialize : (stored input).pairs = completeUrl input
  urlExtraction : (VoIpSessions.extracted input).pairs = completeUrl input

/-- **Malformed input leaves no trace** exactly where it does not end in a part of a pair. -/
theorem leavesNoTrace_iff (input : List UInt8) :
    LeavesNoTrace input ↔ ¬ EndsInPart unEscapeUrl ((trim input).splitOn '&'.toUInt8) := by
  have hscan := scan_pairs_iff (m := ∅) codec.not_alnum codec.ne_equals codec.unEscape_nil (trim input)
  constructor
  · intro h
    exact hscan.1 h.deSerialize
  · intro h
    exact ⟨within_unEscapeUrlAt, unEscapeUrlAt_value, hscan.2 h, hscan.2 h⟩

/-- `a=1&b`: the key at the end is stored. -/
theorem not_leavesNoTrace : ¬ LeavesNoTrace ("a=1&b".toList.map Char.toUInt8) := by
  intro h
  have hpairs := h.deSerialize
  revert hpairs
  decide

end Oreka.VoIp
