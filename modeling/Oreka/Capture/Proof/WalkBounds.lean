import Oreka.Capture.HeaderWalk

/-!
# What the header walk reads

When everything the walk reads, and every payload range it passes on, is captured (`Fits`): the link
layer and the IP header are read before any length is checked, the packet inside a tunnel without a
check, and the URL of a TCP packet is taken to be as long as a header without options leaves it.
-/

namespace Oreka.Capture

open Oreka.Net IpHeader

namespace Walk

variable {cfg : WalkConfig} {m : List UInt8} {n ip tcp e : Nat}

/-! ## The condition -/

/-- The end of the last version byte that is looked at. -/
def versionReach (m : List UInt8) : Nat → List Nat → Nat
  | ip, [] => ip + 1
  | ip, step :: steps =>
    if (byte m ip).toNat / 16 = 4 then ip + 1 else versionReach m (ip + step) steps

/-- No Skinny message, and `TrySipTcp` is not called or returns false. -/
def NotDetected (cfg : WalkConfig) (m : List UInt8) (tcp : Nat) : Prop :=
  ntohs m tcp ≠ cfg.skinnyTcpPort ∧ ntohs m (tcp + 2) ≠ cfg.skinnyTcpPort ∧
    (cfg.sipOverTcpSupport && cfg.trySipTcp tcp) = false

def UrlWanted (cfg : WalkConfig) (m : List UInt8) (tcp : Nat) : Prop :=
  NotDetected cfg m tcp ∧ cfg.urlExtractorEnable = true ∧ ntohs m (tcp + 2) = cfg.urlExtractorPort

/-- From the data offset on, as long as `ip_len` leaves behind headers without TCP options. -/
def urlSpan (m : List UInt8) (ip tcp : Nat) : Span where
  start := tcp + (byte m (tcp + 12)).toNat / 16 * 4
  stop := tcp + (byte m (tcp + 12)).toNat / 16 * 4 +
    (ntohs m (ip + 2) - (byte m ip).toNat % 16 * 4 - TCP_HEADER_LENGTH)

/-- The TCP header of a packet in a tunnel, as far as it is read, and the URL. -/
def TcpFits (n : Nat) (cfg : WalkConfig) (m : List UInt8) (ip tcp : Nat) : Prop :=
  tcp + 2 ≤ n ∧ (ntohs m tcp ≠ cfg.skinnyTcpPort → tcp + 4 ≤ n) ∧
    (UrlWanted cfg m tcp ∨ NotDetected cfg m tcp ∧ cfg.onDemandTcpMarker = true → tcp + 13 ≤ n) ∧
    (UrlWanted cfg m tcp → (urlSpan m ip tcp).Within n)

/-- A packet in a tunnel, whose IP header is looked for at `ip`: the version bytes, the header up to
`ip_p`, and the packet up to `ip_len`. -/
def InnerFits (n : Nat) (cfg : WalkConfig) (m : List UInt8) (ip ipHeaderLength : Nat) : Prop :=
  versionReach m ip [2, 2, 2, 12] ≤ n ∧ (Capture.tryIpPacketV4 (m.drop ip) = true →
    ip + 10 ≤ n ∧
      (byte m (ip + 9) = 17 ∨ byte m (ip + 9) = 6 →
        Span.Within n ⟨ip + ipHeaderLength, ip + ntohs m (ip + 2)⟩) ∧
      (byte m (ip + 9) = 6 → TcpFits n cfg m ip (ip + ipHeaderLength)))

/-- A packet that `ProcessTransportLayer` gets: what is in a tunnel, and the URL. -/
def TransportFits (n : Nat) (cfg : WalkConfig) (m : List UInt8) (ip : Nat) : Prop :=
  let hl := headerLen (m.drop ip)
  (byte m (ip + 9) = 17 → ntohs m (ip + hl + 2) = TZSP_PORT →
    ∀ e, (tzspPayload m (ip + hl) (ip + packetLen (m.drop ip))).value = some e → e + 14 ≤ n ∧
      ∀ inner, tzspIpHeader (ntohs m (e + ethernetType)) e = some inner →
        InnerFits n cfg m inner (headerLen (m.drop inner))) ∧
  (byte m (ip + 9) = 47 → ∀ e, (grePayload m (ip + hl)).value = some e → e + 14 ≤ n ∧
    InnerFits n cfg m (greIpHeader (ntohs m (e + ethernetType)) e) hl) ∧
  (byte m (ip + 9) = 6 → UrlWanted cfg m (ip + hl) → (urlSpan m ip (ip + hl)).Within n)

/-- The type field at the front is none that is known. -/
def UnknownType (m : List UInt8) : Prop :=
  ∀ type ∈ [ETHER_TYPE_IEEE8021Q, ETHER_TYPE_VNTAG, ETHER_TYPE_IPV4, ETHER_TYPE_ARP, ETHER_TYPE_IPV6],
    ntohs m ethernetType ≠ type

/-- The frame passes the checks of `HandlePacket` and is no fragment to reassemble. -/
def Processed (cfg : WalkConfig) (p : Captured) (ip : Nat) : Prop :=
  snippedOrShort p ip (p.pktData.drop ip) = false ∧ cfg.isPacketWanted (p.pktData.drop ip) = true ∧
    (cfg.ipFragmentsReassemble && isFragmented (p.pktData.drop ip)) = false

/-- What is captured of a frame reaches as far as the walk does. -/
def Fits (cfg : WalkConfig) (p : Captured) : Prop :=
  cfg.pcapTest = false → 14 ≤ p.caplen ∧ (UnknownType p.pktData → 16 ≤ p.caplen) ∧
    ∀ e ip, Capture.locateHeaders p.pktData = some (e, ip) →
      versionReach p.pktData ip [2, 2, 2, 12] ≤ p.caplen ∧
        (Capture.tryIpPacketV4 (p.pktData.drop ip) = true →
          ip + 4 ≤ p.caplen ∧ (Processed cfg p ip → TransportFits p.caplen cfg p.pktData ip))

/-! ## The IP header -/

theorem le_versionReach (m : List UInt8) : ∀ (steps : List Nat) (ip : Nat),
    ip + 1 ≤ versionReach m ip steps
  | [], _ => le_rfl
  | step :: steps, ip => by
    have h := le_versionReach m steps (ip + step)
    unfold versionReach
    split <;> omega

theorem within_findVersion : ∀ (steps : List Nat) (ip : Nat),
    (findVersion m ip steps).Within n ↔ versionReach m ip steps ≤ n
  | [], ip => by simp [findVersion, versionReach]
  | step :: steps, ip => by
    have h := le_versionReach m steps (ip + step)
    simp only [findVersion, versionReach, Reading.within_bind, within_readByte, readByte_value,
      Reading.within_ite, Reading.within_pure, within_findVersion steps]
    by_cases hv : (byte m ip).toNat / 16 = 4
    · simp [hv]
    · simp only [hv, if_false]
      constructor
      · exact fun h => h.2.2 id
      · intro h'
        exact ⟨by omega, fun h => h.elim, fun _ => h'⟩

theorem within_kept : (kept m ip).Within n ↔ versionReach m ip [2, 2, 2, 12] ≤ n := by
  simp only [kept, tryIpPacketV4, findIpPacketV4, Reading.within_bind, Reading.within_pure, and_true,
    within_findVersion]

/-! ## TCP -/

theorem within_tryTcp : (tryTcp cfg m tcp).Within n ↔
    tcp + 2 ≤ n ∧ (ntohs m tcp ≠ cfg.skinnyTcpPort → tcp + 4 ≤ n) := by
  simp [tryTcp, Reading.within_ite]

theorem tryTcp_value : (tryTcp cfg m tcp).value = false ↔ NotDetected cfg m tcp := by
  unfold tryTcp NotDetected
  by_cases h : ntohs m tcp = cfg.skinnyTcpPort
  · simp [h]
  · by_cases h' : ntohs m (tcp + 2) = cfg.skinnyTcpPort
    · simp [h, h']
    · simp [h, h']

/-- What is read and passed on lies in the first `n` bytes. -/
def Inside (n : Nat) (x : Reading Outcome) : Prop :=
  x.Within n ∧ ∀ s ∈ x.value.passedOn, s.Within n

theorem inside_empty : Inside n (pure {}) := ⟨Reading.within_pure n _, by simp⟩

theorem inside_bind {α : Type} {x : Reading α} {f : α → Reading Outcome} :
    Inside n (x >>= f) ↔ x.Within n ∧ Inside n (f x.value) := by
  simp [Inside, and_assoc]

theorem within_extractUrl (cfg : WalkConfig) (m : List UInt8) (htcp : tcp + 4 ≤ n)
    (hip : ip + 4 ≤ n) :
    (extractUrl cfg m ip tcp).Within n ∧ (∀ s ∈ (extractUrl cfg m ip tcp).value, s.Within n) ↔
      (cfg.urlExtractorEnable = true → ntohs m (tcp + 2) = cfg.urlExtractorPort →
        tcp + 13 ≤ n ∧ (urlSpan m ip tcp).Within n) := by
  unfold extractUrl
  by_cases hurl : cfg.urlExtractorEnable = true
  · by_cases hport : ntohs m (tcp + 2) = cfg.urlExtractorPort
    · have h1 : ip + 2 + 2 ≤ n := by omega
      have h2 : ip + 1 ≤ n := by omega
      have h3 : tcp + 2 + 2 ≤ n := by omega
      have h4 : tcp + 12 < n ↔ tcp + 13 ≤ n := Iff.rfl
      simp [hurl, hport, h1, h2, h3, h4, urlSpan]
    · have h3 : tcp + 2 + 2 ≤ n := by omega
      simp [hurl, hport, h3]
  · simp [hurl]

theorem within_findMarker (cfg : WalkConfig) (m : List UInt8) {ipPacketEnd : Nat}
    (hend : tcp < ipPacketEnd → ipPacketEnd ≤ n) :
    (findMarker cfg m tcp ipPacketEnd).Within n ∧
        (∀ s ∈ (findMarker cfg m tcp ipPacketEnd).value, s.Within n) ↔
      (cfg.onDemandTcpMarker = true → tcp + 13 ≤ n) := by
  unfold findMarker
  by_cases hmarker : cfg.onDemandTcpMarker = true
  · have hspan : Span.Within n ⟨tcp + (byte m (tcp + 12)).toNat / 16 * 4, ipPacketEnd⟩ := by
      intro h
      have h : tcp + (byte m (tcp + 12)).toNat / 16 * 4 < ipPacketEnd := h
      exact hend (by omega)
    have hlt : tcp + 12 < n ↔ tcp + 13 ≤ n := Iff.rfl
    simp [hmarker, hspan, hlt]
  · simp [hmarker]

theorem within_detectUsefulTcpPacket {ipHeaderLength ipPacketEnd : Nat} (hip : ip + 4 ≤ n)
    (hend : ip + ipHeaderLength < ipPacketEnd → ipPacketEnd ≤ n) :
    (detectUsefulTcpPacket cfg m ip ipHeaderLength ipPacketEnd).Within n ∧
        (∀ s ∈ (detectUsefulTcpPacket cfg m ip ipHeaderLength ipPacketEnd).value, s.Within n) ↔
      TcpFits n cfg m ip (ip + ipHeaderLength) := by
  generalize htcp : ip + ipHeaderLength = tcp at *
  unfold detectUsefulTcpPacket TcpFits
  rw [htcp]
  cases hd : (tryTcp cfg m tcp).value with
  | true =>
    have hnot : ¬ NotDetected cfg m tcp := by
      rw [← tryTcp_value, hd]
      simp
    simp [hd, within_tryTcp, hnot, UrlWanted]
  | false =>
    have hnot : NotDetected cfg m tcp := tryTcp_value.1 hd
    have hsource : ntohs m tcp ≠ cfg.skinnyTcpPort := hnot.1
    by_cases hports : tcp + 4 ≤ n
    · have hurl := within_extractUrl cfg m hports hip
      have hmarker := within_findMarker cfg m hend
      have hports' : tcp + 2 ≤ n := by omega
      simp only [Reading.within_bind, within_tryTcp, hd, Reading.bind_value, Reading.pure_value,
        Reading.within_pure, List.mem_append, or_imp, forall_and, hnot, UrlWanted, true_and, hports,
        hports', implies_true, and_true, Bool.false_eq_true, if_false]
      rw [and_and_and_comm, hurl, hmarker]
      constructor
      · rintro ⟨hu, hm⟩
        exact ⟨⟨fun h => (hu h.1 h.2).1, hm⟩, fun h => (hu h.1 h.2).2⟩
      · rintro ⟨⟨hu, hm⟩, hs⟩
        exact ⟨fun h h' => ⟨hu ⟨h, h'⟩, hs ⟨h, h'⟩⟩, hm⟩
    · simp [within_tryTcp, hports, hsource]

theorem inside_detect {protocol ethernet ipHeaderLength ipPacketEnd : Nat} (hip : ip + 4 ≤ n) :
    Inside n (detect cfg m protocol ethernet ip ipHeaderLength ipPacketEnd) ↔
      (protocol = 17 ∨ protocol = 6 → Span.Within n ⟨ip + ipHeaderLength, ipPacketEnd⟩) ∧
        (protocol = 6 → TcpFits n cfg m ip (ip + ipHeaderLength)) := by
  unfold detect
  by_cases hudp : protocol = 17
  · simp [hudp, Inside]
  · by_cases htcp : protocol = 6
    · rw [if_neg hudp, if_pos htcp, inside_bind]
      simp only [htcp, or_true, forall_const]
      by_cases hspan : Span.Within n ⟨ip + ipHeaderLength, ipPacketEnd⟩
      · have hend : ip + ipHeaderLength < ipPacketEnd → ipPacketEnd ≤ n := hspan
        rw [← within_detectUsefulTcpPacket hip hend]
        simp [Inside, hspan]
      · simp [Inside, hspan]
    · simp [hudp, htcp, inside_empty]

/-! ## Tunnels -/

theorem toNat_eq_udp {b : UInt8} : b.toNat = 17 ↔ b = 17 := UInt8.toNat_inj (b := 17)

theorem toNat_eq_tcp {b : UInt8} : b.toNat = 6 ↔ b = 6 := UInt8.toNat_inj (b := 6)

theorem toNat_eq_gre {b : UInt8} : b.toNat = 47 ↔ b = 47 := UInt8.toNat_inj (b := 47)

theorem headerLen_drop (m : List UInt8) (ip : Nat) :
    headerLen (m.drop ip) = (byte m ip).toNat % 16 * 4 := by
  simp [headerLen, byte_drop]

theorem packetLen_drop (m : List UInt8) (ip : Nat) :
    packetLen (m.drop ip) = ntohs m (ip + 2) := by
  simp [packetLen, ntohs, byte_drop, Nat.add_assoc]

/-- What is read of an inner packet whose header is at `ip`, the header length being that of the header
at `q`. -/
theorem inside_readInner (cfg : WalkConfig) (m : List UInt8) {q : Nat} (ethernet ip : Nat)
    (hq : ip + 10 ≤ n → q + 1 ≤ n) :
    Inside n (do
        let ipHl ← readByte m q
        let ipLen ← readShort m (ip + 2)
        let protocol ← readByte m (ip + 9)
        detect cfg m protocol ethernet ip (ipHl % 16 * 4) (ip + ipLen)) ↔
      ip + 10 ≤ n ∧
        (byte m (ip + 9) = 17 ∨ byte m (ip + 9) = 6 →
          Span.Within n ⟨ip + headerLen (m.drop q), ip + ntohs m (ip + 2)⟩) ∧
        (byte m (ip + 9) = 6 → TcpFits n cfg m ip (ip + headerLen (m.drop q))) := by
  simp only [inside_bind, within_readByte, within_readShort, readByte_value, readShort_value,
    headerLen_drop]
  by_cases hip : ip + 10 ≤ n
  · rw [inside_detect (by omega), toNat_eq_udp, toNat_eq_tcp]
    have h1 : q + 1 ≤ n := hq hip
    have h2 : ip + 2 + 2 ≤ n := by omega
    simp [hip, h1, h2]
  · simp [hip]

theorem inside_withIpHeader (m : List UInt8) (ip : Nat) (next : Nat → Reading Outcome) :
    Inside n (withIpHeader kept m ip next) ↔ versionReach m ip [2, 2, 2, 12] ≤ n ∧
      (Capture.tryIpPacketV4 (m.drop ip) = true → Inside n (next ip)) := by
  rw [withIpHeader, inside_bind, within_kept, kept_value]
  by_cases htry : Capture.tryIpPacketV4 (m.drop ip) = true
  · simp [htry]
  · simp [htry, inside_empty]

theorem inside_detectInTzsp (cfg : WalkConfig) (m : List UInt8) (ethernet ip : Nat) :
    Inside n (detectInTzsp kept cfg m ethernet ip) ↔
      InnerFits n cfg m ip (headerLen (m.drop ip)) := by
  rw [detectInTzsp, inside_withIpHeader, InnerFits,
    inside_readInner cfg m ethernet ip fun h => by omega]

theorem inside_detectInGre (cfg : WalkConfig) (m : List UInt8) {outer : Nat} (ethernet ip : Nat)
    (houter : outer + 1 ≤ n) : Inside n (detectInGre kept cfg m outer ethernet ip) ↔
      InnerFits n cfg m ip (headerLen (m.drop outer)) := by
  rw [detectInGre, inside_withIpHeader, InnerFits, inside_readInner cfg m ethernet ip fun _ => houter]

/-- The tags are read before the end of the packet. -/
theorem within_skipTags {packetEnd : Nat} (hn : packetEnd ≤ n) : ∀ (rounds payload : Nat),
    (skipTags m packetEnd rounds payload).Within n
  | 0, _ => Reading.within_pure n _
  | rounds + 1, payload => by
    have ih := within_skipTags hn rounds
    unfold skipTags
    simp only [Reading.within_ite, Reading.within_bind, within_readByte, readByte_value,
      Reading.within_pure, ih, implies_true, true_and, and_true]
    intro hlt
    refine ⟨by omega, fun _ _ hlen => ?_⟩
    simp only [tzspTagSize] at hlen
    omega

theorem within_tzspPayload {udp packetEnd : Nat} (hn : packetEnd ≤ n) (hudp : udp + 12 ≤ n) :
    (tzspPayload m udp packetEnd).Within n := by
  simp only [tzspPayload, Reading.within_ite, Reading.within_bind, within_readByte,
    within_readShort, readByte_value, readShort_value, Reading.within_pure, implies_true, true_and,
    udpHeaderSize, tzspHeaderSize]
  refine ⟨by omega, fun _ => ⟨by omega, fun _ => ⟨by omega, fun _ => ⟨by omega, fun _ => ?_⟩⟩⟩⟩
  exact within_skipTags hn _ _

theorem inside_stripTzsp (cfg : WalkConfig) (m : List UInt8) {udp packetEnd : Nat}
    (hn : packetEnd ≤ n) (hudp : udp + 12 ≤ n) :
    Inside n (stripTzspEncapsulation kept cfg m udp packetEnd) ↔
      ∀ e, (tzspPayload m udp packetEnd).value = some e → e + 14 ≤ n ∧
        ∀ inner, tzspIpHeader (ntohs m (e + ethernetType)) e = some inner →
          InnerFits n cfg m inner (headerLen (m.drop inner)) := by
  rw [stripTzspEncapsulation, inside_bind, and_iff_right (within_tzspPayload hn hudp)]
  cases hp : (tzspPayload m udp packetEnd).value with
  | none => simp [inside_empty]
  | some e =>
    simp only [inside_bind, within_readShort, readShort_value, Option.some.injEq, forall_eq']
    refine and_congr Iff.rfl ?_
    cases hi : tzspIpHeader (ntohs m (e + ethernetType)) e with
    | none => simp [inside_empty]
    | some inner => simp [inside_detectInTzsp]

theorem inside_stripGre (cfg : WalkConfig) (m : List UInt8) {outer gre : Nat} (hgre : gre + 4 ≤ n)
    (houter : outer + 1 ≤ n) : Inside n (stripGre kept cfg m outer gre) ↔
      ∀ e, (grePayload m gre).value = some e → e + 14 ≤ n ∧
        InnerFits n cfg m (greIpHeader (ntohs m (e + ethernetType)) e) (headerLen (m.drop outer)) := by
  have hw : (grePayload m gre).Within n := by
    simp only [grePayload, Reading.within_bind, within_readShort, Reading.within_pure, and_true]
    exact ⟨by omega, by omega⟩
  rw [stripGre, inside_bind, and_iff_right hw]
  cases hp : (grePayload m gre).value with
  | none => simp [inside_empty]
  | some e =>
    simp only [inside_bind, within_readShort, readShort_value, Option.some.injEq, forall_eq',
      inside_detectInGre cfg m _ _ houter]

/-! ## The transport layer of a packet that was captured whole -/

/-- The TCP header and what is looked through lie in the packet, but not the URL. -/
theorem tcpFits_iff (cfg : WalkConfig) (m : List UInt8) (htcp : tcp + 20 ≤ n) :
    TcpFits n cfg m ip tcp ↔ (UrlWanted cfg m tcp → (urlSpan m ip tcp).Within n) := by
  unfold TcpFits
  have h2 : tcp + 2 ≤ n := by omega
  have h4 : tcp + 4 ≤ n := by omega
  have h13 : tcp + 13 ≤ n := by omega
  simp [h2, h4, h13]

theorem inside_processTransportLayer (cfg : WalkConfig) (m : List UInt8) (ethernet : Nat)
    (hend : ip + packetLen (m.drop ip) ≤ n)
    (hlong : headerLen (m.drop ip) + TCP_HEADER_LENGTH < packetLen (m.drop ip)) :
    Inside n (processTransportLayer kept cfg m ethernet ip) ↔ TransportFits n cfg m ip := by
  have hlong : headerLen (m.drop ip) + 20 < packetLen (m.drop ip) := hlong
  have h1 : ip + 1 ≤ n := by omega
  have h2 : ip + 2 + 2 ≤ n := by omega
  have h9 : ip + 9 + 1 ≤ n := by omega
  have hspan : Span.Within n ⟨ip + headerLen (m.drop ip), ip + packetLen (m.drop ip)⟩ :=
    fun _ => hend
  simp only [processTransportLayer, inside_bind, within_readByte, within_readShort, readByte_value,
    readShort_value, h1, h2, h9, true_and, ← headerLen_drop, ← packetLen_drop]
  unfold processProtocol TransportFits
  by_cases hudp : byte m (ip + 9) = 17
  · have hgre : byte m (ip + 9) ≠ 47 := by simp [hudp]
    have htcp : byte m (ip + 9) ≠ 6 := by simp [hudp]
    have hdest : ip + headerLen (m.drop ip) + 2 + 2 ≤ n := by omega
    rw [if_pos (toNat_eq_udp.2 hudp), inside_bind, within_readShort, readShort_value,
      and_iff_right hdest]
    by_cases htzsp : ntohs m (ip + headerLen (m.drop ip) + 2) = TZSP_PORT
    · rw [if_pos htzsp, inside_stripTzsp cfg m hend (by omega)]
      simp [hudp, htzsp]
    · rw [if_neg htzsp, inside_detect (by omega)]
      simp [hudp, htzsp, hspan]
  · rw [if_neg (mt toNat_eq_udp.1 hudp)]
    by_cases hgre : byte m (ip + 9) = 47
    · rw [if_pos (toNat_eq_gre.2 hgre), inside_stripGre cfg m (by omega) h1]
      simp [hgre]
    · rw [if_neg (mt toNat_eq_gre.1 hgre), inside_detect (by omega), toNat_eq_udp, toNat_eq_tcp,
        tcpFits_iff cfg m (by omega)]
      simp [hudp, hgre, hspan]

/-! ## HandlePacket -/

theorem within_locateHeaders (m : List UInt8) :
    (locateHeaders m).Within n ↔ 14 ≤ n ∧ (UnknownType m → 16 ≤ n) := by
  have hcooked : (locateCooked m).Within n ↔ 16 ≤ n := by
    simp only [locateCooked, Reading.within_bind, within_readShort, Reading.within_pure, and_true]
    exact Iff.rfl
  unfold locateHeaders UnknownType
  simp only [Reading.within_bind, within_readShort, readShort_value, Reading.within_ite,
    Reading.within_pure, hcooked, List.forall_mem_cons, not_or]
  refine and_congr Iff.rfl ?_
  constructor
  · rintro h ⟨h1, h2, h3, h4, h5, -⟩
    exact (((h.2 h1).2 h2).2 ⟨h3, h4⟩).2 h5
  · intro h
    refine ⟨fun _ => trivial, fun h1 => ⟨fun _ => trivial, fun h2 => ⟨fun _ => trivial, fun h34 =>
      ⟨fun _ => trivial, fun h5 => h ⟨h1, h2, h34.1, h34.2, h5, by simp⟩⟩⟩⟩⟩

theorem within_isPacketWanted (cfg : WalkConfig) (m : List UInt8) (hip : ip + 20 ≤ n) :
    (isPacketWanted cfg m ip).Within n := by
  unfold isPacketWanted
  rw [Reading.within_ite, Reading.within_look (by decide)]
  exact ⟨fun _ => Reading.within_pure n _, fun _ => hip⟩

theorem isPacketWanted_value (cfg : WalkConfig) (m : List UInt8) (ip : Nat) :
    (isPacketWanted cfg m ip).value = cfg.isPacketWanted (m.drop ip) := by
  unfold isPacketWanted
  split
  · rename_i h
    simp only [Bool.and_eq_true, List.isEmpty_iff] at h
    simp [CaptureConfig.isPacketWanted, h.1, h.2]
  · rfl

theorem goesToReassembly_spec (cfg : WalkConfig) (m : List UInt8) (hip : ip + 8 ≤ n) :
    (goesToReassembly cfg m ip).Within n ∧ (goesToReassembly cfg m ip).value =
      (cfg.ipFragmentsReassemble && isFragmented (m.drop ip)) := by
  unfold goesToReassembly
  split
  · rename_i h
    exact ⟨(Reading.within_look (by decide)).2 hip, by rw [h]; rfl⟩
  · rename_i h
    simp [h]

theorem within_isProcessed (cfg : WalkConfig) (p : Captured) (ip : Nat) :
    (isProcessed cfg p ip).Within p.caplen ↔ ip + 4 ≤ p.caplen := by
  unfold isProcessed
  simp only [Reading.within_bind, within_readByte, within_readShort, readByte_value,
    readShort_value]
  constructor
  · rintro ⟨-, h, -⟩
    exact h
  · intro h
    refine ⟨by omega, h, ?_⟩
    split
    · exact Reading.within_pure _ _
    · rename_i hsnipped
      simp only [TCP_HEADER_LENGTH] at hsnipped
      have hip : ip + 20 ≤ p.caplen := by omega
      rw [Reading.within_bind, and_iff_right (within_isPacketWanted cfg p.pktData hip)]
      split
      · exact Reading.within_pure _ _
      · exact Reading.within_bind.2 ⟨(goesToReassembly_spec cfg p.pktData (by omega)).1,
          Reading.within_pure _ _⟩

theorem isProcessed_value (cfg : WalkConfig) (p : Captured) (ip : Nat) :
    (isProcessed cfg p ip).value = true ↔ Processed cfg p ip := by
  unfold isProcessed Processed snippedOrShort
  rw [headerLen_drop, packetLen_drop]
  simp only [Reading.bind_value, readByte_value, readShort_value]
  by_cases hsnipped : p.caplen < ip + ntohs p.pktData (ip + 2) ∨
      ntohs p.pktData (ip + 2) ≤ (byte p.pktData ip).toNat % 16 * 4 + TCP_HEADER_LENGTH
  · rw [if_pos hsnipped]
    rcases hsnipped with h | h <;> simp [h]
  · rw [if_neg hsnipped]
    simp only [not_or] at hsnipped
    have hreassembly := (goesToReassembly_spec cfg p.pktData (le_refl (ip + 8))).2
    cases hw : cfg.isPacketWanted (p.pktData.drop ip) with
    | false => simp [isPacketWanted_value, hw]
    | true =>
      cases hr : cfg.ipFragmentsReassemble <;>
        simp [isPacketWanted_value, hw, hreassembly, hr, hsnipped.1, hsnipped.2]

theorem inside_processIpPacket (cfg : WalkConfig) (p : Captured) (ethernet ip : Nat) :
    Inside p.caplen (processIpPacket kept cfg p ethernet ip) ↔
      ip + 4 ≤ p.caplen ∧ (Processed cfg p ip → TransportFits p.caplen cfg p.pktData ip) := by
  rw [processIpPacket, inside_bind, within_isProcessed]
  refine and_congr_right fun _ => ?_
  by_cases hp : Processed cfg p ip
  · rw [(isProcessed_value cfg p ip).2 hp, if_pos rfl]
    have hsnipped := hp.1
    simp only [snippedOrShort, Bool.or_eq_false_iff, decide_eq_false_iff_not, Nat.not_lt,
      Nat.not_le] at hsnipped
    rw [inside_processTransportLayer cfg p.pktData ethernet hsnipped.1 hsnipped.2]
    exact ⟨fun h _ => h, fun h => h hp⟩
  · rw [if_neg (mt (isProcessed_value cfg p ip).1 hp)]
    exact ⟨fun _ h => absurd h hp, fun _ => inside_empty⟩

/-- **The header walk stays inside the capture** exactly when what is captured reaches far enough:
14 bytes (16 if the type is unknown), the version bytes that are tried, four bytes of the IP header, and
in a tunnel the inner packet as far as it is read and passed on. -/
theorem inside_iff_fits (cfg : WalkConfig) (p : Captured) :
    Inside p.caplen (handlePacket kept cfg p) ↔ Fits cfg p := by
  unfold handlePacket Fits
  cases htest : cfg.pcapTest with
  | true => simp [inside_empty]
  | false =>
    simp only [Bool.false_eq_true, if_false, forall_const]
    rw [inside_bind, within_locateHeaders, locateHeaders_value, and_assoc]
    refine and_congr_right fun _ => and_congr_right fun _ => ?_
    cases hl : Capture.locateHeaders p.pktData with
    | none => simp [inside_empty]
    | some headers =>
      obtain ⟨ethernet, ip⟩ := headers
      simp only [inside_withIpHeader, inside_processIpPacket, Option.some.injEq, Prod.mk.injEq]
      constructor
      · rintro h _ _ ⟨rfl, rfl⟩
        exact h
      · intro h
        exact h ethernet ip ⟨rfl, rfl⟩

/-- A frame of 55 bytes with a GRE tunnel, captured whole: the inner Ethernet header does not fit. -/
def shortTunnel : Captured where
  now := 0
  updated := 0
  caplen := 55
  pktData := List.replicate 12 0 ++ [8, 0] ++
    [0x45, 0, 0, 41, 0, 0, 0, 0, 64, 47, 0, 0, 10, 0, 0, 1, 10, 0, 0, 2] ++
    [0x10, 0, 0x88, 0xbe, 0, 0, 0, 1] ++ List.replicate 13 0

theorem not_inside_shortTunnel : ¬ Inside shortTunnel.caplen (handlePacket kept {} shortTunnel) := by
  rintro ⟨h, -⟩
  exact absurd h (by decide)

end Walk

end Oreka.Capture
