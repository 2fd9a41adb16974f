import Oreka.Capture.Proof.WalkBounds

/-!
# Frames inside a tunnel

`Carries` says what it is to carry an Ethernet frame inside GRE or TZSP, without the walk. The
detector is called with the pointers and lengths of the inner packet exactly when, in a GRE tunnel, the
two IP headers are equally long and the frame has no VN-Tag: the GRE branch takes the length of the
outer header, and only the TZSP branch knows a VN-Tag.
-/

namespace Oreka.Capture

open Oreka.Net IpHeader

namespace Walk

variable {cfg : WalkConfig} {m : List UInt8} {ip e k : Nat}

/-- A list of TZSP tags, from its first tag to behind its END tag. -/
inductive Tags (m : List UInt8) (packetEnd : Nat) : Nat → Nat → Prop
  | last {p : Nat} (htype : (byte m p).toNat = TZSP_TAG_END) (hend : p < packetEnd) :
      Tags m packetEnd p (p + 1)
  | padding {p e : Nat} (htype : (byte m p).toNat = TZSP_TAG_PADDING) (hend : p < packetEnd)
      (rest : Tags m packetEnd (p + 1) e) : Tags m packetEnd p e
  | tag {p e : Nat} (hend : (byte m p).toNat ≠ TZSP_TAG_END)
      (hpadding : (byte m p).toNat ≠ TZSP_TAG_PADDING)
      (hfits : p + tzspTagSize + (byte m (p + 1)).toNat ≤ packetEnd)
      (rest : Tags m packetEnd (p + tzspTagSize + (byte m (p + 1)).toNat) e) : Tags m packetEnd p e

/-- The IP packet at `ip` carries an Ethernet frame, which starts at `e`. -/
inductive Carries (m : List UInt8) (ip : Nat) : Nat → Prop
  | erspan (hprot : byte m (ip + 9) = 47)
      (hflags : ntohs m (ip + headerLen (m.drop ip)) = 0x1000)
      (htype : ntohs m (ip + headerLen (m.drop ip) + 2) = PROT_ERSPAN) :
      Carries m ip (ip + headerLen (m.drop ip) + greHeaderSize + erspanHeaderSize)
  | bridging (hprot : byte m (ip + 9) = 47)
      (hflags : ntohs m (ip + headerLen (m.drop ip)) = 0x2000)
      (htype : ntohs m (ip + headerLen (m.drop ip) + 2) = PROT_TRP) :
      Carries m ip (ip + headerLen (m.drop ip) + greHeaderSize)
  | tzsp {e : Nat} (hprot : byte m (ip + 9) = 17)
      (hdest : ntohs m (ip + headerLen (m.drop ip) + 2) = TZSP_PORT)
      (hlen : tzspHeaderSize ≤ ntohs m (ip + headerLen (m.drop ip) + 4))
      (hversion : (byte m (ip + headerLen (m.drop ip) + udpHeaderSize)).toNat = TZSP_PROTOCOL_VERSION)
      (htype : (byte m (ip + headerLen (m.drop ip) + udpHeaderSize + 1)).toNat =
          TZSP_TYPE_RECEIVED_TAG_LIST ∨
        (byte m (ip + headerLen (m.drop ip) + udpHeaderSize + 1)).toNat = TZSP_TYPE_PACKET_FOR_TRANSMIT)
      (hencap : ntohs m (ip + headerLen (m.drop ip) + udpHeaderSize + 2) = TZSP_ENCAP_ETHERNET)
      (htags : Tags m (ip + packetLen (m.drop ip))
        (ip + headerLen (m.drop ip) + udpHeaderSize + tzspHeaderSize) e) : Carries m ip e

/-- The detector of the packet whose IP header is at `ip`, with what its own header says. -/
def ownDetection (m : List UInt8) (ethernet ip : Nat) : Detection where
  detector := if byte m (ip + 9) = 17 then .detectUsefulUdpPacket else .detectUsefulTcpPacket
  ethernetHeader := ethernet
  ipHeader := ip
  ipHeaderLength := headerLen (m.drop ip)
  ipPacketEnd := ip + packetLen (m.drop ip)

/-- A UDP packet to the port of TZSP, which is unwrapped itself. -/
def IsTzsp (m : List UInt8) (ip : Nat) : Prop :=
  byte m (ip + 9) = 17 ∧ ntohs m (ip + headerLen (m.drop ip) + 2) = TZSP_PORT

/-! ## The unwrappers -/

theorem skipTags_of_tags {packetEnd p : Nat} (h : Tags m packetEnd p e) :
    ∀ rounds, packetEnd - p ≤ rounds → (skipTags m packetEnd rounds p).value = some e := by
  induction h with
  | last htype hend =>
    rintro (_ | rounds) hrounds
    · omega
    · simp [skipTags, hend, htype]
  | padding htype hend _ ih =>
    rintro (_ | rounds) hrounds
    · omega
    · have hne : TZSP_TAG_PADDING ≠ TZSP_TAG_END := by decide
      simp only [skipTags, if_pos hend, Reading.bind_value, readByte_value, htype, if_neg hne, if_pos]
      exact ih rounds (by omega)
  | @tag p e hend hpadding hfits _ ih =>
    have hfits' := hfits
    simp only [tzspTagSize] at hfits'
    rintro (_ | rounds) hrounds
    · omega
    · have hlt : p < packetEnd := by omega
      have hsize : ¬ p + tzspTagSize > packetEnd := by simp only [tzspTagSize]; omega
      have hlength : ¬ p + tzspTagSize + (byte m (p + 1)).toNat > packetEnd := by omega
      simp only [skipTags, if_pos hlt, Reading.bind_value, readByte_value, if_neg hend,
        if_neg hpadding, if_neg hsize, if_neg hlength]
      exact ih rounds (by simp only [tzspTagSize]; omega)

theorem tzspPayload_value {udp packetEnd : Nat} (hlen : tzspHeaderSize ≤ ntohs m (udp + 4))
    (hversion : (byte m (udp + udpHeaderSize)).toNat = TZSP_PROTOCOL_VERSION)
    (htype : (byte m (udp + udpHeaderSize + 1)).toNat = TZSP_TYPE_RECEIVED_TAG_LIST ∨
      (byte m (udp + udpHeaderSize + 1)).toNat = TZSP_TYPE_PACKET_FOR_TRANSMIT)
    (hencap : ntohs m (udp + udpHeaderSize + 2) = TZSP_ENCAP_ETHERNET)
    (htags : Tags m packetEnd (udp + udpHeaderSize + tzspHeaderSize) e) :
    (tzspPayload m udp packetEnd).value = some e := by
  have hlen' : ¬ ntohs m (udp + 4) < tzspHeaderSize := Nat.not_lt.2 hlen
  have htype' : ¬ ((byte m (udp + udpHeaderSize + 1)).toNat ≠ TZSP_TYPE_RECEIVED_TAG_LIST ∧
      (byte m (udp + udpHeaderSize + 1)).toNat ≠ TZSP_TYPE_PACKET_FOR_TRANSMIT) :=
    fun h => htype.elim h.1 h.2
  simp only [tzspPayload, Reading.bind_value, readShort_value, readByte_value, if_neg hlen',
    if_neg (not_not.2 hversion), if_neg htype', if_neg (not_not.2 hencap)]
  exact skipTags_of_tags htags _ le_rfl

theorem grePayload_erspan {gre : Nat} (hflags : ntohs m gre = 0x1000)
    (htype : ntohs m (gre + 2) = PROT_ERSPAN) :
    (grePayload m gre).value = some (gre + greHeaderSize + erspanHeaderSize) := by
  simp [grePayload, hflags, htype]

theorem grePayload_bridging {gre : Nat} (hflags : ntohs m gre = 0x2000)
    (htype : ntohs m (gre + 2) = PROT_TRP) :
    (grePayload m gre).value = some (gre + greHeaderSize) := by
  simp [grePayload, hflags, htype]

/-! ## The calls of a detector -/

theorem detect_detection {protocol ethernet hl stop : Nat} (h : protocol = 17 ∨ protocol = 6) :
    (detect cfg m protocol ethernet ip hl stop).value.detection =
      some ⟨if protocol = 17 then .detectUsefulUdpPacket else .detectUsefulTcpPacket,
        ethernet, ip, hl, stop⟩ := by
  rcases h with rfl | rfl
  · rfl
  · rfl

theorem detect_header {protocol ethernet hl stop : Nat} {d : Detection}
    (h : (detect cfg m protocol ethernet ip hl stop).value.detection = some d) :
    d.ipHeader = ip ∧ d.ipHeaderLength = hl := by
  unfold detect at h
  split at h
  · cases h
    exact ⟨rfl, rfl⟩
  · split at h
    · cases h
      exact ⟨rfl, rfl⟩
    · cases h

/-- The bytes that `ip_p` may have in a packet that a detector gets. -/
def HasDetector (m : List UInt8) (ip : Nat) : Prop := byte m (ip + 9) = 17 ∨ byte m (ip + 9) = 6

theorem HasDetector.protocol (h : HasDetector m ip) :
    (byte m (ip + 9)).toNat = 17 ∨ (byte m (ip + 9)).toNat = 6 :=
  h.imp toNat_eq_udp.2 toNat_eq_tcp.2

theorem kept_of_version (hv : ipV (m.drop ip) = 4) : (kept m ip).value = some ip := by
  rw [kept_value, if_pos]
  simp [Capture.tryIpPacketV4, hv]

theorem detectInTzsp_detection (cfg : WalkConfig) (hv : ipV (m.drop ip) = 4)
    (h : HasDetector m ip) :
    (detectInTzsp kept cfg m e ip).value.detection = some (ownDetection m e ip) := by
  simp only [detectInTzsp, withIpHeader, Reading.bind_value, kept_of_version hv, readByte_value,
    readShort_value, detect_detection h.protocol, ownDetection, headerLen_drop, packetLen_drop,
    toNat_eq_udp]

theorem detectInGre_detection (cfg : WalkConfig) (outer : Nat) (hv : ipV (m.drop ip) = 4)
    (h : HasDetector m ip) :
    (detectInGre kept cfg m outer e ip).value.detection =
      some { ownDetection m e ip with ipHeaderLength := headerLen (m.drop outer) } := by
  simp only [detectInGre, withIpHeader, Reading.bind_value, kept_of_version hv, readByte_value,
    readShort_value, detect_detection h.protocol, ownDetection, headerLen_drop, packetLen_drop,
    toNat_eq_udp]

theorem detectInGre_header {outer : Nat} {d : Detection}
    (h : (detectInGre kept cfg m outer e ip).value.detection = some d) : d.ipHeader = ip := by
  simp only [detectInGre, withIpHeader, Reading.bind_value, kept_value] at h
  split at h
  · cases h
  · rename_i found hfound
    split at hfound
    · cases hfound
      exact (detect_header h).1
    · cases hfound

/-- A packet that is no TZSP itself goes to its detector. -/
theorem direct_detection (cfg : WalkConfig) (h : HasDetector m ip) (hno : ¬ IsTzsp m ip) :
    (processTransportLayer kept cfg m e ip).value.detection = some (ownDetection m e ip) := by
  have hprot := h.protocol
  simp only [processTransportLayer, Reading.bind_value, readByte_value, readShort_value,
    ← headerLen_drop, ← packetLen_drop]
  unfold processProtocol
  by_cases hudp : byte m (ip + 9) = 17
  · have hdest : ntohs m (ip + headerLen (m.drop ip) + 2) ≠ TZSP_PORT := fun h => hno ⟨hudp, h⟩
    rw [if_pos (toNat_eq_udp.2 hudp), Reading.bind_value, readShort_value, if_neg hdest,
      detect_detection hprot]
    simp [ownDetection, toNat_eq_udp]
  · have htcp : (byte m (ip + 9)).toNat = 6 := toNat_eq_tcp.2 (h.resolve_left hudp)
    rw [if_neg (mt toNat_eq_udp.1 hudp), if_neg (by omega), detect_detection hprot]
    simp [ownDetection, toNat_eq_udp]

/-! ## The outer packet -/

theorem processTransportLayer_gre (cfg : WalkConfig) (ethernet : Nat)
    (hprot : byte m (ip + 9) = 47) (he : (grePayload m (ip + headerLen (m.drop ip))).value = some e) :
    (processTransportLayer kept cfg m ethernet ip).value =
      (detectInGre kept cfg m ip e (greIpHeader (ntohs m (e + ethernetType)) e)).value := by
  simp only [processTransportLayer, Reading.bind_value, readByte_value, readShort_value,
    ← headerLen_drop, ← packetLen_drop, processProtocol, hprot, stripGre]
  rw [if_neg (by decide), if_pos (by decide), Reading.bind_value, he]
  rfl

theorem processTransportLayer_tzsp (cfg : WalkConfig) (ethernet : Nat) {inner : Nat}
    (hprot : byte m (ip + 9) = 17) (hdest : ntohs m (ip + headerLen (m.drop ip) + 2) = TZSP_PORT)
    (he : (tzspPayload m (ip + headerLen (m.drop ip)) (ip + packetLen (m.drop ip))).value = some e)
    (hinner : tzspIpHeader (ntohs m (e + ethernetType)) e = some inner) :
    (processTransportLayer kept cfg m ethernet ip).value =
      (detectInTzsp kept cfg m e inner).value := by
  simp only [processTransportLayer, Reading.bind_value, readByte_value, readShort_value,
    ← headerLen_drop, ← packetLen_drop, processProtocol, hprot, stripTzspEncapsulation]
  rw [if_pos (by decide), Reading.bind_value, readShort_value, if_pos hdest, Reading.bind_value, he]
  simp only [Reading.bind_value, readShort_value, hinner]

/-- The types of an Ethernet frame, with where its IP header is. -/
theorem ethernet_cases (h : Capture.locateHeaders (m.drop e) = some (0, k)) :
    ntohs m (e + ethernetType) = ETHER_TYPE_IEEE8021Q ∧ k = ethernetHeaderSize + 4 ∨
      ntohs m (e + ethernetType) = ETHER_TYPE_VNTAG ∧ k = ethernetHeaderSize + 10 ∨
      (ntohs m (e + ethernetType) = ETHER_TYPE_IPV4 ∨
        ntohs m (e + ethernetType) = ETHER_TYPE_ARP) ∧ k = ethernetHeaderSize := by
  have htype : ntohs (m.drop e) ethernetType = ntohs m (e + ethernetType) := by
    simp [ntohs, byte_drop, Nat.add_assoc]
  unfold Capture.locateHeaders at h
  rw [htype] at h
  dsimp only at h
  split at h
  · rename_i hq
    cases h
    exact .inl ⟨hq, rfl⟩
  split at h
  · rename_i hvntag
    cases h
    exact .inr (.inl ⟨hvntag, rfl⟩)
  split at h
  · rename_i hip
    cases h
    exact .inr (.inr ⟨hip, rfl⟩)
  -- a cooked capture is no Ethernet frame: its header is not at the front
  repeat' split at h
  all_goals cases h

theorem tzspIpHeader_of_ethernet (h : Capture.locateHeaders (m.drop e) = some (0, k)) :
    tzspIpHeader (ntohs m (e + ethernetType)) e = some (e + k) := by
  obtain ⟨htype, rfl⟩ | ⟨htype, rfl⟩ | ⟨htype | htype, rfl⟩ := ethernet_cases h <;>
    simp [tzspIpHeader, htype, Nat.add_assoc]

/-- The GRE branch does not know a VN-Tag. -/
theorem greIpHeader_of_ethernet (h : Capture.locateHeaders (m.drop e) = some (0, k)) :
    greIpHeader (ntohs m (e + ethernetType)) e = e + k ↔
      ntohs m (e + ethernetType) ≠ ETHER_TYPE_VNTAG := by
  obtain ⟨htype, rfl⟩ | ⟨htype, rfl⟩ | ⟨htype | htype, rfl⟩ := ethernet_cases h <;>
    simp [greIpHeader, htype, Nat.add_assoc]

theorem gre_transparent_iff (cfg : WalkConfig) (ethernet : Nat) (hprot : byte m (ip + 9) = 47)
    (he : (grePayload m (ip + headerLen (m.drop ip))).value = some e)
    (hk : Capture.locateHeaders (m.drop e) = some (0, k)) (hv : ipV (m.drop (e + k)) = 4)
    (hdet : HasDetector m (e + k)) :
    (processTransportLayer kept cfg m ethernet ip).value.detection =
        some (ownDetection m e (e + k)) ↔
      headerLen (m.drop ip) = headerLen (m.drop (e + k)) ∧
        ntohs m (e + ethernetType) ≠ ETHER_TYPE_VNTAG := by
  rw [processTransportLayer_gre cfg ethernet hprot he]
  by_cases hvntag : ntohs m (e + ethernetType) = ETHER_TYPE_VNTAG
  · have hne := mt (greIpHeader_of_ethernet hk).1 (not_not.2 hvntag)
    constructor
    · intro h
      exact absurd (detectInGre_header h).symm hne
    · intro h
      exact absurd hvntag h.2
  · rw [(greIpHeader_of_ethernet hk).2 hvntag, detectInGre_detection cfg ip hv hdet]
    simp [ownDetection, hvntag]

/-- **Encapsulation is transparent** exactly when, in a GRE tunnel, both IP headers are equally long
and the inner frame has no VN-Tag. A packet handled directly has the same detector, with the same
header, header length and end, if it is no TZSP itself. -/
theorem transparent_iff (cfg : WalkConfig) (m : List UInt8) (ethernet ip e k : Nat)
    (hcarries : Carries m ip e) (hk : Capture.locateHeaders (m.drop e) = some (0, k))
    (hv : ipV (m.drop (e + k)) = 4) (hdet : HasDetector m (e + k)) :
    ((processTransportLayer kept cfg m ethernet ip).value.detection =
        some (ownDetection m e (e + k)) ↔
      (byte m (ip + 9) = 47 → headerLen (m.drop ip) = headerLen (m.drop (e + k)) ∧
        ntohs m (e + ethernetType) ≠ ETHER_TYPE_VNTAG)) ∧
    (¬ IsTzsp m (e + k) → (processTransportLayer kept cfg m e (e + k)).value.detection =
      some (ownDetection m e (e + k))) := by
  refine ⟨?_, direct_detection cfg hdet⟩
  cases hcarries with
  | erspan hprot hflags htype =>
    rw [gre_transparent_iff cfg ethernet hprot (grePayload_erspan hflags htype) hk hv hdet]
    simp [hprot]
  | bridging hprot hflags htype =>
    rw [gre_transparent_iff cfg ethernet hprot (grePayload_bridging hflags htype) hk hv hdet]
    simp [hprot]
  | tzsp hprot hdest hlen hversion htype hencap htags =>
    have he := tzspPayload_value hlen hversion htype hencap htags
    rw [processTransportLayer_tzsp cfg ethernet hprot hdest he (tzspIpHeader_of_ethernet hk),
      detectInTzsp_detection cfg hv hdet]
    simp [hprot]

/-- A GRE tunnel whose outer header has `ip_hl` words, with a UDP packet inside. -/
def greFrame (ipHl : UInt8) : List UInt8 :=
  [0x40 + ipHl, 0, 0, 100, 0, 0, 0, 0, 64, 47, 0, 0, 10, 0, 0, 1, 10, 0, 0, 2] ++
    List.replicate (4 * (ipHl.toNat - 5)) 1 ++ [0x10, 0, 0x88, 0xbe, 0, 0, 0, 1] ++
    List.replicate 8 0 ++ List.replicate 12 2 ++ [8, 0] ++
    [0x45, 0, 0, 48, 0, 0, 0, 0, 64, 17, 0, 0, 10, 0, 0, 3, 10, 0, 0, 4] ++
    [0x13, 0x88, 0x13, 0x8a, 0, 28, 0, 0] ++ List.replicate 20 0

theorem transparent_greFrame :
    (processTransportLayer kept {} (greFrame 5) 0 0).value.detection =
      some (ownDetection (greFrame 5) 36 50) :=
  ((transparent_iff {} (greFrame 5) 0 0 36 14 (.erspan (by decide) (by decide)
    (by decide)) (by decide) (by decide) (.inl (by decide))).1).2
    (by decide)

/-- Behind an outer header of six words, the inner header of five is taken for one of six. -/
theorem not_transparent_greFrame :
    (processTransportLayer kept {} (greFrame 6) 0 0).value.detection =
        some ⟨.detectUsefulUdpPacket, 40, 54, 24, 102⟩ ∧
      (processTransportLayer kept {} (greFrame 6) 40 54).value.detection =
        some ⟨.detectUsefulUdpPacket, 40, 54, 20, 102⟩ := by
  decide

end Walk

end Oreka.Capture
