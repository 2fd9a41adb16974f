import Oreka.Capture.Proof.WalkBounds

/-!
# The IP header that was found

`TryIpPacketV4` looks for a version-4 header further on and moves its own pointer, but its callers go
on with theirs. The walk is the one over the header that was found exactly when that header is where
the caller's pointer is, in `HandlePacket` and in both tunnels.
-/

namespace Oreka.Capture

open Oreka.Net IpHeader

namespace Walk

variable {cfg : WalkConfig} {m : List UInt8} {ip : Nat}

/-- A header that is found is found at once. -/
def InPlace (m : List UInt8) (ip : Nat) : Prop :=
  Capture.tryIpPacketV4 (m.drop ip) = true → ipV (m.drop ip) = 4

/-- The header of the packet in a tunnel. -/
def TunnelInPlace (m : List UInt8) (ip : Nat) : Prop :=
  let hl := headerLen (m.drop ip)
  (byte m (ip + 9) = 17 → ntohs m (ip + hl + 2) = TZSP_PORT →
    ∀ e inner, (tzspPayload m (ip + hl) (ip + packetLen (m.drop ip))).value = some e →
      tzspIpHeader (ntohs m (e + ethernetType)) e = some inner → InPlace m inner) ∧
  (byte m (ip + 9) = 47 → ∀ e, (grePayload m (ip + hl)).value = some e →
    InPlace m (greIpHeader (ntohs m (e + ethernetType)) e))

theorem findVersion_value_le : ∀ (steps : List Nat) {ip found : Nat},
    (findVersion m ip steps).value = some found → ip ≤ found ∧ ipV (m.drop found) = 4
  | [], ip, found, h => by
    simp only [findVersion, Reading.bind_value, readByte_value, Reading.pure_value] at h
    split at h
    · rename_i hv
      cases h
      exact ⟨le_rfl, by simpa [ipV, byte_drop] using hv⟩
    · cases h
  | step :: steps, ip, found, h => by
    simp only [findVersion, Reading.bind_value, readByte_value] at h
    split at h
    · rename_i hv
      cases h
      exact ⟨le_rfl, by simpa [ipV, byte_drop] using hv⟩
    · obtain ⟨hle, hv⟩ := findVersion_value_le steps h
      exact ⟨by omega, hv⟩

/-- Where the version is 4, the search ends. -/
theorem findVersion_of_version (hv : ipV (m.drop ip) = 4) (steps : List Nat) :
    (findVersion m ip steps).value = some ip := by
  have hv' : (byte m ip).toNat / 16 = 4 := by simpa [ipV, byte_drop] using hv
  cases steps with
  | nil => simp [findVersion, hv']
  | cons step steps => simp [findVersion, hv']

theorem kept_spans (m : List UInt8) (ip : Nat) : (kept m ip).spans = (findIpPacketV4 m ip).spans := by
  simp [kept, tryIpPacketV4]

theorem withIpHeader_none {align : Align} {next : Nat → Reading Outcome}
    (h : (align m ip).value = none) : withIpHeader align m ip next = ⟨{}, (align m ip).spans⟩ := by
  apply Reading.ext
  · simp [withIpHeader, h]
  · simp [withIpHeader, h]

theorem withIpHeader_some {align : Align} {next : Nat → Reading Outcome} {found : Nat}
    (h : (align m ip).value = some found) :
    withIpHeader align m ip next =
      ⟨(next found).value, (align m ip).spans ++ (next found).spans⟩ := by
  apply Reading.ext
  · simp [withIpHeader, h]
  · simp [withIpHeader, h]

/-- Continuations that tell the headers apart agree when the header that was found is in place. -/
theorem withIpHeader_eq_iff (m : List UInt8) (ip : Nat) {next next' : Nat → Reading Outcome}
    (hnext : ∀ a b, next a = next' b → a = b) :
    withIpHeader kept m ip next = withIpHeader findIpPacketV4 m ip next' ↔
      InPlace m ip ∧ (Capture.tryIpPacketV4 (m.drop ip) = true → next ip = next' ip) := by
  have hsome := findIpPacketV4_isSome m ip
  have hkept := kept_value m ip
  cases hf : (findIpPacketV4 m ip).value with
  | none =>
    rw [hf] at hsome
    have htry : Capture.tryIpPacketV4 (m.drop ip) = false := hsome.symm
    rw [htry] at hkept
    rw [withIpHeader_none hkept, withIpHeader_none hf, kept_spans]
    simp [InPlace, htry]
  | some found =>
    rw [hf] at hsome
    have htry : Capture.tryIpPacketV4 (m.drop ip) = true := hsome.symm
    rw [htry, if_pos rfl] at hkept
    have heq : withIpHeader kept m ip next = withIpHeader findIpPacketV4 m ip next' ↔
        next ip = next' found := by
      rw [withIpHeader_some hkept, withIpHeader_some hf, kept_spans, Reading.mk.injEq,
        List.append_cancel_left_eq, Reading.ext_iff]
    rw [heq]
    constructor
    · intro h
      obtain rfl := hnext _ _ h
      exact ⟨fun _ => (findVersion_value_le _ hf).2, fun _ => h⟩
    · rintro ⟨hin, h⟩
      have hfound := findVersion_of_version (hin htry) [2, 2, 2, 12]
      have : some found = some ip := hf.symm.trans hfound
      cases this
      exact h htry

/-! ## The first byte that is read -/

theorem first_span_inj {x y : Reading Outcome} {a b : Nat} {xs ys : List Span}
    (hx : x.spans = ⟨a, a + 1⟩ :: xs) (hy : y.spans = ⟨b, b + 1⟩ :: ys) (h : x = y) : a = b := by
  rw [h, hy] at hx
  have hspan := (List.cons.inj hx).1
  exact (Span.mk.inj hspan).1.symm

theorem processIpPacket_spans (align : Align) (cfg : WalkConfig) (p : Captured) (ethernet ip : Nat) :
    ∃ rest, (processIpPacket align cfg p ethernet ip).spans = ⟨ip, ip + 1⟩ :: rest := by
  simp [processIpPacket, isProcessed, readByte]

/-! ## Tunnels -/

theorem detectInTzsp_eq_iff (cfg : WalkConfig) (m : List UInt8) (ethernet ip : Nat) :
    detectInTzsp kept cfg m ethernet ip = detectInTzsp findIpPacketV4 cfg m ethernet ip ↔
      InPlace m ip := by
  unfold detectInTzsp
  rw [withIpHeader_eq_iff]
  · simp
  · intro a b h
    exact first_span_inj rfl rfl h

theorem detectInGre_eq_iff (cfg : WalkConfig) (m : List UInt8) (outer ethernet ip : Nat) :
    detectInGre kept cfg m outer ethernet ip = detectInGre findIpPacketV4 cfg m outer ethernet ip ↔
      InPlace m ip := by
  unfold detectInGre
  rw [withIpHeader_eq_iff]
  · simp
  · intro a b h
    -- the outer header is read first, then `ip_len` of the inner one
    have hspans := congrArg Reading.spans h
    simp only [Reading.bind_spans, readByte, readShort, Reading.look_spans, List.cons_append,
      List.nil_append, List.cons.injEq, Span.mk.injEq] at hspans
    omega

theorem stripTzsp_eq_iff (cfg : WalkConfig) (m : List UInt8) (udp packetEnd : Nat) :
    stripTzspEncapsulation kept cfg m udp packetEnd =
        stripTzspEncapsulation findIpPacketV4 cfg m udp packetEnd ↔
      ∀ e inner, (tzspPayload m udp packetEnd).value = some e →
        tzspIpHeader (ntohs m (e + ethernetType)) e = some inner → InPlace m inner := by
  unfold stripTzspEncapsulation
  rw [Reading.bind_left_cancel]
  cases (tzspPayload m udp packetEnd).value with
  | none => simp
  | some e =>
    rw [Reading.bind_left_cancel]
    simp only [readShort_value, Option.some.injEq]
    cases hi : tzspIpHeader (ntohs m (e + ethernetType)) e with
    | none =>
      constructor
      · rintro - e' inner rfl hinner
        rw [hi] at hinner
        cases hinner
      · intro _
        rfl
    | some inner =>
      rw [detectInTzsp_eq_iff]
      constructor
      · rintro h e' inner' rfl hinner
        rw [hi] at hinner
        cases hinner
        exact h
      · intro h
        exact h e inner rfl hi

theorem stripGre_eq_iff (cfg : WalkConfig) (m : List UInt8) (outer gre : Nat) :
    stripGre kept cfg m outer gre = stripGre findIpPacketV4 cfg m outer gre ↔
      ∀ e, (grePayload m gre).value = some e →
        InPlace m (greIpHeader (ntohs m (e + ethernetType)) e) := by
  unfold stripGre
  rw [Reading.bind_left_cancel]
  cases (grePayload m gre).value with
  | none => simp
  | some e =>
    rw [Reading.bind_left_cancel, readShort_value, detectInGre_eq_iff]
    simp

theorem processTransportLayer_eq_iff (cfg : WalkConfig) (m : List UInt8) (ethernet ip : Nat) :
    processTransportLayer kept cfg m ethernet ip =
      processTransportLayer findIpPacketV4 cfg m ethernet ip ↔ TunnelInPlace m ip := by
  unfold processTransportLayer
  rw [Reading.bind_left_cancel, Reading.bind_left_cancel, Reading.bind_left_cancel]
  simp only [readByte_value, readShort_value, ← headerLen_drop, ← packetLen_drop]
  unfold processProtocol TunnelInPlace
  by_cases hudp : byte m (ip + 9) = 17
  · have hgre : byte m (ip + 9) ≠ 47 := by simp [hudp]
    rw [if_pos (toNat_eq_udp.2 hudp), if_pos (toNat_eq_udp.2 hudp), Reading.bind_left_cancel,
      readShort_value]
    by_cases htzsp : ntohs m (ip + headerLen (m.drop ip) + 2) = TZSP_PORT
    · rw [if_pos htzsp, if_pos htzsp, stripTzsp_eq_iff]
      constructor
      · intro h
        exact ⟨fun _ _ => h, fun hprot => absurd hprot hgre⟩
      · intro h
        exact h.1 hudp htzsp
    · simp [htzsp, hgre]
  · rw [if_neg (mt toNat_eq_udp.1 hudp), if_neg (mt toNat_eq_udp.1 hudp)]
    by_cases hgre : byte m (ip + 9) = 47
    · rw [if_pos (toNat_eq_gre.2 hgre), if_pos (toNat_eq_gre.2 hgre), stripGre_eq_iff]
      simp [hgre]
    · rw [if_neg (mt toNat_eq_gre.1 hgre), if_neg (mt toNat_eq_gre.1 hgre)]
      simp [hudp, hgre]

/-! ## HandlePacket -/

theorem processIpPacket_eq_iff (cfg : WalkConfig) (p : Captured) (ethernet ip : Nat) :
    processIpPacket kept cfg p ethernet ip = processIpPacket findIpPacketV4 cfg p ethernet ip ↔
      (Processed cfg p ip → TunnelInPlace p.pktData ip) := by
  unfold processIpPacket
  rw [Reading.bind_left_cancel]
  by_cases hp : Processed cfg p ip
  · rw [(isProcessed_value cfg p ip).2 hp, if_pos rfl, if_pos rfl, processTransportLayer_eq_iff]
    exact ⟨fun h _ => h, fun h => h hp⟩
  · rw [if_neg (mt (isProcessed_value cfg p ip).1 hp), if_neg (mt (isProcessed_value cfg p ip).1 hp)]
    exact ⟨fun _ h => absurd h hp, fun _ => rfl⟩

/-- Every header that the walk over a frame looks for is where it is looked for first. -/
def FrameInPlace (cfg : WalkConfig) (p : Captured) : Prop :=
  cfg.pcapTest = false → ∀ e ip, Capture.locateHeaders p.pktData = some (e, ip) →
    InPlace p.pktData ip ∧ (Capture.tryIpPacketV4 (p.pktData.drop ip) = true →
      Processed cfg p ip → TunnelInPlace p.pktData ip)

theorem handlePacket_eq_iff (cfg : WalkConfig) (p : Captured) :
    handlePacket kept cfg p = handlePacket findIpPacketV4 cfg p ↔ FrameInPlace cfg p := by
  unfold handlePacket FrameInPlace
  cases cfg.pcapTest with
  | true => simp
  | false =>
    simp only [Bool.false_eq_true, if_false, forall_const]
    rw [Reading.bind_left_cancel, locateHeaders_value]
    cases hl : Capture.locateHeaders p.pktData with
    | none => simp
    | some headers =>
      obtain ⟨ethernet, ip⟩ := headers
      have hinj : ∀ a b, processIpPacket kept cfg p ethernet a =
          processIpPacket findIpPacketV4 cfg p ethernet b → a = b := by
        intro a b h
        obtain ⟨as, ha⟩ := processIpPacket_spans kept cfg p ethernet a
        obtain ⟨bs, hb⟩ := processIpPacket_spans findIpPacketV4 cfg p ethernet b
        exact first_span_inj ha hb h
      simp only [withIpHeader_eq_iff _ _ hinj, processIpPacket_eq_iff, Option.some.injEq,
        Prod.mk.injEq]
      constructor
      · rintro h _ _ ⟨rfl, rfl⟩
        exact h
      · intro h
        exact h ethernet ip ⟨rfl, rfl⟩

/-- **The header that was found is the one that is used**, in `HandlePacket` and in both tunnels,
exactly when it is found at once. -/
theorem realigned_iff (cfg : WalkConfig) :
    (∀ p, handlePacket kept cfg p = handlePacket findIpPacketV4 cfg p ↔ FrameInPlace cfg p) ∧
      ∀ m ethernet ip, processTransportLayer kept cfg m ethernet ip =
        processTransportLayer findIpPacketV4 cfg m ethernet ip ↔ TunnelInPlace m ip :=
  ⟨handlePacket_eq_iff cfg, processTransportLayer_eq_iff cfg⟩

/-- A frame of one MPLS label, whose IP header is found four bytes on. -/
def mplsFrame : Captured where
  now := 0
  updated := 0
  caplen := 90
  pktData := List.replicate 12 0 ++ [0x88, 0x47] ++ [0, 1, 1, 64] ++
    [0x45, 0, 0, 72, 0, 0, 0, 0, 64, 17, 0, 0, 10, 0, 0, 1, 10, 0, 0, 2] ++
    [0x13, 0x88, 0x13, 0x8a, 0, 52, 0, 0] ++ List.replicate 44 0

/-- The UDP packet behind the label is not handed on. -/
theorem not_realigned_mplsFrame :
    Capture.tryIpPacketV4 (mplsFrame.pktData.drop 16) = true ∧
      (handlePacket kept {} mplsFrame).value.detection = none ∧
      (handlePacket findIpPacketV4 {} mplsFrame).value.detection =
        some ⟨.detectUsefulUdpPacket, 2, 18, 20, 90⟩ := by
  decide

end Walk

end Oreka.Capture
