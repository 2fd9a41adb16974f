import Oreka.Capture.Proof.Encapsulation

/-!
# The tags of a TZSP packet

The walk over the tags ends, reads nothing behind the packet and stops behind the END tag of every list
that is complete (`skipTags_eq_some_iff`). What follows the tags is not measured: the headers of the
frame inside are read wherever the list ends (`tagWalk_iff`).
-/

namespace Oreka.Capture

open Oreka.Net IpHeader

namespace Walk

variable {m : List UInt8} {p e packetEnd : Nat}

/-! ## The loop -/

/-- More rounds make no difference: the loop has ended by then. -/
theorem skipTags_rounds : ∀ (rounds rounds' : Nat) {p : Nat}, packetEnd - p ≤ rounds → rounds ≤ rounds' →
    skipTags m packetEnd rounds' p = skipTags m packetEnd rounds p
  | 0, 0, _, _, _ => rfl
  | 0, rounds' + 1, p, h, _ => by
    have hend : ¬ p < packetEnd := by omega
    unfold skipTags
    rw [if_neg hend]
  | rounds + 1, 0, _, _, h' => absurd h' (Nat.not_succ_le_zero _)
  | rounds + 1, rounds' + 1, p, h, h' => by
    have ih : ∀ q, p < q → skipTags m packetEnd rounds' q = skipTags m packetEnd rounds q :=
      fun q hq => skipTags_rounds rounds rounds' (by omega) (by omega)
    have htag : ∀ l, skipTags m packetEnd rounds' (p + 2 + l) = skipTags m packetEnd rounds (p + 2 + l) :=
      fun l => ih _ (by omega)
    unfold skipTags
    simp only [tzspTagSize, ih (p + 1) (by omega), htag]

/-- A list of tags that is complete: the walk stops behind its END tag, and nowhere else. -/
theorem skipTags_eq_some_iff : (skipTags m packetEnd (packetEnd - p) p).value = some e ↔ Tags m packetEnd p e := by
  refine ⟨fun h => ?_, fun h => skipTags_of_tags h _ le_rfl⟩
  generalize packetEnd - p = rounds at h
  induction rounds generalizing p with
  | zero => cases h
  | succ rounds ih =>
    unfold skipTags at h
    split at h
    case isFalse => cases h
    case isTrue hlt =>
      simp only [Reading.bind_value, readByte_value] at h
      split at h
      case isTrue htype =>
        cases h
        exact .last htype hlt
      case isFalse hend =>
        split at h
        case isTrue htype => exact .padding htype hlt (ih h)
        case isFalse hpadding =>
          split at h
          case isTrue => cases h
          case isFalse =>
            simp only [Reading.bind_value, readByte_value] at h
            split at h
            case isTrue => cases h
            case isFalse hfits => exact .tag hend hpadding (not_lt.1 hfits) (ih h)

/-! ## The headers inside -/

/-- What the UDP payload at `udp` has to be for the tags to be walked over. -/
structure HasTzspHeader (m : List UInt8) (udp : Nat) : Prop where
  length : tzspHeaderSize ≤ ntohs m (udp + 4)
  version : (byte m (udp + udpHeaderSize)).toNat = TZSP_PROTOCOL_VERSION
  type : (byte m (udp + udpHeaderSize + 1)).toNat = TZSP_TYPE_RECEIVED_TAG_LIST ∨
    (byte m (udp + udpHeaderSize + 1)).toNat = TZSP_TYPE_PACKET_FOR_TRANSMIT
  encap : ntohs m (udp + udpHeaderSize + 2) = TZSP_ENCAP_ETHERNET

/-- Where the tags begin. -/
def tagList (udp : Nat) : Nat := udp + udpHeaderSize + tzspHeaderSize

theorem HasTzspHeader.tzspPayload_eq {udp : Nat} (h : HasTzspHeader m udp) (packetEnd : Nat) :
    (tzspPayload m udp packetEnd).value = (skipTags m packetEnd (packetEnd - tagList udp) (tagList udp)).value := by
  have htype : ¬ ((byte m (udp + udpHeaderSize + 1)).toNat ≠ TZSP_TYPE_RECEIVED_TAG_LIST ∧
      (byte m (udp + udpHeaderSize + 1)).toNat ≠ TZSP_TYPE_PACKET_FOR_TRANSMIT) :=
    fun hne => h.type.elim hne.1 hne.2
  unfold tzspPayload
  simp only [Reading.bind_value, readShort_value, readByte_value, if_neg (not_lt.2 h.length),
    if_neg (not_not.2 h.version), if_neg htype, if_neg (not_not.2 h.encap)]
  rfl

/-- What the fields of an IP header say, at the place where the frame has it. -/
structure InnerHeaders where
  ip : Nat
  ipHeaderLength : Nat
  packetLength : Nat
  protocol : Nat

/-- The headers of the frame behind the tags, as far as `StripTzspEncapsulation` reads them itself. -/
def readInnerHeaders (align : Align) (m : List UInt8) (ethernet : Nat) : Reading (Option InnerHeaders) := do
  let type ← readShort m (ethernet + ethernetType)
  match tzspIpHeader type ethernet with
  | none => return none
  | some ip => do
    let aligned ← align m ip
    match aligned with
    | none => return none
    | some ip =>
      let ipHl ← readByte m ip
      let ipLen ← readShort m (ip + 2)
      let protocol ← readByte m (ip + 9)
      return some { ip, ipHeaderLength := ipHl % 16 * 4, packetLength := ipLen, protocol }

/-- A detector is called for a frame inside. -/
def detectInner (cfg : WalkConfig) (m : List UInt8) (ethernet : Nat) (h : InnerHeaders) : Reading Outcome :=
  detect cfg m h.protocol ethernet h.ip h.ipHeaderLength (h.ip + h.packetLength)

/-- The walk through the tunnel: the tags, the headers inside, and then a detector. -/
theorem stripTzspEncapsulation_eq (align : Align) (cfg : WalkConfig) (m : List UInt8) (udp packetEnd : Nat) :
    stripTzspEncapsulation align cfg m udp packetEnd =
      tzspPayload m udp packetEnd >>= fun payload => payload.elim (pure {}) fun ethernet =>
        readInnerHeaders align m ethernet >>= fun headers => headers.elim (pure {}) (detectInner cfg m ethernet) := by
  unfold stripTzspEncapsulation
  rw [Reading.bind_left_cancel]
  cases (tzspPayload m udp packetEnd).value with
  | none => rfl
  | some ethernet =>
    unfold readInnerHeaders detectInTzsp withIpHeader
    refine Reading.ext ?_ ?_
    all_goals
      dsimp only [Option.elim_some]
      simp only [Reading.bind_value, Reading.bind_spans, readShort_value]
      cases tzspIpHeader (ntohs m (ethernet + ethernetType)) ethernet with
      | none => simp
      | some ip =>
        simp only [Reading.bind_value, Reading.bind_spans]
        cases (align m ip).value with
        | none => simp
        | some ip => simp [detectInner]

/-- The bytes that the headers of a frame at `ethernet` take up: the Ethernet header, behind it the
version bytes that are looked at, and an IP header up to `ip_p`. -/
def HeadersFit (m : List UInt8) (packetEnd ethernet : Nat) : Prop :=
  ethernet + 14 ≤ packetEnd ∧ ∀ ip, tzspIpHeader (ntohs m (ethernet + ethernetType)) ethernet = some ip →
    versionReach m ip [2, 2, 2, 12] ≤ packetEnd ∧ (Capture.tryIpPacketV4 (m.drop ip) = true → ip + 10 ≤ packetEnd)

theorem within_readInnerHeaders {ethernet : Nat} :
    (readInnerHeaders kept m ethernet).Within packetEnd ↔ HeadersFit m packetEnd ethernet := by
  unfold readInnerHeaders HeadersFit
  rw [Reading.within_bind, within_readShort, readShort_value]
  refine and_congr Iff.rfl ?_
  cases tzspIpHeader (ntohs m (ethernet + ethernetType)) ethernet with
  | none => simp
  | some ip =>
    simp only [Reading.within_bind, within_kept, kept_value, Option.some.injEq, forall_eq']
    refine and_congr Iff.rfl ?_
    by_cases htry : Capture.tryIpPacketV4 (m.drop ip) = true
    · rw [if_pos htry]
      simp only [Reading.within_bind, within_readByte, within_readShort, Reading.within_pure, htry]
      constructor
      · rintro ⟨-, -, h, -⟩ -
        exact h
      · intro h
        have hle := h trivial
        exact ⟨by omega, by omega, hle, trivial⟩
    · rw [if_neg htry]
      simp [htry]

/-- What is said of the walk into a TZSP packet: the loop over the tags ends, reads before `packetEnd`,
and stops behind the END tag of a list that is complete; and the headers that are read then lie before
`packetEnd`. -/
structure TagWalk (m : List UInt8) (udp packetEnd : Nat) : Prop where
  ends : ∀ rounds, packetEnd - tagList udp ≤ rounds → skipTags m packetEnd rounds (tagList udp) =
    skipTags m packetEnd (packetEnd - tagList udp) (tagList udp)
  reads : (skipTags m packetEnd (packetEnd - tagList udp) (tagList udp)).Within packetEnd
  stops : ∀ e, Tags m packetEnd (tagList udp) e → (tzspPayload m udp packetEnd).value = some e
  headers : ∀ e, (tzspPayload m udp packetEnd).value = some e → (readInnerHeaders kept m e).Within packetEnd

/-- **The walk into a TZSP packet** keeps to the packet exactly where the packet is long enough behind
the END tag. -/
theorem tagWalk_iff {udp : Nat} (h : HasTzspHeader m udp) (packetEnd : Nat) :
    TagWalk m udp packetEnd ↔ ∀ e, Tags m packetEnd (tagList udp) e → HeadersFit m packetEnd e := by
  have hpayload : ∀ e, (tzspPayload m udp packetEnd).value = some e ↔ Tags m packetEnd (tagList udp) e := by
    intro e
    rw [h.tzspPayload_eq]
    exact skipTags_eq_some_iff
  constructor
  · intro hw e he
    exact within_readInnerHeaders.1 (hw.headers e ((hpayload e).2 he))
  · intro hfits
    refine ⟨fun rounds hr => skipTags_rounds _ rounds le_rfl hr, within_skipTags le_rfl _ _,
      fun e he => (hpayload e).2 he, fun e he => ?_⟩
    exact within_readInnerHeaders.2 (hfits e ((hpayload e).1 he))

/-- A list of a padding tag and one with two END bytes for its value, and an IPv4 packet behind it. -/
def wholeTunnel : List UInt8 :=
  [0, 0, 0, 0, 0, 54, 0, 0, 1, 0, 0, 1] ++ [0, 10, 2, 1, 1, 1] ++
    [0, 0, 0, 0, 0, 0, 0, 0, 0, 0, 0, 0, 8, 0] ++ [0x45, 0, 0, 20] ++ List.replicate 16 0

theorem tagWalk_iff_wholeTunnel : TagWalk wholeTunnel 0 52 ∧ Tags wholeTunnel 52 (tagList 0) 18 := by
  have header : HasTzspHeader wholeTunnel 0 := ⟨by decide, by decide, .inl (by decide), by decide⟩
  have htags : (skipTags wholeTunnel 52 (52 - tagList 0) (tagList 0)).value = some 18 := by decide
  refine ⟨(tagWalk_iff header 52).2 fun e he => ?_, skipTags_eq_some_iff.1 htags⟩
  obtain rfl : 18 = e := Option.some.inj (htags.symm.trans (skipTags_eq_some_iff.2 he))
  refine ⟨by decide, fun ip hip => ?_⟩
  have htype : tzspIpHeader (ntohs wholeTunnel (18 + ethernetType)) 18 = some 32 := by decide
  obtain rfl : 32 = ip := Option.some.inj (htype.symm.trans hip)
  exact ⟨by decide, fun _ => by decide⟩

/-- A packet that ends with its END tag. -/
def cutTunnel : List UInt8 := [0, 0, 0, 0, 0, 13, 0, 0, 1, 0, 0, 1, 1]

theorem not_tagWalk : ¬ TagWalk cutTunnel 0 13 := by
  intro hw
  have he : (tzspPayload cutTunnel 0 13).value = some 13 := by decide
  have hfits := within_readInnerHeaders.1 (hw.headers 13 he)
  exact absurd hfits.1 (by decide)

end Walk

end Oreka.Capture
