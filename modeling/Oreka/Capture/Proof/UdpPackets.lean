import Oreka.Capture.UdpListener

/-!
# What the UDP feed hands over

The size check of the walk lets a packet end one byte behind the datagram, and the loop test wraps
below zero for a datagram shorter than a header. `handedInside_iff` says which datagrams are walked
inside their bounds; `handleDatagram_frames` that non-empty packets are handed over as they were
encapsulated.
-/

namespace Oreka.Capture

open Oreka.Net OrkEncapsulation

/-! ## The unsigned comparisons -/

theorem loop_test {n off : Nat} (hn : size ≤ n) (hle : n ≤ 65000) :
    off < sizeSub n size ↔ off + size < n := by
  simp only [sizeSub, size, sizeT] at *
  omega

theorem caplen_test {n off len : Nat} (hoff : off + size < n) (hle : n ≤ 65000) :
    len > sizeAdd (sizeSub (sizeSub n off) size) 1 ↔ n + 1 < off + size + len := by
  simp only [sizeAdd, sizeSub, size, sizeT] at *
  omega

/-- Below the size of a header the loop test wraps, and the size check with it. -/
theorem sizeSub_pos_of_lt {n : Nat} (hn : n < size) (hpos : 0 < n) : 0 < sizeSub n size := by
  simp only [sizeSub, size, sizeT] at *
  omega

theorem sizeAdd_eight : sizeAdd (sizeSub (sizeSub 8 0) size) 1 = 0 := by decide

/-! ## The frame at the front of some bytes -/

theorem eq_cons_of_size_le {b : List UInt8} (h : size ≤ b.length) :
    ∃ b₀ b₁ b₂ b₃ b₄ b₅ b₆ b₇ b₈ t, b = b₀ :: b₁ :: b₂ :: b₃ :: b₄ :: b₅ :: b₆ :: b₇ :: b₈ :: t := by
  rcases b with _ | ⟨b₀, _ | ⟨b₁, _ | ⟨b₂, _ | ⟨b₃, _ | ⟨b₄, _ | ⟨b₅, _ | ⟨b₆, _ | ⟨b₇, _ | ⟨b₈, t⟩⟩⟩⟩⟩⟩⟩⟩⟩
  all_goals first
    | exact ⟨b₀, b₁, b₂, b₃, b₄, b₅, b₆, b₇, b₈, t, rfl⟩
    | simp [size] at h

/-- A valid header is the header of the frame with its sequence number and length. -/
theorem header_of_valid {b : List UInt8} (hv : valid b = true) (hlen : size ≤ b.length)
    (f : Frame) (hs : f.seq = seq b) (hl : f.payload.length = totalPacketLength b) :
    b.take size = f.header := by
  obtain ⟨b₀, b₁, b₂, b₃, b₄, b₅, b₆, b₇, b₈, t, rfl⟩ := eq_cons_of_size_le hlen
  have h₀ := b₀.toNat_lt
  have h₁ := b₁.toNat_lt
  have h₃ := b₃.toNat_lt
  have h₄ := b₄.toNat_lt
  have h₅ := b₅.toNat_lt
  have h₆ := b₆.toNat_lt
  have h₇ := b₇.toNat_lt
  have h₈ := b₈.toNat_lt
  simp only [valid, protocol, version, ntohs, byte, List.getD_cons_succ, List.getD_cons_zero,
    Bool.and_eq_true, beq_iff_eq] at hv
  obtain ⟨hp, rfl⟩ := hv
  simp only [seq, totalPacketLength, ntohs, byte, List.getD_cons_succ, List.getD_cons_zero] at hs hl
  have hseq : f.seq.toNat =
      (b₃.toNat * 256 + b₄.toNat) * 65536 + (b₅.toNat * 256 + b₆.toNat) := by
    rw [hs, UInt32.toNat_ofNat']
    omega
  have hbyte (x : UInt8) (n : Nat) (h : n % 256 = x.toNat) : x = UInt8.ofNat n :=
    UInt8.toNat_inj.1 (by rw [UInt8.toNat_ofNat', ← h])
  simp only [Frame.header, hseq, hl, size, List.take_succ_cons, List.take_zero, List.cons.injEq,
    and_true, true_and]
  refine ⟨?_, ?_, ?_, ?_, ?_, ?_, ?_, ?_⟩
  · exact hbyte b₀ 0xbe (by omega)
  · exact hbyte b₁ 0xef (by omega)
  all_goals
    apply hbyte
    omega

/-- A header that is valid, and as many bytes behind it as it says: a frame. -/
theorem exists_frame {b : List UInt8} (hv : valid b = true)
    (hle : size + totalPacketLength b ≤ b.length) :
    ∃ f : Frame, f.payload.length = totalPacketLength b ∧
      b = f.bytes ++ b.drop (size + totalPacketLength b) := by
  have hlen : ((b.drop size).take (totalPacketLength b)).length = totalPacketLength b := by
    rw [List.length_take, List.length_drop]
    omega
  refine ⟨⟨seq b, (b.drop size).take (totalPacketLength b), by
    rw [hlen]; exact totalPacketLength_lt b⟩, hlen, ?_⟩
  rw [Frame.bytes, ← header_of_valid hv (by omega) _ rfl hlen, List.append_assoc, ← List.drop_drop,
    List.take_append_drop, List.take_append_drop]

theorem valid_frame (f : Frame) (rest : List UInt8) : valid (f.bytes ++ rest) = true := by
  rw [Frame.bytes, List.append_assoc]
  exact valid_header f _

theorem totalPacketLength_frame (f : Frame) (rest : List UInt8) :
    totalPacketLength (f.bytes ++ rest) = f.payload.length := by
  rw [Frame.bytes, List.append_assoc]
  exact totalPacketLength_header f _

/-! ## Inside the received bytes -/

/-- After some whole frames comes no header whose length is one more than the bytes behind it. -/
def NoOverhang (b : List UInt8) : Prop :=
  ∀ (frames : List Frame) (rest : List UInt8), b = (frames.map Frame.bytes).flatten ++ rest →
    size < rest.length → valid rest → size + totalPacketLength rest ≠ rest.length + 1

/-- The walk past a whole frame. -/
theorem noOverhang_append (f : Frame) (b : List UInt8)
    (h : size + f.payload.length ≠ (f.bytes ++ b).length + 1) :
    NoOverhang (f.bytes ++ b) ↔ NoOverhang b := by
  constructor
  · intro hb frames rest hrest
    exact hb (f :: frames) rest (by simp [hrest])
  · intro hb frames rest hrest hlt hv
    rcases frames with _ | ⟨g, frames⟩
    · obtain rfl : f.bytes ++ b = rest := by simpa using hrest
      rwa [totalPacketLength_frame]
    · have hlen : f.payload.length = g.payload.length := by
        rw [← totalPacketLength_frame f b, hrest]
        simp [totalPacketLength_frame]
      have hcancel : b = (frames.map Frame.bytes).flatten ++ rest := by
        rw [List.map_cons, List.flatten_cons, List.append_assoc] at hrest
        exact (List.append_inj hrest (by simp [hlen])).2
      exact hb frames rest hcancel hlt hv

theorem noOverhang_of_invalid {b : List UInt8} (h : valid b = false) : NoOverhang b := by
  intro frames rest hrest _ hv
  rcases frames with _ | ⟨f, frames⟩
  · obtain rfl : b = rest := by simpa using hrest
    rw [h] at hv
    cases hv
  · rw [hrest] at h
    simp [valid_frame] at h

theorem noOverhang_of_short {b : List UInt8} (h : b.length ≤ size) : NoOverhang b := by
  intro frames rest hrest hlt
  have hlen := congrArg List.length hrest
  rw [List.length_append] at hlen
  omega

theorem noOverhang_of_over {b : List UInt8} (h : b.length + 1 < size + totalPacketLength b) :
    NoOverhang b := by
  intro frames rest hrest hlt hv
  rcases frames with _ | ⟨f, frames⟩
  · obtain rfl : b = rest := by simpa using hrest
    omega
  · rw [hrest, List.map_cons, List.flatten_cons, List.append_assoc, totalPacketLength_frame,
      List.length_append, Frame.length_bytes] at h
    omega

theorem walk_inside (d : Datagram) (hn : size ≤ d.recvBytes) (off : Nat) (c : UdpCounters) :
    (∀ h ∈ (walk d off c).2, h.Inside d) ↔ NoOverhang (d.bytes.drop off) := by
  fun_induction walk d off c with
  | case1 off c hoff hv c' len hover =>
    rw [loop_test hn d.length_le] at hoff
    rw [caplen_test hoff d.length_le] at hover
    refine iff_of_true (by simp) (noOverhang_of_over ?_)
    rw [List.length_drop]
    show d.recvBytes - off + 1 < size + len
    omega
  | case2 off c hoff hv c' len hover r ih =>
    rw [loop_test hn d.length_le] at hoff
    rw [caplen_test hoff d.length_le] at hover
    have hlen : (d.bytes.drop off).length = d.recvBytes - off := List.length_drop
    by_cases hend : off + size + len = d.recvBytes + 1
    · -- the packet ends one byte behind the datagram
      refine iff_of_false (fun h => ?_) (fun h => ?_)
      · have : off + size + len ≤ d.recvBytes := h _ List.mem_cons_self
        omega
      · refine h [] (d.bytes.drop off) rfl (by omega) hv ?_
        show size + len = _
        omega
    · obtain ⟨f, hf, hb⟩ := exists_frame hv (by
        show size + len ≤ (d.bytes.drop off).length
        omega)
      have hdrop : (d.bytes.drop off).drop (size + len) = d.bytes.drop (off + len + size) := by
        rw [List.drop_drop]
        congr 1
        omega
      have hin : Handed.Inside d ⟨off + size, len⟩ := by
        show off + size + len ≤ d.recvBytes
        omega
      have hflen : f.payload.length = len := hf
      rw [hb, hdrop, noOverhang_append f _ (by rw [← hdrop, ← hb, hlen, hflen]; omega), ← ih]
      simp only [List.mem_cons, forall_eq_or_imp, hin, true_and]
      rfl
  | case3 off c hoff hv =>
    exact iff_of_true (by simp) (noOverhang_of_invalid (by simpa using hv))
  | case4 off c hoff =>
    rw [loop_test hn d.length_le] at hoff
    refine iff_of_true (by simp) (noOverhang_of_short ?_)
    rw [List.length_drop]
    show d.recvBytes - off ≤ size
    omega

theorem walk_of_le {d : Datagram} {off : Nat} (h : d.recvBytes ≤ off) (c : UdpCounters) :
    walk d off c = (c, []) := by
  have hv : ¬ valid (d.bytes.drop off) = true := fun hv => Nat.not_lt.2 h (lt_of_valid_drop hv)
  unfold walk
  simp [hv]

/-- A packet is handed over. -/
theorem walk_hand {d : Datagram} {off : Nat} (c : UdpCounters) (hoff : off < sizeSub d.recvBytes size)
    (hv : valid (d.bytes.drop off) = true)
    (hlen : ¬ totalPacketLength (d.bytes.drop off) >
      sizeAdd (sizeSub (sizeSub d.recvBytes off) size) 1) :
    (walk d off c).2 = ⟨off + size, totalPacketLength (d.bytes.drop off)⟩ ::
      (walk d (off + totalPacketLength (d.bytes.drop off) + size)
        (c.count (seq (d.bytes.drop off)))).2 := by
  conv_lhs => unfold walk
  simp only [hoff, if_true, hv, dite_true, hlen, if_false]

/-- The size check stops the walk. -/
theorem walk_break {d : Datagram} {off : Nat} (c : UdpCounters)
    (hlen : totalPacketLength (d.bytes.drop off) >
      sizeAdd (sizeSub (sizeSub d.recvBytes off) size) 1) :
    (walk d off c).2 = [] := by
  unfold walk
  simp only [hlen, if_true]
  split
  · split
    · rfl
    · rfl
  · rfl

/-- A datagram shorter than a header: the loop test wraps, and a packet of length 0 behind the header
is handed over when the length field is 0. -/
theorem walk_short {d : Datagram} (hn : d.recvBytes < size) (hpos : 0 < d.recvBytes)
    (hv : valid d.bytes = true) (c : UdpCounters) :
    (walk d 0 c).2 = if totalPacketLength d.bytes = 0 then [⟨size, 0⟩] else [] := by
  by_cases h0 : totalPacketLength d.bytes = 0
  · have h := walk_hand c (sizeSub_pos_of_lt hn hpos) (by rwa [List.drop_zero])
      (by rw [List.drop_zero, h0]; exact Nat.not_lt_zero _)
    simp only [List.drop_zero, h0] at h
    rw [h, if_pos h0, walk_of_le (Nat.le_trans (Nat.le_of_lt hn) (Nat.le_add_left _ _))]
    simp only [Nat.zero_add]
  · have h8 : d.recvBytes = 8 := by
      by_contra hne
      refine h0 ?_
      simp only [size] at hn
      have hle : d.bytes.length ≤ 7 := by
        show d.recvBytes ≤ 7
        omega
      simp [totalPacketLength, ntohs, byte, hle, Nat.le_succ_of_le hle]
    rw [if_neg h0]
    apply walk_break
    rw [h8, sizeAdd_eight, List.drop_zero]
    exact Nat.pos_of_ne_zero h0

/-- The condition under which the walk stays inside the datagram. -/
def Datagram.WellFormed (d : Datagram) : Prop :=
  (valid d.bytes → d.recvBytes < size → totalPacketLength d.bytes ≠ 0) ∧ NoOverhang d.bytes

theorem handleDatagram_inside (d : Datagram) (c : UdpCounters) :
    (∀ h ∈ (handleDatagram d c).2, h.Inside d) ↔ d.WellFormed := by
  unfold handleDatagram Datagram.WellFormed
  by_cases hv : valid d.bytes = true
  · have hpos : 0 < d.recvBytes := by
      have := lt_of_valid_drop (i := 0) (by simpa using hv)
      exact this
    simp only [hpos, hv, decide_true, Bool.and_self, if_true, forall_const]
    by_cases hn : d.recvBytes < size
    · rw [walk_short hn hpos hv c]
      have hno : NoOverhang d.bytes := noOverhang_of_short (Nat.le_of_lt hn)
      by_cases h0 : totalPacketLength d.bytes = 0
      · have hout : ¬ Handed.Inside d ⟨size, 0⟩ := Nat.not_le.2 hn
        simp [h0, hn, hout]
      · simp [h0, hno]
    · have h := walk_inside d (Nat.not_lt.1 hn) 0 c
      rw [List.drop_zero] at h
      simp [h, hn]
  · have hno : NoOverhang d.bytes := noOverhang_of_invalid (by simpa using hv)
    simp [hv, hno]

/-! ## Round trip -/

theorem walk_frames {d : Datagram} {frames : List Frame} (hf : ∀ f ∈ frames, f.payload ≠ [])
    {off : Nat} (hn : size ≤ d.recvBytes)
    (hd : d.bytes.drop off = (frames.map Frame.bytes).flatten) (c : UdpCounters) :
    (walk d off c).2.map (Handed.packet d) = frames.map Frame.payload := by
  induction frames generalizing off c with
  | nil =>
    rw [walk_of_le (List.drop_eq_nil_iff.1 hd)]
    rfl
  | cons f frames ih =>
    obtain ⟨hne, hf⟩ := List.forall_mem_cons.1 hf
    have hpos := List.length_pos_iff.2 hne
    have hd' : d.bytes.drop off = f.bytes ++ (frames.map Frame.bytes).flatten := by simpa using hd
    have hlen := congrArg List.length hd'
    rw [List.length_drop, List.length_append, Frame.length_bytes] at hlen
    have hoff : off + size < d.recvBytes := by
      show off + size < d.bytes.length
      omega
    have hrest : d.bytes.drop (off + f.payload.length + size) =
        (frames.map Frame.bytes).flatten := by
      have hleft : (f.bytes ++ (frames.map Frame.bytes).flatten).drop (size + f.payload.length) =
          (frames.map Frame.bytes).flatten := List.drop_left' f.length_bytes
      rw [← hleft, ← hd', List.drop_drop]
      congr 1
      omega
    have hpacket : Handed.packet d ⟨off + size, f.payload.length⟩ = f.payload := by
      have hbody : d.bytes.drop (off + size) = f.payload ++ (frames.map Frame.bytes).flatten := by
        rw [← List.drop_drop, hd', Frame.bytes, List.append_assoc, List.drop_left' f.length_header]
      rw [Handed.packet, ← Nat.add_zero (off + size), ← copy_drop, hbody, copy_append]
    have hcap : ¬ f.payload.length > sizeAdd (sizeSub (sizeSub d.recvBytes off) size) 1 := by
      rw [caplen_test hoff d.length_le]
      show ¬ d.bytes.length + 1 < off + size + f.payload.length
      omega
    have hstep := walk_hand c ((loop_test hn d.length_le).2 hoff)
      (by rw [hd']; exact valid_frame f _) (by rwa [hd', totalPacketLength_frame])
    rw [hd', totalPacketLength_frame] at hstep
    rw [hstep, List.map_cons, hpacket, ih hf hrest, List.map_cons]

theorem handleDatagram_frames {d : Datagram} {frames : List Frame}
    (hf : ∀ f ∈ frames, f.payload ≠ []) (hd : d.bytes = (frames.map Frame.bytes).flatten)
    (c : UdpCounters) :
    (handleDatagram d c).2.map (Handed.packet d) = frames.map Frame.payload := by
  unfold handleDatagram
  rcases frames with _ | ⟨f, frames⟩
  · have hd0 : d.bytes = [] := hd
    simp [hd0, Datagram.recvBytes]
  · have hd' : d.bytes = f.bytes ++ (frames.map Frame.bytes).flatten := by simpa using hd
    have hlen : size ≤ d.recvBytes := by
      rw [Datagram.recvBytes, hd', List.length_append, Frame.length_bytes]
      omega
    have hv : valid d.bytes = true := by
      rw [hd']
      exact valid_frame f _
    have hpos : 0 < d.recvBytes := Nat.lt_of_lt_of_le (by decide) hlen
    simp only [hpos, hv, decide_true, Bool.and_self, if_true]
    exact walk_frames hf hlen (by rw [List.drop_zero, hd]) c

/-- The feed does with a datagram what it is there for: packets inside it, and those that were
encapsulated. -/
def FeedOk (d : Datagram) (c : UdpCounters) : Prop :=
  (∀ h ∈ (handleDatagram d c).2, h.Inside d) ∧
    ∀ frames : List Frame, (∀ f ∈ frames, f.payload ≠ []) →
      d.bytes = (frames.map Frame.bytes).flatten →
      (handleDatagram d c).2.map (Handed.packet d) = frames.map Frame.payload

theorem feedOk_iff (d : Datagram) (c : UdpCounters) : FeedOk d c ↔ d.WellFormed := by
  unfold FeedOk
  rw [handleDatagram_inside, and_iff_left]
  intro frames hf hd
  exact handleDatagram_frames hf hd c

/-- One byte of a packet whose length field says 2. -/
def overhanging : Datagram := ⟨[0xbe, 0xef, 1, 0, 0, 0, 1, 0, 2, 0x45], by decide⟩

theorem not_feedOk : ¬ FeedOk overhanging ⟨0, 0, 0, 0, 0⟩ := by
  rintro ⟨hin, -⟩
  have hlen : totalPacketLength (overhanging.bytes.drop 0) = 2 := by decide
  have hstep : (walk overhanging 0 ⟨0, 0, 0, 0, 0⟩).2 = _ :=
    walk_hand ⟨0, 0, 0, 0, 0⟩ (by decide) (by decide) (by decide)
  rw [hlen] at hstep
  have hmem : (⟨9, 2⟩ : Handed) ∈ (handleDatagram overhanging ⟨0, 0, 0, 0, 0⟩).2 := by
    show _ ∈ (walk overhanging 0 ⟨0, 0, 0, 0, 0⟩).2
    rw [hstep]
    exact List.mem_cons_self
  exact absurd (hin _ hmem) (by decide)

end Oreka.Capture
