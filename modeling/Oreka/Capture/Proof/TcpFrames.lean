import Oreka.Capture.TcpConnection
import Oreka.Lib.Frames

/-!
# The TCP feed hands over the frames

However the reads cut the stream, `readPacket` takes one whole frame off it (`readPacket_frame`) or,
when only a part of one is left, nothing (`readPacket_short`). So the packets that go to
`HandlePacket` are those of the complete frames, as long as the peer takes the keep-alive messages.
-/

namespace Oreka.Capture

open Oreka.Net OrkEncapsulation Frames

/-! ## One frame -/

/-- The frame has something to carry and fits into the receive buffer. -/
def Frame.Fits (mtu : MtuMaxSize) (f : Frame) : Prop :=
  1 ≤ f.payload.length ∧ size + f.payload.length ≤ mtu.val

/-- The size check of a header, without its unsigned subtraction. -/
theorem Frame.Fits.not_over {mtu : MtuMaxSize} {f : Frame} (h : f.Fits mtu) (rest : List UInt8) :
    ¬ totalPacketLength (f.header ++ rest) > (mtu.val + sizeT - size) % sizeT := by
  obtain ⟨_, h⟩ := h
  have := mtu.val_lt
  rw [totalPacketLength_header]
  simp only [size, sizeT] at *
  omega

theorem readPacket_frame {mtu : MtuMaxSize} {sock : Socket} {f : Frame} {rest : List UInt8}
    (hf : f.Fits mtu) (hcut : sock.WellCut) (hs : sock.stream = f.bytes ++ rest) :
    ∃ sock', readPacket mtu sock = some ⟨f.payload, false, sock'⟩ ∧ sock'.stream = rest ∧
      sock'.WellCut := by
  have hs' : sock.stream = f.header ++ (f.payload ++ rest) := by rw [hs, Frame.bytes,
    List.append_assoc]
  have hlen : sock.stream.length = size + (f.payload.length + rest.length) := by
    rw [hs', List.length_append, List.length_append, Frame.length_header]
  unfold readPacket
  extract_lets head caplen body
  have hh : head.Full sock [] 0 size := by
    refine (readLoop_spec sock [] 0 size).resolve_right fun h => ?_
    have := h.lt hcut (by decide)
    omega
  have hbuf : head.buf = f.header ++ [] := by
    rw [hh.buf, hs', List.nil_append, List.take_left' f.length_header, List.append_nil]
  have hstream : head.sock.stream = f.payload ++ rest := by
    rw [hh.stream, hs', List.drop_left' f.length_header]
  have hcap : caplen = f.payload.length := by
    show totalPacketLength head.buf = _
    rw [hbuf, totalPacketLength_header]
  have hb : body.Full head.sock head.buf size caplen := by
    refine (readLoop_spec head.sock head.buf size caplen).resolve_right fun h => ?_
    have h₁ := h.lt (hh.wellCut hcut) (by rw [hcap]; exact hf.1)
    rw [hstream, List.length_append] at h₁
    omega
  have hbody : body.buf = f.header ++ f.payload := by
    rw [hb.buf, hbuf, hstream, hcap, List.append_nil, List.take_left' rfl]
  refine ⟨body.sock, ?_, ?_, hb.wellCut (hh.wellCut hcut)⟩
  · rw [if_neg (by rw [hh.pos]; simp), if_neg (by rw [hbuf, valid_header]; decide),
      if_neg (by rw [hbuf]; exact hf.not_over []), if_neg (by rw [hb.pos]; simp), hbody, hcap,
      hh.stop, hb.stop, ← Nat.add_zero size, ← copy_drop, List.drop_left' f.length_header]
    have hcopy : copy f.payload 0 f.payload.length = f.payload := by
      simpa using copy_append f.payload []
    rw [hcopy]
    rfl
  · rw [hb.stream, hstream, hcap, List.drop_left' rfl]

theorem readPacket_of_lt {mtu : MtuMaxSize} {sock : Socket} (h : sock.stream.length < size) :
    readPacket mtu sock = none := by
  unfold readPacket
  rcases readLoop_spec sock [] 0 size with hh | hh
  · exact absurd hh.le (Nat.not_le.2 h)
  · rw [if_pos]
    exact Int.ne_of_lt (by simpa using hh.pos)

/-- A part of a frame is not handed over. -/
theorem readPacket_short {mtu : MtuMaxSize} {sock : Socket} {f : Frame} {n : Nat}
    (hf : f.Fits mtu) (hcut : sock.WellCut) (hs : sock.stream = f.bytes.take n)
    (hn : n < f.bytes.length) : readPacket mtu sock = none := by
  have hlen : sock.stream.length = n := by
    rw [hs, List.length_take]
    omega
  rw [Frame.length_bytes] at hn
  by_cases hlt : n < size
  · exact readPacket_of_lt (by omega)
  have hs' : sock.stream = f.header ++ f.payload.take (n - size) := by
    rw [hs, Frame.bytes, List.take_append, Frame.length_header,
      List.take_of_length_le (by rw [Frame.length_header]; omega)]
  unfold readPacket
  extract_lets head caplen body
  have hh : head.Full sock [] 0 size := by
    refine (readLoop_spec sock [] 0 size).resolve_right fun h => ?_
    have := h.lt hcut (by decide)
    omega
  have hbuf : head.buf = f.header ++ [] := by
    rw [hh.buf, hs', List.nil_append, List.take_left' f.length_header, List.append_nil]
  have hcap : caplen = f.payload.length := by
    show totalPacketLength head.buf = _
    rw [hbuf, totalPacketLength_header]
  have hb : body.Short head.sock size caplen := by
    refine (readLoop_spec head.sock head.buf size caplen).resolve_left fun h => ?_
    have h₁ := h.le
    rw [hh.stream, List.length_drop, hlen, hcap] at h₁
    omega
  rw [if_neg (by rw [hh.pos]; simp), if_neg (by rw [hbuf, valid_header]; decide),
    if_neg (by rw [hbuf]; exact hf.not_over []), if_pos ?_]
  exact Int.ne_of_lt (by simpa using hb.pos)

/-! ## The whole connection -/

/-- What is handed over of the packets `l`, all of them unless a keep-alive message fails. -/
def handed (p : Peer) : Nat → Int → List (List UInt8) → List (List UInt8)
  | _, _, [] => []
  | n, timer, x :: l =>
    x :: match keepAlive p n timer with
      | none => []
      | some timer => handed p (n + 1) timer l

theorem handed_prefix (p : Peer) (n : Nat) (timer : Int) (l : List (List UInt8)) :
    handed p n timer l <+: l := by
  induction l generalizing n timer with
  | nil => exact List.prefix_refl _
  | cons x l ih =>
    rw [handed]
    rcases keepAlive p n timer with _ | timer
    · exact List.prefix_cons_inj x |>.2 (List.nil_prefix)
    · exact List.prefix_cons_inj x |>.2 (ih (n + 1) timer)

theorem Peer.Alive.keepAlive {p : Peer} (h : p.Alive) (n : Nat) (timer : Int) :
    ∃ timer', Capture.keepAlive p n timer = some timer' := by
  unfold Capture.keepAlive
  rw [h n]
  split
  · exact ⟨_, rfl⟩
  · exact ⟨_, rfl⟩

theorem Peer.Alive.handed {p : Peer} (h : p.Alive) (n : Nat) (timer : Int)
    (l : List (List UInt8)) : handed p n timer l = l := by
  induction l generalizing n timer with
  | nil => rfl
  | cons x l ih =>
    obtain ⟨timer', ht⟩ := h.keepAlive n timer
    rw [Capture.handed, ht]
    exact congrArg _ (ih (n + 1) timer')

/-- The packets of the frames that are complete within `n` bytes. -/
def completePackets (frames : List Frame) (n : Nat) : List (List UInt8) :=
  (frames.take (complete (frames.map Frame.bytes) n).length).map Frame.payload

theorem handleTcpConnection_eq {mtu : MtuMaxSize} (p : Peer) {frames : List Frame}
    (hf : ∀ f ∈ frames, f.Fits mtu) (n : Nat) (timer : Int) {sock : Socket} (hcut : sock.WellCut)
    (hs : sock.stream <+: (frames.map Frame.bytes).flatten) :
    handleTcpConnection mtu p n timer sock =
      handed p n timer (completePackets frames sock.stream.length) := by
  induction frames generalizing n timer sock with
  | nil =>
    have hnil : sock.stream = [] := List.prefix_nil.1 hs
    rw [handleTcpConnection, readPacket_of_lt (by rw [hnil]; decide)]
    rfl
  | cons f frames ih =>
    have hff : f.Fits mtu := hf f List.mem_cons_self
    rw [List.map_cons, List.flatten_cons] at hs
    by_cases hle : f.bytes.length ≤ sock.stream.length
    · obtain ⟨rest, hrest⟩ : f.bytes <+: sock.stream :=
        List.prefix_of_prefix_length_le (List.prefix_append _ _) hs hle
      obtain ⟨sock', hread, hst, hcut'⟩ := readPacket_frame hff hcut hrest.symm
      have hs' : sock'.stream <+: (frames.map Frame.bytes).flatten := by
        rw [hst]
        rwa [← hrest, List.prefix_append_right_inj] at hs
      have hlen : sock.stream.length - f.bytes.length = sock'.stream.length := by
        rw [← hrest, List.length_append, hst, Nat.add_sub_cancel_left]
      have hcomplete : completePackets (f :: frames) sock.stream.length =
          f.payload :: completePackets frames sock'.stream.length := by
        simp only [completePackets, List.map_cons, complete, hle, if_true, List.length_cons,
          List.take_succ_cons, hlen]
      rw [handleTcpConnection, hread, hcomplete, handed]
      dsimp only
      rcases keepAlive p n timer with _ | timer'
      · rfl
      · exact congrArg _ (ih (fun g hg => hf g (List.mem_cons_of_mem f hg)) (n + 1) timer' hcut' hs')
    · have hst : sock.stream = f.bytes.take sock.stream.length := by
        have h := List.prefix_iff_eq_take.1 hs
        rwa [List.take_append_of_le_length (by omega)] at h
      have hcomplete : completePackets (f :: frames) sock.stream.length = [] := by
        simp only [completePackets, List.map_cons, complete, hle, if_false, List.length_nil,
          List.take_zero, List.map_nil]
      rw [handleTcpConnection, readPacket_short hff hcut hst (Nat.not_le.1 hle), hcomplete]
      rfl

/-- **The TCP feed.** Frames that fit the buffer are sent, the connection may end within one, and the
reads cut the stream anywhere: what is handed over is what is handed over when every complete frame
arrives in one read, and no partial frame; all of them while the peer takes the keep-alives. -/
theorem handleTcpConnection_frames (mtu : MtuMaxSize) (p : Peer) (timer : Int)
    (ending ending' : Ending) (frames : List Frame) (hf : ∀ f ∈ frames, f.Fits mtu)
    (reads : List (List UInt8)) (hreads : ∀ r ∈ reads, r ≠ [])
    (hstream : reads.flatten <+: (frames.map Frame.bytes).flatten) :
    let whole := complete (frames.map Frame.bytes) reads.flatten.length
    handleTcpConnection mtu p 0 timer ⟨reads, ending⟩ =
        handleTcpConnection mtu p 0 timer ⟨whole, ending'⟩ ∧
      handleTcpConnection mtu p 0 timer ⟨reads, ending⟩ <+:
        (frames.take whole.length).map Frame.payload ∧
      (p.Alive → handleTcpConnection mtu p 0 timer ⟨reads, ending⟩ =
        (frames.take whole.length).map Frame.payload) := by
  intro whole
  have hcut : (⟨reads, ending⟩ : Socket).WellCut := hreads
  have hwhole : whole ++ remaining (frames.map Frame.bytes) reads.flatten.length =
      frames.map Frame.bytes := complete_append_remaining _ _
  have h₁ := handleTcpConnection_eq p hf 0 timer hcut hstream
  have hcut' : (⟨whole, ending'⟩ : Socket).WellCut := by
    intro seg hseg
    have hmem : seg ∈ frames.map Frame.bytes := by
      rw [← hwhole]
      exact List.mem_append_left _ hseg
    obtain ⟨f, _, rfl⟩ := List.mem_map.1 hmem
    exact f.bytes_ne_nil
  have h₂ := handleTcpConnection_eq p hf 0 timer hcut' (by
    show whole.flatten <+: _
    rw [← hwhole, List.flatten_append]
    exact List.prefix_append _ _)
  have hsame : completePackets frames whole.flatten.length =
      completePackets frames reads.flatten.length :=
    congrArg (fun l : List (List UInt8) => (frames.take l.length).map Frame.payload)
      (complete_consumed (frames.map Frame.bytes) reads.flatten.length)
  refine ⟨?_, ?_, ?_⟩
  · rw [h₁, h₂]
    exact congrArg _ hsame.symm
  · rw [h₁]
    exact handed_prefix p 0 timer _
  · intro hp
    rw [h₁, hp.handed]
    rfl

/-- Two packets of a peer that takes its keep-alive messages. -/
def twoFrames : List Frame := [⟨7, [1, 2, 3], by decide⟩, ⟨8, [4, 5], by decide⟩]

/-- They are cut within the first length field and across their border; the second is incomplete. -/
def twoFrameReads : List (List UInt8) :=
  [[0xbe], [0xef, 1, 0, 0, 0, 7, 0], [3, 1], [2, 3, 0xbe], [0xef, 1, 0, 0, 0, 8, 0, 2, 4]]

theorem handleTcpConnection_frames_two :
    handleTcpConnection ⟨18000, by decide⟩ ⟨fun n => 10 * n, fun _ => 4, fun n => 10 * n⟩ 0 0
      ⟨twoFrameReads, .error⟩ = [[1, 2, 3]] := by
  have hf : ∀ f ∈ twoFrames, f.Fits ⟨18000, by decide⟩ := by
    simp [twoFrames, Frame.Fits, size]
  exact (handleTcpConnection_frames ⟨18000, by decide⟩
    ⟨fun n => 10 * n, fun _ => 4, fun n => 10 * n⟩ 0 .error .closed twoFrames hf twoFrameReads
    (by decide) ⟨[5], by decide⟩).2.2 fun _ => rfl

end Oreka.Capture
