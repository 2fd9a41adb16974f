import Oreka.Capture.UdpListener

/-!
# The TCP packet feed

`HandleTcpConnection` of `VoIp.cpp`: the thread that reads encapsulated packets from one connection
and hands each to `HandlePacket`. What the socket does is a `Socket`: the byte stream, cut where the
reads are cut, and what `recv` returns after it.
-/

namespace Oreka.Capture

open Oreka.Net OrkEncapsulation

/-- `s_mtuMaxSize`, the size of the receive buffer: a positive `int`. -/
structure MtuMaxSize where
  val : Nat
  val_lt : val < 2147483648

/-- What `recv` returns once the stream is over: 0 or -1. -/
inductive Ending where
  | closed
  | error
  deriving DecidableEq, Repr

def Ending.size : Ending → Int
  | .closed => 0
  | .error => -1

/-- The bytes that have yet to be read; a read goes no further than the end of the first segment. -/
structure Socket where
  segments : List (List UInt8)
  ending : Ending
  deriving DecidableEq, Repr

namespace Socket

/-- The stream that has yet to be read. -/
def stream (s : Socket) : List UInt8 := s.segments.flatten

/-- No read is empty before the stream is over. -/
def WellCut (s : Socket) : Prop := ∀ seg ∈ s.segments, seg ≠ []

instance (s : Socket) : Decidable s.WellCut := inferInstanceAs (Decidable (∀ seg ∈ s.segments, seg ≠ []))

/-- `recv(clientSock, .., wanted, 0)`: what it returns, and the bytes it stored. -/
def recv (s : Socket) (wanted : Nat) : Int × List UInt8 × Socket :=
  match s.segments with
  | [] => (s.ending.size, [], s)
  | seg :: segs =>
    if seg.length ≤ wanted then (seg.length, seg, { s with segments := segs })
    else (wanted, seg.take wanted, { s with segments := seg.drop wanted :: segs })

/-- Before the end of the stream, `recv` returns how many bytes it took off the stream. -/
theorem recv_cases (s : Socket) (wanted : Nat) :
    s.segments = [] ∧ s.recv wanted = (s.ending.size, [], s) ∨
      ∃ bytes s', s.recv wanted = (bytes.length, bytes, s') ∧ bytes.length ≤ wanted ∧
        s.stream = bytes ++ s'.stream ∧
        (s.WellCut → s'.WellCut ∧ (bytes = [] → wanted = 0)) := by
  rcases h : s.segments with _ | ⟨seg, segs⟩
  · exact Or.inl ⟨rfl, by simp [recv, h]⟩
  · refine Or.inr ?_
    by_cases hle : seg.length ≤ wanted
    · refine ⟨seg, { s with segments := segs }, by simp [recv, h, hle], hle, by simp [stream, h], ?_⟩
      intro hs
      have hseg : seg ≠ [] := hs seg (by simp [h])
      exact ⟨fun x hx => hs x (by simp [h, show x ∈ segs from hx]), fun he => absurd he hseg⟩
    · have hlen : (seg.take wanted).length = wanted := by
        rw [List.length_take]
        omega
      refine ⟨seg.take wanted, { s with segments := seg.drop wanted :: segs },
        by simp [recv, h, hle, hlen], Nat.le_of_eq hlen, by simp [stream, h, ← List.append_assoc], ?_⟩
      intro hs
      refine ⟨fun x hx => ?_, fun he => by rw [← hlen, he]; rfl⟩
      rcases List.mem_cons.1 hx with rfl | hx
      · intro he
        have := congrArg List.length he
        rw [List.length_drop, List.length_nil] at this
        omega
      · exact hs x (by simp [h, hx])

/-- A read that got something leaves less of the stream. -/
theorem recv_lt {sock : Socket} {wanted : Nat} (h : 0 < (sock.recv wanted).1) :
    (sock.recv wanted).2.2.stream.length < sock.stream.length := by
  obtain ⟨-, hr⟩ | ⟨bytes, sock', hr, -, hst, -⟩ := sock.recv_cases wanted
  · have hle : sock.ending.size ≤ 0 := by cases sock.ending <;> decide
    rw [hr] at h
    exact absurd h (Int.not_lt.2 hle)
  · rw [hr] at h ⊢
    simp only [hst, List.length_append]
    simp only at h
    omega

end Socket

/-- What the two read loops leave behind. -/
structure ReadState where
  stop : Bool
  bufferPos : Int
  /-- `buf` up to what has been received; the rest of it is zero. -/
  buf : List UInt8
  sock : Socket

/-- A call of `recv` and the loop `while(size != wantedLen)` behind it. -/
def readLoop (sock : Socket) (buf : List UInt8) (bufferPos : Int) (wantedLen : Nat) : ReadState :=
  let r := sock.recv wantedLen
  let size := r.1
  let bufferPos := bufferPos + size
  if size = wantedLen then ⟨false, bufferPos, buf ++ r.2.1, r.2.2⟩
  else if size > wantedLen then ⟨true, bufferPos, buf ++ r.2.1, r.2.2⟩
  else if size ≤ 0 then ⟨true, bufferPos, buf ++ r.2.1, r.2.2⟩
  else readLoop r.2.2 (buf ++ r.2.1) bufferPos (wantedLen - size.toNat)
termination_by wantedLen
decreasing_by
  simp +zetaDelta only at *
  omega

/-- The loop got what it wanted: its bytes are the next ones of the stream. -/
structure ReadState.Full (r : ReadState) (sock : Socket) (buf : List UInt8) (bufferPos : Int)
    (wanted : Nat) : Prop where
  stop : r.stop = false
  pos : r.bufferPos = bufferPos + wanted
  le : wanted ≤ sock.stream.length
  buf : r.buf = buf ++ sock.stream.take wanted
  stream : r.sock.stream = sock.stream.drop wanted
  wellCut : sock.WellCut → r.sock.WellCut

/-- The stream ended before. -/
structure ReadState.Short (r : ReadState) (sock : Socket) (bufferPos : Int) (wanted : Nat) : Prop where
  pos : r.bufferPos < bufferPos + wanted
  lt : sock.WellCut → 0 < wanted → sock.stream.length < wanted

theorem readLoop_spec (sock : Socket) (buf : List UInt8) (bufferPos : Int) (wanted : Nat) :
    (readLoop sock buf bufferPos wanted).Full sock buf bufferPos wanted ∨
      (readLoop sock buf bufferPos wanted).Short sock bufferPos wanted := by
  induction wanted using Nat.strongRecOn generalizing sock buf bufferPos with
  | _ wanted ih =>
    rw [readLoop]
    rcases sock.recv_cases wanted with ⟨hs, hr⟩ | ⟨bytes, sock', hr, hle, hst, hcut⟩
    · have hsz : sock.ending.size ≤ 0 := by cases sock.ending <;> decide
      have hst : sock.stream = [] := by simp [Socket.stream, hs]
      simp only [hr, List.append_nil]
      by_cases hw : sock.ending.size = wanted
      · have hw0 : wanted = 0 := by omega
        subst hw0
        rw [if_pos hw]
        exact Or.inl ⟨rfl, by rw [hw], Nat.zero_le _, by simp, rfl, id⟩
      · rw [if_neg hw, if_neg (by omega), if_pos hsz]
        refine Or.inr ⟨?_, fun _ hpos => by rwa [hst]⟩
        show bufferPos + sock.ending.size < bufferPos + wanted
        omega
    · have hlen : sock.stream.length = bytes.length + sock'.stream.length := by
        rw [hst, List.length_append]
      simp only [hr]
      by_cases hw : bytes.length = wanted
      · rw [if_pos (by omega)]
        refine Or.inl ⟨rfl, by rw [hw], by omega, ?_, ?_, fun h => (hcut h).1⟩
        · rw [hst, ← hw, List.take_left' rfl]
        · rw [hst, ← hw, List.drop_left' rfl]
      · rw [if_neg (by omega), if_neg (by omega)]
        by_cases h0 : bytes = []
        · subst h0
          rw [if_pos (by simp)]
          refine Or.inr ⟨?_, fun h _ => absurd (hcut h).2 (by simpa using fun h => hw h.symm)⟩
          show bufferPos + ((0 : Nat) : Int) < bufferPos + wanted
          simp only [List.length_nil] at hw
          omega
        · have hpos : 0 < bytes.length := List.length_pos_iff.2 h0
          have htn : ((bytes.length : Int)).toNat = bytes.length := by omega
          rw [if_neg (by omega), htn]
          rcases ih (wanted - bytes.length) (by omega) sock' (buf ++ bytes)
              (bufferPos + bytes.length) with hf | hf
          · refine Or.inl ⟨hf.stop, ?_, ?_, ?_, ?_, fun h => hf.wellCut (hcut h).1⟩
            · rw [hf.pos]
              omega
            · have := hf.le
              omega
            · rw [hf.buf, hst, List.append_assoc, List.take_append,
                List.take_of_length_le hle]
            · rw [hf.stream, hst, List.drop_append, List.drop_eq_nil_of_le hle, List.nil_append]
          · refine Or.inr ⟨?_, fun h hw => ?_⟩
            · have := hf.pos
              omega
            · have := hf.lt (hcut h).1 (by omega)
              omega

/-- A packet that goes to `HandlePacket`: `caplen` bytes behind the header. -/
structure Received where
  packet : List UInt8
  stop : Bool
  sock : Socket

/-- The part of the outer loop that ends in `HandlePacket`; `none` is a `break` before it. -/
def readPacket (mtu : MtuMaxSize) (sock : Socket) : Option Received :=
  let head := readLoop sock [] 0 size
  if head.bufferPos ≠ size then none
  else if !valid head.buf then none
  else if totalPacketLength head.buf > (mtu.val + sizeT - size) % sizeT then none
  else
    let caplen := totalPacketLength head.buf
    let body := readLoop head.sock head.buf size caplen
    if body.bufferPos ≠ (size + caplen : Nat) then none
    else some ⟨copy body.buf size caplen, head.stop || body.stop, body.sock⟩

/-- What the thread sees of the clock and of `send`, after the `n`th packet. -/
structure Peer where
  now : Nat → Int
  sendRet : Nat → Int
  /-- The clock after `send`. -/
  sent : Nat → Int

/-- The peer takes every keep-alive message. -/
def Peer.Alive (p : Peer) : Prop := ∀ n, p.sendRet n = 4

/-- The keep-alive of the outer loop: the new `keepAliveTimer`, `none` for its `break`. -/
def keepAlive (p : Peer) (n : Nat) (keepAliveTimer : Int) : Option Int :=
  if p.now n - keepAliveTimer > 5 then
    if p.sendRet n ≠ 4 then none else some (p.sent n)
  else some keepAliveTimer

/-- A packet was taken off the stream with its header. -/
theorem readPacket_lt {mtu : MtuMaxSize} {sock : Socket} {r : Received}
    (h : readPacket mtu sock = some r) : r.sock.stream.length < sock.stream.length := by
  unfold readPacket at h
  extract_lets head caplen body at h
  split at h
  · cases h
  split at h
  · cases h
  split at h
  · cases h
  split at h
  · cases h
  rename_i hhead _ _ hbody
  injection h with h
  have hh : head.Full sock [] 0 size :=
    (readLoop_spec sock [] 0 size).resolve_right fun hs => hhead (Int.ne_of_lt hs.pos)
  have hb : body.Full head.sock head.buf size caplen :=
    (readLoop_spec head.sock head.buf size caplen).resolve_right
      fun hs => hbody (Int.ne_of_lt hs.pos)
  have hle : 9 ≤ sock.stream.length := hh.le
  rw [← h, hb.stream, hh.stream, List.length_drop, List.length_drop]
  show sock.stream.length - 9 - caplen < sock.stream.length
  omega

/-- The outer loop: the packets that `HandlePacket` gets, in order. -/
def handleTcpConnection (mtu : MtuMaxSize) (p : Peer) (n : Nat) (keepAliveTimer : Int)
    (sock : Socket) : List (List UInt8) :=
  match _h : readPacket mtu sock with
  | none => []
  | some r =>
    r.packet ::
      match keepAlive p n keepAliveTimer with
      | none => []
      | some timer => if r.stop then [] else handleTcpConnection mtu p (n + 1) timer r.sock
termination_by sock.stream.length
decreasing_by exact readPacket_lt _h

end Oreka.Capture
