import Oreka.Net.IpHeader

/-!
# Oreka encapsulation

`OrkEncapsulationStruct` of `common/PacketHeaderDefs.h`: the packed 9-byte header in front of every
packet that another machine forwards, over UDP or over TCP. It is read in place, in network order.
-/

namespace Oreka.Capture

open Oreka.Net

namespace OrkEncapsulation

/-- `sizeof(OrkEncapsulationStruct)`. -/
abbrev size : Nat := 9

def protocol (b : List UInt8) : Nat := ntohs b 0

def version (b : List UInt8) : UInt8 := byte b 2

/-- `ntohl` of `seq`. -/
def seq (b : List UInt8) : UInt32 := UInt32.ofNat (ntohs b 3 * 65536 + ntohs b 5)

def totalPacketLength (b : List UInt8) : Nat := ntohs b 7

/-- `ntohs(protocol) == 0xbeef && version == 0x01`. -/
def valid (b : List UInt8) : Bool := protocol b == 0xbeef && version b == 0x01

theorem totalPacketLength_lt (b : List UInt8) : totalPacketLength b < 65536 := ntohs_lt b 7

end OrkEncapsulation

/-- A packet with its encapsulation. The length field has 16 bits. -/
structure Frame where
  seq : UInt32
  payload : List UInt8
  length_lt : payload.length < 65536

namespace Frame

def header (f : Frame) : List UInt8 :=
  [0xbe, 0xef, 0x01, UInt8.ofNat (f.seq.toNat / 16777216), UInt8.ofNat (f.seq.toNat / 65536),
    UInt8.ofNat (f.seq.toNat / 256), UInt8.ofNat f.seq.toNat,
    UInt8.ofNat (f.payload.length / 256), UInt8.ofNat f.payload.length]

/-- The frame as it is sent. -/
def bytes (f : Frame) : List UInt8 := f.header ++ f.payload

@[simp] theorem length_header (f : Frame) : f.header.length = OrkEncapsulation.size := rfl

@[simp] theorem length_bytes (f : Frame) :
    f.bytes.length = OrkEncapsulation.size + f.payload.length := by simp [bytes]

theorem bytes_ne_nil (f : Frame) : f.bytes ≠ [] := by simp [bytes, header]

end Frame

/-! ## The header of a frame, with anything behind it -/

namespace OrkEncapsulation

variable (f : Frame) (rest : List UInt8)

theorem valid_header : valid (f.header ++ rest) = true := by
  simp [valid, protocol, version, ntohs, byte, Frame.header]

theorem totalPacketLength_header : totalPacketLength (f.header ++ rest) = f.payload.length := by
  have h := f.length_lt
  simp only [totalPacketLength, ntohs, byte, Frame.header, List.cons_append, List.nil_append,
    List.getD_cons_succ, List.getD_cons_zero, UInt8.toNat_ofNat']
  omega

theorem seq_header : seq (f.header ++ rest) = f.seq := by
  have h := f.seq.toNat_lt
  have hs : ntohs (f.header ++ rest) 3 * 65536 + ntohs (f.header ++ rest) 5 = f.seq.toNat := by
    simp only [ntohs, byte, Frame.header, List.cons_append, List.nil_append, List.getD_cons_succ,
      List.getD_cons_zero, UInt8.toNat_ofNat']
    omega
  rw [seq, hs, UInt32.ofNat_toNat]

end OrkEncapsulation

end Oreka.Capture

/-!
## The UDP packet feed

The packet loop of `UdpListenerThread` (`VoIp.cpp`): the walk over the encapsulated packets of one
received datagram. Sizes are compared as `size_t`.
-/

namespace Oreka.Capture

open Oreka.Net OrkEncapsulation

/-- The datagram that `apr_socket_recv` stored in `frameBuffer`, which was cleared before. -/
structure Datagram where
  bytes : List UInt8
  length_le : bytes.length ≤ 65000

/-- `recv_bytes`. -/
abbrev Datagram.recvBytes (d : Datagram) : Nat := d.bytes.length

/-- The counters of the listener (`s_udpCounter` and so on). -/
structure UdpCounters where
  udpCounter : UInt32
  numUdpPackets : UInt32
  numUdpPackets10s : UInt32
  numLostUdpPackets : UInt32
  numLostUdpPackets10s : UInt32
  deriving DecidableEq, Repr

def UdpCounters.count (c : UdpCounters) (counter : UInt32) : UdpCounters where
  udpCounter := counter
  numUdpPackets := c.numUdpPackets + 1
  numUdpPackets10s := c.numUdpPackets10s + 1
  numLostUdpPackets :=
    if counter > c.udpCounter then c.numLostUdpPackets + (counter - c.udpCounter - 1)
    else c.numLostUdpPackets
  numLostUdpPackets10s :=
    if counter > c.udpCounter then c.numLostUdpPackets10s + (counter - c.udpCounter - 1)
    else c.numLostUdpPackets10s

/-- The arguments of a call of `HandlePacket`: where in the buffer the packet starts, and `caplen`. -/
structure Handed where
  pos : Nat
  caplen : Nat
  deriving DecidableEq, Repr

/-- The packet lies inside the received bytes. -/
def Handed.Inside (d : Datagram) (h : Handed) : Prop := h.pos + h.caplen ≤ d.recvBytes

instance (d : Datagram) (h : Handed) : Decidable (h.Inside d) :=
  inferInstanceAs (Decidable (_ ≤ _))

/-- The bytes of the packet. -/
def Handed.packet (d : Datagram) (h : Handed) : List UInt8 := copy d.bytes h.pos h.caplen

theorem lt_of_valid_drop {b : List UInt8} {i : Nat} (h : valid (b.drop i) = true) :
    i < b.length := by
  by_contra hi
  rw [List.drop_eq_nil_of_le (Nat.not_lt.1 hi)] at h
  revert h
  decide

/-- Subtraction in `size_t`. -/
def sizeSub (a b : Nat) : Nat := (a + sizeT - b) % sizeT

/-- Addition in `size_t`. -/
def sizeAdd (a b : Nat) : Nat := (a + b) % sizeT

/-- The loop `while(frameOffset < (recv_bytes - sizeof(OrkEncapsulationStruct)))`. -/
def walk (d : Datagram) (frameOffset : Nat) (c : UdpCounters) : UdpCounters × List Handed :=
  if frameOffset < sizeSub d.recvBytes size then
    if _h : valid (d.bytes.drop frameOffset) then
      let c := c.count (seq (d.bytes.drop frameOffset))
      let packetLen := totalPacketLength (d.bytes.drop frameOffset)
      if packetLen > sizeAdd (sizeSub (sizeSub d.recvBytes frameOffset) size) 1 then (c, [])
      else
        let r := walk d (frameOffset + packetLen + size) c
        (r.1, ⟨frameOffset + size, packetLen⟩ :: r.2)
    else (c, [])
  else (c, [])
termination_by d.recvBytes - frameOffset
decreasing_by
  have := lt_of_valid_drop _h
  simp only [size, Datagram.recvBytes]
  omega

/-- What is done with a received datagram. -/
def handleDatagram (d : Datagram) (c : UdpCounters) : UdpCounters × List Handed :=
  if d.recvBytes > 0 && valid d.bytes then walk d 0 c else (c, [])

end Oreka.Capture
