import Mathlib.Data.List.Basic
import Oreka.Lib.Memory

/-!
# IPv4 headers

`IpHeaderStruct` of `common/PacketHeaderDefs.h`: a header is read in place, so it is the list of bytes
from its first one on (the packet, and whatever was captured behind it). Multi-byte fields are in
network order.
-/

namespace Oreka.Net

/-- `SIZE_MAX + 1`. -/
abbrev sizeT : Nat := 18446744073709551616

/-- The byte at an offset of the memory that `b` is the start of. -/
def byte (b : List UInt8) (i : Nat) : UInt8 := b.getD i 0

theorem getElem_eq_byte {b : List UInt8} {i : Nat} (h : i < b.length) : b[i] = byte b i := by
  unfold byte
  rw [List.getD_eq_getElem?_getD, List.getElem?_eq_getElem h]
  rfl

theorem byte_append {a b : List UInt8} {i : Nat} (h : i < a.length) :
    byte (a ++ b) i = byte a i := by
  unfold byte
  rw [List.getD_eq_getElem?_getD, List.getD_eq_getElem?_getD, List.getElem?_append_left h]

theorem byte_append_right (a b : List UInt8) (i : Nat) : byte (a ++ b) (a.length + i) = byte b i := by
  simp [byte, List.getElem?_append_right]

theorem byte_drop (b : List UInt8) (k i : Nat) : byte (b.drop k) i = byte b (k + i) := by
  simp [byte]

theorem byte_of_length_le {b : List UInt8} {i : Nat} (h : b.length ≤ i) : byte b i = 0 := by
  unfold byte
  rw [List.getD_eq_getElem?_getD, List.getElem?_eq_none h]
  rfl

/-- What is read up to the end is the rest. -/
theorem read_byte (b : List UInt8) (p : Nat) : Memory.read (byte b) p (b.length - p) = b.drop p := by
  apply List.ext_getElem
  · simp
  · intro i h h'
    rw [List.length_drop] at h'
    simp [Memory.read, byte, show p + i < b.length by omega]

/-- What is read over the end of `a` is the rest of it, and then what is behind it. -/
theorem read_byte_append {a b : List UInt8} {p n : Nat} (h : (a.drop p).length ≤ n) :
    Memory.read (byte (a ++ b)) p n =
      a.drop p ++ Memory.read (byte b) (p - a.length) (n - (a.drop p).length) := by
  obtain ⟨k, rfl⟩ := Nat.exists_eq_add_of_le h
  have hinside : Memory.read (byte (a ++ b)) p (a.drop p).length = a.drop p := by
    rw [← read_byte a p, Memory.length_read]
    exact Memory.read_congr fun i hi => byte_append (by omega)
  rw [Memory.read_add, hinside, Nat.add_sub_cancel_left, List.append_cancel_left_eq]
  refine List.map_congr_left fun i _ => ?_
  rcases Nat.le_total p a.length with hle | hge
  · have hindex : p + (a.drop p).length + i = a.length + i := by
      rw [List.length_drop]
      omega
    rw [hindex, byte_append_right, Nat.sub_eq_zero_of_le hle, Nat.zero_add]
  · have hindex : p + (a.drop p).length + i = a.length + (p - a.length + i) := by
      rw [List.length_drop]
      omega
    rw [hindex, byte_append_right]

/-- `len` bytes of memory from an offset on. -/
def copy (b : List UInt8) (offset len : Nat) : List UInt8 :=
  (List.range len).map fun i => byte b (offset + i)

@[simp] theorem length_copy (b : List UInt8) (offset len : Nat) :
    (copy b offset len).length = len := by simp [copy]

theorem copy_drop (b : List UInt8) (k offset len : Nat) :
    copy (b.drop k) offset len = copy b (k + offset) len := by
  simp [copy, byte_drop, Nat.add_assoc]

/-- The memory at the start of `a`, as far as `a` goes. -/
theorem copy_append (a b : List UInt8) : copy (a ++ b) 0 a.length = a := by
  apply List.ext_getElem
  · simp
  · intro i h h'
    simp only [copy, List.getElem_map, List.getElem_range, Nat.zero_add, byte_append h',
      getElem_eq_byte h']

/-- `ntohs` of the two bytes at an offset. -/
def ntohs (b : List UInt8) (i : Nat) : Nat := (byte b i).toNat * 256 + (byte b (i + 1)).toNat

theorem ntohs_lt (b : List UInt8) (i : Nat) : ntohs b i < 65536 := by
  have h := (byte b i).toNat_lt
  have h' := (byte b (i + 1)).toNat_lt
  unfold ntohs
  omega

namespace IpHeader

def headerLen (b : List UInt8) : Nat := (byte b 0).toNat % 16 * 4

def packetLen (b : List UInt8) : Nat := ntohs b 2

/-- `packetLen() - headerLen()` in `size_t`. -/
def payloadLen (b : List UInt8) : Nat := (packetLen b + sizeT - headerLen b) % sizeT

def packetId (b : List UInt8) : Nat := ntohs b 4

/-- The last 13 bits of `ip_off`, in units of 8 bytes. -/
def offset (b : List UInt8) : Nat := ntohs b 6 % 8192 * 8

/-- The first 3 bits of `ip_off`. -/
def fragmentFlags (b : List UInt8) : Nat := ntohs b 6 / 8192

def isLastFragment (b : List UInt8) : Bool := fragmentFlags b % 2 == 0

def isFragmented (b : List UInt8) : Bool := !isLastFragment b || offset b > 0

/-- `ip_p`. -/
def protocol (b : List UInt8) : UInt8 := byte b 9

/-- `ip_src`. -/
def src (b : List UInt8) : List UInt8 := copy b 12 4

/-- `ip_dest`. -/
def dest (b : List UInt8) : List UInt8 := copy b 16 4

/-- `ip_len = htons(len)`. -/
def setPacketLen (b : List UInt8) (len : Nat) : List UInt8 :=
  (b.set 2 (UInt8.ofNat (len / 256))).set 3 (UInt8.ofNat len)

@[simp] theorem length_setPacketLen (b : List UInt8) (len : Nat) :
    (setPacketLen b len).length = b.length := by simp [setPacketLen]

theorem payloadLen_of_le {b : List UInt8} (h : headerLen b ≤ packetLen b) :
    payloadLen b = packetLen b - headerLen b := by
  have := ntohs_lt b 2
  unfold payloadLen packetLen at *
  simp only [sizeT]
  omega

end IpHeader

end Oreka.Net
