import Oreka.Lib.Except
import Oreka.Lib.Run
import Oreka.Net.IpFragmentation
import Mathlib.Algebra.BigOperators.Group.Finset.Basic
import Mathlib.Algebra.Order.BigOperators.Group.Finset
import Mathlib.Algebra.Ring.Nat
import Mathlib.Data.List.Sort

/-!
# Reassembly in any order

A `Fragmentation` of a payload is a list of packets that carry its consecutive pieces. The entry of
its identification number `Holds` a set of fragments when it stores them in their order with the sum
of their sizes; a fragment that arrives is added to the set (`Holds.addFragment`), and the one that
completes it makes the entry put the datagram together (`assemble_all`).
-/

namespace Oreka.Net

/-! ## Bytes -/

theorem byte_copy {b : List UInt8} {offset len i : Nat} (h : i < len) :
    byte (copy b offset len) i = byte b (offset + i) := by
  unfold byte copy
  rw [List.getD_eq_getElem?_getD, List.getElem?_map, List.getElem?_range h]
  rfl

theorem byte_set_ne {b : List UInt8} {i j : Nat} {x : UInt8} (h : i ≠ j) :
    byte (b.set i x) j = byte b j := by
  unfold byte
  rw [List.getD_eq_getElem?_getD, List.getD_eq_getElem?_getD, List.getElem?_set_ne h]

theorem byte_set {b : List UInt8} {i : Nat} {x : UInt8} (h : i < b.length) :
    byte (b.set i x) i = x := by
  unfold byte
  rw [List.getD_eq_getElem?_getD, List.getElem?_set_self h]
  rfl

theorem copy_add (b : List UInt8) (offset m n : Nat) :
    copy b offset (m + n) = copy b offset m ++ copy b (offset + m) n := by
  unfold copy
  rw [List.range_add, List.map_append, List.map_map]
  congr 1
  refine List.map_congr_left fun i _ => ?_
  rw [Function.comp_apply, Nat.add_assoc]

theorem copy_copy {b : List UInt8} {o n o' n' : Nat} (h : o' + n' ≤ n) :
    copy (copy b o n) o' n' = copy b (o + o') n' := by
  refine List.map_congr_left fun i hi => ?_
  rw [List.mem_range] at hi
  rw [byte_copy (by omega), Nat.add_assoc]

namespace IpHeader

/-- The fields of two headers that agree on their first 20 bytes. -/
theorem fields_congr {a b : List UInt8} (h : ∀ i < 20, byte a i = byte b i) :
    headerLen a = headerLen b ∧ packetLen a = packetLen b ∧ packetId a = packetId b ∧
      offset a = offset b ∧ isLastFragment a = isLastFragment b := by
  unfold headerLen packetLen packetId offset isLastFragment fragmentFlags ntohs
  rw [h 0 (by omega), h 2 (by omega), h 3 (by omega), h 4 (by omega), h 5 (by omega),
    h 6 (by omega), h 7 (by omega)]
  exact ⟨rfl, rfl, rfl, rfl, rfl⟩

theorem packetLen_setPacketLen {b : List UInt8} {len : Nat} (hb : 4 ≤ b.length)
    (h : len < 65536) : packetLen (setPacketLen b len) = len := by
  unfold packetLen ntohs setPacketLen
  rw [byte_set_ne (by omega), byte_set (by omega), byte_set (by simp; omega)]
  simp only [UInt8.toNat_ofNat']
  omega

theorem headerLen_setPacketLen (b : List UInt8) (len : Nat) :
    headerLen (setPacketLen b len) = headerLen b := by
  unfold headerLen setPacketLen
  rw [byte_set_ne (by omega), byte_set_ne (by omega)]

theorem setPacketLen_append {a b : List UInt8} (len : Nat) (h : 4 ≤ a.length) :
    setPacketLen (a ++ b) len = setPacketLen a len ++ b := by
  unfold setPacketLen
  rw [List.set_append_left 2 _ (by omega), List.set_append_left 3 _ (by simp; omega)]

theorem setPacketLen_setPacketLen (b : List UInt8) (len len' : Nat) :
    setPacketLen (setPacketLen b len) len' = setPacketLen b len' := by
  unfold setPacketLen
  rw [List.set_comm _ _ (by omega), List.set_set, List.set_comm _ _ (by omega), List.set_set]

/-- A header's own length written into it. -/
theorem setPacketLen_self {b : List UInt8} (h : 4 ≤ b.length) :
    setPacketLen b (packetLen b) = b := by
  have hlen : packetLen b = (byte b 2).toNat * 256 + (byte b 3).toNat := rfl
  have h2 := (byte b 2).toNat_lt
  have h3 := (byte b 3).toNat_lt
  have hi : UInt8.ofNat (packetLen b / 256) = b[2] := by
    rw [← UInt8.toNat_inj, getElem_eq_byte, UInt8.toNat_ofNat']
    omega
  have lo : UInt8.ofNat (packetLen b) = b[3] := by
    rw [← UInt8.toNat_inj, getElem_eq_byte, UInt8.toNat_ofNat']
    omega
  unfold setPacketLen
  rw [hi, lo, List.set_getElem_self, List.set_getElem_self]

end IpHeader

open IpHeader

namespace SizedBuffer

theorem append_eq {b buf : List UInt8} {src len : Nat} (h : b.length + len < maxAlloc) :
    append b buf src len = .ok (b ++ copy buf src len) := by
  unfold append
  have hmod : (b.length + len) % sizeT = b.length + len := by
    simp only [sizeT, maxAlloc] at *
    omega
  dsimp only
  rw [hmod]
  split
  · rw [if_neg (by omega)]
  · have hlen : len = 0 := by omega
    rw [if_pos hlen, hlen]
    simp [copy]

theorem new_eq {buf : List UInt8} {len : Nat} (h : len < 65536) :
    new buf len = .ok (copy buf 0 len) := by
  unfold new
  rw [append_eq (by simp only [List.length_nil, maxAlloc]; omega), List.nil_append]

theorem get_eq {b : SizedBuffer} (h : b ≠ []) : get b = .ok b := if_neg h

end SizedBuffer

/-! ## Fragmentations -/

/-- The packet whose header is at `b` is the fragment of datagram `id` that carries `piece` at
`off`. -/
structure IsFragment (b : List UInt8) (id off : Nat) (piece : List UInt8) (last : Bool) :
    Prop where
  headerLen_ge : 20 ≤ headerLen b
  packetLen_eq : packetLen b = headerLen b + piece.length
  id_eq : packetId b = id
  offset_eq : offset b = off
  last_eq : isLastFragment b = last
  payload_eq : copy b (headerLen b) piece.length = piece

instance (b : List UInt8) (id off : Nat) (piece : List UInt8) (last : Bool) :
    Decidable (IsFragment b id off piece last) :=
  decidable_of_iff (20 ≤ headerLen b ∧ packetLen b = headerLen b + piece.length ∧
      packetId b = id ∧ offset b = off ∧ isLastFragment b = last ∧
      copy b (headerLen b) piece.length = piece)
    ⟨fun ⟨h₁, h₂, h₃, h₄, h₅, h₆⟩ => ⟨h₁, h₂, h₃, h₄, h₅, h₆⟩,
      fun ⟨h₁, h₂, h₃, h₄, h₅, h₆⟩ => ⟨h₁, h₂, h₃, h₄, h₅, h₆⟩⟩

/-- A split of a payload into non-empty pieces, and the fragments that carry them. -/
structure Fragmentation (id : Nat) (payload : List UInt8) where
  pieces : List (List UInt8)
  frags : List (List UInt8)
  payload_eq : pieces.flatten = payload
  nonempty : ∀ p ∈ pieces, p ≠ []
  length_eq : frags.length = pieces.length
  isFragment : ∀ i < frags.length, IsFragment (frags.getD i []) id
    (pieces.take i).flatten.length (pieces.getD i []) (i + 1 == frags.length)

namespace Fragmentation

variable {id : Nat} {payload : List UInt8} (F : Fragmentation id payload)

/-- The number of fragments. -/
def n : Nat := F.frags.length

def frag (i : Nat) : List UInt8 := F.frags.getD i []

def piece (i : Nat) : List UInt8 := F.pieces.getD i []

/-- Where a piece starts in the payload. -/
def off (i : Nat) : Nat := (F.pieces.take i).flatten.length

/-- A fragment as it is stored. -/
def stored (i : Nat) : SizedBuffer := copy (F.frag i) 0 (packetLen (F.frag i))

variable {F} {i j : Nat}

theorem frag_spec (h : i < F.n) :
    IsFragment (F.frag i) id (F.off i) (F.piece i) (i + 1 == F.n) := F.isFragment i h

theorem piece_pos (h : i < F.n) : 0 < (F.piece i).length := by
  have h' : i < F.pieces.length := F.length_eq ▸ h
  unfold piece
  rw [List.getD_eq_getElem?_getD, List.getElem?_eq_getElem h']
  exact List.length_pos_of_ne_nil (F.nonempty _ (List.getElem_mem h'))

theorem take_succ_flatten (h : i < F.n) :
    (F.pieces.take (i + 1)).flatten = (F.pieces.take i).flatten ++ F.piece i := by
  have h' : i < F.pieces.length := F.length_eq ▸ h
  unfold piece
  rw [List.take_add_one, List.getElem?_eq_getElem h', List.flatten_append,
    List.getD_eq_getElem?_getD, List.getElem?_eq_getElem h', Option.getD_some, Option.toList_some,
    List.flatten_singleton]

theorem off_succ (h : i < F.n) : F.off (i + 1) = F.off i + (F.piece i).length := by
  unfold off
  rw [take_succ_flatten h, List.length_append]

theorem off_n : F.off F.n = payload.length := by
  unfold off n
  rw [F.length_eq, List.take_length, F.payload_eq]

theorem off_lt_off (h : i < j) (hj : j < F.n) : F.off i < F.off j := by
  induction j with
  | zero => omega
  | succ j ih =>
    have hpos := piece_pos (F := F) (show j < F.n by omega)
    rw [off_succ (by omega)]
    rcases Nat.lt_succ_iff_lt_or_eq.1 h with hij | rfl
    · have := ih hij (by omega)
      omega
    · omega

theorem off_le_off (h : i ≤ j) : F.off i ≤ F.off j := by
  unfold off
  rw [List.length_flatten, List.length_flatten, List.map_take, List.map_take]
  exact List.Sublist.sum_le_sum (List.take_sublist_take_left h) fun _ _ => Nat.zero_le _

theorem off_injective (hi : i < F.n) (hj : j < F.n) (h : F.off i = F.off j) : i = j := by
  rcases Nat.lt_trichotomy i j with hij | hij | hij
  · have := off_lt_off hij hj
    omega
  · exact hij
  · have := off_lt_off hij hi
    omega

theorem off_lt_iff (hj : j < F.n) : F.off i < F.off j ↔ i < j := by
  refine ⟨fun h => ?_, fun h => off_lt_off h hj⟩
  by_contra hle
  have := off_le_off (F := F) (not_lt.1 hle)
  omega

/-- The header of a stored fragment is the fragment's. -/
theorem stored_fields (h : i < F.n) :
    headerLen (F.stored i) = headerLen (F.frag i) ∧
      packetLen (F.stored i) = headerLen (F.frag i) + (F.piece i).length ∧
      offset (F.stored i) = F.off i ∧ isLastFragment (F.stored i) = (i + 1 == F.n) := by
  have hf := frag_spec h
  have hlen := hf.packetLen_eq
  have hge := hf.headerLen_ge
  obtain ⟨hh, hp, -, ho, hl⟩ := fields_congr (a := F.stored i) (b := F.frag i) fun k hk => by
    rw [stored, byte_copy (by omega), Nat.zero_add]
  exact ⟨hh, hp.trans hlen, ho.trans hf.offset_eq, hl.trans hf.last_eq⟩

theorem stored_ne_nil (h : i < F.n) : F.stored i ≠ [] := by
  have hf := frag_spec h
  have hlen := hf.packetLen_eq
  have hge := hf.headerLen_ge
  intro hnil
  have := congrArg List.length hnil
  rw [stored, length_copy, List.length_nil] at this
  omega

theorem payloadLen_frag (h : i < F.n) : payloadLen (F.frag i) = (F.piece i).length := by
  have hf := frag_spec h
  rw [payloadLen_of_le (by have := hf.packetLen_eq; omega), hf.packetLen_eq,
    Nat.add_sub_cancel_left]

theorem payloadLen_stored (h : i < F.n) : payloadLen (F.stored i) = (F.piece i).length := by
  obtain ⟨hh, hp, -⟩ := stored_fields h
  rw [payloadLen_of_le (by omega), hh, hp, Nat.add_sub_cancel_left]

theorem payload_stored (h : i < F.n) :
    copy (F.stored i) (headerLen (F.stored i)) (F.piece i).length = F.piece i := by
  have hf := frag_spec h
  obtain ⟨hh, -⟩ := stored_fields h
  rw [hh, stored, copy_copy (by rw [hf.packetLen_eq]), Nat.zero_add, hf.payload_eq]

theorem new_frag (F : Fragmentation id payload) (i : Nat) :
    SizedBuffer.new (F.frag i) (packetLen (F.frag i)) = .ok (F.stored i) :=
  SizedBuffer.new_eq (ntohs_lt ..)

/-! ## Putting the datagram together -/

/-- What a `ForwardSequentialAlgorithm` holds after the first `k` fragments. -/
def prefixPacket (F : Fragmentation id payload) (k : Nat) : SizedBuffer :=
  setPacketLen (copy (F.frag 0) 0 (headerLen (F.frag 0))) (headerLen (F.frag 0) + F.off k) ++
    (F.pieces.take k).flatten

theorem stored_zero (h : 0 < F.n) : F.stored 0 = F.prefixPacket 1 := by
  have hf := frag_spec h
  have hone : F.off 1 = (F.piece 0).length := by
    rw [off_succ h]
    simp [off]
  have hlen := hf.packetLen_eq
  have hge := hf.headerLen_ge
  have hhdr : packetLen (copy (F.frag 0) 0 (headerLen (F.frag 0))) =
      headerLen (F.frag 0) + F.off 1 := by
    rw [hone, ← hlen]
    exact (fields_congr fun k hk => by rw [byte_copy (by omega), Nat.zero_add]).2.1
  have hpiece : (F.pieces.take 1).flatten = F.piece 0 := take_succ_flatten h
  unfold prefixPacket
  rw [← hhdr, setPacketLen_self (by rw [length_copy]; omega), hpiece, stored, hlen, copy_add,
    Nat.zero_add, hf.payload_eq]

theorem length_prefixPacket (F : Fragmentation id payload) (k : Nat) :
    (F.prefixPacket k).length = headerLen (F.frag 0) + F.off k := by
  unfold prefixPacket off
  rw [List.length_append, length_setPacketLen, length_copy]

theorem prefixPacket_fields (h : 0 < F.n) {k : Nat}
    (hfit : headerLen (F.frag 0) + F.off k < 65536) :
    headerLen (F.prefixPacket k) = headerLen (F.frag 0) ∧
      payloadLen (F.prefixPacket k) = F.off k := by
  have hge := (frag_spec h).headerLen_ge
  have hl := length_copy (F.frag 0) 0 (headerLen (F.frag 0))
  obtain ⟨hh, hp, -⟩ := fields_congr (a := F.prefixPacket k)
    (b := setPacketLen (copy (F.frag 0) 0 (headerLen (F.frag 0))) (headerLen (F.frag 0) + F.off k))
    fun i hi => byte_append (by rw [length_setPacketLen, hl]; omega)
  have hcopy := (fields_congr (a := copy (F.frag 0) 0 (headerLen (F.frag 0))) (b := F.frag 0)
    fun i hi => by rw [byte_copy (by omega), Nat.zero_add]).1
  rw [headerLen_setPacketLen, hcopy] at hh
  rw [packetLen_setPacketLen (by omega) hfit] at hp
  exact ⟨hh, by rw [payloadLen_of_le (by omega), hh, hp, Nat.add_sub_cancel_left]⟩

/-- One fragment more. -/
theorem addFragment_stored {k : Nat} (hk : 0 < k) (hkn : k < F.n)
    (hfit : headerLen (F.frag 0) + payload.length < 65536) (c : Bool) :
    ∃ c', ForwardSequential.addFragment
        { packetData := some (F.prefixPacket k), isComplete := c } (F.stored k) =
      .ok { packetData := some (F.prefixPacket (k + 1)), isComplete := c' } := by
  have h0 : 0 < F.n := by omega
  have hge := (frag_spec h0).headerLen_ge
  have hle : F.off (k + 1) ≤ payload.length := by
    rw [← F.off_n]
    exact off_le_off hkn
  have hsucc := off_succ hkn
  obtain ⟨hh, hp⟩ := prefixPacket_fields h0 (k := k) (by omega)
  have hlen := F.length_prefixPacket k
  have happ : SizedBuffer.append (F.prefixPacket k) (F.stored k) (headerLen (F.stored k))
      (F.piece k).length = .ok (F.prefixPacket k ++ F.piece k) := by
    rw [SizedBuffer.append_eq (by simp only [SizedBuffer.maxAlloc]; omega), payload_stored hkn]
  have hfields := fields_congr (a := F.prefixPacket k ++ F.piece k) (b := F.prefixPacket k)
    fun i hi => byte_append (by omega)
  have hpay : payloadLen (F.prefixPacket k ++ F.piece k) = F.off k := by
    unfold payloadLen at hp ⊢
    rw [hfields.1, hfields.2.1, hp]
  have hset : setPacketLen (F.prefixPacket k ++ F.piece k)
      (headerLen (F.frag 0) + F.off (k + 1)) = F.prefixPacket (k + 1) := by
    unfold prefixPacket
    rw [List.append_assoc, setPacketLen_append _ (by rw [length_setPacketLen, length_copy]; omega),
      setPacketLen_setPacketLen, take_succ_flatten hkn]
  unfold ForwardSequential.addFragment ForwardSequential.tryAddFragment
  dsimp only
  rw [SizedBuffer.get_eq (List.ne_nil_of_length_pos (by omega)), Except.ok_bind, hp,
    (stored_fields hkn).2.2.1, if_neg (not_not.2 rfl), payloadLen_stored hkn, happ, Except.ok_bind,
    hfields.1, hh, hpay, Nat.mod_eq_of_lt (by simp only [sizeT]; omega), Nat.add_assoc, ← hsucc,
    hset]
  exact ⟨_, rfl⟩

open WaitAllAndSort

theorem assemble_from (hfit : headerLen (F.frag 0) + payload.length < 65536) :
    ∀ (m : Nat) {k : Nat} (c : Bool), 0 < k → k + m = F.n → ∃ c',
      assemble ((List.range' k m).map F.stored)
          { packetData := some (F.prefixPacket k), isComplete := c } =
        .ok { packetData := some (F.prefixPacket F.n), isComplete := c' }
  | 0, k, c, _, hkm => ⟨c, by rw [← hkm]; rfl⟩
  | m + 1, k, c, hk, hkm => by
    have hkn : k < F.n := by omega
    obtain ⟨c₁, h₁⟩ := addFragment_stored hk hkn hfit c
    obtain ⟨c₂, h₂⟩ := assemble_from hfit m c₁ (Nat.succ_pos k) (by omega)
    refine ⟨c₂, ?_⟩
    rw [List.range'_succ, List.map_cons, assemble, SizedBuffer.get_eq (stored_ne_nil hkn),
      Except.ok_bind, h₁, Except.ok_bind]
    exact h₂

/-- All the fragments together make the datagram. -/
theorem assemble_all (h : 0 < F.n) (hfit : headerLen (F.frag 0) + payload.length < 65536) :
    ∃ c, assemble ((List.range F.n).map F.stored) {} =
      .ok { packetData := some (F.prefixPacket F.n), isComplete := c } := by
  obtain ⟨n, hn⟩ : ∃ n, F.n = n + 1 := ⟨F.n - 1, by omega⟩
  obtain ⟨hh, hp, ho, -⟩ := stored_fields h
  have hlen : packetLen (F.stored 0) < 65536 := ntohs_lt ..
  have hnew : SizedBuffer.new (F.stored 0) (packetLen (F.stored 0)) = .ok (F.prefixPacket 1) := by
    rw [SizedBuffer.new_eq hlen, ← stored_zero h, hp, stored, copy_copy, Nat.zero_add,
      (frag_spec h).packetLen_eq]
    rw [(frag_spec h).packetLen_eq, Nat.zero_add]
  have hoff : offset (F.stored 0) = 0 := ho
  obtain ⟨c, hc⟩ := assemble_from hfit n (isLastFragment (F.stored 0)) Nat.one_pos (by omega)
  refine ⟨c, ?_⟩
  rw [List.range_eq_range', hn, List.range'_succ, List.map_cons, assemble,
    SizedBuffer.get_eq (stored_ne_nil h), Except.ok_bind]
  simp only [ForwardSequential.addFragment, ForwardSequential.tryAddFragment, hoff, hnew,
    Except.ok_bind, ne_eq, not_true_eq_false, if_false, Bool.false_or]
  rw [← hn]
  exact hc

theorem prefixPacket_n (F : Fragmentation id payload) :
    F.prefixPacket F.n = setPacketLen (copy (F.frag 0) 0 (headerLen (F.frag 0)))
      (headerLen (F.frag 0) + payload.length) ++ payload := by
  unfold prefixPacket
  rw [off_n, n, F.length_eq, List.take_length, F.payload_eq]

/-! ## Storing a fragment -/

/-- The entry stores the fragments `idxs`. -/
structure Holds (F : Fragmentation id payload) (a : WaitAllAndSort) (idxs : List Nat) : Prop where
  sorted : idxs.Pairwise (· ≤ ·)
  nodup : idxs.Nodup
  lt : ∀ i ∈ idxs, i < F.n
  fragments : a.orderedFragments = idxs.map F.stored
  currentSize : a.currentSize = (idxs.map fun i => (F.piece i).length).sum
  finalSize : a.finalSize = if F.n - 1 ∈ idxs then payload.length else 0
  notComplete : a.isComplete = false
  notDropped : a.drop = false

theorem Holds.empty (F : Fragmentation id payload) : Holds F {} [] where
  sorted := .nil
  nodup := .nil
  lt := fun _ h => by cases h
  fragments := rfl
  currentSize := rfl
  finalSize := rfl
  notComplete := rfl
  notDropped := rfl

/-- The insertion loop on the stored fragments. -/
theorem insertFragment_stored (hi : i < F.n) : ∀ {idxs : List Nat}, idxs.Pairwise (· ≤ ·) →
    (∀ k ∈ idxs, k < F.n) → insertFragment (F.frag i) (idxs.map F.stored) =
      .ok (if i ∈ idxs then none else some ((idxs.orderedInsert (· ≤ ·) i).map F.stored))
  | [], _, _ => by
    rw [List.map_nil, insertFragment, new_frag, Except.ok_bind]
    rfl
  | k :: idxs, hs, hlt => by
    have hk := hlt k (by simp)
    rw [List.pairwise_cons] at hs
    rw [List.map_cons, insertFragment, SizedBuffer.get_eq (stored_ne_nil hk), Except.ok_bind,
      (stored_fields hk).2.2.1, (frag_spec hi).offset_eq]
    by_cases hik : k = i
    · subst hik
      rw [if_pos rfl, if_pos (by simp)]
      rfl
    rw [if_neg fun h => hik (off_injective hk hi h)]
    by_cases hgt : i < k
    · have hnot : i ∉ k :: idxs := fun hm => by
        rcases List.mem_cons.1 hm with rfl | hm
        · exact lt_irrefl _ hgt
        · have := hs.1 i hm
          omega
      rw [if_pos (off_lt_off hgt hk), new_frag, Except.ok_bind, if_neg hnot,
        List.orderedInsert_cons, if_pos hgt.le]
      rfl
    · rw [if_neg fun h => hgt ((off_lt_iff hk).1 h),
        insertFragment_stored hi hs.2 fun j hj => hlt j (by simp [hj]), Except.ok_bind,
        List.orderedInsert_cons, if_neg (show ¬ i ≤ k by omega)]
      by_cases hm : i ∈ idxs
      · rw [if_pos hm, if_pos (by simp [hm])]
        rfl
      · rw [if_neg hm, if_neg (by simp [hm, Ne.symm hik])]
        rfl

theorem sum_pieces_range (F : Fragmentation id payload) :
    ∀ k ≤ F.n, ((List.range k).map fun i => (F.piece i).length).sum = F.off k
  | 0, _ => by simp [off]
  | k + 1, h => by
    rw [List.range_succ, List.map_append, List.sum_append, sum_pieces_range F k (by omega),
      off_succ (by omega)]
    simp

namespace Holds

variable {a : WaitAllAndSort} {idxs : List Nat}

theorem of_perm_range (h : Holds F a idxs) (hall : ∀ i < F.n, i ∈ idxs) :
    idxs = List.range F.n := by
  have hperm : idxs.Perm (List.range F.n) :=
    (List.perm_ext_iff_of_nodup h.nodup List.nodup_range).2 fun i => by
      rw [List.mem_range]
      exact ⟨h.lt i, hall i⟩
  refine hperm.eq_of_pairwise' h.sorted ?_
  exact List.pairwise_le_range

/-- The sizes add up to the payload's only when every fragment is there. -/
theorem currentSize_lt (h : Holds F a idxs) {k : Nat} (hk : k < F.n) (hmiss : k ∉ idxs) :
    a.currentSize < payload.length := by
  rw [h.currentSize, ← F.off_n, ← sum_pieces_range F F.n le_rfl,
    ← List.sum_toFinset _ h.nodup, ← List.sum_toFinset _ List.nodup_range]
  refine Finset.sum_lt_sum_of_subset (i := k) (fun i hi => ?_) ?_ ?_ (piece_pos hk)
    fun _ _ _ => Nat.zero_le _
  · simpa using h.lt i (by simpa using hi)
  · simpa using hk
  · simpa using hmiss

theorem currentSize_pos (h : Holds F a idxs) {k : Nat} (hk : k ∈ idxs) : 0 < a.currentSize := by
  have := piece_pos (h.lt k hk)
  have hle := List.single_le_sum (fun _ _ => Nat.zero_le _) _
    (List.mem_map_of_mem (f := fun i => (F.piece i).length) hk)
  rw [h.currentSize]
  omega

/-- The entry after the insertion of a fragment that was missing. -/
theorem insert (h : Holds F a idxs) (hi : i < F.n) (hnew : i ∉ idxs)
    (hfit : headerLen (F.frag 0) + payload.length < 65536) :
    Holds F (a.inserted (F.frag i) ((idxs.orderedInsert (· ≤ ·) i).map F.stored))
      (idxs.orderedInsert (· ≤ ·) i) := by
  have hperm := List.perm_orderedInsert (· ≤ ·) i idxs
  have hlast := (frag_spec hi).last_eq
  have hsum : (idxs.map fun i => (F.piece i).length).sum + (F.piece i).length < sizeT := by
    have := h.currentSize_lt hi hnew
    have hle : F.off i + (F.piece i).length ≤ payload.length := by
      rw [← off_succ hi, ← F.off_n]
      exact off_le_off hi
    rw [h.currentSize] at this
    simp only [sizeT]
    omega
  refine ⟨h.sorted.orderedInsert i, hperm.nodup_iff.2 (List.nodup_cons.2 ⟨hnew, h.nodup⟩), ?_, rfl,
    ?_, ?_, h.notComplete, h.notDropped⟩
  · intro k hk
    rcases List.mem_cons.1 (hperm.mem_iff.1 hk) with rfl | hk
    · exact hi
    · exact h.lt k hk
  · rw [inserted, h.currentSize, payloadLen_frag hi, Nat.mod_eq_of_lt hsum,
      (hperm.map fun i => (F.piece i).length).sum_eq, List.map_cons, List.sum_cons]
    exact Nat.add_comm ..
  · have hmem : F.n - 1 ∈ idxs.orderedInsert (· ≤ ·) i ↔ F.n - 1 = i ∨ F.n - 1 ∈ idxs :=
      List.mem_orderedInsert _
    rw [inserted, hlast, (frag_spec hi).offset_eq, payloadLen_frag hi, ← off_succ hi]
    by_cases hin : i + 1 = F.n
    · rw [if_pos (by simpa using hin), if_pos (hmem.2 (.inl (by omega))), hin, off_n]
      exact Nat.mod_eq_of_lt (by simp only [sizeT]; omega)
    · rw [if_neg (by simpa using hin), h.finalSize]
      simp only [hmem, show F.n - 1 ≠ i by omega, false_or]

/-- **One fragment more**: a retransmission changes nothing, a fragment that leaves others missing is
stored, and the last missing one completes the datagram. -/
theorem addFragment (h : Holds F a idxs) (hi : i < F.n)
    (hfit : headerLen (F.frag 0) + payload.length < 65536) (time : Int) :
    ∃ a', a.addFragment time (F.frag i) = .ok a' ∧
      ((i ∈ idxs ∧ a' = a) ∨
        (i ∉ idxs ∧ (∃ k < F.n, k ≠ i ∧ k ∉ idxs) ∧
          Holds F a' (idxs.orderedInsert (· ≤ ·) i)) ∨
        (i ∉ idxs ∧ (∀ k < F.n, k = i ∨ k ∈ idxs) ∧ a'.drop = false ∧ a'.isComplete = true ∧
          a'.packetData = some (F.prefixPacket F.n))) := by
  have hins := insertFragment_stored hi h.sorted h.lt
  unfold WaitAllAndSort.addFragment tryAddFragment
  rw [h.fragments, hins, Except.ok_bind]
  by_cases hnew : i ∈ idxs
  · rw [if_pos hnew]
    exact ⟨a, rfl, .inl ⟨hnew, rfl⟩⟩
  rw [if_neg hnew]
  have h₁ := h.insert hi hnew hfit
  have hmem {k : Nat} : k ∈ idxs.orderedInsert (· ≤ ·) i ↔ k = i ∨ k ∈ idxs :=
    List.mem_orderedInsert _
  have hpos := h₁.currentSize_pos (hmem.2 (.inl rfl))
  dsimp only
  generalize a.inserted (F.frag i) ((idxs.orderedInsert (· ≤ ·) i).map F.stored) = a₁ at *
  unfold afterInsert
  by_cases hall : ∀ k < F.n, k = i ∨ k ∈ idxs
  · -- complete
    have hrange := h₁.of_perm_range fun k hk => hmem.2 (hall k hk)
    have hcur : a₁.currentSize = payload.length := by
      rw [h₁.currentSize, hrange, sum_pieces_range F F.n le_rfl, off_n]
    have hfin : a₁.finalSize = payload.length := by
      rw [h₁.finalSize, if_pos (hmem.2 (hall _ (by omega)))]
    obtain ⟨c, hc⟩ := assemble_all (show 0 < F.n by omega) hfit
    rw [if_neg (by omega), if_pos (by omega), h₁.fragments, hrange, hc, Except.ok_bind]
    exact ⟨_, rfl, .inr (.inr ⟨hnew, hall, h₁.notDropped, rfl, rfl⟩)⟩
  · push Not at hall
    obtain ⟨k, hk, hki, hkn⟩ := hall
    have hlt := h₁.currentSize_lt hk fun hm => hkn ((hmem.1 hm).resolve_left hki)
    have hfin := h₁.finalSize
    have hne : a₁.currentSize ≠ a₁.finalSize := by
      rw [hfin]
      split <;> omega
    have hle : ¬ (a₁.finalSize ≠ 0 ∧ a₁.currentSize > a₁.finalSize) := by
      rw [hfin]
      split <;> omega
    rw [if_neg hle, if_neg hne]
    exact ⟨_, rfl, .inr (.inl ⟨hnew, ⟨k, hk, hki, hkn⟩,
      ⟨h₁.1, h₁.2, h₁.3, h₁.4, h₁.5, h₁.6, h₁.7, h₁.8⟩⟩)⟩

end Holds

/-! ## Whole runs -/

end Fragmentation

namespace FragmentTable

/-- The table after a call. -/
def next (s : FragmentTable) (a : Arrival) : FragmentTable :=
  match s.handleIpFragment a with
  | .ok (s', _) => s'
  | .error _ => s

/-- No call of the run finds the fragments of `id` too old. -/
def NoTimeout (id : Nat) : FragmentTable → List Arrival → Prop :=
  Run.Meets next fun s a => (s.purge a.now).fragmentMap id = s.fragmentMap id

end FragmentTable

namespace Fragmentation

variable {id : Nat} {payload : List UInt8} {F : Fragmentation id payload} {i : Nat}
  {s : FragmentTable} {idxs : List Nat}

/-- **The step lemma** of a call. -/
theorem handleIpFragment_step (h : Holds F ((s.fragmentMap id).getD {}) idxs)
    (hfit : headerLen (F.frag 0) + payload.length < 65536) (hi : i < F.n) {a : Arrival}
    (ha : a.ipHeader = F.frag i) (ht : (s.purge a.now).fragmentMap id = s.fragmentMap id) :
    ∃ s' packet, s.handleIpFragment a = .ok (s', packet) ∧
      ((packet = none ∧ ((∀ k < F.n, k = i ∨ k ∈ idxs) → i ∈ idxs) ∧
        ∃ idxs', Holds F ((s'.fragmentMap id).getD {}) idxs' ∧ ∀ k, k ∈ idxs' ↔ k = i ∨ k ∈ idxs) ∨
      (i ∉ idxs ∧ (∀ k < F.n, k = i ∨ k ∈ idxs) ∧ packet = some (F.prefixPacket F.n) ∧
        s'.fragmentMap id = none)) := by
  have hid : packetId a.ipHeader = id := ha ▸ (frag_spec hi).id_eq
  obtain ⟨a', ha', hcases⟩ := h.addFragment hi hfit a.updated
  unfold FragmentTable.handleIpFragment
  dsimp only
  rw [hid, ht, ha, ha', Except.ok_bind]
  rcases hcases with ⟨hin, rfl⟩ | ⟨hnew, ⟨k, hk, hki, hkn⟩, h'⟩ | ⟨hnew, hall, hd, hc, hp⟩
  · rw [h.notDropped, h.notComplete]
    refine ⟨_, none, rfl, .inl ⟨rfl, fun _ => hin, idxs, ?_, fun k => ?_⟩⟩
    · simpa using h
    · exact ⟨.inr, fun hk => hk.elim (fun hk => hk ▸ hin) fun hk => hk⟩
  · rw [h'.notDropped, h'.notComplete]
    refine ⟨_, none, rfl, .inl ⟨rfl, fun hall => ?_, idxs.orderedInsert (· ≤ ·) i, ?_,
      fun k => List.mem_orderedInsert _⟩⟩
    · exact absurd (hall k hk) (not_or.2 ⟨hki, hkn⟩)
    · simpa using h'
  · rw [hd, hc]
    exact ⟨_, _, rfl, .inr ⟨hnew, hall, hp, by simp [FragmentTable.erase]⟩⟩

theorem frag_injective {j : Nat} (hi : i < F.n) (hj : j < F.n) (h : F.frag i = F.frag j) :
    i = j := by
  refine off_injective hi hj ?_
  rw [← (frag_spec hi).offset_eq, ← (frag_spec hj).offset_eq, h]

theorem mem_frags {f : List UInt8} : f ∈ F.frags ↔ ∃ i < F.n, f = F.frag i := by
  rw [List.mem_iff_getElem]
  constructor
  · rintro ⟨i, hi, rfl⟩
    exact ⟨i, hi, by rw [frag, List.getD_eq_getElem?_getD, List.getElem?_eq_getElem hi]; rfl⟩
  · rintro ⟨i, hi, rfl⟩
    exact ⟨i, hi, by rw [frag, List.getD_eq_getElem?_getD, List.getElem?_eq_getElem hi]; rfl⟩

/-- **The run lemma**: fragments of which `j` is the last missing one. -/
theorem handleAll_of_holds (hfit : headerLen (F.frag 0) + payload.length < 65536) {j : Nat}
    (hj : j < F.n) {final : Arrival} (hf : final.ipHeader = F.frag j) :
    ∀ {before : List Arrival} {s : FragmentTable} {idxs : List Nat},
      Holds F ((s.fragmentMap id).getD {}) idxs → (∀ a ∈ before, a.ipHeader ∈ F.frags) →
      j ∉ idxs → (∀ a ∈ before, a.ipHeader ≠ final.ipHeader) →
      (∀ k < F.n, k = j ∨ k ∈ idxs ∨ ∃ a ∈ before, a.ipHeader = F.frag k) →
      s.NoTimeout id (before ++ [final]) →
      ∃ s', s.handleAll (before ++ [final]) =
          .ok (s', List.replicate before.length none ++ [some (F.prefixPacket F.n)]) ∧
        s'.fragmentMap id = none
  | [], s, idxs, h, _, hnew, _, hcover, ht => by
    have hall : ∀ k < F.n, k = j ∨ k ∈ idxs := fun k hk => by
      rcases hcover k hk with rfl | hk | ⟨a, ha, _⟩
      · exact .inl rfl
      · exact .inr hk
      · cases ha
    obtain ⟨s', packet, hs, ⟨-, hin, -⟩ | ⟨-, -, rfl, hmap⟩⟩ :=
      handleIpFragment_step h hfit hj hf ht.1
    · exact absurd (hin hall) hnew
    · refine ⟨s', ?_, hmap⟩
      rw [List.nil_append, FragmentTable.handleAll, hs, Except.ok_bind]
      rfl
  | a :: before, s, idxs, h, hb, hnew, hne, hcover, ht => by
    obtain ⟨i, hi, ha⟩ := mem_frags.1 (hb a (by simp))
    have hij : i ≠ j := fun hij => hne a (by simp) (by rw [ha, hf, hij])
    obtain ⟨s', packet, hs, ⟨rfl, -, idxs', h', hmem⟩ | ⟨-, hall, -⟩⟩ :=
      handleIpFragment_step h hfit hi ha ht.1
    · have ht' : s'.NoTimeout id (before ++ [final]) := by
        have hnext : s.next a = s' := by rw [FragmentTable.next, hs]
        exact hnext ▸ ht.2
      have hcover' (k : Nat) (hk : k < F.n) :
          k = j ∨ k ∈ idxs' ∨ ∃ a ∈ before, a.ipHeader = F.frag k := by
        rcases hcover k hk with rfl | hk' | ⟨b, hb', hbk⟩
        · exact .inl rfl
        · exact .inr (.inl ((hmem k).2 (.inr hk')))
        · rcases List.mem_cons.1 hb' with rfl | hb'
          · exact .inr (.inl ((hmem k).2 (.inl (frag_injective hk hi (hbk.symm.trans ha)))))
          · exact .inr (.inr ⟨b, hb', hbk⟩)
      obtain ⟨s'', hs'', hmap⟩ := handleAll_of_holds hfit hj hf h'
        (fun b hb' => hb b (by simp [hb'])) (fun hj' => (hmem j).1 hj' |>.elim (Ne.symm hij) hnew)
        (fun b hb' => hne b (by simp [hb'])) hcover' ht'
      refine ⟨s'', ?_, hmap⟩
      rw [List.cons_append, FragmentTable.handleAll, hs, Except.ok_bind]
      dsimp only
      rw [hs'', Except.ok_bind]
      rfl
    · rcases hall j hj with rfl | hj'
      · exact absurd rfl hij
      · exact absurd hj' hnew

/-- **Reassembly is correct for any order**: the fragments of a datagram in any order and with any
repetitions give nothing until the last missing one arrives, which gives the datagram, with the
header of the fragment at offset 0; none of them stays stored. -/
theorem handleAll_reassembles (F : Fragmentation id payload)
    (hfit : headerLen (F.frag 0) + payload.length ≤ 65535) (s : FragmentTable)
    (hs : s.fragmentMap id = none) (before : List Arrival) (final : Arrival)
    (hbefore : ∀ a ∈ before, a.ipHeader ∈ F.frags) (hfinal : final.ipHeader ∈ F.frags)
    (hmissing : ∀ a ∈ before, a.ipHeader ≠ final.ipHeader)
    (hlast : ∀ f ∈ F.frags, f = final.ipHeader ∨ ∃ a ∈ before, a.ipHeader = f)
    (ht : s.NoTimeout id (before ++ [final])) :
    ∃ s', s.handleAll (before ++ [final]) =
        .ok (s', List.replicate before.length none ++
          [some (setPacketLen (copy (F.frag 0) 0 (headerLen (F.frag 0)))
            (headerLen (F.frag 0) + payload.length) ++ payload)]) ∧
      s'.fragmentMap id = none := by
  obtain ⟨j, hj, hf⟩ := mem_frags.1 hfinal
  have hempty : Holds F ((s.fragmentMap id).getD {}) [] := by
    rw [hs]
    exact Holds.empty F
  rw [← prefixPacket_n]
  refine handleAll_of_holds (by omega) hj hf hempty hbefore (by simp) hmissing (fun k hk => ?_) ht
  rcases hlast (F.frag k) (mem_frags.2 ⟨k, hk, rfl⟩) with h | h
  · exact .inl (frag_injective hk hj (h.trans hf))
  · exact .inr (.inr h)

/-- Two fragments of a datagram of ten bytes. -/
def tenBytes : Fragmentation 0x1234 [1, 2, 3, 4, 5, 6, 7, 8, 9, 10] where
  pieces := [[1, 2, 3, 4, 5, 6, 7, 8], [9, 10]]
  frags := [
    [0x45, 0, 0, 28, 0x12, 0x34, 0x20, 0, 64, 17, 0, 0, 10, 0, 0, 1, 10, 0, 0, 2,
      1, 2, 3, 4, 5, 6, 7, 8],
    [0x45, 0, 0, 22, 0x12, 0x34, 0, 1, 64, 17, 0, 0, 10, 0, 0, 1, 10, 0, 0, 2, 9, 10]]
  payload_eq := rfl
  nonempty := by decide
  length_eq := rfl
  isFragment := by decide

/-- The last fragment twice, then the first one. -/
theorem handleAll_reassembles_tenBytes :
    ∃ s', ({} : FragmentTable).handleAll
        [⟨100, 100, tenBytes.frag 1⟩, ⟨101, 101, tenBytes.frag 1⟩, ⟨102, 102, tenBytes.frag 0⟩] =
      .ok (s', [none, none, some
        [0x45, 0, 0, 30, 0x12, 0x34, 0x20, 0, 64, 17, 0, 0, 10, 0, 0, 1, 10, 0, 0, 2,
          1, 2, 3, 4, 5, 6, 7, 8, 9, 10]]) ∧ s'.fragmentMap 0x1234 = none :=
  handleAll_reassembles tenBytes (by decide) {} rfl
    [⟨100, 100, tenBytes.frag 1⟩, ⟨101, 101, tenBytes.frag 1⟩] ⟨102, 102, tenBytes.frag 0⟩
    (by decide) (by decide) (by decide) (by decide)
    (by unfold FragmentTable.NoTimeout; decide)

end Fragmentation

end Oreka.Net
