import Oreka.Net.Proof.FragmentKeys

/-!
# The size of a reassembled packet

Whatever the headers of the fragments say, no call of `HandleIpFragment` copies out of a buffer, erases an entry twice
or fails in another way. A packet that it returns has its size in `ip_len` unless that is more than 65535: the fragments
of an entry are put together where they are `Consecutive`, and then the last one may begin inside the 16 bits of
`ip_len` and end behind them (`FragmentTable.Fits`).
-/

namespace Oreka.Net

open IpHeader

/-- A fragment that has all of its header. `HandlePacket`, which drops what has no more than `TCP_HEADER_LENGTH` bytes
behind the header, hands over no others. -/
def HeaderInside (b : List UInt8) : Prop := headerLen b ≤ packetLen b ∧ 20 ≤ packetLen b

instance (b : List UInt8) : Decidable (HeaderInside b) := inferInstanceAs (Decidable (_ ∧ _))

/-- A fragment as it is stored. -/
structure Stored (b : SizedBuffer) : Prop where
  length : b.length = packetLen b
  inside : HeaderInside b

theorem headerLen_le (b : List UInt8) : headerLen b ≤ 60 := by
  unfold headerLen
  omega

theorem offset_lt (b : List UInt8) : offset b < 65536 := by
  unfold offset
  omega

theorem payloadLen_lt {b : List UInt8} (h : HeaderInside b) : payloadLen b < 65536 := by
  have hlt := ntohs_lt b 2
  rw [payloadLen_of_le h.1]
  unfold packetLen
  omega

theorem packetOf_fields {b : List UInt8} (h : HeaderInside b) :
    headerLen (packetOf b) = headerLen b ∧ packetLen (packetOf b) = packetLen b ∧
      packetId (packetOf b) = packetId b ∧ offset (packetOf b) = offset b ∧
      isLastFragment (packetOf b) = isLastFragment b := by
  refine fields_congr fun i hi => ?_
  have := h.2
  rw [packetOf, byte_copy (by omega), Nat.zero_add]

theorem Stored.packetOf {b : List UInt8} (h : HeaderInside b) : Stored (packetOf b) := by
  obtain ⟨hh, hp, -⟩ := packetOf_fields h
  refine ⟨?_, ?_⟩
  · rw [hp]
    exact length_copy b 0 _
  · unfold HeaderInside
    rw [hh, hp]
    exact h

theorem Stored.ne_nil {b : SizedBuffer} (h : Stored b) : b ≠ [] := by
  have hlen := h.length
  have hin := h.inside.2
  intro he
  rw [he, List.length_nil] at hlen
  rw [he] at hin
  omega

/-! ## The place of a fragment -/

/-- The order of the fragments of an entry. -/
abbrev Before (a b : SizedBuffer) : Prop := offset a ≤ offset b

/-- Where the offset is new, the fragment goes to its place. -/
theorem insertFragment_new {x : List UInt8} (hx : HeaderInside x) {l : List SizedBuffer} (hl : ∀ f ∈ l, Stored f)
    (hnew : ∀ f ∈ l, offset f ≠ offset x) :
    WaitAllAndSort.insertFragment x l = .ok (some (l.orderedInsert Before (packetOf x))) := by
  have hoff := (packetOf_fields hx).2.2.2.1
  have hcopy : SizedBuffer.new x (packetLen x) = .ok (packetOf x) := SizedBuffer.new_eq (ntohs_lt x 2)
  induction l with
  | nil => rw [WaitAllAndSort.insertFragment, hcopy]; rfl
  | cons f l ih =>
    have hne := hnew f List.mem_cons_self
    rw [WaitAllAndSort.insertFragment, SizedBuffer.get_eq (hl f List.mem_cons_self).ne_nil, Except.ok_bind,
      if_neg hne, List.orderedInsert_cons]
    by_cases hlt : offset f > offset x
    · rw [if_pos hlt, if_pos (by rw [Before, hoff]; exact hlt.le), hcopy]
      rfl
    · rw [if_neg hlt, if_neg (by rw [Before, hoff]; omega),
        ih (fun g hg => hl g (List.mem_cons_of_mem _ hg)) fun g hg => hnew g (List.mem_cons_of_mem _ hg)]
      rfl

/-- A retransmission leaves the entry alone. -/
theorem insertFragment_old {x : List UInt8} {l : List SizedBuffer} (hl : ∀ f ∈ l, Stored f)
    (hsorted : l.Pairwise fun a b => offset a < offset b) (hold : ∃ f ∈ l, offset f = offset x) :
    WaitAllAndSort.insertFragment x l = .ok none := by
  induction l with
  | nil =>
    obtain ⟨f, hf, -⟩ := hold
    cases hf
  | cons f l ih =>
    obtain ⟨hlt, hsorted⟩ := List.pairwise_cons.1 hsorted
    rw [WaitAllAndSort.insertFragment, SizedBuffer.get_eq (hl f List.mem_cons_self).ne_nil, Except.ok_bind]
    by_cases heq : offset f = offset x
    · rw [if_pos heq]
      rfl
    · obtain ⟨g, hg, hgx⟩ := hold
      have hg : g ∈ l := (List.mem_cons.1 hg).resolve_left fun he => heq (he ▸ hgx)
      have hfg := hlt g hg
      rw [if_neg heq, if_neg (by omega), ih (fun g hg => hl g (List.mem_cons_of_mem _ hg)) hsorted ⟨g, hg, hgx⟩]
      rfl

theorem orderedInsert_sorted {x : SizedBuffer} {l : List SizedBuffer}
    (hsorted : l.Pairwise fun a b => offset a < offset b) (hnew : ∀ f ∈ l, offset f ≠ offset x) :
    (l.orderedInsert Before x).Pairwise fun a b => offset a < offset b := by
  induction l with
  | nil => exact List.pairwise_singleton _ _
  | cons f l ih =>
    obtain ⟨hlt, hsorted'⟩ := List.pairwise_cons.1 hsorted
    have hne := hnew f List.mem_cons_self
    rw [List.orderedInsert_cons]
    by_cases hle : Before x f
    · rw [if_pos hle]
      refine List.pairwise_cons.2 ⟨fun g hg => ?_, hsorted⟩
      rcases List.mem_cons.1 hg with rfl | hg
      · exact lt_of_le_of_ne hle hne.symm
      · exact lt_of_le_of_lt hle (hlt g hg)
    · rw [if_neg hle]
      refine List.pairwise_cons.2 ⟨fun g hg => ?_, ih hsorted' fun g hg => hnew g (List.mem_cons_of_mem _ hg)⟩
      rcases (List.mem_orderedInsert Before).1 hg with rfl | hg
      · exact not_le.1 hle
      · exact hlt g hg

/-! ## The assembly -/

theorem packetLen_setPacketLen_mod {b : List UInt8} (hb : 4 ≤ b.length) (len : Nat) :
    packetLen (setPacketLen b len) = len % 65536 := by
  unfold packetLen ntohs setPacketLen
  rw [byte_set_ne (by omega), byte_set (by omega), byte_set (by simp; omega)]
  simp only [UInt8.toNat_ofNat']
  omega

/-- The packet under construction: a header of `hl` bytes and `len` bytes of payload, with what of their sum `ip_len`
holds. -/
structure Joined (hl len : Nat) (p : SizedBuffer) : Prop where
  length : p.length = hl + len
  header : 20 ≤ p.length
  headerLen_eq : headerLen p = hl
  packetLen_eq : packetLen p = (hl + len) % 65536

/-- Fragments that follow on from `len` bytes of payload, behind a header of `hl` bytes, and from one another, where
what there is before each of them has its size in `ip_len`. -/
def FollowsOn (hl : Nat) : Nat → List SizedBuffer → Prop
  | _, [] => True
  | len, g :: gs => (hl + len ≤ 65535 ∧ offset g = len) ∧ FollowsOn hl (len + payloadLen g) gs

instance decidableFollowsOn (hl : Nat) : (len : Nat) → (gs : List SizedBuffer) → Decidable (FollowsOn hl len gs)
  | _, [] => inferInstanceAs (Decidable True)
  | len, g :: gs =>
    have := decidableFollowsOn hl (len + payloadLen g) gs
    inferInstanceAs (Decidable (_ ∧ FollowsOn hl (len + payloadLen g) gs))

theorem Joined.first {f : SizedBuffer} (h : Stored f) : Joined (headerLen f) (payloadLen f) f := by
  have hlt := ntohs_lt f 2
  have hpay := payloadLen_of_le h.inside.1
  have hin := h.inside
  have hsum : headerLen f + payloadLen f = packetLen f := by
    have := hin.1
    omega
  refine ⟨?_, ?_, rfl, ?_⟩
  · rw [hsum, h.length]
  · rw [h.length]
    exact hin.2
  · rw [hsum]
    exact (Nat.mod_eq_of_lt hlt).symm

/-- One fragment more. -/
theorem Joined.append {hl len : Nat} {p g : SizedBuffer} (h : Joined hl len p) (hhl : hl ≤ 60) :
    let data := p ++ copy g (headerLen g) (payloadLen g)
    Joined hl (len + payloadLen g)
      (setPacketLen data ((headerLen data + payloadLen data + payloadLen g) % sizeT)) := by
  dsimp only
  have hp := h.header
  have hmod := h.packetLen_eq
  obtain ⟨hhead, hpack, -⟩ := fields_congr (a := p ++ copy g (headerLen g) (payloadLen g)) (b := p)
    fun i hi => byte_append (by omega)
  have hlen : (p ++ copy g (headerLen g) (payloadLen g)).length = hl + (len + payloadLen g) := by
    rw [List.length_append, length_copy, h.length, Nat.add_assoc]
  generalize p ++ copy g (headerLen g) (payloadLen g) = data at hhead hpack hlen ⊢
  refine ⟨?_, ?_, ?_, ?_⟩
  · rw [length_setPacketLen, hlen]
  · rw [length_setPacketLen, hlen]
    have := h.length
    omega
  · rw [headerLen_setPacketLen, hhead, h.headerLen_eq]
  · have hl4 : 4 ≤ data.length := by
      have := h.length
      omega
    rw [packetLen_setPacketLen_mod hl4]
    unfold payloadLen
    rw [hhead, hpack, h.headerLen_eq, hmod]
    have hg : (packetLen g + sizeT - headerLen g) % sizeT < sizeT := Nat.mod_lt _ (by decide)
    generalize (packetLen g + sizeT - headerLen g) % sizeT = n at hg ⊢
    simp only [sizeT] at hg ⊢
    omega

/-- The sizes alone tell whether a fragment is taken that lies behind the ones before it. -/
theorem payloadLen_eq_offset_iff {hl len : Nat} {p g : SizedBuffer} (h : Joined hl len p) (hhl : hl ≤ 60)
    (hbound : len < offset g + 65536) : payloadLen p = offset g ↔ hl + len ≤ 65535 ∧ offset g = len := by
  have hoff := offset_lt g
  unfold payloadLen
  rw [h.headerLen_eq, h.packetLen_eq]
  simp only [sizeT]
  omega

namespace ForwardSequential

/-- The packet at the start of the fragment at offset 0. -/
theorem addFragment_first {f : SizedBuffer} (h : Stored f) :
    ({} : ForwardSequential).addFragment f =
      .ok (if offset f ≠ 0 then { drop := true }
        else { packetData := some f, isComplete := isLastFragment f }) := by
  have hnew : SizedBuffer.new f (packetLen f) = .ok f := by
    rw [SizedBuffer.new_eq (show packetLen f < 65536 from ntohs_lt f 2)]
    have hcopy := copy_append f []
    rw [List.append_nil, h.length] at hcopy
    rw [hcopy]
  unfold addFragment tryAddFragment
  dsimp only
  split
  · rfl
  · rw [hnew]
    rfl

/-- A later fragment is taken or dropped; no copy leaves the buffer. -/
theorem addFragment_later {a : ForwardSequential} {hl len : Nat} {p g : SizedBuffer} (hp : a.packetData = some p)
    (hjoined : Joined hl len p) (hhl : hl ≤ 60) (hg : Stored g) (hbound : len < offset g + 65536) :
    ∃ a', a.addFragment g = .ok a' ∧
      ((a' = { a with drop := true } ∧ ¬ (hl + len ≤ 65535 ∧ offset g = len)) ∨
        (a'.drop = a.drop ∧ (hl + len ≤ 65535 ∧ offset g = len) ∧
          ∃ p', a'.packetData = some p' ∧ Joined hl (len + payloadLen g) p')) := by
  have hne : p ≠ [] := by
    have := hjoined.header
    intro he
    rw [he, List.length_nil] at this
    omega
  have hiff := payloadLen_eq_offset_iff hjoined hhl hbound
  unfold addFragment tryAddFragment
  rw [hp]
  dsimp only
  rw [SizedBuffer.get_eq hne, Except.ok_bind]
  by_cases heq : payloadLen p = offset g
  · have hroom : p.length + payloadLen g < SizedBuffer.maxAlloc := by
      have hpay := payloadLen_lt hg.inside
      have hoff := offset_lt g
      have hlen := hjoined.length
      simp only [SizedBuffer.maxAlloc]
      omega
    rw [if_neg (not_not.2 heq), SizedBuffer.append_eq hroom, Except.ok_bind]
    exact ⟨_, rfl, .inr ⟨rfl, hiff.1 heq, _, rfl, hjoined.append hhl⟩⟩
  · rw [if_pos heq]
    exact ⟨_, rfl, .inl ⟨rfl, fun h => heq (hiff.2 h)⟩⟩

end ForwardSequential

/-- How long the payloads are. -/
def payloadSum (gs : List SizedBuffer) : Nat := (gs.map payloadLen).sum

/-- The rest of the fragments is put together where they follow on from one another, and dropped elsewhere. -/
theorem assemble_rest {hl : Nat} (hhl : hl ≤ 60) :
    ∀ {gs : List SizedBuffer} {a : ForwardSequential} {len : Nat} {p : SizedBuffer},
      (∀ g ∈ gs, Stored g) → gs.Pairwise (fun a b => offset a < offset b) → (∀ g ∈ gs, len < offset g + 65536) →
      a.drop = false → a.packetData = some p → Joined hl len p →
      ∃ r, WaitAllAndSort.assemble gs a = .ok r ∧ (r.drop = false ↔ FollowsOn hl len gs) ∧
        (r.drop = false → ∃ p', r.packetData = some p' ∧ Joined hl (len + payloadSum gs) p')
  | [], a, len, p, _, _, _, hd, hp, hjoined =>
    ⟨a, rfl, ⟨fun _ => trivial, fun _ => hd⟩, fun _ => ⟨p, hp, hjoined⟩⟩
  | g :: gs, a, len, p, hstored, hsorted, hbound, hd, hp, hjoined => by
    have hg := hstored g List.mem_cons_self
    have hgs : ∀ g ∈ gs, Stored g := fun g hg => hstored g (List.mem_cons_of_mem _ hg)
    obtain ⟨hlt, hsorted⟩ := List.pairwise_cons.1 hsorted
    obtain ⟨a', ha', hcases⟩ := ForwardSequential.addFragment_later hp hjoined hhl hg (hbound g List.mem_cons_self)
    rw [WaitAllAndSort.assemble, SizedBuffer.get_eq hg.ne_nil, Except.ok_bind, ha', Except.ok_bind]
    rcases hcases with ⟨rfl, hnot⟩ | ⟨hd', hfollows, p', hp', hjoined'⟩
    · exact ⟨_, rfl, ⟨fun h => (by cases h), fun h => absurd h.1 hnot⟩, fun h => by cases h⟩
    · have hbound' : ∀ g' ∈ gs, len + payloadLen g < offset g' + 65536 := by
        intro g' hg'
        have hpay := payloadLen_lt hg.inside
        have := hlt g' hg'
        omega
      obtain ⟨r, hr, hiff, hdone⟩ := assemble_rest hhl hgs hsorted hbound' (hd'.trans hd) hp' hjoined'
      rw [if_neg (by rw [hd', hd]; exact Bool.false_ne_true)]
      refine ⟨r, hr, hiff.trans ⟨fun h => ⟨hfollows, h⟩, And.right⟩, fun h => ?_⟩
      obtain ⟨p'', hp'', hjoined''⟩ := hdone h
      refine ⟨p'', hp'', ?_⟩
      rw [payloadSum, List.map_cons, List.sum_cons, ← Nat.add_assoc]
      exact hjoined''

/-- Fragments, in order, that follow on from one another from offset 0 on. -/
def Consecutive : List SizedBuffer → Prop
  | [] => False
  | f :: gs => offset f = 0 ∧ FollowsOn (headerLen f) (payloadLen f) gs

instance : (fs : List SizedBuffer) → Decidable (Consecutive fs)
  | [] => inferInstanceAs (Decidable False)
  | f :: gs => inferInstanceAs (Decidable (offset f = 0 ∧ FollowsOn (headerLen f) (payloadLen f) gs))

/-- The size of the packet that fragments in order make. -/
def packetSize (fs : List SizedBuffer) : Nat := (fs.head?.map headerLen).getD 0 + payloadSum fs

/-- A packet that says how long it is. -/
def Sized (packet : SizedBuffer) : Prop := packetLen packet = packet.length ∧ packet.length ≤ 65535

theorem Joined.sized_iff {hl len : Nat} {p : SizedBuffer} (h : Joined hl len p) : Sized p ↔ hl + len ≤ 65535 := by
  unfold Sized
  rw [h.packetLen_eq, h.length]
  omega

/-- **The assembly**: consecutive fragments make a packet of their size. -/
theorem assemble_all_sizes {fs : List SizedBuffer} (hne : fs ≠ []) (hstored : ∀ f ∈ fs, Stored f)
    (hsorted : fs.Pairwise fun a b => offset a < offset b) :
    ∃ r, WaitAllAndSort.assemble fs {} = .ok r ∧ (r.drop = false ↔ Consecutive fs) ∧
      (r.drop = false → ∃ p, r.packetData = some p ∧ (Sized p ↔ packetSize fs ≤ 65535)) := by
  obtain ⟨f, gs, rfl⟩ := List.exists_cons_of_ne_nil hne
  have hf := hstored f List.mem_cons_self
  obtain ⟨hlt, hsorted⟩ := List.pairwise_cons.1 hsorted
  rw [WaitAllAndSort.assemble, SizedBuffer.get_eq hf.ne_nil, Except.ok_bind, ForwardSequential.addFragment_first hf,
    Except.ok_bind]
  by_cases hzero : offset f = 0
  · rw [if_neg (not_not.2 hzero), if_neg Bool.false_ne_true]
    have hbound : ∀ g ∈ gs, payloadLen f < offset g + 65536 := fun g _ =>
      (payloadLen_lt hf.inside).trans_le (Nat.le_add_left _ _)
    obtain ⟨r, hr, hiff, hdone⟩ := assemble_rest (headerLen_le f) (fun g hg => hstored g (List.mem_cons_of_mem _ hg))
      hsorted hbound (a := { packetData := some f, isComplete := isLastFragment f }) rfl rfl (Joined.first hf)
    refine ⟨r, hr, hiff.trans ⟨fun h => ⟨hzero, h⟩, And.right⟩, fun h => ?_⟩
    obtain ⟨p, hp, hjoined⟩ := hdone h
    exact ⟨p, hp, hjoined.sized_iff⟩
  · rw [if_pos hzero, if_pos rfl]
    exact ⟨_, rfl, ⟨fun h => (by cases h), fun h => absurd h.1 hzero⟩, fun h => by cases h⟩

/-! ## An entry -/

namespace WaitAllAndSort

/-- An entry of the map, between two calls. -/
structure Waiting (a : WaitAllAndSort) : Prop where
  notComplete : a.isComplete = false
  notDropped : a.drop = false
  stored : ∀ f ∈ a.orderedFragments, Stored f
  sorted : a.orderedFragments.Pairwise fun a b => offset a < offset b

/-- The entry with one fragment more. -/
def withFragment (a : WaitAllAndSort) (x : List UInt8) : WaitAllAndSort :=
  a.inserted x (a.orderedFragments.orderedInsert Before (packetOf x))

/-- Fragments that `x` completes, and that follow on from one another, are no more than `ip_len` can say. -/
def Fits (a : WaitAllAndSort) (x : List UInt8) : Prop :=
  (∀ f ∈ a.orderedFragments, offset f ≠ offset x) → (a.withFragment x).currentSize = (a.withFragment x).finalSize →
    Consecutive (a.withFragment x).orderedFragments → packetSize (a.withFragment x).orderedFragments ≤ 65535

instance (a : WaitAllAndSort) (x : List UInt8) : Decidable (a.Fits x) :=
  inferInstanceAs (Decidable (_ → _ → _ → _))

theorem Waiting.withFragment {a : WaitAllAndSort} (h : Waiting a) {x : List UInt8} (hx : HeaderInside x)
    (hnew : ∀ f ∈ a.orderedFragments, offset f ≠ offset x) : Waiting (a.withFragment x) := by
  have hoff := (packetOf_fields hx).2.2.2.1
  refine ⟨h.notComplete, h.notDropped, fun f hf => ?_, ?_⟩
  · rcases (List.mem_orderedInsert Before).1 hf with rfl | hf
    · exact .packetOf hx
    · exact h.stored f hf
  · refine orderedInsert_sorted h.sorted fun f hf => ?_
    rw [hoff]
    exact hnew f hf

/-- The entry is kept or dropped, or it is complete. -/
theorem afterInsert_sizes {a : WaitAllAndSort} (h : Waiting a) (hne : a.orderedFragments ≠ []) (time : Int) :
    ∃ a', a.afterInsert time = .ok a' ∧
      ((a'.isComplete = false ∧ (a'.drop = false → Waiting a') ∧
          ¬ (a.currentSize = a.finalSize ∧ Consecutive a.orderedFragments)) ∨
        (a'.isComplete = true ∧ a'.drop = false ∧ (a.currentSize = a.finalSize ∧ Consecutive a.orderedFragments) ∧
          ∃ p, a'.packetData = some p ∧ (Sized p ↔ packetSize a.orderedFragments ≤ 65535))) := by
  unfold afterInsert
  by_cases hover : a.finalSize ≠ 0 ∧ a.currentSize > a.finalSize
  · rw [if_pos hover]
    exact ⟨_, rfl, .inl ⟨h.notComplete, fun hd => (by cases hd), fun hc => hover.2.ne' hc.1⟩⟩
  rw [if_neg hover]
  by_cases hsize : a.currentSize = a.finalSize
  · obtain ⟨r, hr, hiff, hdone⟩ := assemble_all_sizes hne h.stored h.sorted
    rw [if_pos hsize, hr, Except.ok_bind]
    by_cases hdrop : r.drop = true
    · rw [if_pos hdrop]
      refine ⟨_, rfl, .inl ⟨h.notComplete, fun hd => (by cases hd), fun hc => ?_⟩⟩
      rw [hiff.2 hc.2] at hdrop
      cases hdrop
    · have hkept := Bool.not_eq_true _ ▸ hdrop
      obtain ⟨p, hp, hsized⟩ := hdone hkept
      rw [if_neg hdrop]
      exact ⟨_, rfl, .inr ⟨rfl, h.notDropped, ⟨hsize, hiff.1 hkept⟩, p, hp, hsized⟩⟩
  · rw [if_neg hsize]
    exact ⟨_, rfl, .inl ⟨h.notComplete, fun _ => ⟨h.1, h.2, h.3, h.4⟩, fun hc => hsize hc.1⟩⟩

theorem addFragment_sizes {a : WaitAllAndSort} (h : Waiting a) {x : List UInt8} (hx : HeaderInside x) (time : Int) :
    ∃ a', a.addFragment time x = .ok a' ∧
      ((a'.isComplete = false ∧ (a'.drop = false → Waiting a') ∧ a.Fits x) ∨
        (a'.isComplete = true ∧ a'.drop = false ∧ ∃ p, a'.packetData = some p ∧ (Sized p ↔ a.Fits x))) := by
  unfold addFragment tryAddFragment
  by_cases hnew : ∀ f ∈ a.orderedFragments, offset f ≠ offset x
  · rw [insertFragment_new hx h.stored hnew, Except.ok_bind]
    have hne : (a.withFragment x).orderedFragments ≠ [] :=
      List.ne_nil_of_mem ((List.mem_orderedInsert Before).2 (.inl rfl))
    obtain ⟨a', ha', hcases⟩ := afterInsert_sizes (h.withFragment hx hnew) hne time
    refine ⟨a', ?_, ?_⟩
    · change catchException ((a.withFragment x).afterInsert time) _ = _
      rw [ha']
      rfl
    · rcases hcases with ⟨hc, hw, hnot⟩ | ⟨hc, hd, hboth, p, hp, hsized⟩
      · exact .inl ⟨hc, hw, fun _ hsize hcons => absurd ⟨hsize, hcons⟩ hnot⟩
      · exact .inr ⟨hc, hd, p, hp, hsized.trans ⟨fun hle _ _ _ => hle, fun hf => hf hnew hboth.1 hboth.2⟩⟩
  · have hold : ∃ f ∈ a.orderedFragments, offset f = offset x := by
      push Not at hnew
      exact hnew
    rw [insertFragment_old h.stored h.sorted hold, Except.ok_bind]
    exact ⟨a, rfl, .inl ⟨h.notComplete, fun _ => h, fun hn => absurd hn hnew⟩⟩

end WaitAllAndSort

/-! ## The table -/

namespace FragmentTable

open WaitAllAndSort

/-- All entries wait for more fragments. -/
def AllWaiting (s : FragmentTable) : Prop := ∀ id a, s.fragmentMap id = some a → Waiting a

theorem AllWaiting.purge {s : FragmentTable} (h : s.AllWaiting) (now : Int) : (s.purge now).AllWaiting :=
  forall_purge h now

theorem AllWaiting.update {s s' : FragmentTable} (h : s.AllWaiting) {id : Nat} {o : Option WaitAllAndSort}
    (ho : ∀ a, o = some a → Waiting a) (hs : s'.fragmentMap = Function.update s.fragmentMap id o) :
    s'.AllWaiting :=
  forall_update h ho hs

/-- What is stored with the number of a fragment when it arrives. -/
def entry (s : FragmentTable) (x : Arrival) : WaitAllAndSort :=
  ((s.purge x.now).fragmentMap (packetId x.ipHeader)).getD {}

theorem AllWaiting.entry {s : FragmentTable} (h : s.AllWaiting) (x : Arrival) : Waiting (s.entry x) := by
  unfold FragmentTable.entry
  cases hm : (s.purge x.now).fragmentMap (packetId x.ipHeader) with
  | none => exact ⟨rfl, rfl, fun _ hf => (by cases hf), .nil⟩
  | some a => exact h.purge x.now _ a hm

/-- The condition on a call. -/
def Fits (s : FragmentTable) (x : Arrival) : Prop := (s.entry x).Fits x.ipHeader

instance (s : FragmentTable) (x : Arrival) : Decidable (s.Fits x) :=
  inferInstanceAs (Decidable ((s.entry x).Fits x.ipHeader))

/-- **The step lemma** of a call, which does not fail. -/
theorem AllWaiting.handleIpFragment {s : FragmentTable} (h : s.AllWaiting) {x : Arrival}
    (hx : HeaderInside x.ipHeader) :
    ∃ s' out, s.handleIpFragment x = .ok (s', out) ∧ s'.AllWaiting ∧
      ((∀ packet, out = some packet → Sized packet) ↔ s.Fits x) := by
  have hp := h.purge x.now
  obtain ⟨a', ha', hcases⟩ := addFragment_sizes (h.entry x) hx x.updated
  unfold FragmentTable.handleIpFragment
  dsimp only
  change ∃ s' out, ((s.entry x).addFragment x.updated x.ipHeader >>= _) = _ ∧ _
  rw [ha', Except.ok_bind]
  rcases hcases with ⟨hc, hw, hfits⟩ | ⟨hc, hd, p, hpacket, hsized⟩
  · rw [hc]
    by_cases hd : a'.drop = true
    · rw [if_pos hd]
      refine ⟨_, none, rfl, hp.update (fun a ha => (by cases ha)) (Function.update_idem ..), ?_⟩
      exact ⟨fun _ => hfits, fun _ packet h => (by cases h)⟩
    · rw [if_neg hd]
      refine ⟨_, none, rfl, hp.update (fun a ha => ?_) rfl, fun _ => hfits, fun _ packet h => (by cases h)⟩
      exact Option.some.inj ha ▸ hw (Bool.not_eq_true _ ▸ hd)
  · rw [hc, hd, hpacket]
    refine ⟨_, some p, rfl, hp.update (fun a ha => (by cases ha)) (Function.update_idem ..), ?_⟩
    constructor
    · exact fun hall => hsized.1 (hall p rfl)
    · intro hf packet he
      exact Option.some.inj he ▸ hsized.2 hf

/-- The run lemma. -/
theorem AllWaiting.handleAll : ∀ {xs : List Arrival} {s : FragmentTable}, s.AllWaiting →
    (∀ x ∈ xs, HeaderInside x.ipHeader) →
    ∃ s' outs, s.handleAll xs = .ok (s', outs) ∧
      ((∀ packet, some packet ∈ outs → Sized packet) ↔ Run.Meets next FragmentTable.Fits s xs)
  | [], s, _, _ => ⟨s, [], rfl, fun _ => trivial, fun _ packet h => (by cases h)⟩
  | x :: xs, s, h, hxs => by
    obtain ⟨s₁, out, hs₁, h₁, hiff⟩ := h.handleIpFragment (hxs x List.mem_cons_self)
    obtain ⟨s₂, outs, hs₂, hiff'⟩ := h₁.handleAll fun y hy => hxs y (List.mem_cons_of_mem _ hy)
    have hnext : s.next x = s₁ := by rw [FragmentTable.next, hs₁]
    refine ⟨s₂, out :: outs, ?_, ?_⟩
    · rw [FragmentTable.handleAll, hs₁, Except.ok_bind]
      dsimp only
      rw [hs₂]
      rfl
    · rw [Run.Meets, hnext, ← hiff, ← hiff']
      constructor
      · intro hall
        exact ⟨fun p hp => hall p (hp ▸ List.mem_cons_self), fun p hp => hall p (List.mem_cons_of_mem _ hp)⟩
      · rintro ⟨hout, houts⟩ p hp
        rcases List.mem_cons.1 hp with hp | hp
        · exact hout p hp.symm
        · exact houts p hp

end FragmentTable

/-- All calls of a run return, without a copy behind a buffer or an entry erased twice, and what they return says how
long it is. -/
def ReassembledSizes (arrivals : List Arrival) : Prop :=
  ∃ outs, outputs arrivals = .ok outs ∧ ∀ packet, some packet ∈ outs → Sized packet

theorem outputs_sizes (arrivals : List Arrival) (hinside : ∀ x ∈ arrivals, HeaderInside x.ipHeader) :
    ∃ outs, outputs arrivals = .ok outs ∧
      ((∀ packet, some packet ∈ outs → Sized packet) ↔
        Run.Meets FragmentTable.next FragmentTable.Fits {} arrivals) := by
  have hempty : FragmentTable.AllWaiting {} := fun _ _ h => (by cases h)
  obtain ⟨s', outs, hs, hiff⟩ := hempty.handleAll hinside
  refine ⟨outs, ?_, hiff⟩
  rw [outputs, hs]
  rfl

theorem reassembledSizes_of_outputs {arrivals : List Arrival} {outs : List (Option SizedBuffer)}
    (hout : outputs arrivals = .ok outs) :
    ReassembledSizes arrivals ↔ ∀ packet, some packet ∈ outs → Sized packet := by
  constructor
  · rintro ⟨outs', hout', hsized⟩
    rw [hout] at hout'
    cases hout'
    exact hsized
  · exact fun hsized => ⟨outs, hout, hsized⟩

/-- **The sizes are right** exactly where no call completes a packet that is longer than `ip_len` can say. -/
theorem reassembledSizes_iff (arrivals : List Arrival) (hinside : ∀ x ∈ arrivals, HeaderInside x.ipHeader) :
    ReassembledSizes arrivals ↔ Run.Meets FragmentTable.next FragmentTable.Fits {} arrivals := by
  obtain ⟨outs, hout, hiff⟩ := outputs_sizes arrivals hinside
  exact (reassembledSizes_of_outputs hout).trans hiff

theorem reassembledSizes_iff_inTurn : ReassembledSizes inTurn :=
  (reassembledSizes_iff inTurn (by decide)).2 (by decide)

/-- A fragment of the datagram 7, at the start of what is captured: `off` is its `ip_off`, `len` the size of its
payload. -/
def fragmentOf (off len : Nat) : List UInt8 :=
  [0x45, 0, UInt8.ofNat ((20 + len) / 256), UInt8.ofNat (20 + len), 0, 7, UInt8.ofNat (off / 256), UInt8.ofNat off,
    64, 17, 0, 0, 10, 0, 0, 1, 10, 0, 0, 2] ++ List.replicate 32760 0

/-- Three fragments that follow on from one another, of which the last one begins at 65512 and ends at 65536. -/
def beyondIpLen : List Arrival :=
  [⟨100, 100, fragmentOf (0x2000 + 0) 32752⟩, ⟨100, 100, fragmentOf (0x2000 + 4094) 32760⟩,
    ⟨100, 100, fragmentOf 8189 24⟩]

theorem not_reassembledSizes : (∀ x ∈ beyondIpLen, HeaderInside x.ipHeader) ∧ ¬ ReassembledSizes beyondIpLen := by
  have hinside : ∀ x ∈ beyondIpLen, HeaderInside x.ipHeader := by decide
  obtain ⟨outs, hout, hiff⟩ := outputs_sizes beyondIpLen hinside
  refine ⟨hinside, fun h => ?_⟩
  have hmeets := hiff.1 ((reassembledSizes_of_outputs hout).1 h)
  revert hmeets
  decide +kernel

end Oreka.Net
