import Oreka.Capture.Proof.RtcpHeaders

/-!
# The source description walk

`TryRtcp` returns, reads nothing outside the payload and takes the CNAME item of a well-formed chunk, exactly
where the steps that the walk over the items makes allow it (`walkSound_iff`): an item of length zero stops it
for ever, and what comes behind another item is found only if the length byte of that leads to it.
-/

namespace Oreka.Capture.Rtcp

open Oreka.Net Walk

variable {m : List UInt8} {size rounds stop i j : Nat}

/-! ## The packets -/

def packetEnd (m : List UInt8) (r : Nat) : Nat := r + 4 * (ntohs m (r + 2) + 1)

/-- A source description with chunks. -/
def Sdes (m : List UInt8) (r : Nat) : Prop := (byte m (r + 1)).toNat = RTCP_SDES ∧ (byte m r).toNat % 32 ≠ 0

/-- The walk over the packet's first chunk ends at what looks like a CNAME. -/
def Found (m : List UInt8) (r c : Nat) : Prop :=
  Ends m (packetEnd m r) (r + 8) c ∧ c < packetEnd m r ∧ itemType m c = SDES_CNAME

theorem findCname_eq (size rounds r : Nat) :
    findCname m size rounds r =
      if InCompound size r then do
        let vpc ← readByte m r
        let length ← readShort m (r + 2)
        let pt ← readByte m (r + 1)
        if pt = RTCP_SDES ∧ vpc % 32 ≠ 0 then do
          let item ← skipItems m (r + 4 * (length + 1)) rounds (r + 8)
          match item with
          | none => return none
          | some csrcItem => do
            let found ← isCname m (r + 4 * (length + 1)) csrcItem
            if found then return some (some csrcItem)
            else findCname m size rounds (r + 4 * (length + 1))
        else findCname m size rounds (r + 4 * (length + 1))
      else return some none := by
  rw [findCname]
  rfl

theorem isCname_value {c : Nat} : (isCname m stop c).value = true ↔ c < stop ∧ itemType m c = SDES_CNAME := by
  unfold isCname itemType
  by_cases h : c < stop
  · simp [h]
  · simp [h]

theorem within_isCname {c n : Nat} (h : stop ≤ n) : (isCname m stop c).Within n := by
  unfold isCname
  by_cases hlt : c < stop
  · simp only [if_pos hlt, Reading.within_bind, within_readByte, Reading.within_pure, and_true]
    omega
  · simp [hlt]

section Packet

variable {r c n : Nat}

theorem findCname_end (h : ¬InCompound size r) : findCname m size rounds r = pure (some none) := by
  rw [findCname_eq, if_neg h]

theorem findCname_other (rounds : Nat) (h : InCompound size r) (hs : ¬Sdes m r) :
    (findCname m size rounds r).value = (findCname m size rounds (packetEnd m r)).value ∧
      ((findCname m size rounds r).Within n ↔
        r + 4 ≤ n ∧ (findCname m size rounds (packetEnd m r)).Within n) := by
  have hs' : ¬((byte m (r + 1)).toNat = RTCP_SDES ∧ (byte m r).toNat % 32 ≠ 0) := hs
  rw [findCname_eq, if_pos h]
  simp only [Reading.bind_value, readByte_value, readShort_value, Reading.within_bind, within_readByte,
    within_readShort, if_neg hs']
  refine ⟨rfl, ?_⟩
  constructor
  · rintro ⟨-, h2, -, hn⟩
    exact ⟨h2, hn⟩
  · rintro ⟨h2, hn⟩
    exact ⟨by omega, h2, by omega, hn⟩

theorem findCname_stuck (h : InCompound size r) (hs : Sdes m r)
    (hc : (skipItems m (packetEnd m r) rounds (r + 8)).value = none) : (findCname m size rounds r).value = none := by
  have hs' : (byte m (r + 1)).toNat = RTCP_SDES ∧ (byte m r).toNat % 32 ≠ 0 := hs
  have hp : r + 4 * (ntohs m (r + 2) + 1) = packetEnd m r := rfl
  rw [findCname_eq, if_pos h]
  simp only [Reading.bind_value, readByte_value, readShort_value, if_pos hs', hp, hc, Reading.pure_value]

theorem findCname_found (h : InCompound size r) (hs : Sdes m r)
    (hc : (skipItems m (packetEnd m r) rounds (r + 8)).value = some c)
    (hcname : (isCname m (packetEnd m r) c).value = true) :
    (findCname m size rounds r).value = some (some c) ∧
      ((findCname m size rounds r).Within n ↔ r + 4 ≤ n ∧
        (skipItems m (packetEnd m r) rounds (r + 8)).Within n ∧ (isCname m (packetEnd m r) c).Within n) := by
  have hs' : (byte m (r + 1)).toNat = RTCP_SDES ∧ (byte m r).toNat % 32 ≠ 0 := hs
  have hp : r + 4 * (ntohs m (r + 2) + 1) = packetEnd m r := rfl
  rw [findCname_eq, if_pos h]
  simp only [Reading.bind_value, readByte_value, readShort_value, Reading.within_bind, within_readByte,
    within_readShort, if_pos hs', hp, hc, hcname, if_true, Reading.pure_value, Reading.within_pure, and_true,
    true_and]
  constructor
  · rintro ⟨-, h2, -, hn⟩
    exact ⟨h2, hn⟩
  · rintro ⟨h2, hn⟩
    exact ⟨by omega, h2, by omega, hn⟩

theorem findCname_next (h : InCompound size r) (hs : Sdes m r)
    (hc : (skipItems m (packetEnd m r) rounds (r + 8)).value = some c)
    (hcname : (isCname m (packetEnd m r) c).value = false) :
    (findCname m size rounds r).value = (findCname m size rounds (packetEnd m r)).value ∧
      ((findCname m size rounds r).Within n ↔ r + 4 ≤ n ∧
        (skipItems m (packetEnd m r) rounds (r + 8)).Within n ∧ (isCname m (packetEnd m r) c).Within n ∧
          (findCname m size rounds (packetEnd m r)).Within n) := by
  have hs' : (byte m (r + 1)).toNat = RTCP_SDES ∧ (byte m r).toNat % 32 ≠ 0 := hs
  have hp : r + 4 * (ntohs m (r + 2) + 1) = packetEnd m r := rfl
  rw [findCname_eq, if_pos h]
  simp only [Reading.bind_value, readByte_value, readShort_value, Reading.within_bind, within_readByte,
    within_readShort, if_pos hs', hp, hc, hcname, Bool.false_eq_true, if_false, true_and]
  constructor
  · rintro ⟨-, h2, -, hn⟩
    exact ⟨h2, hn⟩
  · rintro ⟨h2, hn⟩
    exact ⟨by omega, h2, by omega, hn⟩

end Packet

/-! ## The packets that are looked at -/

/-- No CNAME is found in a packet that the walk looks at. -/
def NotFound (m : List UInt8) (r : Nat) : Prop :=
  Sdes m r → ∃ c, Ends m (packetEnd m r) (r + 8) c ∧ ¬(c < packetEnd m r ∧ itemType m c = SDES_CNAME)

/-- The walk gets from one packet to another. -/
inductive Leads (m : List UInt8) (size : Nat) : Nat → Nat → Prop
  | refl (r : Nat) : Leads m size r r
  | next {r r' : Nat} : InCompound size r → NotFound m r → Leads m size (packetEnd m r) r' → Leads m size r r'

variable {r r' c : Nat} {res : Option Nat}

/-- What the walk does at a packet. -/
theorem findCname_cases (h : (findCname m size rounds r).value = some res)
    (hw : (findCname m size rounds r).Within size) :
    (¬InCompound size r ∧ res = none) ∨
    (InCompound size r ∧ Sdes m r ∧ Moves m (packetEnd m r) size (r + 8) ∧ ∃ c, Found m r c ∧ res = some c) ∨
    (InCompound size r ∧ NotFound m r ∧ (Sdes m r → Moves m (packetEnd m r) size (r + 8)) ∧
      (findCname m size rounds (packetEnd m r)).value = some res ∧
        (findCname m size rounds (packetEnd m r)).Within size) := by
  by_cases hin : InCompound size r
  · by_cases hs : Sdes m r
    · cases hc : (skipItems m (packetEnd m r) rounds (r + 8)).value with
      | none =>
        rw [findCname_stuck hin hs hc] at h
        cases h
      | some c =>
        have hends := ends_of_skipItems hc
        cases hb : (isCname m (packetEnd m r) c).value with
        | true =>
          obtain ⟨hv, hwith⟩ := findCname_found (n := size) hin hs hc hb
          obtain ⟨-, hskip, -⟩ := hwith.mp hw
          rw [hv] at h
          obtain rfl := Option.some.inj h
          exact .inr (.inl ⟨hin, hs, moves_of_skipItems hc hskip, c, ⟨hends, isCname_value.mp hb⟩, rfl⟩)
        | false =>
          obtain ⟨hv, hwith⟩ := findCname_next (n := size) hin hs hc hb
          obtain ⟨-, hskip, -, hnext⟩ := hwith.mp hw
          refine .inr (.inr ⟨hin, fun _ => ⟨c, hends, ?_⟩, fun _ => moves_of_skipItems hc hskip, hv ▸ h, hnext⟩)
          rw [← isCname_value, hb]
          exact Bool.false_ne_true
    · obtain ⟨hv, hwith⟩ := findCname_other (n := size) rounds hin hs
      exact .inr (.inr ⟨hin, fun h' => absurd h' hs, fun h' => absurd h' hs, hv ▸ h, (hwith.mp hw).2⟩)
  · rw [findCname_end hin] at h
    exact .inl ⟨hin, (Option.some.inj h).symm⟩

theorem Found.unique (h : Found m r c) {c' : Nat} (h' : Found m r c') : c = c' := h.1.unique h'.1

theorem Found.not_notFound (h : Found m r c) (hs : Sdes m r) : ¬NotFound m r := by
  intro h'
  obtain ⟨c', hends, hc'⟩ := h' hs
  obtain rfl := h.1.unique hends
  exact hc' h.2

/-- In every packet that is looked at the walk is as it should be, and what it finds is the result. -/
theorem Leads.of_findCname (hl : Leads m size r r') (h : (findCname m size rounds r).value = some res)
    (hw : (findCname m size rounds r).Within size) (hin : InCompound size r') (hs : Sdes m r') :
    Moves m (packetEnd m r') size (r' + 8) ∧ ∀ c, Found m r' c → res = some c := by
  induction hl with
  | refl =>
    rcases findCname_cases h hw with ⟨hout, -⟩ | ⟨-, -, hm, c, hc, rfl⟩ | ⟨-, hnot, hm, -⟩
    · exact absurd hin hout
    · exact ⟨hm, fun c' hc' => by rw [hc.unique hc']⟩
    · exact ⟨hm hs, fun c hc => absurd hnot (hc.not_notFound hs)⟩
  | next hin' hnot _ ih =>
    rcases findCname_cases h hw with ⟨hout, -⟩ | ⟨-, hs', -, c, hc, -⟩ | ⟨-, -, -, hv, hwith⟩
    · exact absurd hin' hout
    · exact absurd hnot (hc.not_notFound hs')
    · exact ih hv hwith hin hs

/-- What is found is found in a packet that is looked at. -/
theorem leads_of_findCname (h : (findCname m size rounds r).value = some (some c))
    (hw : (findCname m size rounds r).Within size) :
    ∃ r', Leads m size r r' ∧ InCompound size r' ∧ Sdes m r' ∧ Found m r' c := by
  induction hk : size - r using Nat.strongRecOn generalizing r with
  | ind k ih =>
    rcases findCname_cases h hw with ⟨-, hres⟩ | ⟨hin, hs, -, c', hc', hres⟩ | ⟨hin, hnot, -, hv, hwith⟩
    · cases hres
    · obtain rfl := Option.some.inj hres
      exact ⟨r, .refl r, hin, hs, hc'⟩
    · have hlt := inCompound_iff.mp hin
      obtain ⟨r', hl, h'⟩ := ih (size - packetEnd m r) (by unfold packetEnd; omega) hv hwith rfl
      exact ⟨r', .next hin hnot hl, h'⟩

/-- The walk over a compound packet returns where every item it passes moves it on. -/
theorem findCname_of_moves {ns : List Nat} (ht : Tiles m size r ns)
    (hm : ∀ r', Leads m size r r' → InCompound size r' → Sdes m r' → Moves m (packetEnd m r') size (r' + 8)) :
    ∃ res, (findCname m size (size + 1) r).value = some res ∧ (findCname m size (size + 1) r).Within size := by
  induction ns generalizing r with
  | nil =>
    have hr : r = size := ht
    have hout : ¬InCompound size r := by
      rw [inCompound_iff]
      omega
    rw [findCname_end hout]
    exact ⟨none, rfl, Reading.within_pure _ _⟩
  | cons n ns ih =>
    by_cases hin : InCompound size r
    · obtain ⟨-, rfl, htail⟩ := ht
      have hend : packetEnd m r ≤ size := by
        have := htail.sum
        unfold packetEnd
        omega
      have h16 := inCompound_iff.mp hin
      by_cases hs : Sdes m r
      · obtain ⟨c, hc, hskip⟩ : ∃ c, (skipItems m (packetEnd m r) (size + 1) (r + 8)).value = some c ∧ _ :=
          skipItems_of_moves hend (hm r (.refl r) hin hs) (by omega)
        have hcname := within_isCname (m := m) (c := c) hend
        cases hb : (isCname m (packetEnd m r) c).value with
        | true =>
          obtain ⟨hv, hwith⟩ := findCname_found (n := size) hin hs hc hb
          exact ⟨some c, hv, hwith.mpr ⟨by omega, hskip, hcname⟩⟩
        | false =>
          obtain ⟨hv, hwith⟩ := findCname_next (n := size) hin hs hc hb
          have hnot : NotFound m r := fun _ => ⟨c, ends_of_skipItems hc, by rw [← isCname_value, hb]; simp⟩
          obtain ⟨res, hres, hnext⟩ := ih htail fun r' hl => hm r' (.next hin hnot hl)
          exact ⟨res, hv.trans hres, hwith.mpr ⟨by omega, hskip, hcname, hnext⟩⟩
      · obtain ⟨hv, hwith⟩ := findCname_other (n := size) (size + 1) hin hs
        obtain ⟨res, hres, hnext⟩ := ih htail fun r' hl => hm r' (.next hin (fun h => absurd h hs) hl)
        exact ⟨res, hv.trans hres, hwith.mpr ⟨by omega, hnext⟩⟩
    · rw [findCname_end hin]
      exact ⟨none, rfl, Reading.within_pure _ _⟩

/-! ## A well-formed source description -/

/-- The items of a chunk from `i` on, with two bytes and as many as they say, up to an END. -/
inductive Items (m : List UInt8) (stop : Nat) : Nat → List Nat → Prop
  | done {i : Nat} : i < stop → itemType m i = SDES_END → Items m stop i []
  | item {i : Nat} {is : List Nat} : itemType m i ≠ SDES_END → i + 2 + itemLength m i ≤ stop →
    Items m stop (i + 2 + itemLength m i) is → Items m stop i (i :: is)

/-- The first chunk of the packet is well-formed, and `c` is its CNAME item. -/
def ChunkCname (m : List UInt8) (r c : Nat) : Prop :=
  ∃ is, Items m (packetEnd m r) (r + 8) is ∧ ∀ i, i ∈ is ∧ itemType m i = SDES_CNAME ↔ i = c

/-- From one packet to another there is no source description with chunks. -/
inductive NoSdes (m : List UInt8) (size : Nat) : Nat → Nat → Prop
  | refl (r : Nat) : NoSdes m size r r
  | next {r r' : Nat} : r < size → ¬Sdes m r → NoSdes m size (packetEnd m r) r' → NoSdes m size r r'

/-- The first source description with chunks behind the first packet. -/
def FirstSdes (m : List UInt8) (size r : Nat) : Prop :=
  NoSdes m size (packetEnd m 0) r ∧ r < size ∧ Sdes m r

theorem Items.mem_lt {is : List Nat} (h : Items m stop i is) : ∀ k ∈ is, k < stop := by
  induction h with
  | done => exact fun k hk => nomatch hk
  | item _ hle _ ih =>
    intro k hk
    rcases List.mem_cons.mp hk with rfl | hk
    · omega
    · exact ih k hk

theorem ChunkCname.cname (h : ChunkCname m r c) : c < packetEnd m r ∧ itemType m c = SDES_CNAME := by
  obtain ⟨is, his, hc⟩ := h
  obtain ⟨hmem, htype⟩ := (hc c).mpr rfl
  exact ⟨his.mem_lt c hmem, htype⟩

theorem ChunkCname.found_iff (h : ChunkCname m r c) : Found m r c ↔ Passes m (packetEnd m r) (r + 8) c := by
  constructor
  · exact fun hf => hf.1.1
  · exact fun hp => ⟨⟨hp, fun hs => hs.2.1 h.cname.2⟩, h.cname⟩

theorem Passes.le (h : Passes m stop i j) : i ≤ j := by
  induction h with
  | refl => exact le_rfl
  | skip _ _ ih => omega

theorem Leads.le (h : Leads m size r r') : r ≤ r' := by
  induction h with
  | refl => exact le_rfl
  | next _ _ _ ih =>
    unfold packetEnd at ih
    omega

/-- Nothing is found before the first source description. -/
theorem NoSdes.leads_of_leads {r₀ : Nat} (h : NoSdes m size r₀ r) (hs : Sdes m r) (hl : Leads m size r₀ r')
    (hs' : Sdes m r') : Leads m size r r' := by
  induction h with
  | refl => exact hl
  | next _ hno _ ih =>
    cases hl with
    | refl => exact absurd hs' hno
    | next _ _ hl => exact ih hs hl

theorem NoSdes.leads {r₀ : Nat} {ns : List Nat} (h : NoSdes m size r₀ r) (ht : Tiles m size r₀ ns)
    (hlong : LongTail ns) (hr : r < size) : Leads m size r₀ r ∧ InCompound size r := by
  induction h generalizing ns with
  | refl r =>
    refine ⟨.refl r, ht.inCompound hlong ?_⟩
    rintro rfl
    exact hr.ne ht
  | next hlt hno _ ih =>
    cases ns with
    | nil => exact absurd ht hlt.ne
    | cons n ns =>
      have hin := ht.inCompound hlong (by simp)
      obtain ⟨-, rfl, htail⟩ := ht
      have hlong' : LongTail ns := by
        cases ns with
        | nil => exact fun _ h => nomatch h
        | cons n ns => exact longTail_cons.mp hlong
      obtain ⟨hl, hin'⟩ := ih htail hlong' hr
      exact ⟨.next hin (fun h => absurd h hno) hl, hin'⟩

/-! ## TryRtcp -/

/-- Both loops of `TryRtcp` are gone through. -/
def Accepted (cfg : RtcpConfig) (u : UdpPacket) : Prop :=
  cfg.rtcpDetect = true ∧ (headersValid u.memory u.size).value = true

/-- The walk looks at the packet, if it is a source description. -/
def Looked (m : List UInt8) (size r : Nat) : Prop :=
  Leads m size (packetEnd m 0) r ∧ InCompound size r ∧ Sdes m r

/-- The walk over the packet's first chunk moves on at every item, and every item and the text of a CNAME it ends
at lie in the payload. -/
def ItemsFit (m : List UInt8) (size r : Nat) : Prop :=
  Moves m (packetEnd m r) size (r + 8) ∧ ∀ c, Found m r c → c + 2 + min (itemLength m c) 254 ≤ size

/-- `TryRtcp` returns, everything it reads lies in the payload, and of a compound packet whose first source
description has a well-formed first chunk it takes the CNAME of that. -/
def WalkSound (cfg : RtcpConfig) (u : UdpPacket) : Prop :=
  ∃ rounds out, (tryRtcp cfg rounds u).value = some out ∧ (tryRtcp cfg rounds u).Within u.size ∧
    (Accepted cfg u → ∀ r c, FirstSdes u.memory u.size r → ChunkCname u.memory r c → out.csrcItem = some c)

theorem within_validateHeaders : (validateHeaders m size r).Within size := by
  induction hk : size - r using Nat.strongRecOn generalizing r with
  | ind k ih =>
    rw [validateHeaders]
    split
    case isTrue h =>
      have h16 := inCompound_iff.mp h
      rw [Reading.within_bind, within_readByte]
      refine ⟨by omega, ?_⟩
      split
      · exact Reading.within_pure _ _
      · rw [Reading.within_bind, within_readShort]
        exact ⟨by omega, ih _ (by rw [readShort_value]; omega) rfl⟩
    case isFalse => exact Reading.within_pure _ _

theorem within_headersValid : (headersValid m size).Within size := by
  unfold headersValid
  split
  · exact Reading.within_pure _ _
  · rename_i hsize
    unfold rtcpCommonHeaderSize at hsize
    rw [Reading.within_bind, within_readByte]
    refine ⟨by omega, ?_⟩
    split
    · exact Reading.within_pure _ _
    · rw [Reading.within_bind, within_readByte]
      refine ⟨by omega, ?_⟩
      split
      · exact Reading.within_pure _ _
      · split
        · exact Reading.within_pure _ _
        · rw [Reading.within_bind, within_readShort, Reading.within_bind]
          exact ⟨by omega, within_validateHeaders, Reading.within_pure _ _⟩

/-- What an accepted payload is: a packet, and packets that tile the rest of it. -/
theorem Accepted.tiles {cfg : RtcpConfig} {u : UdpPacket} (h : Accepted cfg u) :
    4 ≤ u.size ∧ ∃ ns, Tiles u.memory u.size (packetEnd u.memory 0) ns ∧ LongTail ns := by
  obtain ⟨ns, ⟨hne, htiles, -, -⟩, hlong⟩ := headersValid_iff.mp h.2
  cases ns with
  | nil => exact absurd rfl hne
  | cons n ns =>
    have hsum := htiles.sum
    rw [List.sum_cons] at hsum
    obtain ⟨-, rfl, htail⟩ := htiles
    refine ⟨by omega, ns, by simpa [packetEnd] using htail, ?_⟩
    rcases hlong with hone | hlong
    · obtain rfl : ns = [] := by simpa using hone
      exact fun _ h => nomatch h
    · cases ns with
      | nil => exact fun _ h => nomatch h
      | cons n ns => exact longTail_cons.mp hlong

theorem tryRtcp_not_accepted (rounds : Nat) {cfg : RtcpConfig} {u : UdpPacket} (h : ¬Accepted cfg u) :
    (tryRtcp cfg rounds u).value = some { result := false } ∧ (tryRtcp cfg rounds u).Within u.size := by
  unfold tryRtcp
  split
  case isTrue hdetect =>
    have hvalid : (headersValid u.memory u.size).value = false :=
      Bool.eq_false_iff.mpr fun hv => h ⟨hdetect, hv⟩
    simp only [Reading.bind_value, hvalid, Reading.within_bind, Bool.false_eq_true, if_false]
    exact ⟨rfl, within_headersValid, Reading.within_pure _ _⟩
  case isFalse => exact ⟨rfl, Reading.within_pure _ _⟩

theorem reportCname_csrcItem (cfg : RtcpConfig) (u : UdpPacket) (c : Nat) :
    (reportCname cfg u c).value.csrcItem = some c := by
  unfold reportCname
  simp only [Reading.bind_value]
  split <;> rfl

theorem within_reportCname (cfg : RtcpConfig) (u : UdpPacket) {c n : Nat} :
    (reportCname cfg u c).Within n ↔ c + 2 + min (itemLength u.memory c) 254 ≤ n := by
  have htail : ∀ (p : Prop) [Decidable p] (a b : RtcpOutcome),
      ((if p then pure a else pure b : Reading RtcpOutcome)).Within n := by
    intro p _ a b
    split <;> exact Reading.within_pure _ _
  unfold reportCname
  simp only [Reading.within_bind, within_readByte, readByte_value, htail, and_true]
  have hlen : (byte u.memory (c + 1)).toNat = itemLength u.memory c := rfl
  rw [hlen]
  by_cases h0 : 0 < min (itemLength u.memory c) 254
  · rw [Reading.within_look h0]
    omega
  · have h0 : min (itemLength u.memory c) 254 = 0 := by omega
    have hnone (a : List UInt8) : (Reading.look (c + 2) 0 a).Within n := by simp [Reading.Within, Span.Within]
    rw [h0]
    simp only [hnone, and_true]

/-- What is made of an accepted payload. -/
theorem tryRtcp_accepted {cfg : RtcpConfig} {u : UdpPacket} (h : Accepted cfg u) {found : Option (Option Nat)}
    (hf : (findCname u.memory u.size rounds (packetEnd u.memory 0)).value = found) :
    (tryRtcp cfg rounds u).value =
        found.map (fun csrcItem => csrcItem.elim { result := true } fun c => (reportCname cfg u c).value) ∧
    ((tryRtcp cfg rounds u).Within u.size ↔
      (findCname u.memory u.size rounds (packetEnd u.memory 0)).Within u.size ∧
        ∀ c, found = some (some c) → c + 2 + min (itemLength u.memory c) 254 ≤ u.size) := by
  have hp : 4 * (ntohs u.memory 2 + 1) = packetEnd u.memory 0 := by simp [packetEnd]
  have h4 : 2 + 2 ≤ u.size := h.tiles.1
  unfold tryRtcp
  simp only [if_pos h.1, Reading.bind_value, h.2, if_true, readShort_value, Reading.within_bind,
    within_readShort, hp, hf, within_headersValid, h4, true_and]
  rcases found with _ | _ | c
  · exact ⟨rfl, by simp⟩
  · exact ⟨rfl, by simp⟩
  · refine ⟨rfl, ?_⟩
    simp only [Reading.within_bind, within_reportCname, Reading.within_pure, and_true, Option.some.injEq,
      forall_eq']

/-- Where the walk does what it should, for every payload and every setting. -/
theorem walkSound_iff (cfg : RtcpConfig) (u : UdpPacket) :
    WalkSound cfg u ↔ (Accepted cfg u →
      (∀ r, Looked u.memory u.size r → ItemsFit u.memory u.size r) ∧
      ∀ r c, FirstSdes u.memory u.size r → ChunkCname u.memory r c →
        Passes u.memory (packetEnd u.memory r) (r + 8) c) := by
  by_cases hacc : Accepted cfg u
  · obtain ⟨-, ns, htiles, hlong⟩ := hacc.tiles
    constructor
    · rintro ⟨rounds, out, hout, hwith, hcname⟩ -
      cases hf : (findCname u.memory u.size rounds (packetEnd u.memory 0)).value with
      | none =>
        rw [(tryRtcp_accepted hacc hf).1] at hout
        cases hout
      | some res =>
        obtain ⟨hv, hw⟩ := tryRtcp_accepted hacc hf
        obtain ⟨hwf, htext⟩ := hw.mp hwith
        have hitems : ∀ r, Looked u.memory u.size r → ItemsFit u.memory u.size r := by
          rintro r ⟨hl, hin, hs⟩
          obtain ⟨hmoves, hfound⟩ := hl.of_findCname hf hwf hin hs
          exact ⟨hmoves, fun c hc => htext c (congrArg some (hfound c hc))⟩
        refine ⟨hitems, fun r c hfirst hchunk => ?_⟩
        obtain ⟨hno, hlt, hs⟩ := hfirst
        have hcsrc := hcname hacc r c ⟨hno, hlt, hs⟩ hchunk
        rw [hv] at hout
        obtain rfl := Option.some.inj hout
        cases res with
        | none => cases hcsrc
        | some c' =>
          have hcsrc := (reportCname_csrcItem cfg u c').symm.trans hcsrc
          obtain rfl := Option.some.inj hcsrc
          obtain ⟨r', hl', -, hs', hfound⟩ := leads_of_findCname hf hwf
          -- the packet in which it is found is the first source description, or a later one
          have hl := hno.leads_of_leads hs hl' hs'
          cases hl with
          | refl => exact hfound.1.1
          | next _ _ hl =>
            have hle := hl.le
            have hle' := hfound.1.1.le
            have hlt' := hchunk.cname.1
            omega
    · intro hcond
      obtain ⟨hitems, hpasses⟩ := hcond hacc
      obtain ⟨res, hf, hwf⟩ := findCname_of_moves htiles fun r' hl hin hs => (hitems r' ⟨hl, hin, hs⟩).1
      obtain ⟨hv, hw⟩ := tryRtcp_accepted hacc hf
      refine ⟨u.size + 1, _, hv, hw.mpr ⟨hwf, ?_⟩, ?_⟩
      · intro c hc
        rw [Option.some.inj hc] at hf
        obtain ⟨r', hl, hin, hs, hfound⟩ := leads_of_findCname hf hwf
        exact (hitems r' ⟨hl, hin, hs⟩).2 c hfound
      · intro _ r c hfirst hchunk
        obtain ⟨hl, hin⟩ := hfirst.1.leads htiles hlong hfirst.2.1
        have hfound := hchunk.found_iff.mpr (hpasses r c hfirst hchunk)
        rw [(hl.of_findCname hf hwf hin hfirst.2.2).2 c hfound]
        exact reportCname_csrcItem cfg u c
  · constructor
    · exact fun _ h => absurd h hacc
    · intro _
      obtain ⟨hv, hw⟩ := tryRtcp_not_accepted 0 hacc
      exact ⟨0, _, hv, hw, fun h => absurd h hacc⟩

theorem passes_of_not_skipped (h : ¬Skipped m stop i) (hp : Passes m stop i j) : j = i := by
  cases hp with
  | refl => rfl
  | skip hs _ => exact absurd hs h

/-- A CNAME in front of all other items, with its text in the payload, is what the walk is made for. -/
theorem walkSound_of_cname_first (cfg : RtcpConfig) (u : UdpPacket)
    (h : ∀ r, Looked u.memory u.size r → r + 8 < packetEnd u.memory r ∧ itemType u.memory (r + 8) = SDES_CNAME ∧
      r + 8 + 2 + min (itemLength u.memory (r + 8)) 254 ≤ u.size) : WalkSound cfg u := by
  rw [walkSound_iff]
  intro hacc
  constructor
  · intro r hr
    obtain ⟨-, htype, hfit⟩ := h r hr
    have hskip : ¬Skipped u.memory (packetEnd u.memory r) (r + 8) := fun hs => hs.2.1 htype
    constructor
    · intro k hk hs
      obtain rfl := passes_of_not_skipped hskip hk
      exact absurd hs hskip
    · intro c hc
      obtain rfl := passes_of_not_skipped hskip hc.1.1
      exact hfit
  · rintro r c hfirst ⟨is, his, hc⟩
    obtain ⟨-, ns, htiles, hlong⟩ := hacc.tiles
    obtain ⟨hl, hin⟩ := hfirst.1.leads htiles hlong hfirst.2.1
    obtain ⟨-, htype, -⟩ := h r ⟨hl, hin, hfirst.2.2⟩
    have hmem : r + 8 ∈ is := by
      cases his with
      | done _ hend =>
        rw [htype] at hend
        cases hend
      | item => exact List.mem_cons_self
    obtain rfl := (hc (r + 8)).mp ⟨hmem, htype⟩
    exact .refl _

/-- A receiver report and a source description whose NAME item, of length zero, comes before the CNAME "ext". -/
def emptyName : UdpPacket where
  payload := [0x80, 201, 0, 1, 1, 2, 3, 4,
    0x81, 202, 0, 3, 1, 2, 3, 4, 2, 0, 1, 3, 101, 120, 116, 0]
  payload_lt := by decide

theorem not_walkSound : ¬WalkSound { rtcpDetect := true } emptyName := by
  rintro ⟨rounds, out, hout, hwith, -⟩
  have hacc : Accepted { rtcpDetect := true } emptyName := ⟨rfl, by decide +kernel⟩
  have hin : InCompound emptyName.size (packetEnd emptyName.memory 0) := by decide
  have hs : Sdes emptyName.memory (packetEnd emptyName.memory 0) := ⟨by decide, by decide⟩
  cases hf : (findCname emptyName.memory emptyName.size rounds (packetEnd emptyName.memory 0)).value with
  | none =>
    rw [(tryRtcp_accepted hacc hf).1] at hout
    cases hout
  | some res =>
    have hwf := ((tryRtcp_accepted hacc hf).2.mp hwith).1
    have hmoves := ((Leads.refl _).of_findCname hf hwf hin hs).1
    have hname : Skipped emptyName.memory (packetEnd emptyName.memory (packetEnd emptyName.memory 0))
      (packetEnd emptyName.memory 0 + 8) := ⟨by decide, by decide, by decide⟩
    have hpos := (hmoves _ (.refl _) hname).1
    exact absurd hpos (by decide)

end Oreka.Capture.Rtcp
