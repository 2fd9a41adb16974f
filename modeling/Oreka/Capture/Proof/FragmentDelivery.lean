import Oreka.Capture.HandlePacket
import Oreka.Net.Proof.Reassembly

/-!
# Fragments that arrive as captured packets

`HandlePacket` drops a packet that carries no more than `TCP_HEADER_LENGTH` bytes behind its IP
header before it looks whether it is a fragment. A datagram one of whose fragments is dropped is never
complete (`handlePackets_missing`); if all pass, the reassembly of `Net` delivers it.
-/

namespace Oreka.Net.FragmentTable

/-! ## The purge -/

theorem purge_purge (s : FragmentTable) (now : Int) : (s.purge now).purge now = s.purge now := by
  by_cases h : now - s.lastCheck ≥ timeoutSec
  · simp [purge, h]
  · simp [purge, h]

theorem handleIpFragment_purge (s : FragmentTable) (a : Arrival) :
    (s.purge a.now).handleIpFragment a = s.handleIpFragment a := by
  unfold handleIpFragment
  rw [purge_purge]

/-- The purge keeps an entry or deletes it. -/
theorem purge_fragmentMap (s : FragmentTable) (now : Int) (id : Nat) :
    (s.purge now).fragmentMap id = s.fragmentMap id ∨ (s.purge now).fragmentMap id = none := by
  unfold purge
  split
  · rcases h : s.fragmentMap id with _ | a
    · exact Or.inl (by simp [h])
    · simp only [h, Option.filter]
      split
      · exact Or.inl rfl
      · exact Or.inr rfl
  · exact Or.inl rfl

end Oreka.Net.FragmentTable

namespace Oreka.Capture

open Oreka.Net IpHeader Fragmentation

/-! ## A captured fragment -/

/-- The frame carries the IPv4 packet whose bytes begin with `f`, captured as a whole. -/
def Captured.Carries (p : Captured) (f : List UInt8) : Prop :=
  ∃ ethernet ip, locateHeaders p.pktData = some (ethernet, ip) ∧ p.pktData.drop ip = f ∧
    ipV f = 4 ∧ ip + packetLen f ≤ p.caplen

/-- The packet gets past the checks of `HandlePacket`. -/
def CaptureConfig.Passes (cfg : CaptureConfig) (f : List UInt8) : Prop :=
  headerLen f + TCP_HEADER_LENGTH < packetLen f ∧ cfg.isPacketWanted f = true

/-- The call of `HandleIpFragment`. -/
def Captured.arrival (p : Captured) (f : List UInt8) : Arrival := ⟨p.now, p.updated, f⟩

instance (cfg : CaptureConfig) (f : List UInt8) : Decidable (cfg.Passes f) :=
  inferInstanceAs (Decidable (_ ∧ _))

variable {cfg : CaptureConfig} {p : Captured} {f : List UInt8}

/-- What `HandlePacket` does with an IPv4 packet that was captured as a whole. -/
theorem handlePacket_carries (hc : p.Carries f) (cfg : CaptureConfig) :
    ∃ ethernetHeader, ∀ s : FragmentTable, handlePacket cfg s p =
      if cfg.pcapTest then .ok (s, none)
      else if cfg.Passes f then
        if cfg.ipFragmentsReassemble && isFragmented f then
          processFragment s ethernetHeader (p.arrival f)
        else .ok (s, some (processTransportLayer ethernetHeader f))
      else .ok (s, none) := by
  obtain ⟨ethernet, ip, hloc, rfl, hv, hcap⟩ := hc
  refine ⟨p.pktData.drop ethernet, fun s => ?_⟩
  have htry : tryIpPacketV4 (p.pktData.drop ip) = true := by simp [tryIpPacketV4, hv]
  have hshort : snippedOrShort p ip (p.pktData.drop ip) =
      decide (packetLen (p.pktData.drop ip) ≤ headerLen (p.pktData.drop ip) + TCP_HEADER_LENGTH) := by
    simp [snippedOrShort, Nat.not_lt.2 hcap]
  unfold handlePacket
  simp only [hloc, htry, hshort, Captured.arrival]
  by_cases ht : cfg.pcapTest = true
  · simp [ht]
  by_cases hlen : packetLen (p.pktData.drop ip) ≤ headerLen (p.pktData.drop ip) + TCP_HEADER_LENGTH
  · have hp : ¬ cfg.Passes (p.pktData.drop ip) := fun hp => Nat.not_lt.2 hlen hp.1
    simp [ht, hlen, hp]
  by_cases hw : cfg.isPacketWanted (p.pktData.drop ip) = true
  · have hp : cfg.Passes (p.pktData.drop ip) := ⟨Nat.not_le.1 hlen, hw⟩
    simp [ht, hlen, hw, hp]
  · have hp : ¬ cfg.Passes (p.pktData.drop ip) := fun hp => hw hp.2
    simp [ht, hlen, hw, hp]

/-! ## One fragment -/

variable {id : Nat} {payload : List UInt8} {F : Fragmentation id payload}

/-- Every fragment of a datagram of more than one is one. -/
theorem isFragmented_frag (hn : 2 ≤ F.n) {i : Nat} (hi : i < F.n) :
    isFragmented (F.frag i) = true := by
  have hf := frag_spec hi
  unfold isFragmented
  rw [hf.last_eq, hf.offset_eq]
  by_cases hlast : i + 1 = F.n
  · have hpos : 0 < F.off i := by
      have := off_lt_off (F := F) (show 0 < i by omega) hi
      omega
    simp [hpos]
  · simp [hlast]

/-- A fragment that leaves others missing is stored, also where the purge has deleted the entry. -/
theorem processFragment_pending (hfit : headerLen (F.frag 0) + payload.length < 65536)
    {s : FragmentTable} {idxs : List Nat} (h : Holds F ((s.fragmentMap id).getD {}) idxs)
    {i k : Nat} (hi : i < F.n) (hk : k < F.n) (hki : k ∉ idxs) (hik : k ≠ i) {a : Arrival}
    (ha : a.ipHeader = F.frag i) (ethernetHeader : List UInt8) :
    ∃ s' idxs', processFragment s ethernetHeader a = .ok (s', none) ∧
      Holds F ((s'.fragmentMap id).getD {}) idxs' ∧ i ∈ idxs' ∧ ∀ j ∈ idxs', j = i ∨ j ∈ idxs := by
  obtain ⟨idxs₀, h₀, hsub⟩ : ∃ idxs₀, Holds F (((s.purge a.now).fragmentMap id).getD {}) idxs₀ ∧
      ∀ j ∈ idxs₀, j ∈ idxs := by
    rcases s.purge_fragmentMap a.now id with hsame | hgone
    · exact ⟨idxs, by rwa [hsame], fun _ hj => hj⟩
    · refine ⟨[], ?_, by simp⟩
      rw [hgone]
      exact Holds.empty F
  obtain ⟨s', packet, hs, ⟨rfl, -, idxs', h', hmem⟩ | ⟨-, hall, -⟩⟩ :=
    handleIpFragment_step h₀ hfit hi ha (by rw [FragmentTable.purge_purge])
  · rw [FragmentTable.handleIpFragment_purge] at hs
    refine ⟨s', idxs', ?_, h', (hmem i).2 (Or.inl rfl), fun j hj => ?_⟩
    · rw [processFragment, hs, Except.ok_bind]
      rfl
    · exact ((hmem j).1 hj).imp_right (hsub j)
  · rcases hall k hk with hk' | hk'
    · exact absurd hk' hik
    · exact absurd (hsub k hk') hki

/-! ## Runs -/

/-- The packets that carry the fragments `order`, one each. -/
abbrev CarryAll : List Captured → List (List UInt8) → Prop := List.Forall₂ Captured.Carries

/-- A fragment that never gets through: nothing is processed. -/
theorem handlePackets_missing (hn : 2 ≤ F.n) (hfit : headerLen (F.frag 0) + payload.length < 65536)
    (hr : cfg.ipFragmentsReassemble = true) {k : Nat} (hk : k < F.n)
    {ps : List Captured} {order : List (List UInt8)} (hc : CarryAll ps order)
    (hmem : ∀ f ∈ order, f ∈ F.frags) (hmiss : ∀ f ∈ order, f = F.frag k → ¬ cfg.Passes f) :
    ∀ {s : FragmentTable} {idxs : List Nat}, Holds F ((s.fragmentMap id).getD {}) idxs → k ∉ idxs →
      ∃ s', handlePackets cfg s ps = .ok (s', List.replicate ps.length none) := by
  induction hc with
  | nil =>
    intro s idxs _ _
    exact ⟨s, rfl⟩
  | @cons p f ps order hpf hc ih =>
    intro s idxs h hki
    obtain ⟨hf, hmem⟩ := List.forall_mem_cons.1 hmem
    obtain ⟨hfk, hmiss⟩ := List.forall_mem_cons.1 hmiss
    obtain ⟨eth, hstep⟩ := handlePacket_carries hpf cfg
    have hnext : ∃ s' idxs', handlePacket cfg s p = .ok (s', none) ∧
        Holds F ((s'.fragmentMap id).getD {}) idxs' ∧ k ∉ idxs' := by
      rw [hstep]
      by_cases ht : cfg.pcapTest = true
      · exact ⟨s, idxs, by rw [if_pos ht], h, hki⟩
      rw [if_neg ht]
      by_cases hp : cfg.Passes f
      · obtain ⟨i, hi, rfl⟩ := mem_frags.1 hf
        have hik : k ≠ i := fun hik => hfk (by rw [hik]) hp
        rw [if_pos hp, if_pos (by rw [hr, isFragmented_frag hn hi]; rfl)]
        obtain ⟨s', idxs', hs', h', -, hsub⟩ :=
          processFragment_pending hfit h hi hk hki hik (a := p.arrival (F.frag i)) rfl eth
        exact ⟨s', idxs', hs', h', fun hk' => (hsub k hk').elim hik hki⟩
      · exact ⟨s, idxs, by rw [if_neg hp], h, hki⟩
    obtain ⟨s₁, idxs₁, h₁, hH, hk₁⟩ := hnext
    obtain ⟨s', hs'⟩ := ih hmem hmiss hH hk₁
    refine ⟨s', ?_⟩
    rw [handlePackets, h₁, Except.ok_bind]
    dsimp only
    rw [hs', Except.ok_bind]
    rfl

/-- The calls of `HandleIpFragment` where every fragment passes. -/
def arrivals (ps : List Captured) (order : List (List UInt8)) : List Arrival :=
  List.zipWith Captured.arrival ps order

/-- With the reassembly on, and all fragments passing, what `HandleIpFragment` returns is processed. -/
theorem handlePackets_of_handleAll (hn : 2 ≤ F.n) (ht : cfg.pcapTest = false)
    (hr : cfg.ipFragmentsReassemble = true) {ps : List Captured} {order : List (List UInt8)}
    (hc : CarryAll ps order) (hmem : ∀ f ∈ order, f ∈ F.frags) (hp : ∀ f ∈ order, cfg.Passes f) :
    ∀ {s s' : FragmentTable} {packets : List (Option SizedBuffer)},
      s.handleAll (arrivals ps order) = .ok (s', packets) → (∀ x, some x ∈ packets → x ≠ []) →
      ∃ ts, handlePackets cfg s ps = .ok (s', ts) ∧
        List.Forall₂ (fun (x : Option SizedBuffer) (t : Option Transport) => ∃ eth,
          t = x.map (processTransportLayer eth)) packets ts := by
  induction hc with
  | nil =>
    intro s s' packets h _
    cases h
    exact ⟨[], rfl, .nil⟩
  | @cons p f ps order hpf hc ih =>
    intro s s' packets h hne
    obtain ⟨hf, hmem'⟩ := List.forall_mem_cons.1 hmem
    obtain ⟨hpf', hp'⟩ := List.forall_mem_cons.1 hp
    obtain ⟨eth, hstep⟩ := handlePacket_carries hpf cfg
    obtain ⟨i, hi, rfl⟩ := mem_frags.1 hf
    obtain ⟨⟨s₁, packet⟩, h₁, h⟩ := Except.bind_eq_ok.1 h
    obtain ⟨⟨s₂, packets'⟩, h₂, h⟩ := Except.bind_eq_ok.1 h
    cases h
    have hone : handlePacket cfg s p = .ok (s₁, packet.map (processTransportLayer eth)) := by
      rw [hstep, if_neg (by simp [ht]), if_pos hpf',
        if_pos (by rw [hr, isFragmented_frag hn hi]; rfl), processFragment, h₁, Except.ok_bind]
      rcases packet with _ | x
      · rfl
      · have hx : x ≠ [] := hne x List.mem_cons_self
        simp only [SizedBuffer.get_eq hx]
        rfl
    obtain ⟨ts, hts, hrel⟩ := ih hmem' hp' h₂ fun x hx => hne x (List.mem_cons_of_mem _ hx)
    refine ⟨packet.map (processTransportLayer eth) :: ts, ?_, .cons ⟨eth, rfl⟩ hrel⟩
    rw [handlePackets, hone, Except.ok_bind]
    dsimp only
    rw [hts, Except.ok_bind]
    rfl

/-- Fragments that arrive once each, and some of them too old when another one comes: nothing is
processed. -/
theorem handlePackets_timeout (hn : 2 ≤ F.n) (hfit : headerLen (F.frag 0) + payload.length < 65536)
    (ht : cfg.pcapTest = false) (hr : cfg.ipFragmentsReassemble = true) {ps : List Captured}
    {order : List (List UInt8)} (hc : CarryAll ps order) (hmem : ∀ f ∈ order, f ∈ F.frags)
    (hp : ∀ f ∈ order, cfg.Passes f) (hnodup : order.Nodup) :
    ∀ {s : FragmentTable} {idxs : List Nat}, Holds F ((s.fragmentMap id).getD {}) idxs →
      (s.fragmentMap id ≠ none → idxs ≠ []) → (∀ i ∈ idxs, i < F.n → F.frag i ∉ order) →
      ¬ s.NoTimeout id (arrivals ps order) →
      ∃ s', handlePackets cfg s ps = .ok (s', List.replicate ps.length none) := by
  induction hc with
  | nil =>
    intro s idxs _ _ _ h
    exact absurd trivial h
  | @cons p f ps order hpf hc ih =>
    intro s idxs h hne hold hnot
    obtain ⟨eth, hstep⟩ := handlePacket_carries hpf cfg
    obtain ⟨i, hi, rfl⟩ := mem_frags.1 (hmem f List.mem_cons_self)
    have hpf' := hp _ List.mem_cons_self
    have hpacket (s : FragmentTable) :
        handlePacket cfg s p = processFragment s eth (p.arrival (F.frag i)) := by
      rw [hstep, if_neg (by simp [ht]), if_pos hpf',
        if_pos (by rw [hr, isFragmented_frag hn hi]; rfl)]
    by_cases hkeep : (s.purge p.now).fragmentMap id = s.fragmentMap id
    · have hnot' : s.next (p.arrival (F.frag i)) |>.NoTimeout id (arrivals ps order) |> Not :=
        fun hrest => hnot ⟨hkeep, hrest⟩
      obtain ⟨s₁, packet, h₁, hcases⟩ := handleIpFragment_step h hfit hi (a := p.arrival (F.frag i))
        rfl hkeep
      rw [FragmentTable.next, h₁] at hnot'
      have hnotin : F.frag i ∉ order := (List.nodup_cons.1 hnodup).1
      rcases hcases with ⟨rfl, -, idxs₁, hH, hmem₁⟩ | ⟨-, hall, -⟩
      · have hi₁ : i ∈ idxs₁ := (hmem₁ i).2 (Or.inl rfl)
        obtain ⟨s', hs'⟩ := ih (fun f hf => hmem f (List.mem_cons_of_mem _ hf))
          (fun f hf => hp f (List.mem_cons_of_mem _ hf)) (List.nodup_cons.1 hnodup).2 hH
          (fun _ => List.ne_nil_of_mem hi₁) (fun j hj hjn hjo => by
            rcases (hmem₁ j).1 hj with rfl | hj
            · exact hnotin hjo
            · exact hold j hj hjn (List.mem_cons_of_mem _ hjo)) hnot'
        refine ⟨s', ?_⟩
        rw [handlePackets, hpacket, processFragment, h₁, Except.ok_bind]
        show (handlePackets cfg s₁ ps >>= _) = _
        rw [hs', Except.ok_bind]
        rfl
      · -- this one completes the datagram, so it is the last
        have hnil : order = [] := List.eq_nil_iff_forall_not_mem.2 fun f hf => by
          obtain ⟨j, hj, rfl⟩ := mem_frags.1 (hmem f (List.mem_cons_of_mem _ hf))
          rcases hall j hj with rfl | hj'
          · exact hnotin hf
          · exact hold j hj' hj (List.mem_cons_of_mem _ hf)
        subst hnil
        rw [arrivals, List.zipWith_nil_right] at hnot'
        exact absurd trivial hnot'
    · -- the fragments that were there are gone for good
      have hgone := (s.purge_fragmentMap p.now id).resolve_left hkeep
      have hsome : s.fragmentMap id ≠ none := fun he => hkeep (hgone.trans he.symm)
      obtain ⟨k, hk⟩ := List.exists_mem_of_ne_nil idxs (hne hsome)
      have hkn : F.frag k ∉ F.frag i :: order := hold k hk (h.lt k hk)
      have heq : handlePackets cfg s (p :: ps) = handlePackets cfg (s.purge p.now) (p :: ps) := by
        have hpurge : processFragment (s.purge p.now) eth (p.arrival (F.frag i)) =
            processFragment s eth (p.arrival (F.frag i)) := by
          unfold processFragment
          rw [← FragmentTable.handleIpFragment_purge s (p.arrival (F.frag i))]
          rfl
        rw [handlePackets, handlePackets, hpacket, hpacket, hpurge]
      rw [heq]
      have hempty : Holds F (((s.purge p.now).fragmentMap id).getD {}) [] := by
        rw [hgone]
        exact Holds.empty F
      exact handlePackets_missing hn hfit hr (h.lt k hk) (List.Forall₂.cons hpf hc) hmem
        (fun f hf hfk => absurd (hfk ▸ hf) hkn) hempty (by simp)

theorem handlePackets_pcapTest (ht : cfg.pcapTest = true) (s : FragmentTable) (ps : List Captured) :
    handlePackets cfg s ps = .ok (s, List.replicate ps.length none) := by
  induction ps with
  | nil => rfl
  | cons p ps ih =>
    have hp : handlePacket cfg s p = .ok (s, none) := by simp [handlePacket, ht]
    rw [handlePackets, hp, Except.ok_bind]
    dsimp only
    rw [ih, Except.ok_bind]
    rfl

/-- With the reassembly off, every packet is processed on its own. -/
theorem handlePackets_off (hr : cfg.ipFragmentsReassemble = false) {ps : List Captured}
    {order : List (List UInt8)} (hc : CarryAll ps order) :
    ∀ {s s' : FragmentTable} {ts : List (Option Transport)}, handlePackets cfg s ps = .ok (s', ts) →
      ∀ t, some t ∈ ts →
        ∃ f ∈ order, t.payload = copy f (headerLen f) (packetLen f - headerLen f) := by
  induction hc with
  | nil =>
    intro s s' ts h t ht
    cases h
    cases ht
  | @cons p f ps order hpf hc ih =>
    intro s s' ts h t ht
    obtain ⟨⟨s₁, t₁⟩, h₁, h⟩ := Except.bind_eq_ok.1 h
    obtain ⟨⟨s₂, ts₂⟩, h₂, h⟩ := Except.bind_eq_ok.1 h
    cases h
    rcases List.mem_cons.1 ht with ht | ht
    · refine ⟨f, List.mem_cons_self, ?_⟩
      obtain ⟨eth, hstep⟩ := handlePacket_carries hpf cfg
      rw [hstep, hr] at h₁
      split at h₁
      · cases h₁
        cases ht
      split at h₁
      · simp only [Bool.false_and, Bool.false_eq_true, if_false] at h₁
        cases h₁
        cases ht
        rfl
      · cases h₁
        cases ht
    · obtain ⟨g, hg, hgt⟩ := ih h₂ t ht
      exact ⟨g, List.mem_cons_of_mem f hg, hgt⟩

/-! ## Delivery -/

/-- The transport payload reaches a UDP or TCP routine with the last packet, and nothing does before. -/
def Delivered (cfg : CaptureConfig) (s : FragmentTable) (ps : List Captured)
    (payload : List UInt8) : Prop :=
  ∃ s' t, handlePackets cfg s ps = .ok (s', List.replicate (ps.length - 1) none ++ [some t]) ∧
    t.routine ∈ [Routine.stripTzspEncapsulation, .detectUsefulUdpPacket, .detectUsefulTcpPacket] ∧
    t.payload = payload

theorem not_delivered_of_none {s s' : FragmentTable} {ps : List Captured} {n : Nat}
    (h : handlePackets cfg s ps = .ok (s', List.replicate n none)) : ¬ Delivered cfg s ps payload := by
  rintro ⟨s'', t, h', -⟩
  rw [h] at h'
  obtain ⟨-, heq⟩ := Prod.mk.inj (Except.ok.inj h')
  have hmem : some t ∈ List.replicate n (none : Option Transport) := by
    rw [heq]
    simp
  cases (List.mem_replicate.1 hmem).2

/-- The reassembled datagram is processed as a whole. -/
theorem processTransportLayer_prefixPacket (hn : 0 < F.n)
    (hfit : headerLen (F.frag 0) + payload.length < 65536)
    (hproto : protocol (F.frag 0) = 17 ∨ protocol (F.frag 0) = 6) (eth : List UInt8) :
    (processTransportLayer eth (F.prefixPacket F.n)).routine ∈
        [Routine.stripTzspEncapsulation, .detectUsefulUdpPacket, .detectUsefulTcpPacket] ∧
      (processTransportLayer eth (F.prefixPacket F.n)).payload = payload := by
  have hge := (frag_spec hn).headerLen_ge
  obtain ⟨hh, hp⟩ := prefixPacket_fields hn (k := F.n) (by rw [off_n]; exact hfit)
  have hlen := length_copy (F.frag 0) 0 (headerLen (F.frag 0))
  have hprotocol : protocol (F.prefixPacket F.n) = protocol (F.frag 0) := by
    unfold protocol prefixPacket
    rw [byte_append (by rw [length_setPacketLen, hlen]; omega), setPacketLen,
      byte_set_ne (by omega), byte_set_ne (by omega), byte_copy (by omega), Nat.zero_add]
  constructor
  · show (if protocol (F.prefixPacket F.n) = 17 then _ else _) ∈ _
    rw [hprotocol]
    rcases hproto with h | h
    · rw [if_pos h]
      split
      · simp
      · simp
    · simp [h]
  · have hlt := ntohs_lt (F.prefixPacket F.n) 2
    have hlen' : packetLen (F.prefixPacket F.n) - headerLen (F.prefixPacket F.n) = payload.length := by
      rw [off_n] at hp
      unfold payloadLen at hp
      simp only [packetLen, sizeT] at hp ⊢
      omega
    show copy (F.prefixPacket F.n) (headerLen (F.prefixPacket F.n))
      (packetLen (F.prefixPacket F.n) - headerLen (F.prefixPacket F.n)) = payload
    rw [hlen', hh, prefixPacket_n, ← Nat.add_zero (headerLen (F.frag 0)), ← copy_drop,
      Nat.add_zero, List.drop_left' (by rw [length_setPacketLen, hlen])]
    simpa using copy_append payload []

/-- A piece is not the whole payload. -/
theorem piece_lt (hn : 2 ≤ F.n) {i : Nat} (hi : i < F.n) :
    (F.piece i).length < payload.length := by
  have hsucc := off_succ (F := F) hi
  by_cases hlast : i + 1 = F.n
  · have hpos : F.off 0 < F.off i := off_lt_off (by omega) hi
    rw [hlast, off_n] at hsucc
    omega
  · have hlt : F.off (i + 1) < F.off F.n := by
      have hle : F.off (i + 1) ≤ F.off (F.n - 1) := off_le_off (by omega)
      have hend := off_succ (F := F) (show F.n - 1 < F.n by omega)
      have hpos := piece_pos (F := F) (show F.n - 1 < F.n by omega)
      rw [Nat.sub_add_cancel (by omega)] at hend
      omega
    rw [off_n] at hlt
    omega

theorem frags_nodup (F : Fragmentation id payload) : F.frags.Nodup := by
  rw [List.Nodup, List.pairwise_iff_getElem]
  intro i j hi hj hij h
  have hfrag (k : Nat) (hk : k < F.frags.length) : F.frag k = F.frags[k] := by
    rw [frag, List.getD_eq_getElem?_getD, List.getElem?_eq_getElem hk]
    rfl
  exact absurd (frag_injective hi hj (by rw [hfrag i hi, hfrag j hj, h])) (Nat.ne_of_lt hij)

theorem arrivals_ipHeader {ps : List Captured} {order : List (List UInt8)} (hc : CarryAll ps order) :
    (arrivals ps order).map Arrival.ipHeader = order := by
  induction hc with
  | nil => rfl
  | @cons p f ps order _ _ ih =>
    show f :: (arrivals ps order).map Arrival.ipHeader = _
    rw [ih]

theorem forall₂_map_last {R : Option SizedBuffer → Option Transport → Prop} {n : Nat}
    {x : SizedBuffer} {ts : List (Option Transport)}
    (hnone : ∀ t, R none t → t = none)
    (h : List.Forall₂ R (List.replicate n none ++ [some x]) ts) :
    ∃ t, R (some x) t ∧ ts = List.replicate n none ++ [t] := by
  induction n generalizing ts with
  | zero =>
    rcases h with _ | ⟨ht, h⟩
    cases h
    exact ⟨_, ht, rfl⟩
  | succ n ih =>
    rw [List.replicate_succ, List.cons_append] at h
    rcases h with _ | ⟨ht, h⟩
    obtain ⟨t, hR, rfl⟩ := ih h
    exact ⟨t, hR, by rw [hnone _ ht, List.replicate_succ, List.cons_append]⟩

/-- **Delivery of a fragmented datagram.** Its fragments arrive once each, in any order, one in each
captured packet: the datagram is delivered exactly when the reassembly is on, every fragment passes
the checks made for whole packets, and none is too old when another one comes. -/
theorem handlePackets_delivers_iff (F : Fragmentation id payload) (hn : 2 ≤ F.n)
    (hfit : headerLen (F.frag 0) + payload.length ≤ 65535)
    (hproto : protocol (F.frag 0) = 17 ∨ protocol (F.frag 0) = 6) (cfg : CaptureConfig)
    (s : FragmentTable) (hs : s.fragmentMap id = none) (ps : List Captured)
    (order : List (List UInt8)) (horder : order.Perm F.frags) (hc : CarryAll ps order) :
    Delivered cfg s ps payload ↔
      cfg.pcapTest = false ∧ cfg.ipFragmentsReassemble = true ∧ (∀ f ∈ F.frags, cfg.Passes f) ∧
        s.NoTimeout id (arrivals ps order) := by
  have hmem : ∀ f ∈ order, f ∈ F.frags := fun f hf => horder.mem_iff.1 hf
  have hnodup : order.Nodup := horder.nodup_iff.2 (frags_nodup F)
  have hempty : Holds F ((s.fragmentMap id).getD {}) [] := by
    rw [hs]
    exact Holds.empty F
  constructor
  · intro hd
    have ht : cfg.pcapTest = false := by
      by_contra ht
      exact not_delivered_of_none (handlePackets_pcapTest (by simpa using ht) s ps) hd
    have hr : cfg.ipFragmentsReassemble = true := by
      by_contra hr
      obtain ⟨s', t, h, -, hpayload⟩ := hd
      obtain ⟨f, hf, hft⟩ := handlePackets_off (by simpa using hr) hc h t (by simp)
      obtain ⟨i, hi, rfl⟩ := mem_frags.1 (hmem f hf)
      have hlen := congrArg List.length (hpayload.symm.trans hft)
      rw [length_copy, (frag_spec hi).packetLen_eq, Nat.add_sub_cancel_left] at hlen
      exact absurd hlen (Nat.ne_of_gt (piece_lt hn hi))
    have hp : ∀ f ∈ F.frags, cfg.Passes f := by
      intro f hf
      by_contra hnot
      obtain ⟨k, hk, rfl⟩ := mem_frags.1 hf
      obtain ⟨s', h⟩ := handlePackets_missing hn (by omega) hr hk hc hmem
        (fun f _ hfk => hfk ▸ hnot) hempty (by simp)
      exact not_delivered_of_none h hd
    refine ⟨ht, hr, hp, ?_⟩
    by_contra htime
    obtain ⟨s', h⟩ := handlePackets_timeout hn (by omega) ht hr hc hmem
      (fun f hf => hp f (hmem f hf)) hnodup hempty (fun hne => absurd hs hne) (by simp) htime
    exact not_delivered_of_none h hd
  · rintro ⟨ht, hr, hp, htime⟩
    have hip := arrivals_ipHeader hc
    have hne : arrivals ps order ≠ [] := by
      intro he
      rw [he] at hip
      have hlen := horder.length_eq
      rw [← hip] at hlen
      have : F.n = 0 := hlen.symm
      omega
    obtain ⟨before, final, hsplit⟩ := (List.eq_nil_or_concat _).resolve_left hne
    rw [List.concat_eq_append] at hsplit
    rw [hsplit] at hip htime
    have hsub (a : Arrival) (ha : a ∈ before ++ [final]) : a.ipHeader ∈ order := by
      rw [← hip]
      exact List.mem_map_of_mem ha
    have hmissing : ∀ a ∈ before, a.ipHeader ≠ final.ipHeader := by
      intro a ha heq
      rw [← hip, List.map_append] at hnodup
      exact (List.nodup_append.1 hnodup).2.2 _ (List.mem_map_of_mem ha) _
        (List.mem_map_of_mem List.mem_cons_self) heq
    obtain ⟨j, hj, hfinal⟩ := mem_frags.1 (hmem _ (hsub final (by simp)))
    have hcover : ∀ k < F.n, k = j ∨ k ∈ ([] : List Nat) ∨ ∃ a ∈ before, a.ipHeader = F.frag k := by
      intro k hk
      have hfo : F.frag k ∈ (before ++ [final]).map Arrival.ipHeader := by
        rw [hip]
        exact horder.mem_iff.2 (mem_frags.2 ⟨k, hk, rfl⟩)
      obtain ⟨a, ha, hak⟩ := List.mem_map.1 hfo
      rcases List.mem_append.1 ha with ha | ha
      · exact Or.inr (Or.inr ⟨a, ha, hak⟩)
      · rw [List.mem_singleton.1 ha, hfinal] at hak
        exact Or.inl (frag_injective hk hj hak.symm)
    obtain ⟨s', hall, -⟩ := handleAll_of_holds (by omega) hj hfinal hempty
      (fun a ha => hmem _ (hsub a (List.mem_append_left _ ha))) (by simp) hmissing hcover htime
    rw [← hsplit] at hall
    have hne' : F.prefixPacket F.n ≠ [] := by
      intro he
      have hlen := congrArg List.length he
      rw [length_prefixPacket] at hlen
      have := (frag_spec (F := F) (show 0 < F.n by omega)).headerLen_ge
      simp only [List.length_nil] at hlen
      omega
    obtain ⟨ts, hts, hrel⟩ := handlePackets_of_handleAll hn ht hr hc hmem
      (fun f hf => hp f (hmem f hf)) hall (by
        intro x hx
        obtain rfl : x = F.prefixPacket F.n := by simpa using hx
        exact hne')
    obtain ⟨t, ⟨eth, rfl⟩, rfl⟩ := forall₂_map_last (fun t ⟨_, ht⟩ => ht) hrel
    have hlen : ps.length - 1 = before.length := by
      have h₁ := hc.length_eq
      rw [← hip, List.length_map, List.length_append, List.length_singleton] at h₁
      omega
    obtain ⟨hroutine, hpayload⟩ :=
      processTransportLayer_prefixPacket (show 0 < F.n by omega) (by omega) hproto eth
    exact ⟨s', _, by rw [hlen]; exact hts, hroutine, hpayload⟩

/-- A UDP fragment of datagram 0x1234 with a 20-byte header. -/
def udpFragment (more : Bool) (off : Nat) (piece : List UInt8) : List UInt8 :=
  [0x45, 0, 0, UInt8.ofNat (20 + piece.length), 0x12, 0x34, if more then 0x20 else 0,
    UInt8.ofNat (off / 8), 64, 17, 0, 0, 10, 0, 0, 1, 10, 0, 0, 2] ++ piece

/-- An IPv4 frame, captured as a whole. -/
def ethernetFrame (now : Int) (f : List UInt8) : Captured :=
  ⟨now, now, 14 + f.length, [0, 0, 0, 0, 0, 0, 0, 0, 0, 0, 0, 0, 8, 0] ++ f⟩

/-- `n` bytes. -/
def countingBytes (n : Nat) : List UInt8 := (List.range n).map UInt8.ofNat

/-- A payload of 24 and then `k` bytes, for two fragments. -/
def twoFragments (k : Nat) : List UInt8 × List UInt8 :=
  (udpFragment true 0 (countingBytes 24), udpFragment false 24 (countingBytes k))

/-- The second fragment has 21 bytes. -/
def largeLast : Fragmentation 0x1234 (countingBytes 24 ++ countingBytes 21) where
  pieces := [countingBytes 24, countingBytes 21]
  frags := [(twoFragments 21).1, (twoFragments 21).2]
  payload_eq := rfl
  nonempty := by decide
  length_eq := rfl
  isFragment := by decide

/-- The second fragment has two bytes. -/
def smallLast : Fragmentation 0x1234 (countingBytes 24 ++ countingBytes 2) where
  pieces := [countingBytes 24, countingBytes 2]
  frags := [(twoFragments 2).1, (twoFragments 2).2]
  payload_eq := rfl
  nonempty := by decide
  length_eq := rfl
  isFragment := by decide

theorem handlePackets_delivers_iff_two :
    Delivered { ipFragmentsReassemble := true } {}
        [ethernetFrame 101 (twoFragments 21).2, ethernetFrame 102 (twoFragments 21).1]
        (countingBytes 24 ++ countingBytes 21) ↔
      false = false ∧ true = true ∧
        (∀ f ∈ largeLast.frags, ({ ipFragmentsReassemble := true } : CaptureConfig).Passes f) ∧
        ({} : FragmentTable).NoTimeout 0x1234
          (arrivals [ethernetFrame 101 (twoFragments 21).2, ethernetFrame 102 (twoFragments 21).1]
            [(twoFragments 21).2, (twoFragments 21).1]) :=
  handlePackets_delivers_iff largeLast (by decide) (by decide) (by decide)
    { ipFragmentsReassemble := true } {} rfl _ _ (by decide)
    (.cons ⟨0, 14, by decide, by decide, by decide, by decide⟩
      (.cons ⟨0, 14, by decide, by decide, by decide, by decide⟩ .nil))

/-- A last fragment of two bytes: the datagram is not delivered. -/
theorem not_delivered :
    CarryAll [ethernetFrame 101 (twoFragments 2).1, ethernetFrame 102 (twoFragments 2).2]
        smallLast.frags ∧
      ¬ Delivered { ipFragmentsReassemble := true } {}
        [ethernetFrame 101 (twoFragments 2).1, ethernetFrame 102 (twoFragments 2).2]
        (countingBytes 24 ++ countingBytes 2) := by
  have hc : CarryAll [ethernetFrame 101 (twoFragments 2).1, ethernetFrame 102 (twoFragments 2).2]
      smallLast.frags :=
    .cons ⟨0, 14, by decide, by decide, by decide, by decide⟩
      (.cons ⟨0, 14, by decide, by decide, by decide, by decide⟩ .nil)
  have hempty : Holds smallLast ((({} : FragmentTable).fragmentMap 0x1234).getD {}) [] :=
    Holds.empty smallLast
  have hmiss : ∀ f ∈ smallLast.frags, f = smallLast.frag 1 →
      ¬ ({ ipFragmentsReassemble := true } : CaptureConfig).Passes f :=
    fun f _ hf => hf ▸ by decide
  obtain ⟨s', h⟩ := handlePackets_missing (show 2 ≤ smallLast.n by decide) (by decide) rfl
    (show 1 < smallLast.n by decide) hc (fun f hf => hf) hmiss hempty (by simp)
  exact ⟨hc, not_delivered_of_none h⟩

end Oreka.Capture
