import Oreka.Net.Proof.Reassembly

/-!
# Whose bytes a reassembled packet has

The fragment map is keyed by the identification number alone, so two datagrams that share it share
an entry. `OneKey` entries hold fragments of one datagram only (by the key of an IPv4 datagram:
identification, source, destination and protocol); a fragment keeps that when what is stored under
its number, if anything, is of its own datagram (`SharesKey`), and the packet that an entry is put
together into has the header of one of its fragments and the payloads of all of them
(`assemble_spec`).
-/

namespace Oreka.Net

open IpHeader

/-- What tells the datagram of a fragment. -/
def reassemblyKey (b : List UInt8) : Nat × List UInt8 × List UInt8 × UInt8 :=
  (packetId b, src b, dest b, protocol b)

/-- The packet that starts at `b`, without what was captured behind it. -/
def packetOf (b : List UInt8) : List UInt8 := copy b 0 (packetLen b)

def payloadOf (b : List UInt8) : List UInt8 := copy b (headerLen b) (payloadLen b)

/-- The packet has the header of the first fragment, but for its length, and their payloads. -/
def AssembledFrom (fs : List (List UInt8)) (packet : List UInt8) : Prop :=
  ∃ f rest len, fs = f :: rest ∧
    packet = setPacketLen (copy f 0 (headerLen f)) len ++ fs.flatMap payloadOf

/-- A header of at least 20 bytes that lies inside its packet. -/
def ValidPacket (b : List UInt8) : Prop := 20 ≤ headerLen b ∧ headerLen b ≤ packetLen b

instance (b : List UInt8) : Decidable (ValidPacket b) := inferInstanceAs (Decidable (_ ∧ _))

theorem byte_packetOf {b : List UInt8} (h : ValidPacket b) {i : Nat} (hi : i < 20) :
    byte (packetOf b) i = byte b i := by
  obtain ⟨h₁, h₂⟩ := h
  rw [packetOf, byte_copy (by omega), Nat.zero_add]

theorem packetOf_key {b : List UInt8} (h : ValidPacket b) :
    reassemblyKey (packetOf b) = reassemblyKey b := by
  obtain ⟨h₁, h₂⟩ := h
  have hcopy (o : Nat) (ho : o + 4 ≤ 20) : copy (packetOf b) o 4 = copy b o 4 := by
    rw [packetOf, copy_copy (by omega), Nat.zero_add]
  unfold reassemblyKey src dest protocol
  rw [(fields_congr fun i hi => byte_packetOf ⟨h₁, h₂⟩ hi).2.2.1, hcopy 12 (by omega),
    hcopy 16 (by omega), byte_packetOf ⟨h₁, h₂⟩ (by omega)]

theorem packetOf_valid {b : List UInt8} (h : ValidPacket b) : ValidPacket (packetOf b) := by
  obtain ⟨hh, hp, -⟩ := fields_congr fun i hi => byte_packetOf h hi
  unfold ValidPacket
  rw [hh, hp]
  exact h

/-! ## What the assembly puts together -/

theorem append_ok {b b' : SizedBuffer} {buf : List UInt8} {i len : Nat}
    (h : SizedBuffer.append b buf i len = .ok b') : b' = b ++ copy buf i len := by
  unfold SizedBuffer.append at h
  dsimp only at h
  split at h
  · split at h
    · cases h
    · cases h
      rfl
  · split at h
    · rename_i hl
      cases h
      rw [hl]
      simp [copy]
    · cases h

theorem get_ok {b b' : SizedBuffer} (h : SizedBuffer.get b = .ok b') : b' = b := by
  unfold SizedBuffer.get at h
  split at h
  · cases h
  · cases h
    rfl

theorem catchException_cases {α : Type} {r : Except Failure α} {a b : α}
    (h : catchException r a = .ok b) : r = .ok b ∨ b = a := by
  unfold catchException at h
  split at h
  · cases h
    exact .inr rfl
  · exact .inl h

/-- One fragment more, for a packet under construction whose first fragment is `f`. -/
theorem addFragment_spec {st st' : ForwardSequential} {f g p : List UInt8} {len : Nat}
    {xs : List UInt8} (hf : 20 ≤ headerLen f) (hp : st.packetData = some p)
    (hpx : p = setPacketLen (copy f 0 (headerLen f)) len ++ xs)
    (h : st.addFragment g = .ok st') (hd' : st'.drop = false) :
    ∃ len', st'.packetData =
      some (setPacketLen (copy f 0 (headerLen f)) len' ++ (xs ++ payloadOf g)) := by
  rcases catchException_cases h with h | rfl
  · simp only [ForwardSequential.tryAddFragment, hp] at h
    obtain ⟨original, -, h⟩ := Except.bind_eq_ok.1 h
    split at h
    · cases h
      cases hd'
    · obtain ⟨data, hdata, h⟩ := Except.bind_eq_ok.1 h
      cases h
      rw [append_ok hdata, hpx, List.append_assoc]
      exact ⟨_, by rw [setPacketLen_append _ (by rw [length_setPacketLen, length_copy]; omega),
        setPacketLen_setPacketLen]; rfl⟩
  · cases hd'

/-- An assembly that drops nothing adds the fragments one by one. -/
theorem assemble_cons {g : SizedBuffer} {fs : List SizedBuffer} {st r : ForwardSequential}
    (h : WaitAllAndSort.assemble (g :: fs) st = .ok r) (hdrop : r.drop = false) :
    ∃ st₁, st.addFragment g = .ok st₁ ∧ st₁.drop = false ∧ WaitAllAndSort.assemble fs st₁ = .ok r := by
  obtain ⟨g', hg', h₁⟩ := Except.bind_eq_ok.1 h
  obtain ⟨st₁, hst₁, h₂⟩ := Except.bind_eq_ok.1 h₁
  rw [get_ok hg'] at hst₁
  by_cases hd₁ : st₁.drop = true
  · rw [if_pos hd₁] at h₂
    cases h₂
    rw [hd₁] at hdrop
    cases hdrop
  · rw [if_neg hd₁] at h₂
    exact ⟨st₁, hst₁, by simpa using hd₁, h₂⟩

theorem assemble_spec {f : List UInt8} (hf : 20 ≤ headerLen f) :
    ∀ {fs : List SizedBuffer} {st r : ForwardSequential} {p xs : List UInt8} {len : Nat},
      st.packetData = some p → p = setPacketLen (copy f 0 (headerLen f)) len ++ xs →
      WaitAllAndSort.assemble fs st = .ok r → r.drop = false →
      ∃ len', r.packetData =
        some (setPacketLen (copy f 0 (headerLen f)) len' ++ (xs ++ fs.flatMap payloadOf))
  | [], st, r, p, xs, len, hp, hpx, h, _ => by
    cases h
    exact ⟨len, by rw [hp, hpx, List.flatMap_nil, List.append_nil]⟩
  | g :: fs, st, r, p, xs, len, hp, hpx, h, hdr => by
    obtain ⟨st₁, hst₁, hd₁, h₂⟩ := assemble_cons h hdr
    obtain ⟨len₁, hp₁⟩ := addFragment_spec hf hp hpx hst₁ hd₁
    obtain ⟨len', hr⟩ := assemble_spec hf hp₁ rfl h₂ hdr
    exact ⟨len', by rw [hr, List.flatMap_cons, List.append_assoc xs]⟩

/-- The first fragment alone is already of the form that `assemble_spec` keeps. -/
theorem packetOf_eq {f : List UInt8} (hf : ValidPacket f) :
    packetOf f = setPacketLen (copy f 0 (headerLen f)) (packetLen f) ++ payloadOf f := by
  obtain ⟨h₁, h₂⟩ := hf
  have hlen : packetLen (copy f 0 (headerLen f)) = packetLen f :=
    (fields_congr fun i hi => by rw [byte_copy (by omega), Nat.zero_add]).2.1
  have hself : setPacketLen (copy f 0 (headerLen f)) (packetLen f) = copy f 0 (headerLen f) := by
    rw [← hlen]
    exact setPacketLen_self (by rw [length_copy]; omega)
  have hsplit := copy_add f 0 (headerLen f) (packetLen f - headerLen f)
  rw [Nat.add_sub_cancel' h₂, Nat.zero_add] at hsplit
  rw [hself, payloadOf, payloadLen_of_le h₂, packetOf, hsplit]

/-- The assembly of valid fragments that drops none of them. -/
theorem assemble_assembledFrom {f : List UInt8} {fs : List SizedBuffer} {r : ForwardSequential}
    (hf : ValidPacket f) (h : WaitAllAndSort.assemble (f :: fs) {} = .ok r) (hd : r.drop = false) :
    ∃ packet, r.packetData = some packet ∧ AssembledFrom (f :: fs) packet := by
  obtain ⟨st₁, hst₁, hd₁, h₂⟩ := assemble_cons h hd
  have hfirst : st₁.packetData = some (packetOf f) := by
    rcases catchException_cases hst₁ with hst | rfl
    · simp only [ForwardSequential.tryAddFragment] at hst
      split at hst
      · cases hst
        cases hd₁
      · obtain ⟨data, hdata, hst⟩ := Except.bind_eq_ok.1 hst
        cases hst
        rw [append_ok hdata]
        rfl
    · cases hd₁
  obtain ⟨len, hr⟩ := assemble_spec hf.1 hfirst (packetOf_eq hf) h₂ hd
  exact ⟨_, hr, f, fs, len, rfl, by rw [List.flatMap_cons]⟩

/-! ## Entries with the fragments of one datagram -/

/-- An entry that still waits for fragments, of valid fragments that arrived and share a key. -/
structure OneKey (arrived : List Arrival) (a : WaitAllAndSort) : Prop where
  notComplete : a.isComplete = false
  arrived : ∀ b ∈ a.orderedFragments, ∃ x ∈ arrived, ValidPacket x.ipHeader ∧
    b = packetOf x.ipHeader
  oneKey : ∀ b ∈ a.orderedFragments, ∀ b' ∈ a.orderedFragments,
    reassemblyKey b = reassemblyKey b'

/-- A packet put together from arrived fragments of one datagram. -/
def FromOneDatagram (arrived : List Arrival) (packet : List UInt8) : Prop :=
  ∃ fs key, (∀ f ∈ fs, (∃ x ∈ arrived, f = packetOf x.ipHeader) ∧ reassemblyKey f = key) ∧
    AssembledFrom fs packet

theorem insertFragment_mem {ipHeader : List UInt8} :
    ∀ {l r : List SizedBuffer}, WaitAllAndSort.insertFragment ipHeader l = .ok (some r) →
      r ≠ [] ∧ ∀ b ∈ r, b = packetOf ipHeader ∨ b ∈ l
  | [], r, h => by
    obtain ⟨b, hb, h⟩ := Except.bind_eq_ok.1 h
    cases h
    refine ⟨List.cons_ne_nil _ _, fun b' hb' => ?_⟩
    rw [List.mem_singleton.1 hb', append_ok hb]
    exact .inl rfl
  | f :: l, r, h => by
    obtain ⟨header, hh, h₁⟩ := Except.bind_eq_ok.1 h
    split at h₁
    · cases h₁
    · split at h₁
      · obtain ⟨b, hb, h₂⟩ := Except.bind_eq_ok.1 h₁
        cases h₂
        refine ⟨List.cons_ne_nil _ _, fun b' hb' => ?_⟩
        rcases List.mem_cons.1 hb' with rfl | hb'
        · rw [append_ok hb]
          exact .inl rfl
        · exact .inr hb'
      · obtain ⟨o, ho, h₂⟩ := Except.bind_eq_ok.1 h₁
        cases o with
        | none => cases h₂
        | some r' =>
          cases h₂
          refine ⟨List.cons_ne_nil _ _, fun b' hb' => ?_⟩
          rcases List.mem_cons.1 hb' with rfl | hb'
          · exact .inr (List.mem_cons_self ..)
          · rcases (insertFragment_mem ho).2 b' hb' with h | h
            · exact .inl h
            · exact .inr (List.mem_cons_of_mem _ h)

theorem afterInsert_cases {a a' : WaitAllAndSort} {time : Int} (h : a.afterInsert time = .ok a') :
    a' = { a with drop := true } ∨ a' = { a with lastUpdate := time } ∨
      ∃ r, WaitAllAndSort.assemble a.orderedFragments {} = .ok r ∧ r.drop = false ∧
        a'.isComplete = true ∧ a'.packetData = r.packetData := by
  unfold WaitAllAndSort.afterInsert at h
  split at h
  · cases h
    exact .inl rfl
  split at h
  · obtain ⟨r, hr, h⟩ := Except.bind_eq_ok.1 h
    split at h
    · cases h
      exact .inl rfl
    · rename_i hd
      cases h
      exact .inr (.inr ⟨r, hr, by simpa using hd, rfl, rfl⟩)
  · cases h
    exact .inr (.inl rfl)

/-- **One fragment more**: the entry still waits for more fragments of its datagram, or it is dropped,
or it holds a packet of that datagram. -/
theorem OneKey.addFragment {arrived : List Arrival} {a a' : WaitAllAndSort} (h : OneKey arrived a)
    {x : Arrival} (hx : x ∈ arrived) (hv : ValidPacket x.ipHeader)
    (hkey : ∀ b ∈ a.orderedFragments, reassemblyKey b = reassemblyKey x.ipHeader) {time : Int}
    (ha : a.addFragment time x.ipHeader = .ok a') :
    (a'.isComplete = false ∧ (a'.drop = false → OneKey arrived a')) ∨
      (a'.isComplete = true ∧
        ∀ packet, a'.packetData = some packet → FromOneDatagram arrived packet) := by
  rcases catchException_cases ha with ha | rfl
  · obtain ⟨o, ho, ha⟩ := Except.bind_eq_ok.1 ha
    cases o with
    | none =>
      cases ha
      exact .inl ⟨h.notComplete, fun _ => h⟩
    | some r =>
      obtain ⟨hne, hmem⟩ := insertFragment_mem ho
      have harr : ∀ b ∈ r, ∃ x ∈ arrived, ValidPacket x.ipHeader ∧ b = packetOf x.ipHeader := by
        intro b hb
        rcases hmem b hb with rfl | hb
        · exact ⟨x, hx, hv, rfl⟩
        · exact h.arrived b hb
      have hone : ∀ b ∈ r, reassemblyKey b = reassemblyKey x.ipHeader := by
        intro b hb
        rcases hmem b hb with rfl | hb
        · exact packetOf_key hv
        · exact hkey b hb
      have h₁ : OneKey arrived (a.inserted x.ipHeader r) :=
        ⟨h.notComplete, harr, fun b hb b' hb' => (hone b hb).trans (hone b' hb').symm⟩
      rcases afterInsert_cases ha with rfl | rfl | ⟨st, hst, hd, hc, hp⟩
      · exact .inl ⟨h.notComplete, fun hd => by cases hd⟩
      · exact .inl ⟨h.notComplete, fun _ => ⟨h₁.1, h₁.2, h₁.3⟩⟩
      · refine .inr ⟨hc, fun packet hpacket => ?_⟩
        obtain ⟨f, rest, hr⟩ := List.exists_cons_of_ne_nil hne
        obtain ⟨y, -, hvy, hf⟩ := harr f (hr ▸ List.mem_cons_self ..)
        have hst' : WaitAllAndSort.assemble (f :: rest) {} = .ok st := hr ▸ hst
        obtain ⟨packet', hpacket', hfrom⟩ := assemble_assembledFrom (hf ▸ packetOf_valid hvy) hst' hd
        rw [hp, hpacket'] at hpacket
        cases hpacket
        refine ⟨r, reassemblyKey x.ipHeader, fun g hg => ⟨?_, hone g hg⟩, hr ▸ hfrom⟩
        obtain ⟨z, hz, -, hgz⟩ := harr g hg
        exact ⟨z, hz, hgz⟩
  · exact .inl ⟨h.notComplete, fun hd => by cases hd⟩

/-! ## Whole runs -/

/-- The fragments stored under the number of an arriving one, if any, are of its datagram. -/
def SharesKey (s : FragmentTable) (x : Arrival) : Prop :=
  ∀ a, (s.purge x.now).fragmentMap (packetId x.ipHeader) = some a →
    ∀ b ∈ a.orderedFragments, reassemblyKey b = reassemblyKey x.ipHeader

instance (s : FragmentTable) (x : Arrival) : Decidable (SharesKey s x) :=
  decidable_of_iff (∀ a ∈ (s.purge x.now).fragmentMap (packetId x.ipHeader),
    ∀ b ∈ a.orderedFragments, reassemblyKey b = reassemblyKey x.ipHeader) Iff.rfl

/-- What holds of all entries holds of those that a purge leaves. -/
theorem FragmentTable.forall_purge {P : WaitAllAndSort → Prop} {s : FragmentTable}
    (h : ∀ id a, s.fragmentMap id = some a → P a) (now : Int) :
    ∀ id a, (s.purge now).fragmentMap id = some a → P a := by
  unfold FragmentTable.purge
  split
  · intro id a ha
    exact h id a (Option.filter_eq_some_iff.1 ha).1
  · exact h

/-- What holds of all entries and of one that is put in their place holds of all afterwards. -/
theorem FragmentTable.forall_update {P : WaitAllAndSort → Prop} {s s' : FragmentTable}
    (h : ∀ id a, s.fragmentMap id = some a → P a) {id : Nat} {o : Option WaitAllAndSort}
    (ho : ∀ a, o = some a → P a) (hs : s'.fragmentMap = Function.update s.fragmentMap id o) :
    ∀ id a, s'.fragmentMap id = some a → P a := by
  intro id' a ha
  rw [hs] at ha
  by_cases hid : id' = id
  · subst hid
    rw [Function.update_self] at ha
    exact ho a ha
  · rw [Function.update_of_ne hid] at ha
    exact h id' a ha

/-- Every entry of the table holds fragments of one datagram. -/
def TableOneKey (arrived : List Arrival) (s : FragmentTable) : Prop :=
  ∀ id a, s.fragmentMap id = some a → OneKey arrived a

theorem TableOneKey.purge {arrived : List Arrival} {s : FragmentTable}
    (h : TableOneKey arrived s) (now : Int) : TableOneKey arrived (s.purge now) :=
  FragmentTable.forall_purge h now

theorem TableOneKey.update {arrived : List Arrival} {s s' : FragmentTable}
    (h : TableOneKey arrived s) {id : Nat} {o : Option WaitAllAndSort}
    (ho : ∀ a, o = some a → OneKey arrived a)
    (hs : s'.fragmentMap = Function.update s.fragmentMap id o) : TableOneKey arrived s' :=
  FragmentTable.forall_update h ho hs

/-- **The step lemma** of a call. -/
theorem TableOneKey.handleIpFragment {arrived : List Arrival} {s s' : FragmentTable}
    (h : TableOneKey arrived s) {x : Arrival} (hx : x ∈ arrived) (hv : ValidPacket x.ipHeader)
    (hkey : SharesKey s x) {out : Option SizedBuffer}
    (hs : s.handleIpFragment x = .ok (s', out)) :
    TableOneKey arrived s' ∧ ∀ packet, out = some packet → FromOneDatagram arrived packet := by
  have hp := h.purge x.now
  have hentry : OneKey arrived
      (((s.purge x.now).fragmentMap (packetId x.ipHeader)).getD {}) ∧
      ∀ b ∈ (((s.purge x.now).fragmentMap (packetId x.ipHeader)).getD {}).orderedFragments,
        reassemblyKey b = reassemblyKey x.ipHeader := by
    cases hm : (s.purge x.now).fragmentMap (packetId x.ipHeader) with
    | none => exact ⟨⟨rfl, fun _ hb => (by cases hb), fun _ hb => (by cases hb)⟩,
        fun _ hb => (by cases hb)⟩
    | some a => exact ⟨hp _ a hm, hkey a hm⟩
  obtain ⟨a', ha', hs⟩ := Except.bind_eq_ok.1 hs
  have hcases := hentry.1.addFragment hx hv hentry.2 ha'
  split at hs
  · split at hs
    · cases hs
    · cases hs
      refine ⟨hp.update (fun a ha => by cases ha) (Function.update_idem ..), fun packet h => ?_⟩
      cases h
  rename_i hd
  split at hs
  · rename_i hc
    cases hs
    refine ⟨hp.update (fun a ha => by cases ha) (Function.update_idem ..), ?_⟩
    rcases hcases with ⟨hc', -⟩ | ⟨-, hfrom⟩
    · rw [hc'] at hc
      cases hc
    · exact hfrom
  · rename_i hc
    cases hs
    refine ⟨hp.update (fun a ha => ?_) rfl, fun packet h => by cases h⟩
    cases ha
    rcases hcases with ⟨-, h'⟩ | ⟨hc', -⟩
    · exact h' (by simpa using hd)
    · exact absurd hc' hc

theorem fromOneDatagram_of_handleAll {arrived : List Arrival} :
    ∀ {xs : List Arrival} {s s' : FragmentTable} {outs : List (Option SizedBuffer)},
      TableOneKey arrived s → (∀ x ∈ xs, x ∈ arrived ∧ ValidPacket x.ipHeader) →
      Run.Meets FragmentTable.next SharesKey s xs → s.handleAll xs = .ok (s', outs) →
      ∀ packet, some packet ∈ outs → FromOneDatagram arrived packet
  | [], _, _, _, _, _, _, hs, packet, hp => by
    cases hs
    cases hp
  | x :: xs, s, s', outs, h, hxs, hm, hs, packet, hp => by
    obtain ⟨⟨s₁, out⟩, h₁, hs⟩ := Except.bind_eq_ok.1 hs
    obtain ⟨⟨s₂, outs₂⟩, h₂, hs⟩ := Except.bind_eq_ok.1 hs
    cases hs
    obtain ⟨hx, hv⟩ := hxs x (List.mem_cons_self ..)
    obtain ⟨hone, hout⟩ := h.handleIpFragment hx hv hm.1 h₁
    have hnext : s.next x = s₁ := by rw [FragmentTable.next, h₁]
    rcases List.mem_cons.1 hp with hp | hp
    · exact hout packet hp.symm
    · exact fromOneDatagram_of_handleAll hone (fun y hy => hxs y (List.mem_cons_of_mem _ hy))
        (hnext ▸ hm.2) h₂ packet hp

/-- What the calls of a run from the empty table return. -/
def outputs (arrivals : List Arrival) : Except Failure (List (Option SizedBuffer)) :=
  (({} : FragmentTable).handleAll arrivals).map (·.2)

/-- **Fragments of different datagrams do not mix** as long as no fragment arrives while fragments
of another datagram are stored under its identification number. -/
theorem outputs_oneDatagram (arrivals : List Arrival)
    (hvalid : ∀ x ∈ arrivals, ValidPacket x.ipHeader)
    (hkey : Run.Meets FragmentTable.next SharesKey {} arrivals)
    (outs : List (Option SizedBuffer)) (hs : outputs arrivals = .ok outs) :
    ∀ packet, some packet ∈ outs → FromOneDatagram arrivals packet := by
  unfold outputs at hs
  cases hr : ({} : FragmentTable).handleAll arrivals with
  | error e =>
    rw [hr] at hs
    cases hs
  | ok r =>
    rw [hr] at hs
    cases hs
    exact fromOneDatagram_of_handleAll (fun _ _ h => by cases h) (fun x hx => ⟨hx, hvalid x hx⟩)
      hkey hr

/-- A fragment of 10.0.0.`host` with identification number 7. -/
def fragmentFrom (host : UInt8) (off : List UInt8) (piece : List UInt8) : List UInt8 :=
  [0x45, 0, 0, 20 + UInt8.ofNat piece.length, 0, 7] ++ off ++
    [64, 17, 0, 0, 10, 0, 0, host, 10, 0, 0, 9] ++ piece

/-- Two senders, one after the other, with the same number. -/
def inTurn : List Arrival :=
  [⟨100, 100, fragmentFrom 1 [0x20, 0] [1, 1, 1, 1, 1, 1, 1, 1]⟩,
    ⟨100, 100, fragmentFrom 1 [0, 1] [1]⟩, ⟨101, 101, fragmentFrom 3 [0, 1] [2]⟩,
    ⟨101, 101, fragmentFrom 3 [0x20, 0] [2, 2, 2, 2, 2, 2, 2, 2]⟩]

/-- A packet of 10.0.0.`host` with nine times the same byte. -/
def packetFrom (host byte : UInt8) : List UInt8 :=
  [0x45, 0, 0, 29, 0, 7, 0x20, 0, 64, 17, 0, 0, 10, 0, 0, host, 10, 0, 0, 9] ++ List.replicate 9 byte

theorem outputs_oneDatagram_inTurn :
    FromOneDatagram inTurn (packetFrom 1 1) ∧ FromOneDatagram inTurn (packetFrom 3 2) :=
  have hout : outputs inTurn = .ok [none, some (packetFrom 1 1), none, some (packetFrom 3 2)] := by
    decide +kernel
  ⟨outputs_oneDatagram inTurn (by decide) (by decide) _ hout _ (by simp),
    outputs_oneDatagram inTurn (by decide) (by decide) _ hout _ (by simp)⟩

/-- The first fragment of one sender and the last one of another: the packet has the header of one
and the payload of both. -/
theorem outputs_mixed :
    outputs [⟨100, 100, fragmentFrom 1 [0x20, 0] [1, 1, 1, 1, 1, 1, 1, 1]⟩,
        ⟨100, 100, fragmentFrom 3 [0, 1] [2]⟩] =
      .ok [none, some ([0x45, 0, 0, 29, 0, 7, 0x20, 0, 64, 17, 0, 0, 10, 0, 0, 1, 10, 0, 0, 9] ++
        [1, 1, 1, 1, 1, 1, 1, 1, 2])] ∧
    ¬ FromOneDatagram [⟨100, 100, fragmentFrom 1 [0x20, 0] [1, 1, 1, 1, 1, 1, 1, 1]⟩,
        ⟨100, 100, fragmentFrom 3 [0, 1] [2]⟩]
      ([0x45, 0, 0, 29, 0, 7, 0x20, 0, 64, 17, 0, 0, 10, 0, 0, 1, 10, 0, 0, 9] ++
        [1, 1, 1, 1, 1, 1, 1, 1, 2]) := by
  refine ⟨by decide +kernel, ?_⟩
  rintro ⟨fs, key, hfs, f, rest, len, hf, hp⟩
  -- every fragment used is one of the two, and both kinds of bytes are in the payload
  have hcase (g : List UInt8) (hg : g ∈ fs) :
      g = fragmentFrom 1 [0x20, 0] [1, 1, 1, 1, 1, 1, 1, 1] ∨ g = fragmentFrom 3 [0, 1] [2] := by
    obtain ⟨⟨x, hx, hgx⟩, -⟩ := hfs g hg
    rcases List.mem_cons.1 hx with rfl | hx
    · exact .inl (hgx.trans (by decide))
    · rw [List.mem_singleton.1 hx] at hgx
      exact .inr (hgx.trans (by decide))
  have hhl : headerLen f = 20 := by
    rcases hcase f (hf ▸ List.mem_cons_self ..) with rfl | rfl <;> decide
  have hpay : fs.flatMap payloadOf = [1, 1, 1, 1, 1, 1, 1, 1, 2] := by
    have hlen : (setPacketLen (copy f 0 (headerLen f)) len).length = 20 := by
      rw [length_setPacketLen, length_copy, hhl]
    exact (List.append_inj_right hp (by rw [hlen]; rfl)).symm
  have hone : (1 : UInt8) ∈ fs.flatMap payloadOf := by
    rw [hpay]
    decide
  have htwo : (2 : UInt8) ∈ fs.flatMap payloadOf := by
    rw [hpay]
    decide
  obtain ⟨g, hg, h1⟩ := List.mem_flatMap.1 hone
  obtain ⟨g', hg', h2⟩ := List.mem_flatMap.1 htwo
  have hg1 : g = fragmentFrom 1 [0x20, 0] [1, 1, 1, 1, 1, 1, 1, 1] := by
    rcases hcase g hg with rfl | rfl
    · rfl
    · exact absurd h1 (by decide)
  have hg2 : g' = fragmentFrom 3 [0, 1] [2] := by
    rcases hcase g' hg' with rfl | rfl
    · exact absurd h2 (by decide)
    · rfl
  have hkey := (hfs g hg).2.trans (hfs g' hg').2.symm
  rw [hg1, hg2] at hkey
  exact absurd hkey (by decide)

end Oreka.Net
