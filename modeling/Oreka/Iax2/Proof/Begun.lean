import Oreka.Iax2.Proof.MiniFrames

/-!
# Sessions that have heard a packet

`Begun`: a session that has taken in a packet is started and has counted it, and one that has not
keeps none. Every input keeps this (`allBegun_reached`), so a listening session plays each frame that
it takes in as one chunk (`report_payloads_of_takes`).
-/

namespace Oreka.Iax2

open Iax2Session

namespace Iax2Session

variable {s : Iax2Session} {cfg : Config}

structure Begun (s : Iax2Session) : Prop where
  silent : s.lastIax2Packet = none → s.lastIax2PacketSide1 = none ∧ s.numIax2Packets = 0
  started : s.lastIax2Packet ≠ none → s.started = true ∧ 1 ≤ s.numIax2Packets

/-- What `Begun` reads of a session. -/
def heardOf (s : Iax2Session) : Option Ref × Option Ref × Nat × Bool :=
  (s.lastIax2Packet, s.lastIax2PacketSide1, s.numIax2Packets, s.started)

theorem Begun.congr {t : Iax2Session} (h : t.heardOf = s.heardOf) (hs : s.Begun) : t.Begun := by
  obtain ⟨h₁, h⟩ := Prod.mk.inj h
  obtain ⟨h₂, h⟩ := Prod.mk.inj h
  obtain ⟨h₃, h₄⟩ := Prod.mk.inj h
  refine ⟨?_, ?_⟩
  · rw [h₁, h₂, h₃]
    exact hs.silent
  · rw [h₁, h₃, h₄]
    exact hs.started

theorem stop_heardOf (s : Iax2Session) : s.stop.1.heardOf = s.heardOf := by
  unfold stop
  split <;> rfl

theorem begun_newFor (cfg : Config) (trackingId : String) (invite : Iax2NewInfo) (now : Int) :
    (newFor cfg trackingId invite now).Begun := by
  have h : (newFor cfg trackingId invite now).heardOf = (none, none, 0, false) := by
    unfold newFor reportIax2New new
    cases cfg.iax2TreatCallerIdNameAsXUniqueId <;> rfl
  refine Begun.congr (s := {}) h ⟨fun _ => ⟨rfl, rfl⟩, fun hn => absurd rfl hn⟩

theorem readHeader_heardOf (s : Iax2Session) (cfg : Config) (pkt : Iax2PacketInfo) (first : Bool) :
    (s.readHeader cfg pkt first).heardOf = s.heardOf := by
  unfold readHeader processMetadataIax2
  dsimp only
  cases s.newInfo with
  | none => split <;> split <;> rfl
  | some n =>
    dsimp only
    repeat' split
    all_goals rfl

/-- The first packet starts the session. -/
theorem startAtFirst_started (h : s.numIax2Packets = 0 ∨ s.started = true) (cfg : Config) (now : Int) :
    ({ s with numIax2Packets := s.numIax2Packets + 1 }.startAtFirst cfg now).1.started = true := by
  unfold startAtFirst start reportMetadata ensureLocalParty
  dsimp only
  split
  · split <;> rfl
  · next hn =>
    obtain h | h := h
    · exact absurd (by omega) hn
    · exact h

/-- A packet that is played is counted, and starts the session if it is the first. -/
theorem play_started (h : s.numIax2Packets = 0 ∨ s.started = true) (cfg : Config)
    (pkt : Iax2PacketInfo) (channel : UInt8) (now : Int) :
    (s.play cfg pkt channel now).1.started = true := by
  have hadvance (s : Iax2Session) : (s.advance channel).started = s.started := by
    unfold advance
    split <;> rfl
  have hdeliver (s : Iax2Session) : (s.deliver pkt channel).1.started = s.started := by
    unfold deliver
    dsimp only
    split <;> rfl
  unfold play
  dsimp only
  rw [hdeliver, hadvance, startAtFirst_started h]

theorem kept_heard (s : Iax2Session) (cfg : Config) (packets : Ref → Iax2PacketInfo) (p : Ref) :
    (s.kept cfg packets p).lastIax2Packet = some p ∧
      (s.kept cfg packets p).numIax2Packets = s.numIax2Packets ∧
      (s.kept cfg packets p).started = s.started := by
  have hread := readHeader_heardOf s cfg (packets p) (s.lastIax2Packet = none)
  obtain ⟨-, hread⟩ := Prod.mk.inj hread
  obtain ⟨-, hread⟩ := Prod.mk.inj hread
  obtain ⟨hnum, hstarted⟩ := Prod.mk.inj hread
  unfold kept keep received
  split <;> exact ⟨rfl, hnum, hstarted⟩

/-- A session that keeps a packet is started by now, or the packet is its first. -/
theorem Begun.kept_started (hs : s.Begun) (cfg : Config) (packets : Ref → Iax2PacketInfo) (p : Ref) :
    (s.kept cfg packets p).numIax2Packets = 0 ∨ (s.kept cfg packets p).started = true := by
  have hkeep := kept_heard s cfg packets p
  rw [hkeep.2.1, hkeep.2.2]
  by_cases hn : s.lastIax2Packet = none
  · exact .inl (hs.silent hn).2
  · exact .inr (hs.started hn).1

theorem begun_addIax2Packet (hs : s.Begun) (cfg : Config) (packets : Ref → Iax2PacketInfo) (p : Ref)
    (now : Int) : (s.addIax2Packet cfg packets p now).session.Begun := by
  by_cases hv : s.TakesVoice
  · by_cases hh : s.Hears (packets p)
    · have hread := readHeader_heardOf s cfg (packets p) (s.lastIax2Packet = none)
      obtain ⟨-, hread⟩ := Prod.mk.inj hread
      obtain ⟨-, hread⟩ := Prod.mk.inj hread
      obtain ⟨hnum, hstarted⟩ := Prod.mk.inj hread
      by_cases hd : s.Duplicate cfg packets p
      · rw [addIax2Packet_duplicate hv hh hd]
        refine ⟨fun hn => (Option.some_ne_none _ hn).elim, fun _ => ?_⟩
        -- a session that keeps no packet finds no duplicate
        have hlast : s.lastIax2Packet ≠ none := by
          intro hn
          have hkept := hd.2
          unfold keptTimestamp keptFor at hkept
          rw [(hs.silent hn).1] at hkept
          cases hkept
        obtain ⟨hst, hone⟩ := hs.started hlast
        exact ⟨hstarted.trans hst, hone.trans_eq hnum.symm⟩
      · obtain ⟨packets', -, he⟩ := addIax2Packet_kept now hv hh hd
        rw [he]
        set channel := s.channelFor packets (packets p).destIp
        have hkeep := kept_heard s cfg packets p
        have hlast := ((play_ignoresKept cfg (packets p) channel now).kept (s.kept cfg packets p)).1
        refine ⟨fun hn => ?_, fun _ => ⟨play_started (hs.kept_started cfg packets p) .., ?_⟩⟩
        · rw [hlast, hkeep.1] at hn
          cases hn
        · rw [(play_num ..).1]
          exact Nat.le_add_left ..
    · rw [addIax2Packet_unheard hv hh]
      exact hs
  · rw [addIax2Packet_refused hv]
    exact hs

end Iax2Session

namespace Iax2Sessions

variable {σ : Iax2Sessions} {cfg : Config} {p r x : Ref} {info : Iax2PacketInfo}

def AllBegun (σ : Iax2Sessions) : Prop := ∀ r, (σ.sessions r).Begun

theorem AllBegun.setSession (h : AllBegun σ) {s : Iax2Session} (hs : s.Begun) (r : Ref) :
    AllBegun (σ.setSession r s) := by
  intro x
  unfold Iax2Sessions.setSession
  by_cases hx : x = r
  · subst hx
    simpa using hs
  · simpa [hx] using h x

theorem AllBegun.change (h : AllBegun σ) {f : Iax2Session → Iax2Session}
    (hf : ∀ s, (f s).heardOf = s.heardOf) (r : Ref) :
    AllBegun (σ.setSession r (f (σ.sessions r))) :=
  h.setSession ((h r).congr (hf _)) r

theorem AllBegun.stop (h : AllBegun σ) (r : Ref) : AllBegun (σ.stop r) := by
  intro x
  rw [sessions_stop]
  split
  · exact (h x).congr (stop_heardOf _)
  · exact h x

theorem AllBegun.stopFound (h : AllBegun σ) (found : Option Ref) : AllBegun (σ.stopFound found) := by
  cases found with
  | none => exact h
  | some r => exact h.stop r

theorem AllBegun.stopEach (h : AllBegun σ) (rs : List Ref) : AllBegun (σ.stopEach rs) := by
  induction rs generalizing σ with
  | nil => exact h
  | cons r rs ih => exact ih (h.stop r)

theorem AllBegun.create (h : AllBegun σ) (invite : Iax2NewInfo) (now : Int) :
    AllBegun (σ.create cfg invite now) :=
  h.setSession (begun_newFor ..) _

theorem AllBegun.report (h : AllBegun σ) (cfg : Config) (p : Ref) (info : Iax2PacketInfo) :
    AllBegun (σ.report cfg p info).1 := by
  cases hl : σ.lookup info with
  | none =>
    rw [report_of_none hl]
    exact h
  | some r =>
    have hfill : AllBegun (σ.fill p info) := h
    have htake := hfill.setSession (begun_addIax2Packet (hfill r) cfg (σ.fill p info).packets p
      info.arrivalTimestamp) r
    rw [report_of_some hl, givePacket_fst]
    split
    · exact htake
    · exact AllBegun.stop htake r

theorem AllBegun.signal (h : AllBegun σ) {op : Op} (hop : Plugin.IsSignal op) :
    AllBegun (σ.step cfg op) := by
  cases op with
  | new invite now =>
    unfold step reportIax2New
    dsimp only
    split
    · exact h.create invite now
    · split
      · exact h
      · exact (h.stop _).create invite now
  | authreq info =>
    unfold step Iax2Sessions.reportIax2Authreq
    dsimp only
    split
    · exact h
    · next r hr =>
      exact h.change (f := fun s => { s.reportIax2Authreq info with
        destIpAndCallNo := ipAndCallNo info.senderIp info.senderCallno, state := .waiting })
        (fun _ => rfl) r
  | accept info =>
    unfold step Iax2Sessions.reportIax2Accept
    dsimp only
    split
    · exact h
    · next r hr =>
      split
      · next r' hr' => exact h.change (f := fun s => { s with state := .linked }) (fun _ => rfl) r'
      · exact h.change (f := fun s => Iax2Session.reportIax2Accept
          { s with destIpAndCallNo := ipAndCallNo info.senderIp info.senderCallno, state := .linked }
          info) (fun _ => rfl) r
  | hangup bye => exact (((h.stopFound _).stopFound _).stopFound _).stopFound _
  | packet p pkt now => exact hop.elim
  | hoover now => exact (h.stopEach _).stopEach _
  | stopAll now => exact (h.stopEach _).stopEach _

end Iax2Sessions

namespace Plugin

open Iax2Sessions

variable {π : Plugin} {cfg : Config}

theorem allBegun_reportShared {σ : Iax2Sessions} (h : AllBegun σ) (cfg : Config) (p : Ref)
    (infos : List Iax2PacketInfo) : AllBegun (σ.reportShared cfg p infos) := by
  induction infos generalizing σ with
  | nil => exact h
  | cons info infos ih => exact ih (h.report cfg p info)

theorem allBegun_detectVoice (h : AllBegun π.sessions) (u : UdpPacket) (clock : Nat → Int) :
    AllBegun (π.detectVoice cfg u clock).sessions := by
  have hfull (π : Plugin) (h : AllBegun π.sessions) :
      AllBegun (π.tryIax2FullVoiceFrame cfg u (clock 0)).1.sessions := by
    unfold tryIax2FullVoiceFrame
    split
    · exact h
    · exact AllBegun.report h cfg _ _
  have hmini (π : Plugin) (h : AllBegun π.sessions) :
      AllBegun (π.tryIax2MiniVoiceFrame cfg u (clock 0)).1.sessions := by
    unfold tryIax2MiniVoiceFrame
    split
    · exact h
    · exact AllBegun.report h cfg _ _
  have h₁ := hfull π h
  have h₂ := allBegun_reportShared h₁ cfg (π.tryIax2FullVoiceFrame cfg u (clock 0)).1.allocated
    (metaTrunkFrame u clock)
  unfold detectVoice
  dsimp only
  split
  · exact h₁
  · split
    · exact h₂
    · exact hmini _ h₂

theorem allBegun_reached (cfg : Config) (inputs : List Input) :
    AllBegun (({} : Plugin).run cfg inputs).sessions := by
  refine Run.inv_foldl (P := fun π : Plugin => AllBegun π.sessions) (fun π i h => ?_) inputs
    fun r => ⟨fun _ => ⟨rfl, rfl⟩, fun hn => absurd rfl hn⟩
  cases i with
  | signal op hop => exact AllBegun.signal h hop
  | udp u clock => exact allBegun_detectVoice h u clock

end Plugin

/-! ## What is played -/

/-- The payloads of the chunks that were handed over. -/
def voicePayloads (out : List Output) : List (List UInt8) :=
  out.filterMap fun
    | .chunk _ buffer _ => some buffer
    | .event .. => none

theorem voicePayloads_append (out out' : List Output) :
    voicePayloads (out ++ out') = voicePayloads out ++ voicePayloads out' :=
  List.filterMap_append ..

namespace Iax2Session

variable {s : Iax2Session}

theorem stop_payloads (s : Iax2Session) : voicePayloads s.stop.2 = [] := by
  unfold stop
  split <;> rfl

/-- A started session plays a packet that is not its first one as one chunk. -/
theorem play_payloads (hs : s.started = true) (hn : 1 ≤ s.numIax2Packets) (cfg : Config)
    (pkt : Iax2PacketInfo) (channel : UInt8) (now : Int) :
    voicePayloads (s.play cfg pkt channel now).2 = [pkt.payload.take pkt.payloadSize.toNat] := by
  have hstart : { s with numIax2Packets := s.numIax2Packets + 1 }.startAtFirst cfg now =
      ({ s with numIax2Packets := s.numIax2Packets + 1 }, []) := if_neg (by dsimp only; omega)
  have hadvance : ({ s with numIax2Packets := s.numIax2Packets + 1 }.advance channel).started =
      true := by
    unfold advance
    split <;> exact hs
  unfold play
  rw [hstart]
  unfold deliver
  dsimp only
  rw [if_pos hadvance]
  rfl

end Iax2Session

namespace Iax2Sessions

variable {σ : Iax2Sessions} {cfg : Config} {p r x : Ref} {info : Iax2PacketInfo}

theorem stop_payloads (σ : Iax2Sessions) (r : Ref) :
    voicePayloads (σ.stop r).outputs = voicePayloads σ.outputs := by
  have h : (σ.stop r).outputs = σ.outputs ++ (σ.sessions r).stop.2 := rfl
  rw [h, voicePayloads_append, Iax2Session.stop_payloads, List.append_nil]

theorem report_payloads_of_not_takes (hm : info.frameType = .mini) (cfg : Config) (p : Ref)
    (hn : ∀ x, ¬ σ.Takes cfg p info x) :
    voicePayloads (σ.report cfg p info).1.outputs = voicePayloads σ.outputs := by
  have hcases := report_cases σ cfg p hm
  generalize (σ.report cfg p info).1 = σ' at hcases ⊢
  cases hcases with
  | ignored => rfl
  | refused r => exact stop_payloads ..
  | duplicate r s =>
    change voicePayloads (σ.outputs ++ []) = _
    rw [List.append_nil]
  | kept r s packets channel hr hd => exact absurd ⟨hr, hd⟩ (hn r)

theorem report_payloads_of_takes (hm : info.frameType = .mini) (cfg : Config) (p : Ref)
    (h : AllBegun σ) (ht : σ.Takes cfg p info r) :
    voicePayloads (σ.report cfg p info).1.outputs =
      voicePayloads σ.outputs ++ [info.payload.take info.payloadSize.toNat] := by
  have hcases := report_cases σ cfg p hm
  generalize (σ.report cfg p info).1 = σ' at hcases ⊢
  cases hcases with
  | ignored hr => exact absurd ht (not_takes_of_none hr r)
  | refused r' hr => exact absurd ht (not_takes_of_none hr r)
  | duplicate r' s hr hd => exact absurd ht (not_takes_of_duplicate hr hd r)
  | kept r' s packets channel hr _ _ hs =>
    obtain rfl := Option.some.inj (ht.1.symm.trans hr)
    obtain ⟨hst, hone⟩ := (h r).started (hit_eq_some.1 hr).2.2
    have hsame : s.started = true ∧ 1 ≤ s.numIax2Packets := by
      rw [hs]
      unfold keep
      split <;> exact ⟨hst, hone⟩
    change voicePayloads (σ.outputs ++ _) = _
    rw [voicePayloads_append, play_payloads hsame.1 hsame.2]

end Iax2Sessions

end Oreka.Iax2
