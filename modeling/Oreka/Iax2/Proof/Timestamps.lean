import Mathlib.Data.List.Chain
import Oreka.Iax2.Proof.Begun

/-!
# The timestamps of the chunks

The chunks of a channel are counted, and a chunk's timestamp is its number times what `RtpTimestamp`
returns: 160, whatever the codec, because no case of its `switch` ends with a `break`. `Steady` is what
the timestamps should do; a run keeps it exactly where no chunk behind the first of its channel comes
under a codec with another duration, or finds the counter at its end (`steady_iff`).
-/

namespace Oreka.Iax2

namespace Iax2Session

variable {s : Iax2Session} {cfg : Config} {pkt : Iax2PacketInfo} {channel : UInt8}

/-! ## What is handed over -/

/-- The details of the chunks. -/
def voiceDetails (out : List Output) : List AudioChunkDetails :=
  out.filterMap fun
    | .chunk details _ _ => some details
    | .event .. => none

theorem voiceDetails_append (out out' : List Output) :
    voiceDetails (out ++ out') = voiceDetails out ++ voiceDetails out' := List.filterMap_append ..

/-- The duration of a packet as the codec's own case of `RtpTimestamp` has it. -/
def packetDuration (codec : Int) : UInt32 := ((rtpTimestampCases.find? fun c => codec ∈ c.1).map (·.2)).getD 160

theorem packetDuration_eq (codec : Int) :
    packetDuration codec = if codec = 18 then 20 else if codec = 4 then 24 else 160 := by
  unfold packetDuration rtpTimestampCases
  grind

/-- Every case runs on into the last one. -/
theorem rtpTimestamp_eq (s : Iax2Session) : s.rtpTimestamp = 160 := List.getLast_concat

/-- The counter of a channel. -/
def seqNo (s : Iax2Session) (channel : UInt8) : UInt16 :=
  if channel = 1 then s.channel1SeqNo else s.channel2SeqNo

theorem seqNo_advance (s : Iax2Session) (channel : UInt8) :
    (s.advance channel).seqNo channel = nextSeqNo (s.seqNo channel) := by
  unfold advance seqNo
  by_cases h : channel = 1
  · rw [if_pos h, if_pos h, if_pos h]
  · rw [if_neg h, if_neg h, if_neg h]

theorem seqNo_advance_other {other : UInt8} (h : ¬ (other = 1 ↔ channel = 1)) (s : Iax2Session) :
    (s.advance channel).seqNo other = s.seqNo other := by
  unfold advance seqNo
  by_cases hc : channel = 1
  · have ho : ¬ other = 1 := fun ho => h (iff_of_true ho hc)
    rw [if_pos hc, if_neg ho, if_neg ho]
  · have ho : other = 1 := by
      by_contra ho
      exact h (iff_of_false ho hc)
    rw [if_neg hc, if_pos ho, if_pos ho]

/-- What the counters and the codec are read of. -/
def counts (s : Iax2Session) : UInt16 × UInt16 × Int := (s.channel1SeqNo, s.channel2SeqNo, s.codec)

theorem seqNo_congr {t : Iax2Session} (h : t.counts = s.counts) (c : UInt8) : t.seqNo c = s.seqNo c := by
  obtain ⟨h₁, h⟩ := Prod.mk.inj h
  obtain ⟨h₂, -⟩ := Prod.mk.inj h
  unfold seqNo
  rw [h₁, h₂]

theorem codec_congr {t : Iax2Session} (h : t.counts = s.counts) : t.codec = s.codec :=
  (Prod.mk.inj (Prod.mk.inj h).2).2

theorem startAtFirst_counts (s : Iax2Session) (cfg : Config) (now : Int) :
    (s.startAtFirst cfg now).1.counts = s.counts := by
  unfold startAtFirst start reportMetadata ensureLocalParty
  dsimp only
  split
  · split <;> rfl
  · rfl

theorem startAtFirst_details (s : Iax2Session) (cfg : Config) (now : Int) :
    voiceDetails (s.startAtFirst cfg now).2 = [] := by
  unfold startAtFirst
  split
  · unfold start reportMetadata
    dsimp only
    rw [voiceDetails_append]
    unfold voiceDetails
    rw [List.filterMap_map]
    simp
  · rfl

theorem deliver_started (hs : s.started = true) (pkt : Iax2PacketInfo) (channel : UInt8) :
    ∃ d, voiceDetails (s.deliver pkt channel).2 = [d] ∧ d.channel = channel ∧
      d.timestamp = (s.seqNo channel).toUInt32 * 160 ∧ d.rtpPayloadType = s.codec := by
  unfold deliver
  dsimp only
  rw [if_pos hs, rtpTimestamp_eq]
  exact ⟨_, rfl, rfl, rfl, rfl⟩

/-- **A packet that is played** is handed over as one chunk, with the next number of its channel. -/
theorem play_details (h : s.numIax2Packets = 0 ∨ s.started = true) (cfg : Config) (pkt : Iax2PacketInfo)
    (channel : UInt8) (now : Int) : ∃ d, voiceDetails (s.play cfg pkt channel now).2 = [d] ∧ d.channel = channel ∧
      d.timestamp = (nextSeqNo (s.seqNo channel)).toUInt32 * 160 ∧ d.rtpPayloadType = s.codec := by
  have hcounts := startAtFirst_counts { s with numIax2Packets := s.numIax2Packets + 1 } cfg now
  have hstarted := startAtFirst_started h cfg now
  have hnone := startAtFirst_details { s with numIax2Packets := s.numIax2Packets + 1 } cfg now
  unfold play
  dsimp only
  generalize { s with numIax2Packets := s.numIax2Packets + 1 }.startAtFirst cfg now = t at *
  have hadvance : (t.1.advance channel).started = true ∧ (t.1.advance channel).codec = t.1.codec := by
    unfold advance
    split <;> exact ⟨hstarted, rfl⟩
  obtain ⟨d, hd, hchannel, htimestamp, hcodec⟩ := deliver_started hadvance.1 pkt channel
  refine ⟨d, ?_, hchannel, ?_, ?_⟩
  · rw [voiceDetails_append, hnone, hd, List.nil_append]
  · rw [htimestamp, seqNo_advance, seqNo_congr hcounts]
    rfl
  · rw [hcodec, hadvance.2, codec_congr hcounts]

theorem play_seqNo (s : Iax2Session) (cfg : Config) (pkt : Iax2PacketInfo) (channel other : UInt8) (now : Int) :
    (s.play cfg pkt channel now).1.seqNo other =
      if (other = 1 ↔ channel = 1) then nextSeqNo (s.seqNo other) else s.seqNo other := by
  have hcounts := startAtFirst_counts { s with numIax2Packets := s.numIax2Packets + 1 } cfg now
  have hdeliver (s : Iax2Session) : (s.deliver pkt channel).1.counts = s.counts := by
    unfold deliver
    dsimp only
    split <;> rfl
  unfold play
  dsimp only
  rw [seqNo_congr (hdeliver _)]
  by_cases h : other = 1 ↔ channel = 1
  · have hsame (t : Iax2Session) : t.seqNo other = t.seqNo channel := if_congr h rfl rfl
    rw [if_pos h, hsame, seqNo_advance, ← hsame, seqNo_congr hcounts]
    rfl
  · rw [if_neg h, seqNo_advance_other h, seqNo_congr hcounts]
    rfl

/-- The codec once a packet has been read. -/
def codecAfter (s : Iax2Session) (pkt : Iax2PacketInfo) : Int :=
  if pkt.frameType = .full then pkt.payloadType.toNat else s.codec

theorem received_counts (s : Iax2Session) (cfg : Config) (p : Ref) (hh : s.Hears pkt) :
    (s.received cfg pkt p).counts = (s.channel1SeqNo, s.channel2SeqNo, s.codecAfter pkt) := by
  have hmeta : (s.processMetadataIax2 cfg pkt).channel1SeqNo = s.channel1SeqNo ∧
      (s.processMetadataIax2 cfg pkt).channel2SeqNo = s.channel2SeqNo := by
    unfold processMetadataIax2
    dsimp only
    cases s.newInfo with
    | none => exact ⟨rfl, rfl⟩
    | some n =>
      dsimp only
      repeat' split
      all_goals exact ⟨rfl, rfl⟩
  unfold received readHeader codecAfter counts
  by_cases hfull : pkt.frameType = .full
  · by_cases hlast : s.lastIax2Packet = none
    · simp [hfull, hlast, hmeta]
    · simp [hfull, hlast]
  · have hlast : s.lastIax2Packet ≠ none := fun hn => hfull (hh hn)
    simp [hfull, hlast]

theorem kept_counts (s : Iax2Session) (cfg : Config) (packets : Ref → Iax2PacketInfo) (p : Ref)
    (hh : s.Hears (packets p)) :
    (s.kept cfg packets p).counts = (s.channel1SeqNo, s.channel2SeqNo, s.codecAfter (packets p)) := by
  unfold kept keep
  rw [← received_counts s cfg p hh]
  split <;> rfl

/-! ## From one packet to the next -/

theorem nextSeqNo_of_lt {n : UInt16} (h : n.toNat < 65534) :
    (nextSeqNo n).toUInt32 * 160 = n.toUInt32 * 160 + 160 := by
  have hone : (1 : UInt16).toNat = 1 := rfl
  have hsucc : (n + 1).toNat = n.toNat + 1 := by
    rw [UInt16.toNat_add, hone]
    omega
  have hnot : ¬ n + 1 ≥ 65535 := by
    intro hge
    have hle := UInt16.le_iff_toNat_le.1 hge
    rw [hsucc, show (65535 : UInt16).toNat = 65535 from rfl] at hle
    omega
  have hwide : (n + 1).toUInt32 = n.toUInt32 + 1 := by
    apply UInt32.toNat_inj.1
    rw [UInt16.toNat_toUInt32, hsucc, UInt32.toNat_add, UInt16.toNat_toUInt32, show (1 : UInt32).toNat = 1 from rfl]
    omega
  rw [nextSeqNo, if_neg hnot, hwide, UInt32.add_mul, UInt32.one_mul]

/-- The next timestamp is a packet's duration further on, unless the duration is another one than 160 or
the counter begins again. -/
theorem nextTimestamp_iff (n : UInt16) (codec : Int) :
    (nextSeqNo n).toUInt32 * 160 = n.toUInt32 * 160 + packetDuration codec ↔
      codec ≠ 18 ∧ codec ≠ 4 ∧ n.toNat < 65534 := by
  have hduration : packetDuration codec = 160 ↔ codec ≠ 18 ∧ codec ≠ 4 := by
    rw [packetDuration_eq]
    split
    · simp [*]
    · split <;> simp [*]
  by_cases hn : n.toNat < 65534
  · rw [nextSeqNo_of_lt hn, UInt32.add_right_inj, eq_comm, hduration]
    simp [hn]
  · refine iff_of_false ?_ fun h => hn h.2.2
    have hlt := n.toNat_lt
    have hend : n = 65534 ∨ n = 65535 := by
      rw [← UInt16.toNat_inj, ← UInt16.toNat_inj]
      show n.toNat = 65534 ∨ n.toNat = 65535
      omega
    rw [packetDuration_eq]
    rcases hend with rfl | rfl
    · split
      · decide
      · split <;> decide
    · split
      · decide
      · split <;> decide

/-- The packet in `p` is played: it is for a session that hears it, and no duplicate. -/
def Plays (s : Iax2Session) (cfg : Config) (packets : Ref → Iax2PacketInfo) (p : Ref) : Prop :=
  s.TakesVoice ∧ s.Hears (packets p) ∧ ¬ s.Duplicate cfg packets p

instance (s : Iax2Session) (cfg : Config) (packets : Ref → Iax2PacketInfo) (p : Ref) :
    Decidable (s.Plays cfg packets p) := inferInstanceAs (Decidable (_ ∧ _))

variable {packets : Ref → Iax2PacketInfo} {p : Ref}

theorem addIax2Packet_plays (now : Int) (hs : s.Begun) (h : s.Plays cfg packets p) :
    (∃ d, voiceDetails (s.addIax2Packet cfg packets p now).outputs = [d] ∧
      d.channel = s.channelFor packets (packets p).destIp ∧
      d.timestamp = (nextSeqNo (s.seqNo d.channel)).toUInt32 * 160 ∧ d.rtpPayloadType = s.codecAfter (packets p)) ∧
    ∀ c, (s.addIax2Packet cfg packets p now).session.seqNo c =
      if (c = 1 ↔ s.channelFor packets (packets p).destIp = 1) then nextSeqNo (s.seqNo c) else s.seqNo c := by
  obtain ⟨hv, hh, hd⟩ := h
  obtain ⟨packets', -, he⟩ := addIax2Packet_kept now hv hh hd
  have hcounts := kept_counts s cfg packets p hh
  have hcodec : (s.kept cfg packets p).codec = s.codecAfter (packets p) := congrArg (fun c => c.2.2) hcounts
  have hseq (c : UInt8) : (s.kept cfg packets p).seqNo c = s.seqNo c :=
    seqNo_congr (s := { s with codec := s.codecAfter (packets p) }) hcounts c
  rw [he]
  obtain ⟨d, hdetails, hchannel, htimestamp, hpayload⟩ := play_details (hs.kept_started cfg packets p) cfg
    (packets p) (s.channelFor packets (packets p).destIp) now
  refine ⟨⟨d, hdetails, hchannel, ?_, hpayload.trans hcodec⟩, fun c => ?_⟩
  · rw [htimestamp, hseq, hchannel]
  · dsimp only
    rw [play_seqNo, hseq]

theorem addIax2Packet_not_plays (now : Int) (h : ¬ s.Plays cfg packets p) :
    voiceDetails (s.addIax2Packet cfg packets p now).outputs = [] ∧
      ∀ c, (s.addIax2Packet cfg packets p now).session.seqNo c = s.seqNo c := by
  by_cases hv : s.TakesVoice
  · by_cases hh : s.Hears (packets p)
    · have hd : s.Duplicate cfg packets p := by
        by_contra hd
        exact h ⟨hv, hh, hd⟩
      rw [addIax2Packet_duplicate hv hh hd]
      have hcounts := received_counts s cfg p hh
      refine ⟨rfl, fun c => ?_⟩
      exact seqNo_congr (s := { s with codec := s.codecAfter (packets p) })
        (t := { s.received cfg (packets p) p with hasDuplicateIax2 := true }) hcounts c
    · rw [addIax2Packet_unheard hv hh]
      exact ⟨rfl, fun _ => rfl⟩
  · rw [addIax2Packet_refused hv]
    exact ⟨rfl, fun _ => rfl⟩

theorem channelFor_eq (s : Iax2Session) (packets : Ref → Iax2PacketInfo) (d : InAddr) :
    s.channelFor packets d = 1 ∨ s.channelFor packets d = 2 := by
  unfold channelFor
  cases s.lastIax2PacketSide1 with
  | none => exact .inl rfl
  | some l =>
    dsimp only
    split
    · exact .inl rfl
    · exact .inr rfl

end Iax2Session

open Iax2Session

/-! ## Runs -/

/-- A voice frame for the session, in the packet object `ref`. -/
structure VoiceFrame where
  ref : Ref
  info : Iax2PacketInfo
  now : Int

/-- A session with the packet objects, and the chunks it has handed over. -/
structure Playback where
  session : Iax2Session
  packets : Ref → Iax2PacketInfo
  chunks : List AudioChunkDetails := []

namespace Playback

variable {cfg : Config} {σ : Playback} {f : VoiceFrame}

/-- The packet objects with that of the frame. -/
def withFrame (σ : Playback) (f : VoiceFrame) : Ref → Iax2PacketInfo := Function.update σ.packets f.ref f.info

/-- The session is given a frame. -/
def hear (cfg : Config) (σ : Playback) (f : VoiceFrame) : Playback :=
  let added := σ.session.addIax2Packet cfg (σ.withFrame f) f.ref f.now
  { session := added.session, packets := added.packets, chunks := σ.chunks ++ voiceDetails added.outputs }

/-- The channel of a frame. -/
def channelOf (σ : Playback) (f : VoiceFrame) : UInt8 := σ.session.channelFor (σ.withFrame f) f.info.destIp

def onChannel (chunks : List AudioChunkDetails) (c : UInt8) : List AudioChunkDetails :=
  chunks.filter fun d => d.channel = c

/-- From one chunk of a channel to the next the timestamp grows by a packet's duration. -/
def Steady (chunks : List AudioChunkDetails) : Prop :=
  ∀ c, (onChannel chunks c).IsChain fun d d' => d'.timestamp = d.timestamp + packetDuration d'.rtpPayloadType

/-- A frame that is played behind another one of its channel comes under a codec with a duration of 160,
and finds the counter of its channel below its end. -/
def InTime (cfg : Config) (σ : Playback) (f : VoiceFrame) : Prop :=
  σ.session.Plays cfg (σ.withFrame f) f.ref → onChannel σ.chunks (σ.channelOf f) ≠ [] →
    σ.session.codecAfter f.info ≠ 18 ∧ σ.session.codecAfter f.info ≠ 4 ∧
      (σ.session.seqNo (σ.channelOf f)).toNat < 65534

/-- The last chunk of a channel has the number that its counter shows. -/
structure Counted (σ : Playback) : Prop where
  begun : σ.session.Begun
  channel : ∀ d ∈ σ.chunks, d.channel = 1 ∨ d.channel = 2
  last : ∀ c, ∀ d ∈ (onChannel σ.chunks c).getLast?, d.timestamp = (σ.session.seqNo c).toUInt32 * 160

@[simp] theorem withFrame_self (σ : Playback) (f : VoiceFrame) : σ.withFrame f f.ref = f.info :=
  Function.update_self ..

theorem onChannel_append_singleton (chunks : List AudioChunkDetails) (d : AudioChunkDetails) (c : UInt8) :
    onChannel (chunks ++ [d]) c = if d.channel = c then onChannel chunks c ++ [d] else onChannel chunks c := by
  unfold onChannel
  rw [List.filter_append, List.filter_singleton]
  split <;> simp_all

theorem hear_not_plays (h : ¬ σ.session.Plays cfg (σ.withFrame f) f.ref) :
    (hear cfg σ f).chunks = σ.chunks ∧ ∀ c, (hear cfg σ f).session.seqNo c = σ.session.seqNo c := by
  obtain ⟨hnone, hseq⟩ := addIax2Packet_not_plays f.now h
  unfold hear
  dsimp only
  rw [hnone, List.append_nil]
  exact ⟨rfl, hseq⟩

theorem hear_plays (hs : σ.session.Begun) (h : σ.session.Plays cfg (σ.withFrame f) f.ref) :
    (∃ d, (hear cfg σ f).chunks = σ.chunks ++ [d] ∧ d.channel = σ.channelOf f ∧
      d.timestamp = (nextSeqNo (σ.session.seqNo (σ.channelOf f))).toUInt32 * 160 ∧
      d.rtpPayloadType = σ.session.codecAfter f.info) ∧
    ∀ c, (hear cfg σ f).session.seqNo c =
      if (c = 1 ↔ σ.channelOf f = 1) then nextSeqNo (σ.session.seqNo c) else σ.session.seqNo c := by
  obtain ⟨⟨d, hd, hchannel, htimestamp, hcodec⟩, hseq⟩ := addIax2Packet_plays f.now hs h
  rw [withFrame_self] at hchannel hcodec hseq
  refine ⟨⟨d, ?_, hchannel, ?_, hcodec⟩, hseq⟩
  · unfold hear
    dsimp only
    rw [hd]
  · rw [htimestamp, hchannel]
    rfl

theorem Counted.hear (h : Counted σ) (cfg : Config) (f : VoiceFrame) : Counted (hear cfg σ f) := by
  have hbegun : (Playback.hear cfg σ f).session.Begun := begun_addIax2Packet h.begun cfg _ _ _
  by_cases hp : σ.session.Plays cfg (σ.withFrame f) f.ref
  · obtain ⟨⟨d, hd, hchannel, htimestamp, -⟩, hseq⟩ := hear_plays h.begun hp
    have htwo : σ.channelOf f = 1 ∨ σ.channelOf f = 2 := channelFor_eq ..
    refine ⟨hbegun, ?_, fun c e he => ?_⟩
    · rw [hd]
      exact List.forall_mem_append.2 ⟨h.channel, List.forall_mem_singleton.2 (hchannel ▸ htwo)⟩
    · rw [hd, onChannel_append_singleton] at he
      by_cases hc : d.channel = c
      · rw [if_pos hc, List.getLast?_concat, Option.mem_some_iff] at he
        subst he
        have hsame : c = 1 ↔ σ.channelOf f = 1 := by rw [← hc, hchannel]
        rw [hseq, if_pos hsame, htimestamp, ← hchannel, hc]
      · rw [if_neg hc] at he
        have hmem : e ∈ onChannel σ.chunks c := List.mem_of_getLast? he
        obtain ⟨hchunk, hec⟩ := List.mem_filter.1 hmem
        have hec : e.channel = c := of_decide_eq_true hec
        have hother : ¬ (c = 1 ↔ σ.channelOf f = 1) := by
          have hc2 := h.channel e hchunk
          rw [hec] at hc2
          rw [hchannel] at hc
          rcases htwo with h1 | h2
          · rw [h1] at hc ⊢
            exact fun hiff => hc (hiff.2 rfl).symm
          · rw [h2] at hc ⊢
            intro hiff
            rcases hc2 with hc1 | hc2
            · exact absurd (hiff.1 hc1) (by decide)
            · exact hc hc2.symm
        rw [hseq, if_neg hother]
        exact h.last c e he
  · obtain ⟨hchunks, hseq⟩ := hear_not_plays hp
    refine ⟨hbegun, ?_, fun c e he => ?_⟩
    · rw [hchunks]
      exact h.channel
    · rw [hchunks] at he
      rw [hseq]
      exact h.last c e he

/-- One frame more. -/
theorem steady_hear_iff (h : Counted σ) (hsteady : Steady σ.chunks) (cfg : Config) (f : VoiceFrame) :
    Steady (hear cfg σ f).chunks ↔ InTime cfg σ f := by
  by_cases hp : σ.session.Plays cfg (σ.withFrame f) f.ref
  · obtain ⟨⟨d, hd, hchannel, htimestamp, hcodec⟩, -⟩ := hear_plays h.begun hp
    have hsingle : Steady (hear cfg σ f).chunks ↔ ∀ e ∈ (onChannel σ.chunks (σ.channelOf f)).getLast?,
        d.timestamp = e.timestamp + packetDuration d.rtpPayloadType := by
      unfold Steady
      rw [hd]
      constructor
      · intro hall e he
        have hc := hall (σ.channelOf f)
        rw [onChannel_append_singleton, if_pos hchannel, List.isChain_append] at hc
        exact hc.2.2 e he d rfl
      · intro hlast c
        rw [onChannel_append_singleton]
        by_cases hc : d.channel = c
        · rw [if_pos hc]
          refine List.isChain_append.2 ⟨hsteady c, .singleton d, fun e he d' hd' => ?_⟩
          obtain rfl : d = d' := Option.some.inj hd'
          rw [← hc, hchannel] at he
          exact hlast e he
        · rw [if_neg hc]
          exact hsteady c
    rw [hsingle]
    unfold InTime
    cases hlast : (onChannel σ.chunks (σ.channelOf f)).getLast? with
    | none =>
      have hnil : onChannel σ.chunks (σ.channelOf f) = [] := List.getLast?_eq_none_iff.1 hlast
      exact iff_of_true (by simp) fun _ hne => absurd hnil hne
    | some e =>
      have hne : onChannel σ.chunks (σ.channelOf f) ≠ [] := by
        intro hnil
        rw [hnil] at hlast
        cases hlast
      have hte := h.last _ e hlast
      simp only [Option.mem_some_iff, forall_eq', hp, hne, ne_eq, not_false_eq_true, forall_const, htimestamp, hte,
        hcodec]
      exact nextTimestamp_iff _ _
  · obtain ⟨hchunks, -⟩ := hear_not_plays hp
    rw [hchunks]
    exact iff_of_true hsteady fun h => absurd h hp

/-- A session that an ACCEPT has linked. -/
def linked : Playback := { session := { state := .linked }, packets := fun _ => {} }

theorem begun_linked : linked.session.Begun := ⟨fun _ => ⟨rfl, rfl⟩, fun h => absurd rfl h⟩

/-- A full voice frame and a mini frame behind it. -/
def twoFrames (payloadType : UInt16) : List VoiceFrame :=
  [⟨0, { frameType := .full, payloadType, timestamp := 20 }, 1⟩, ⟨1, { timestamp := 40 }, 1⟩]

end Playback

end Oreka.Iax2
