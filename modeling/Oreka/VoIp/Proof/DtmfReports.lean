import Oreka.VoIp.DtmfHandling

/-!
# Each event once

The timestamps of the reported events are the changes of the timestamps of the end packets, from the
one that the session remembers (`rtpEventTs_reports`). So an event is reported once unless its end
packets stand between those of another one, or have the remembered timestamp: 0 in a new session.
-/

namespace Oreka.VoIp

open Changes

theorem RtpEventInfo.startTimestamp_ofPacket {p : RtpPacketInfo} {info : RtpEventInfo}
    (h : RtpEventInfo.ofPacket p = some info) : info.startTimestamp = p.timestamp := by
  unfold RtpEventInfo.ofPacket at h
  split at h
  · cases h
    rfl
  · cases h

theorem TelephoneEvent.Sends.timestamp {e : TelephoneEvent} {p : RtpPacketInfo} (h : e.Sends p) :
    p.timestamp = e.timestamp := by
  obtain ⟨info, hinfo, hts, -⟩ := h
  rw [← RtpEventInfo.startTimestamp_ofPacket hinfo, hts]

/-- A packet is reported when it has the end bit and another timestamp than the remembered one. -/
theorem rtpEventReport_cases (ts : UInt32) (channel : Nat) (p : RtpPacketInfo) :
    (rtpEventReport ts channel p = none ∧ (endPacket p = true → p.timestamp = ts)) ∨
      ∃ r info, rtpEventReport ts channel p = some r ∧ RtpEventInfo.ofPacket p = some info ∧
        endPacket p = true ∧ p.timestamp ≠ ts ∧ r.rtpEventTs = p.timestamp ∧
        r.digitValue = VoIpCall.dtmfDigitToString info.event := by
  unfold rtpEventReport endPacket
  rcases h : RtpEventInfo.ofPacket p with _ | info
  · exact Or.inl ⟨rfl, by simp⟩
  · have hts := RtpEventInfo.startTimestamp_ofPacket h
    simp only [Option.any_some, hts]
    by_cases hr : ts ≠ p.timestamp ∧ info.isEnd = true
    · rw [if_pos hr]
      exact Or.inr ⟨_, info, rfl, rfl, hr.2, Ne.symm hr.1, rfl, rfl⟩
    · rw [if_neg hr]
      refine Or.inl ⟨rfl, fun he => ?_⟩
      by_contra hne
      exact hr ⟨Ne.symm hne, he⟩

/-- What the session remembers after a packet. -/
theorem currentRtpEventTs_handleRtpEvent (c : VoIpCall) (cfg : VoIpConfig) (channel : Nat)
    (p : RtpPacketInfo) :
    (c.handleRtpEvent cfg p).currentRtpEventTs =
      match rtpEventReport c.currentRtpEventTs channel p with
      | none => c.currentRtpEventTs
      | some r => r.rtpEventTs := by
  rw [handleRtpEvent_eq c cfg channel p]
  rcases rtpEventReport c.currentRtpEventTs channel p with _ | r
  · rfl
  · exact VoIpCall.currentRtpEventTs_reportDtmfDigit _ _ _

/-- **The reported timestamps.** -/
theorem rtpEventTs_reports (c : VoIpCall) (cfg : VoIpConfig) (ps : List (Nat × RtpPacketInfo)) :
    (c.handleRtpEvents cfg ps).2.map DtmfReport.rtpEventTs =
      changes c.currentRtpEventTs (endTimestamps ps) := by
  induction ps generalizing c with
  | nil => rfl
  | cons x ps ih =>
    obtain ⟨channel, p⟩ := x
    have hts := currentRtpEventTs_handleRtpEvent c cfg channel p
    rw [VoIpCall.handleRtpEvents]
    simp only [List.map_append, ih, hts]
    rcases rtpEventReport_cases c.currentRtpEventTs channel p with
      ⟨hr, hend⟩ | ⟨r, info, hr, -, hend, hne, hrts, -⟩
    · rw [hr]
      by_cases he : endPacket p = true
      · simp [endTimestamps, he, changes, hend he]
      · simp [endTimestamps, he]
    · rw [hr]
      simp [endTimestamps, hend, changes, hne, hrts]

/-- What is reported is in a packet. -/
theorem exists_packet_of_report {c : VoIpCall} {cfg : VoIpConfig} {ps : List (Nat × RtpPacketInfo)}
    {r : DtmfReport} (h : r ∈ (c.handleRtpEvents cfg ps).2) :
    ∃ x ∈ ps, ∃ info, RtpEventInfo.ofPacket x.2 = some info ∧ r.rtpEventTs = x.2.timestamp ∧
      r.digitValue = VoIpCall.dtmfDigitToString info.event := by
  induction ps generalizing c with
  | nil => cases h
  | cons x ps ih =>
    rw [VoIpCall.handleRtpEvents] at h
    rcases List.mem_append.1 h with h | h
    · rcases rtpEventReport_cases c.currentRtpEventTs x.1 x.2 with
        ⟨hr, -⟩ | ⟨r', info, hr, hinfo, -, -, hts, hdigit⟩
      · rw [hr] at h
        cases h
      · rw [hr] at h
        obtain rfl : r = r' := by simpa using h
        exact ⟨x, List.mem_cons_self, info, hinfo, hts, hdigit⟩
    · obtain ⟨y, hy, hrest⟩ := ih h
      exact ⟨y, List.mem_cons_of_mem x hy, hrest⟩

namespace EventStream

variable (s : EventStream) (c : VoIpCall) (cfg : VoIpConfig)

/-- A reported timestamp and digit are those of an event. -/
theorem exists_event {r : DtmfReport} (h : r ∈ (c.handleRtpEvents cfg s.packets).2) :
    ∃ e ∈ s.events, r.rtpEventTs = e.timestamp ∧
      r.digitValue = VoIpCall.dtmfDigitToString e.event := by
  obtain ⟨x, hx, info, hinfo, hts, hdigit⟩ := exists_packet_of_report h
  obtain ⟨e, he, hsends⟩ := s.sent x hx
  refine ⟨e, he, hts.trans hsends.timestamp, ?_⟩
  obtain ⟨info', hinfo', -, hevent⟩ := hsends
  rw [hinfo] at hinfo'
  cases hinfo'
  rw [hdigit, hevent]

/-- The digit of the event with a timestamp. -/
def digitOf (ts : UInt32) : String :=
  match s.events.find? (·.timestamp == ts) with
  | some e => VoIpCall.dtmfDigitToString e.event
  | none => ""

theorem digitOf_timestamp {e : TelephoneEvent} (he : e ∈ s.events) :
    s.digitOf e.timestamp = VoIpCall.dtmfDigitToString e.event := by
  have hsome : (s.events.find? (·.timestamp == e.timestamp)).isSome := by
    rw [List.find?_isSome]
    exact ⟨e, he, by simp⟩
  obtain ⟨e', he'⟩ := Option.isSome_iff_exists.1 hsome
  have hts : e'.timestamp = e.timestamp := by simpa using List.find?_some he'
  obtain rfl : e' = e := List.inj_on_of_nodup_map s.distinct (List.mem_of_find?_eq_some he') he hts
  rw [digitOf, he']

/-- The digits follow from the timestamps. -/
theorem reportedOnce_iff_perm : s.ReportedOnce c cfg ↔
    ((c.handleRtpEvents cfg s.packets).2.map DtmfReport.rtpEventTs).Perm
      (s.events.map TelephoneEvent.timestamp) := by
  have hreports : (c.handleRtpEvents cfg s.packets).2.map (fun r => (r.rtpEventTs, r.digitValue)) =
      ((c.handleRtpEvents cfg s.packets).2.map DtmfReport.rtpEventTs).map
        fun ts => (ts, s.digitOf ts) := by
    rw [List.map_map]
    refine List.map_congr_left fun r hr => ?_
    obtain ⟨e, he, hts, hdigit⟩ := s.exists_event c cfg hr
    simp [hts, hdigit, s.digitOf_timestamp he]
  have hevents : s.events.map (fun e => (e.timestamp, VoIpCall.dtmfDigitToString e.event)) =
      (s.events.map TelephoneEvent.timestamp).map fun ts => (ts, s.digitOf ts) := by
    rw [List.map_map]
    refine List.map_congr_left fun e he => ?_
    simp [s.digitOf_timestamp he]
  unfold ReportedOnce
  rw [hreports, hevents]
  constructor
  · intro h
    simpa [List.map_map, Function.comp_def] using h.map Prod.fst
  · intro h
    exact h.map _

/-- **Each event once, with its digit**: exactly when, of the end packets without those at the front
that have the remembered timestamp, none comes back after one of another event, and one of each event
is there. -/
theorem reportedOnce_iff : s.ReportedOnce c cfg ↔
    Grouped (dropFront c.currentRtpEventTs (endTimestamps s.packets)) ∧
      ∀ e ∈ s.events, e.timestamp ∈ dropFront c.currentRtpEventTs (endTimestamps s.packets) := by
  rw [reportedOnce_iff_perm, rtpEventTs_reports, ← nodup_changes_iff]
  constructor
  · intro h
    refine ⟨h.nodup_iff.2 s.distinct, fun e he => ?_⟩
    rw [← mem_changes, h.mem_iff]
    exact List.mem_map_of_mem he
  · rintro ⟨hnodup, hall⟩
    rw [List.perm_ext_iff_of_nodup hnodup s.distinct]
    intro ts
    constructor
    · intro hts
      rw [← rtpEventTs_reports c cfg] at hts
      obtain ⟨r, hr, rfl⟩ := List.mem_map.1 hts
      obtain ⟨e, he, hre, -⟩ := s.exists_event c cfg hr
      rw [hre]
      exact List.mem_map_of_mem he
    · intro hts
      obtain ⟨e, he, rfl⟩ := List.mem_map.1 hts
      rw [mem_changes]
      exact hall e he

end EventStream

/-- An end packet of an event. -/
def endOf (timestamp : UInt32) (event : UInt8) (seqNum : UInt16) : Nat × RtpPacketInfo :=
  (1, { payload := [event, 0x8a, 3, 32], seqNum := seqNum, timestamp := timestamp })

/-- The digits 5 and 7; a retransmission of the end of the first one arrives after the second one. -/
def interleaved : EventStream where
  events := [⟨160, 5⟩, ⟨2000, 7⟩]
  packets := [endOf 160 5 1, endOf 2000 7 3, endOf 160 5 2]
  distinct := by decide
  sent := by
    simp only [List.forall_mem_cons]
    exact ⟨⟨⟨160, 5⟩, by decide, _, rfl, rfl, rfl⟩, ⟨⟨2000, 7⟩, by decide, _, rfl, rfl, rfl⟩,
      ⟨⟨160, 5⟩, by decide, _, rfl, rfl, rfl⟩, by simp⟩
  ended := by
    simp only [List.forall_mem_cons]
    exact ⟨⟨endOf 160 5 1, by decide, ⟨_, rfl, rfl, rfl⟩, by decide⟩,
      ⟨endOf 2000 7 3, by decide, ⟨_, rfl, rfl, rfl⟩, by decide⟩, by simp⟩

/-- Three reports of two events. -/
theorem interleaved_not_reportedOnce : ¬ interleaved.ReportedOnce {} {} := by
  intro h
  have hlen := h.length_eq
  simp only [List.length_map] at hlen
  have hthree : (VoIpCall.handleRtpEvents {} {} interleaved.packets).2.length = 3 := by
    decide
  rw [hthree] at hlen
  cases hlen

end Oreka.VoIp
