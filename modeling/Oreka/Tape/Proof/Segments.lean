import Mathlib.Data.List.Nodup
import Oreka.Tape.Proof.Unfiltered

/-!
# The segments of a call

A run with segmentation, of the calls of the capture plugin and rounds of the processing thread: while
the steps are `SegmentOk`, `SegmentInv` holds, and so every chunk goes to one segment, the segments have
identifiers of their own, each begins with the backlog of its time, and each is stopped once
(`segmented_run`).
-/

namespace Oreka

/-! ## Numbered identifiers -/

theorem eq_of_append_cons {α : Type*} {a : α} {l l' d d' : List α} (h : l ++ a :: d = l' ++ a :: d')
    (hd : a ∉ d) (hd' : a ∉ d') : d = d' := by
  rcases List.append_eq_append_iff.1 h with ⟨as, -, has⟩ | ⟨as, -, has⟩
  · cases as with
    | nil => exact List.tail_eq_of_cons_eq has
    | cons b as =>
      exact absurd (List.tail_eq_of_cons_eq has ▸ List.mem_append_right as List.mem_cons_self) hd
  · cases as with
    | nil => exact (List.tail_eq_of_cons_eq has).symm
    | cons b as =>
      exact absurd (List.tail_eq_of_cons_eq has ▸ List.mem_append_right as List.mem_cons_self) hd'

/-- The number behind the last underscore. -/
theorem append_underscore_inj {y y' : String} {n n' : Nat}
    (h : y ++ "_" ++ toString n = y' ++ "_" ++ toString n') : n = n' := by
  have hlist := congrArg String.toList h
  simp only [String.toList_append, List.append_assoc] at hlist
  have hdigits (n : Nat) : (toString n).toList = Nat.toDigits 10 n := by simp
  rw [hdigits, hdigits] at hlist
  have heq : Nat.toDigits 10 n = Nat.toDigits 10 n' :=
    eq_of_append_cons hlist Nat.underscore_not_in_toDigits Nat.underscore_not_in_toDigits
  rw [← Nat.ofDigitChars_ten_toDigits (n := n), heq, Nat.ofDigitChars_ten_toDigits]

/-- The identifier does not end in the number of a later segment. -/
def NumberedUpTo (n : Nat) (uid : String) : Prop := ∀ y k, uid = y ++ "_" ++ toString k → k ≤ n

theorem NumberedUpTo.mono {n m : Nat} {uid : String} (h : NumberedUpTo n uid) (hnm : n ≤ m) :
    NumberedUpTo m uid := fun y k hk => (h y k hk).trans hnm

theorem numberedUpTo_empty (n : Nat) : NumberedUpTo n "" := by
  intro y k h
  have hlength := congrArg String.length h
  rw [String.length_append, String.length_append, show "_".length = 1 from rfl] at hlength
  exact absurd hlength (by simp only [String.length_empty]; omega)

namespace Recorder

/-- The last identifier of a backlog. -/
theorem lastUid_backlog (events : List CaptureEvent) (now : Int) (n : Nat) (uid : String) :
    (numUids events = 0 → ((renumber n events).map (now, ·)).foldl
      (fun uid d => if d.2.type = .orkUid then d.2.value else uid) uid = uid) ∧
    (0 < numUids events → ∃ y, ((renumber n events).map (now, ·)).foldl
      (fun uid d => if d.2.type = .orkUid then d.2.value else uid) uid =
        y ++ "_" ++ toString (n + numUids events)) := by
  unfold numUids
  induction events generalizing n uid with
  | nil => simp [renumber]
  | cons event events ih =>
    rw [renumber]
    by_cases hu : event.type = .orkUid
    · rw [if_pos hu, List.countP_cons_of_pos (by simpa using hu)]
      refine ⟨by omega, fun _ => ?_⟩
      rw [List.map_cons, List.foldl_cons, if_pos rfl]
      obtain ⟨hnone, hsome⟩ := ih (n + 1) (event.value ++ "_" ++ toString (n + 1))
      rcases Nat.eq_zero_or_pos (events.countP (·.type = .orkUid)) with h0 | hpos
      · rw [hnone h0, h0]
        exact ⟨event.value, rfl⟩
      · obtain ⟨y, hy⟩ := hsome hpos
        refine ⟨y, hy.trans ?_⟩
        rw [Nat.add_assoc, Nat.add_comm 1]
    · rw [if_neg hu, List.countP_cons_of_neg (by simpa using hu), List.map_cons, List.foldl_cons,
        if_neg hu]
      exact ih n uid

/-! ## Backlogs -/

/-- What a call does to the backlog. -/
def backlogAfter (events : List CaptureEvent) : PortCall → List CaptureEvent
  | .captureEventCallBack _ event =>
    if event.type = .stop then [] else if event.type = .start then events else events ++ [event]
  | _ => events

/-- The events that were reported in the calls, since the last stop. -/
def backlog (calls : List PortCall) : List CaptureEvent := calls.foldl backlogAfter []

/-- A recording was begun by one of the chunks, and with the backlog of its time. -/
def Begun (calls : List PortCall) (r : Recording) : Prop :=
  ∃ before now chunk after n rest, calls = before ++ .audioChunkCallBack now chunk :: after ∧
    r = ⟨now, (renumber n (backlog before)).map (now, ·) ++ rest⟩

theorem Begun.append {calls : List PortCall} {r : Recording} (h : Begun calls r) (c : PortCall) :
    Begun (calls ++ [c]) r := by
  obtain ⟨before, now, chunk, after, n, rest, rfl, hr⟩ := h
  exact ⟨before, now, chunk, after ++ [c], n, rest, by simp, hr⟩

theorem Begun.deliver {calls : List PortCall} {r : Recording} (h : Begun calls r) (now : Int)
    (event : CaptureEvent) : Begun calls (r.deliver now event) := by
  obtain ⟨before, now', chunk, after, n, rest, hcalls, rfl⟩ := h
  exact ⟨before, now', chunk, after, n, rest ++ [(now, event)], hcalls, by simp [Recording.deliver]⟩

theorem backlog_append (calls : List PortCall) (c : PortCall) :
    backlog (calls ++ [c]) = backlogAfter (backlog calls) c := by
  simp [backlog]

/-! ## The invariant -/

/-- The recordings have identifiers of their own, and all but the one under way are stopped once. -/
structure Segments (recordings : List Recording) (capturing : Bool) (segmentNumber : Nat) : Prop
    extends StoppedOnce recordings capturing where
  uids : (recordings.map Recording.orkUid).Nodup
  numbered : ∀ r ∈ recordings, NumberedUpTo segmentNumber r.orkUid

variable {recordings : List Recording} {r : Recording} {capturing : Bool} {n : Nat} {now : Int}
  {event : CaptureEvent}

/-- The last recording has a new identifier. -/
theorem nodup_uids (h : (recordings.map Recording.orkUid).Nodup)
    (huid : ∀ s ∈ recordings, s.orkUid ≠ r.orkUid) :
    ((recordings ++ [r]).map Recording.orkUid).Nodup := by
  rw [List.map_append, List.nodup_append]
  refine ⟨h, by simp, fun a ha b hb => ?_⟩
  obtain ⟨s, hs, rfl⟩ := List.mem_map.1 ha
  rw [List.map_singleton, List.mem_singleton] at hb
  exact hb ▸ huid s hs

/-- The last recording is another one. -/
theorem Segments.replace (h : Segments (recordings ++ [r]) capturing n) {r' : Recording}
    {capturing' : Bool} (hstops : r'.numStops = if capturing' = true then 0 else 1)
    (huid : ∀ s ∈ recordings, s.orkUid ≠ r'.orkUid) (hnum : NumberedUpTo n r'.orkUid) :
    Segments (recordings ++ [r']) capturing' n where
  toStoppedOnce := h.toStoppedOnce.replace hstops
  uids := by
    have hold := h.uids
    rw [List.map_append, List.nodup_append] at hold
    exact nodup_uids hold.1 huid
  numbered := fun s hs => by
    rcases List.mem_append.1 hs with hs | hs
    · exact h.numbered s (List.mem_append_left _ hs)
    · rw [List.mem_singleton.1 hs]
      exact hnum

theorem Segments.uid_ne (h : Segments (recordings ++ [r]) capturing n) :
    ∀ s ∈ recordings, s.orkUid ≠ r.orkUid := by
  intro s hs
  have hold := h.uids
  rw [List.map_append, List.nodup_append] at hold
  exact hold.2.2 _ (List.mem_map_of_mem hs) _ (by simp)

/-- The recording under way is stopped. -/
theorem Segments.stopped (h : Segments (recordings ++ [r]) true n) (he : event.type = .stop) :
    Segments (recordings ++ [r.deliver now event]) false n := by
  have huid : (r.deliver now event).orkUid = r.orkUid := by simp [Recording.orkUid_deliver, he]
  refine h.replace ?_ (huid ▸ h.uid_ne) (huid ▸ h.numbered r (by simp))
  rw [Recording.numStops_deliver, if_pos he, h.stops recordings.length r List.getElem?_concat_length]
  simp

/-- An event comes that does not stop the recording; an identifier is a new one. -/
theorem Segments.deliver (h : Segments (recordings ++ [r]) capturing n) (he : event.type ≠ .stop)
    (huid : event.type = .orkUid → (∀ s ∈ recordings, s.orkUid ≠ event.value) ∧
      NumberedUpTo n event.value) :
    Segments (recordings ++ [r.deliver now event]) capturing n := by
  have hstops : (r.deliver now event).numStops = if capturing = true then 0 else 1 := by
    rw [Recording.numStops_deliver, if_neg he,
      h.stops recordings.length r List.getElem?_concat_length]
    simp
  by_cases hu : event.type = .orkUid
  · have heq : (r.deliver now event).orkUid = event.value := by simp [Recording.orkUid_deliver, hu]
    exact h.replace hstops (heq ▸ (huid hu).1) (heq ▸ (huid hu).2)
  · have heq : (r.deliver now event).orkUid = r.orkUid := by simp [Recording.orkUid_deliver, hu]
    exact h.replace hstops (heq ▸ h.uid_ne) (heq ▸ h.numbered r (by simp))

/-- A segment is begun, with an identifier if it is not the first. -/
theorem Segments.opened (h : Segments recordings false n) {events : List CaptureEvent}
    (hq : ∀ event ∈ events, event.type ≠ .start ∧ event.type ≠ .stop)
    (huid : recordings ≠ [] → 0 < numUids events) :
    Segments (recordings ++ [⟨now, (renumber n events).map (now, ·)⟩]) true (n + numUids events) := by
  obtain ⟨hnone, hsome⟩ := lastUid_backlog events now n ""
  have hnew : ∀ s ∈ recordings, s.orkUid ≠
      (⟨now, (renumber n events).map (now, ·)⟩ : Recording).orkUid := by
    intro s hs heq
    have hpos := huid (List.ne_nil_of_mem hs)
    obtain ⟨y, hy⟩ := hsome hpos
    have := h.numbered s hs y _ (heq.trans hy)
    omega
  refine ⟨h.toStoppedOnce.opened (numStops_backlog hq now n), nodup_uids h.uids hnew,
    fun s hs => ?_⟩
  · rcases List.mem_append.1 hs with hs | hs
    · exact (h.numbered s hs).mono (Nat.le_add_right _ _)
    · rw [List.mem_singleton.1 hs]
      rcases Nat.eq_zero_or_pos (numUids events) with h0 | hpos
      · rw [show Recording.orkUid ⟨now, (renumber n events).map (now, ·)⟩ = "" from hnone h0]
        exact numberedUpTo_empty _
      · obtain ⟨y, hy⟩ := hsome hpos
        intro y' k hk
        exact (append_underscore_inj (hk.symm.trans hy)).le

variable {cfg : PortConfig} {id : String} {calls : List PortCall} {w w' : Recorder} {t u : Nat}

/-- What holds between the calls. -/
structure SegmentInv (cfg : PortConfig) (id : String) (calls : List PortCall) (w : Recorder)
    (recordings : List Recording) : Prop where
  logs : Logs cfg id w recordings
  inv : Inv cfg none w
  backlog : w.port.captureEvents = backlog calls
  tape : w.port.audioTape = none → recordings = []
  begun : ∀ r ∈ recordings, Begun calls r
  segments : Segments recordings w.port.capturing w.port.segmentNumber

theorem segmentInv_new (cfg : PortConfig) (id : String) : SegmentInv cfg id [] (new cfg id) [] where
  logs := logs_new cfg id
  inv := inv_new cfg id
  backlog := rfl
  tape := fun _ => rfl
  begun := by simp
  segments := ⟨⟨fun _ => rfl, by simp⟩, by simp, by simp⟩

theorem SegmentInv.process (h : SegmentInv cfg id calls w recordings) {io : Nat → Bool}
    (hw : w.process cfg io = .ok w') :
    SegmentInv cfg id (calls ++ [.process io]) w' recordings := by
  obtain ⟨hlogs, hport⟩ := h.logs.process h.inv hw
  refine ⟨hlogs, h.inv.process hw, ?_, ?_, fun r hr => (h.begun r hr).append _, ?_⟩
  · rw [hport, h.backlog, backlog_append]
    rfl
  · rw [hport]
    exact h.tape
  · rw [hport]
    exact h.segments

/-- An event is delivered, if there is a segment. -/
theorem SegmentInv.delivered (h : SegmentInv cfg id calls w recordings) (hinv : Inv cfg none w')
    (hd : Delivered cfg now event w w')
    (hstop : event.type = .stop → w.port.audioTape = none ∨ w.port.capturing = true)
    (huid : event.type = .orkUid → ∀ t, w.port.audioTape = some t →
      (∀ u, w.IsSegment u → u ≠ t → (w.tape u).orkUid ≠ event.value) ∧
        NumberedUpTo w.port.segmentNumber event.value) :
    ∃ recordings', SegmentInv cfg id calls w' recordings' ∧
      (event.type = .stop → w'.port.capturing = false) := by
  have hport := CapturePort.sameCore hd.port
  have hcapturing := hport.capturing
  cases ht : w.port.audioTape with
  | none =>
    rw [if_neg (by simp [ht])] at hcapturing
    have hnil := h.tape ht
    refine ⟨recordings, ⟨h.logs.dropped ht hd, hinv, hport.captureEvents.trans h.backlog,
      fun _ => hnil, h.begun, ?_⟩, fun _ => hcapturing.trans (h.segments.idle hnil)⟩
    rw [hcapturing, hport.segmentNumber]
    exact h.segments
  | some t =>
    obtain ⟨before, r, rfl, htape⟩ := h.logs.last ht
    have hlogs := h.logs.deliver ht hd
    have hbegun : ∀ s ∈ before ++ [r.deliver now event], Begun calls s := by
      intro s hs
      rcases List.mem_append.1 hs with hs | hs
      · exact h.begun s (List.mem_append_left _ hs)
      · rw [List.mem_singleton.1 hs]
        exact (h.begun r (by simp)).deliver now event
    have hsome : w'.port.audioTape = some t := hport.audioTape.trans ht
    refine ⟨before ++ [r.deliver now event], ⟨hlogs, hinv, hport.captureEvents.trans h.backlog,
      by simp [hsome], hbegun, ?_⟩, fun hs => by rw [hcapturing, if_pos ⟨hs, by simp [ht]⟩]⟩
    have hsegments := h.segments
    rw [hcapturing, hport.segmentNumber]
    by_cases hs : event.type = .stop
    · rw [(hstop hs).resolve_left (by simp [ht])] at hsegments
      rw [if_pos ⟨hs, by simp [ht]⟩]
      exact hsegments.stopped hs
    · rw [if_neg fun h => hs h.1]
      refine hsegments.deliver hs fun hu => ⟨fun s hmem => ?_, (huid hu t ht).2⟩
      obtain ⟨k, hk, rfl⟩ := List.getElem_of_mem hmem
      have hget : (before ++ [r])[k]? = some before[k] := by
        rw [List.getElem?_append_left hk, List.getElem?_eq_getElem hk]
      rw [← (h.logs.facts hget).1]
      refine (huid hu t ht).1 _ (h.logs.isSegment_iff.2 ⟨k, by simp; omega, rfl⟩) ?_
      omega

/-- A call changes the backlog. -/
theorem SegmentInv.backlogged (h : SegmentInv cfg id calls w recordings) (c : PortCall)
    (hq : ∀ event ∈ backlogAfter w.port.captureEvents c, event.type ≠ .start ∧ event.type ≠ .stop) :
    SegmentInv cfg id (calls ++ [c]) { w with port := { w.port with
      captureEvents := backlogAfter w.port.captureEvents c } } recordings where
  logs := h.logs.frame rfl rfl (fun _ => rfl) (fun _ _ => rfl) (fun _ h => h) hq
  inv := h.inv.port rfl
  backlog := by rw [backlog_append, ← h.backlog]
  tape := h.tape
  begun := fun r hr => (h.begun r hr).append c
  segments := h.segments

/-- The steps that the segmentation is made for: the call's stop comes once; an identifier that is
reported during a segment is not that of another one, and no number of a later one; a segment that
follows another has an identifier, and follows it before the call's stop. -/
def SegmentOk (cfg : PortConfig) (s : Except TapeFailure Recorder) (c : PortCall) : Prop :=
  match s, c with
  | .ok w, .captureEventCallBack _ event =>
    (event.type = .stop → w.port.audioTape = none ∨ w.port.capturing = true) ∧
      (event.type = .orkUid → ∀ t, w.port.audioTape = some t →
        (∀ u, w.IsSegment u → u ≠ t → (w.tape u).orkUid ≠ event.value) ∧
          NumberedUpTo w.port.segmentNumber event.value)
  | .ok w, .audioChunkCallBack now _ => ∀ t, w.port.audioTape = some t →
    now - (w.tape t).beginDate ≥ cfg.audioSegmentDuration →
      w.port.capturing = true ∧ ∃ event ∈ w.port.captureEvents, event.type = .orkUid
  | _, _ => True

theorem SegmentInv.captureEventCallBack (hseg : cfg.audioSegmentation = true)
    (h : SegmentInv cfg id calls w recordings)
    (hok : SegmentOk cfg (.ok w) (.captureEventCallBack now event))
    (hw : w.captureEventCallBack cfg now event = .ok w') :
    ∃ recordings', SegmentInv cfg id (calls ++ [.captureEventCallBack now event]) w' recordings' := by
  obtain ⟨hstop, huid⟩ := hok
  have hafter := h.backlogged (.captureEventCallBack now event)
  unfold Recorder.captureEventCallBack at hw
  rw [if_pos (.inr hseg)] at hw
  unfold backlogAfter at hafter
  dsimp only at hafter
  split at hw
  · split at hw
    · rename_i hs
      rw [if_pos hs] at hafter
      have h₁ := hafter (by simp)
      have hne : event.type ≠ .start := by simp [hs]
      obtain ⟨recordings', h', -⟩ := h₁.delivered (h₁.inv.addCaptureEvent (by simp [hs]) hw).1
        (delivered_addCaptureEvent hne hw) hstop (by simp [hs])
      exact ⟨recordings', h'⟩
    · rename_i hor hs
      have hstart := hor.resolve_right hs
      cases hw
      rw [if_neg hs, if_pos hstart] at hafter
      exact ⟨recordings, hafter h.logs.queue⟩
  · rename_i hor
    rw [not_or] at hor
    obtain ⟨hstart, hs⟩ := hor
    rw [if_neg hs, if_neg hstart] at hafter
    have h₁ := hafter (by
      intro e he
      rcases List.mem_append.1 he with he | he
      · exact h.logs.queue e he
      · rw [List.mem_singleton.1 he]
        exact ⟨hstart, hs⟩)
    obtain ⟨recordings', h', -⟩ := h₁.delivered
      (h₁.inv.addCaptureEvent (fun he => absurd he hstart) hw).1
      (delivered_addCaptureEvent hstart hw) (fun he => absurd he hs) huid
    exact ⟨recordings', h'⟩

/-! ## Chunks -/

/-- A segment is opened by a chunk. -/
theorem SegmentInv.opened (h : SegmentInv cfg id calls w recordings)
    (hc : w.port.capturing = false) (hinv : Inv cfg none w') (ho : Opened cfg now w w')
    (huid : recordings ≠ [] → 0 < numUids w.port.captureEvents) (chunk : AudioChunk) :
    ∃ recordings', SegmentInv cfg id (calls ++ [.audioChunkCallBack now chunk]) w' recordings' := by
  have hport := CapturePort.sameCore ho.port
  refine ⟨_, h.logs.opened ho, hinv, ?_, ?_, fun r hr => ?_, ?_⟩
  · rw [hport.captureEvents, backlog_append, h.backlog]
    rfl
  · simp [hport.audioTape]
  · rcases List.mem_append.1 hr with hr | hr
    · exact (h.begun r hr).append _
    · rw [List.mem_singleton.1 hr]
      exact ⟨calls, now, chunk, [], w.port.segmentNumber, [], rfl, by simp [h.backlog]⟩
  · rw [hport.capturing, hport.segmentNumber]
    have hsegments := h.segments
    rw [hc] at hsegments
    exact hsegments.opened h.logs.queue huid

/-- What the segmentation makes of the state before the chunk is added. -/
theorem SegmentInv.segment (h : SegmentInv cfg id calls w recordings) {chunk : AudioChunk}
    (hok : SegmentOk cfg (.ok w) (.audioChunkCallBack now chunk))
    (hw : w.segment cfg now = .ok w') :
    (∃ recordings', SegmentInv cfg id (calls ++ [.audioChunkCallBack now chunk]) w' recordings') ∧
      ∀ u, (w'.tape u).audio = (w.tape u).audio := by
  have hinv := h.inv.segment hw
  unfold Recorder.segment at hw
  split at hw
  · rename_i ht
    have ho := opened_openTape h.logs.queue hw
    have hnil := h.tape ht
    exact ⟨h.opened (h.segments.idle hnil) hinv ho (fun hne => absurd hnil hne) chunk,
      ho.audio_eq h.logs⟩
  · rename_i t ht
    split at hw
    · rename_i helapsed
      obtain ⟨w₁, h₁, h₂⟩ := Except.bind_eq_ok.1 hw
      obtain ⟨hcapturing, e, he, hu⟩ := hok t ht helapsed
      have hd := delivered_addCaptureEvent (by simp) h₁
      obtain ⟨recordings₁, h', hc⟩ := h.delivered (h.inv.addCaptureEvent (by simp) h₁).1 hd
        (fun _ => .inr hcapturing) (by simp)
      have ho := opened_openTape h'.logs.queue h₂
      have hpos : 0 < numUids w₁.port.captureEvents := by
        rw [(CapturePort.sameCore hd.port).captureEvents]
        exact List.countP_pos_iff.2 ⟨e, he, by simpa using hu⟩
      exact ⟨h'.opened (hc rfl) hinv ho (fun _ => hpos) chunk,
        fun u => (ho.audio_eq h'.logs u).trans (hd.audio u)⟩
    · cases hw
      refine ⟨⟨recordings, ?_⟩, fun _ => rfl⟩
      exact h.backlogged (.audioChunkCallBack now chunk) h.logs.queue

theorem SegmentInv.addToTape (h : SegmentInv cfg id calls w recordings) (chunk : AudioChunk) :
    SegmentInv cfg id calls (w.addToTape cfg chunk) recordings := by
  obtain ⟨hport, -⟩ := addToTape_port cfg w chunk
  refine ⟨h.logs.addToTape chunk, h.inv.addToTape chunk, ?_, ?_, h.begun, ?_⟩ <;> rw [hport]
  · exact h.backlog
  · exact h.tape
  · exact h.segments

theorem SegmentInv.addAudioChunk (hseg : cfg.audioSegmentation = true)
    (h : SegmentInv cfg id calls w recordings) {chunk : AudioChunk}
    (hok : SegmentOk cfg (.ok w) (.audioChunkCallBack now chunk))
    (hw : w.addAudioChunk cfg now chunk = .ok w') :
    (∃ recordings', SegmentInv cfg id (calls ++ [.audioChunkCallBack now chunk]) w' recordings') ∧
      (cfg.audioOutputEnable = true → w'.port.capturing = true → AddedOnce cfg w w' chunk) := by
  have h₀ : SegmentInv cfg id calls { w with port := { w.port with lastUpdated := now } } recordings :=
    ⟨h.logs.frame rfl rfl (fun _ => rfl) (fun _ _ => rfl) (fun _ h => h) h.logs.queue,
      h.inv.port rfl, h.backlog, h.tape, h.begun, h.segments⟩
  unfold Recorder.addAudioChunk at hw
  dsimp only at hw
  split at hw
  · obtain ⟨w₁, h₁, h₂⟩ := Except.bind_eq_ok.1 hw
    cases h₂
    unfold Recorder.beforeChunk at h₁
    rw [if_pos hseg] at h₁
    obtain ⟨⟨recordings', h'⟩, haudio⟩ := h₀.segment hok h₁
    refine ⟨⟨recordings', h'.addToTape chunk⟩, fun _ hc => ?_⟩
    rw [(addToTape_port _ w₁ chunk).1] at hc
    cases ht : w₁.port.audioTape with
    | none =>
      have hidle := h'.segments.idle (h'.tape ht)
      rw [hc] at hidle
      cases hidle
    | some t =>
      exact addToTape_addedOnce chunk ht hc (h'.segments.acceptsChunks h'.logs h'.inv ht hc) haudio
  · rename_i hdisabled
    cases hw
    exact ⟨⟨recordings, h₀.backlogged (.audioChunkCallBack now chunk) h.logs.queue⟩,
      fun henabled => absurd henabled hdisabled⟩

/-! ## Runs -/

/-- What the segmentation is for: each segment has an identifier of its own, is stopped once, or is the
one under way, and begins with the events that were in the backlog when a chunk opened it. -/
structure Segmented (cfg : PortConfig) (id : String) (calls : List PortCall) (w : Recorder) : Prop where
  uids : ∀ t u, w.IsSegment t → w.IsSegment u → (w.tape t).orkUid = (w.tape u).orkUid → t = u
  stops : ∀ t, w.IsSegment t → (w.tape t).numStops =
    if w.port.audioTape = some t ∧ w.port.capturing = true then 0 else 1
  begun : ∀ t, w.IsSegment t → ∃ r : Recording, Begun calls r ∧
    (w.tape t).metadata = (r.tape cfg id).metadata

theorem SegmentInv.segmented (h : SegmentInv cfg id calls w recordings) :
    Segmented cfg id calls w := by
  refine ⟨fun t u ht hu huid => ?_, fun t ht => ?_, fun t ht => ?_⟩
  · obtain ⟨k, hk, rfl⟩ := h.logs.isSegment_iff.1 ht
    obtain ⟨l, hl, rfl⟩ := h.logs.isSegment_iff.1 hu
    rw [(h.logs.facts (List.getElem?_eq_getElem hk)).1,
      (h.logs.facts (List.getElem?_eq_getElem hl)).1] at huid
    have hinj := List.nodup_iff_injective_getElem.1 h.segments.uids
    have hkl : (⟨k, by simpa using hk⟩ : Fin (recordings.map Recording.orkUid).length) =
        ⟨l, by simpa using hl⟩ := hinj (by simpa using huid)
    rw [Fin.mk.inj_iff.1 hkl]
  · refine h.segments.numStops_tape h.logs (fun hp => ?_) ht
    exact h.segments.idle (h.tape hp)
  · obtain ⟨k, hk, rfl⟩ := h.logs.isSegment_iff.1 ht
    exact ⟨recordings[k], h.begun _ (List.getElem_mem hk),
      h.logs.tape k _ (List.getElem?_eq_getElem hk)⟩

theorem SegmentInv.portCall (hseg : cfg.audioSegmentation = true)
    (h : SegmentInv cfg id calls w recordings) {c : PortCall} (hok : SegmentOk cfg (.ok w) c)
    (hw : w.portCall cfg c = .ok w') : ∃ recordings', SegmentInv cfg id (calls ++ [c]) w' recordings' := by
  cases c with
  | audioChunkCallBack now chunk => exact (h.addAudioChunk hseg hok hw).1
  | captureEventCallBack now event => exact h.captureEventCallBack hseg hok hw
  | process io => exact ⟨recordings, h.process hw⟩

theorem segmentInv_run (hseg : cfg.audioSegmentation = true)
    (hm : Run.Meets (portStep cfg) (SegmentOk cfg) (.ok (new cfg id)) calls)
    (hw : calls.foldl (portStep cfg) (.ok (new cfg id)) = .ok w) :
    ∃ recordings, SegmentInv cfg id calls w recordings :=
  portRun_induction (P := fun calls w => ∃ recordings, SegmentInv cfg id calls w recordings)
    ⟨[], segmentInv_new cfg id⟩ (fun _ _ _ _ ⟨_, h⟩ hc hw => h.portCall hseg hc hw) hm hw

/-- Segments of a minute. -/
def segmenting : PortConfig := { audioSegmentation := true }

def uidEvent (now : Int) : PortCall := .captureEventCallBack now { type := .orkUid, value := "X" }

/-- A call of two segments. -/
def twoSegments : List PortCall :=
  [uidEvent 0, .audioChunkCallBack 0 spoken, .audioChunkCallBack 60 spoken,
    .captureEventCallBack 70 { type := .stop, timestamp := 70 }]

/-- The identifier is reported again during each of two segments. -/
def reportedAgain : List PortCall :=
  [uidEvent 0, .audioChunkCallBack 0 spoken, uidEvent 1, .audioChunkCallBack 60 spoken, uidEvent 61]

end Recorder

end Oreka
