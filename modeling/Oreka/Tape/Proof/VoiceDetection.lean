import Oreka.Tape.Proof.Unfiltered

/-!
# Voice detection

`Voice` follows the levels of the chunks: a voice comes up with a chunk above the high threshold, and is
gone when it was below the low one for longer than the hold-on time, or when the call stops. In a run
in which no call stops while the voice is up, the port records exactly while it is (`VoiceInv`), and
so each chunk of a voice is on one tape and each tape is stopped once (`voiceDetection_run`).
-/

namespace Oreka

/-- A voice: whether it is up, and how long it has been low. -/
structure Voice where
  up : Bool := false
  below : Rat := 0

namespace Voice

/-- The level of a chunk. -/
def hear (cfg : PortConfig) (v : Voice) (chunk : AudioChunk) : Voice :=
  if v.up then
    let below :=
      if cfg.rmsDb chunk < cfg.vadLowThresholdDb then v.below + cfg.durationSec chunk else 0
    { up := !decide (below > cfg.vadHoldOnSec), below }
  else if cfg.rmsDb chunk > cfg.vadHighThresholdDb then { up := true }
  else v

/-- The chunk that is heard, if there is a decoder for it. -/
def heard (cfg : PortConfig) (chunk : AudioChunk) : Option AudioChunk :=
  if chunk.details.encoding = .pcmAudio then some chunk else cfg.decode chunk

def after (cfg : PortConfig) (v : Voice) : PortCall → Voice
  | .audioChunkCallBack _ chunk => (heard cfg chunk).elim v (v.hear cfg)
  | .captureEventCallBack _ event => if event.type = .stop then { v with up := false } else v
  | .process _ => v

/-- The voice after these calls. -/
def of (cfg : PortConfig) (calls : List PortCall) : Voice := calls.foldl (after cfg) {}

theorem of_append (cfg : PortConfig) (calls : List PortCall) (c : PortCall) :
    of cfg (calls ++ [c]) = (of cfg calls).after cfg c := by simp [of]

end Voice

namespace Recorder

variable {cfg : PortConfig} {id : String} {calls : List PortCall} {w w' : Recorder}
  {recordings : List Recording} {t : Nat} {now : Int} {event : CaptureEvent} {chunk : AudioChunk}

/-- The port follows the voice. -/
structure Follows (v : Voice) (port : CapturePort) : Prop where
  vadUp : port.vadUp = v.up
  capturing : port.capturing = v.up
  audioTape : port.audioTape.isSome = v.up
  below : v.up = true → port.vadBelowThresholdSec = v.below

/-- What holds between the calls. -/
structure VoiceInv (cfg : PortConfig) (id : String) (v : Voice) (w : Recorder)
    (recordings : List Recording) : Prop where
  logs : Logs cfg id w recordings
  inv : Inv cfg none w
  follows : Follows v w.port
  stops : StoppedOnce recordings w.port.capturing

theorem voiceInv_new (cfg : PortConfig) (id : String) : VoiceInv cfg id {} (new cfg id) [] where
  logs := logs_new cfg id
  inv := inv_new cfg id
  follows := ⟨rfl, rfl, rfl, nofun⟩
  stops := ⟨fun _ => rfl, by simp⟩

variable {v : Voice}

/-- The port follows a voice by its fields alone. -/
theorem VoiceInv.port (h : VoiceInv cfg id v w recordings) {v' : Voice} {port : CapturePort}
    (hid : port.id = w.port.id) (htape : port.audioTape = w.port.audioTape)
    (hc : port.capturing = w.port.capturing) (hf : Follows v' port)
    (hq : ∀ event ∈ port.captureEvents, event.type ≠ .start ∧ event.type ≠ .stop) :
    VoiceInv cfg id v' { w with port } recordings where
  logs := h.logs.frame hid rfl (fun _ => rfl) (fun _ _ => rfl) (fun _ ht => htape ▸ ht) hq
  inv := h.inv.port htape
  follows := hf
  stops := by
    rw [show ({ w with port } : Recorder).port.capturing = w.port.capturing from hc]
    exact h.stops

/-! ## Events -/

theorem Logs.delivered (h : Logs cfg id w recordings) (hstops : StoppedOnce recordings w.port.capturing)
    (hd : Delivered cfg now event w w')
    (hs : event.type = .stop → w.port.audioTape.isSome = w.port.capturing) :
    ∃ recordings', Logs cfg id w' recordings' ∧ StoppedOnce recordings' w'.port.capturing := by
  have hcapturing := (CapturePort.sameCore hd.port).capturing
  cases ht : w.port.audioTape with
  | none =>
    refine ⟨recordings, h.dropped ht hd, ?_⟩
    rw [hcapturing, if_neg (by simp [ht])]
    exact hstops
  | some t =>
    obtain ⟨before, r, rfl, -⟩ := h.last ht
    refine ⟨_, h.deliver ht hd, ?_⟩
    have hc : w'.port.capturing = if event.type = .stop then false else w.port.capturing := by
      rw [hcapturing]
      simp [ht]
    rw [hc]
    exact hstops.deliver (fun he => by simpa [ht] using (hs he).symm) now

/-- The steps of the calls that voice detection is made for: none stops while the voice is up. -/
def VoiceStopOk (s : Except TapeFailure Recorder) (c : PortCall) : Prop :=
  match s, c with
  | .ok w, .captureEventCallBack _ event => event.type = .stop → w.port.vadUp = false
  | _, _ => True

/-- An event changes nothing of what the port follows. -/
theorem VoiceInv.delivered (h : VoiceInv cfg id v w recordings) (hinv : Inv cfg none w')
    (hd : Delivered cfg now event w w') (hs : event.type = .stop → v.up = false) :
    ∃ recordings', VoiceInv cfg id v w' recordings' := by
  have hport := CapturePort.sameCore hd.port
  obtain ⟨recordings', hlogs, hstops⟩ := h.logs.delivered h.stops hd fun _ => by
    rw [h.follows.audioTape, h.follows.capturing]
  refine ⟨recordings', hlogs, hinv, ⟨hport.vadUp.trans h.follows.vadUp, ?_,
    (congrArg Option.isSome hport.audioTape).trans h.follows.audioTape,
    fun hup => hport.vadBelowThresholdSec.trans (h.follows.below hup)⟩, hstops⟩
  have hnone : ¬ (event.type = .stop ∧ w.port.audioTape.isSome) := by
    rintro ⟨he, ht⟩
    rw [h.follows.audioTape, hs he] at ht
    cases ht
  rw [if_neg hnone] at hport
  exact hport.capturing.trans h.follows.capturing

instance : ∀ s c, Decidable (VoiceStopOk s c)
  | .ok w, .captureEventCallBack _ event =>
    inferInstanceAs (Decidable (event.type = .stop → w.port.vadUp = false))
  | .ok _, .audioChunkCallBack _ _ | .ok _, .process _ | .error _, _ => .isTrue trivial

theorem VoiceInv.captureEventCallBack (hvad : cfg.vad = true) (h : VoiceInv cfg id v w recordings)
    (hok : VoiceStopOk (.ok w) (.captureEventCallBack now event))
    (hw : w.captureEventCallBack cfg now event = .ok w') :
    ∃ recordings', VoiceInv cfg id (v.after cfg (.captureEventCallBack now event)) w' recordings' := by
  have hdown (he : event.type = .stop) : v.up = false := h.follows.vadUp.symm.trans (hok he)
  have hv : v.after cfg (.captureEventCallBack now event) = v := by
    unfold Voice.after
    dsimp only
    split
    · rename_i he
      rw [← hdown he]
    · rfl
  rw [hv]
  have hfollows := h.follows
  unfold Recorder.captureEventCallBack at hw
  rw [if_pos (.inl hvad)] at hw
  split at hw
  · split at hw
    · rename_i he
      have h₀ : VoiceInv cfg id v w.clearEventQueue recordings :=
        h.port rfl rfl rfl ⟨hfollows.vadUp, hfollows.capturing, hfollows.audioTape, hfollows.below⟩
          (by simp)
      exact h₀.delivered (h₀.inv.addCaptureEvent (by simp [he]) hw).1
        (delivered_addCaptureEvent (by simp [he]) hw) hdown
    · cases hw
      exact ⟨recordings, h⟩
  · rename_i hor
    rw [not_or] at hor
    have h₀ : VoiceInv cfg id v (w.queueCaptureEvent event) recordings := by
      refine h.port rfl rfl rfl
        ⟨hfollows.vadUp, hfollows.capturing, hfollows.audioTape, hfollows.below⟩ fun e he => ?_
      rcases List.mem_append.1 he with he | he
      · exact h.logs.queue e he
      · rw [List.mem_singleton.1 he]
        exact hor
    exact h₀.delivered (h₀.inv.addCaptureEvent (fun he => absurd he hor.1) hw).1
      (delivered_addCaptureEvent hor.1 hw) hdown

/-! ## Chunks -/

theorem VoiceInv.endVoice (h : VoiceInv cfg id v w recordings) (hup : v.up = true)
    (hw : w.endVoice cfg now = .ok w') :
    (∃ recordings', VoiceInv cfg id { v with up := false } w' recordings') ∧
      ∀ u, (w'.tape u).audio = (w.tape u).audio := by
  have hinv := h.inv.endVoice hw
  obtain ⟨w₁, h₁, h₂⟩ := Except.bind_eq_ok.1 hw
  cases h₂
  have hd := delivered_addCaptureEvent (by simp) h₁
  have hport := CapturePort.sameCore hd.port
  have hlogs₀ : Logs cfg id { w with port := { w.port with vadUp := false } } recordings :=
    h.logs.frame rfl rfl (fun _ => rfl) (fun _ _ => rfl) (fun _ h => h) h.logs.queue
  obtain ⟨recordings', hlogs, hstops⟩ := hlogs₀.delivered h.stops hd fun _ => by
    exact h.follows.audioTape.trans h.follows.capturing.symm
  have hsome : w.port.audioTape.isSome := h.follows.audioTape.trans hup
  have hcapturing : w₁.port.capturing = false := by
    rw [hport.capturing, if_pos ⟨rfl, hsome⟩]
  refine ⟨⟨recordings', ?_, hinv, ⟨hport.vadUp, hcapturing, rfl, nofun⟩, hstops⟩, hd.audio⟩
  exact hlogs.frame rfl rfl (fun _ => rfl) (fun _ _ => rfl) (fun _ ht => nomatch ht) hlogs.queue

theorem VoiceInv.startVoice (h : VoiceInv cfg id v w recordings) (hup : v.up = false)
    (hw : w.startVoice cfg now = .ok w') (hinv : Inv cfg none w') :
    (∃ recordings', VoiceInv cfg id { up := true } w' recordings') ∧
      ∀ u, (w'.tape u).audio = (w.tape u).audio := by
  have hnone : w.port.audioTape = none := by
    have := h.follows.audioTape
    rw [hup] at this
    simpa using this
  have hlogs₀ : Logs cfg id { w with port :=
      { w.port with vadBelowThresholdSec := 0, vadUp := true } } recordings :=
    h.logs.frame rfl rfl (fun _ => rfl) (fun _ _ => rfl) (fun _ h => h) h.logs.queue
  unfold Recorder.startVoice at hw
  dsimp only at hw
  rw [hnone] at hw
  have ho := opened_openTape hlogs₀.queue hw
  have hport := CapturePort.sameCore ho.port
  have hstops := h.stops
  rw [h.follows.capturing, hup] at hstops
  have haudio := ho.audio_eq hlogs₀
  refine ⟨⟨_, hlogs₀.opened ho, hinv, ⟨hport.vadUp, hport.capturing, ?_, fun _ =>
    hport.vadBelowThresholdSec⟩, ?_⟩, haudio⟩
  · rw [hport.audioTape]
    rfl
  · rw [hport.capturing]
    exact hstops.opened (numStops_backlog h.logs.queue ..)

theorem VoiceInv.detectVoice (h : VoiceInv cfg id v w recordings)
    (hw : w.detectVoice cfg now chunk = .ok w') :
    (∃ recordings', VoiceInv cfg id (v.hear cfg chunk) w' recordings') ∧
      ∀ u, (w'.tape u).audio = (w.tape u).audio := by
  have hinv := h.inv.detectVoice hw
  unfold Recorder.detectVoice at hw
  unfold Voice.hear
  rw [h.follows.vadUp] at hw
  cases hup : v.up with
  | true =>
    rw [if_pos hup] at hw
    rw [if_pos rfl]
    have hbelow : w.belowThreshold cfg chunk =
        if cfg.rmsDb chunk < cfg.vadLowThresholdDb then v.below + cfg.durationSec chunk else 0 := by
      rw [← h.follows.below hup]
      rfl
    unfold followVoice at hw
    dsimp only at hw ⊢
    rw [hbelow] at hw
    generalize (if cfg.rmsDb chunk < cfg.vadLowThresholdDb then v.below + cfg.durationSec chunk
      else 0) = below at hw ⊢
    have h₁ : VoiceInv cfg id { up := true, below } { w with port :=
        { w.port with vadBelowThresholdSec := below } } recordings :=
      h.port rfl rfl rfl ⟨h.follows.vadUp.trans hup, h.follows.capturing.trans hup,
        h.follows.audioTape.trans hup, fun _ => rfl⟩ h.logs.queue
    split at hw
    · rename_i hgone
      rw [decide_eq_true hgone]
      exact h₁.endVoice rfl hw
    · rename_i hgone
      cases hw
      rw [decide_eq_false hgone]
      exact ⟨⟨recordings, h₁⟩, fun _ => rfl⟩
  | false =>
    rw [if_neg (by simp [hup])] at hw
    rw [if_neg (by simp)]
    split at hw
    · rename_i hhigh
      rw [if_pos hhigh]
      exact h.startVoice hup hw hinv
    · rename_i hhigh
      cases hw
      rw [if_neg hhigh]
      exact ⟨⟨recordings, h⟩, fun _ => rfl⟩

theorem VoiceInv.addToTape (h : VoiceInv cfg id v w recordings) (chunk : AudioChunk) :
    VoiceInv cfg id v (w.addToTape cfg chunk) recordings := by
  obtain ⟨hport, -⟩ := addToTape_port cfg w chunk
  refine ⟨h.logs.addToTape chunk, h.inv.addToTape chunk, ?_, ?_⟩ <;> rw [hport]
  · exact h.follows
  · exact h.stops

theorem VoiceInv.addAudioChunk (hvad : cfg.vad = true) (hseg : cfg.audioSegmentation = false)
    (houtput : cfg.audioOutputEnable = true) (h : VoiceInv cfg id v w recordings)
    (hw : w.addAudioChunk cfg now chunk = .ok w') :
    (∃ recordings', VoiceInv cfg id (v.after cfg (.audioChunkCallBack now chunk)) w' recordings') ∧
      ((v.after cfg (.audioChunkCallBack now chunk)).up = true → AddedOnce cfg w w' chunk) := by
  have h₀ : VoiceInv cfg id v { w with port := { w.port with lastUpdated := now } } recordings :=
    h.port rfl rfl rfl ⟨h.follows.vadUp, h.follows.capturing, h.follows.audioTape, h.follows.below⟩
      h.logs.queue
  unfold Recorder.addAudioChunk at hw
  dsimp only at hw
  rw [if_pos houtput] at hw
  obtain ⟨w₁, h₁, h₂⟩ := Except.bind_eq_ok.1 hw
  cases h₂
  have hbefore : (∃ recordings', VoiceInv cfg id (v.after cfg (.audioChunkCallBack now chunk)) w₁
      recordings') ∧ ∀ u, (w₁.tape u).audio = (w.tape u).audio := by
    unfold Recorder.beforeChunk at h₁
    rw [if_neg (by simp [hseg]), if_pos hvad] at h₁
    change (∃ recordings', VoiceInv cfg id ((Voice.heard cfg chunk).elim v (v.hear cfg)) w₁
      recordings') ∧ _
    split at h₁
    · rename_i hnone
      cases h₁
      rw [show Voice.heard cfg chunk = none from hnone]
      exact ⟨⟨recordings, h₀⟩, fun _ => rfl⟩
    · rename_i decoded hsome
      rw [show Voice.heard cfg chunk = some decoded from hsome]
      exact h₀.detectVoice h₁
  obtain ⟨⟨recordings', h'⟩, haudio⟩ := hbefore
  refine ⟨⟨recordings', h'.addToTape chunk⟩, fun hup => ?_⟩
  obtain ⟨t, ht⟩ := Option.isSome_iff_exists.1 (h'.follows.audioTape.trans hup)
  have hc := h'.follows.capturing.trans hup
  exact addToTape_addedOnce chunk ht hc (h'.stops.acceptsChunks h'.logs h'.inv ht hc) haudio

/-! ## Runs -/

theorem VoiceInv.portCall (hvad : cfg.vad = true) (hseg : cfg.audioSegmentation = false)
    (houtput : cfg.audioOutputEnable = true) (h : VoiceInv cfg id v w recordings) {c : PortCall}
    (hok : VoiceStopOk (.ok w) c) (hw : w.portCall cfg c = .ok w') :
    ∃ recordings', VoiceInv cfg id (v.after cfg c) w' recordings' := by
  cases c with
  | audioChunkCallBack now chunk => exact (h.addAudioChunk hvad hseg houtput hw).1
  | captureEventCallBack now event => exact h.captureEventCallBack hvad hok hw
  | process io =>
    obtain ⟨hlogs, hport⟩ := h.logs.process h.inv hw
    refine ⟨recordings, hlogs, h.inv.process hw, ?_, ?_⟩ <;> rw [hport]
    · exact h.follows
    · exact h.stops

theorem voiceInv_run (hvad : cfg.vad = true) (hseg : cfg.audioSegmentation = false)
    (houtput : cfg.audioOutputEnable = true)
    (hm : Run.Meets (portStep cfg) VoiceStopOk (.ok (new cfg id)) calls)
    (hw : calls.foldl (portStep cfg) (.ok (new cfg id)) = .ok w) :
    ∃ recordings, VoiceInv cfg id (Voice.of cfg calls) w recordings := by
  refine portRun_induction (P := fun calls w => ∃ recordings, VoiceInv cfg id (Voice.of cfg calls) w recordings)
    ⟨[], voiceInv_new cfg id⟩ (fun calls c w w' h hc hw => ?_) hm hw
  obtain ⟨recordings, h⟩ := h
  rw [Voice.of_append]
  exact h.portCall hvad hseg houtput hc hw

/-- What voice detection is for: the flag is up exactly while the port is capturing onto a tape that was
not stopped, and each tape is stopped once, or is the one under way. -/
structure VoiceDetected (w : Recorder) : Prop where
  vadUp : w.port.vadUp = true ↔
    w.port.capturing = true ∧ ∃ t, w.port.audioTape = some t ∧ (w.tape t).numStops = 0
  stops : ∀ t, w.IsSegment t → (w.tape t).numStops =
    if w.port.audioTape = some t ∧ w.port.capturing = true then 0 else 1

theorem VoiceInv.voiceDetected (h : VoiceInv cfg id v w recordings) : VoiceDetected w := by
  have hnone (hp : w.port.audioTape = none) : w.port.capturing = false := by
    rw [h.follows.capturing, ← h.follows.audioTape, hp]
    rfl
  have hstops (t : Nat) (ht : w.IsSegment t) := h.stops.numStops_tape h.logs hnone ht
  refine ⟨⟨fun hup => ?_, fun hc => ?_⟩, hstops⟩
  · rw [h.follows.vadUp] at hup
    have hc := h.follows.capturing.trans hup
    obtain ⟨t, ht⟩ := Option.isSome_iff_exists.1 (h.follows.audioTape.trans hup)
    obtain ⟨before, r, rfl, rfl⟩ := h.logs.last ht
    refine ⟨hc, _, ht, ?_⟩
    rw [hstops _ (h.logs.isSegment_iff.2 ⟨before.length, by simp, rfl⟩), if_pos ⟨ht, hc⟩]
  · rw [h.follows.vadUp, ← h.follows.capturing, hc.1]

/-- Chunks are PCM, and either loud or silent. -/
def listening : PortConfig :=
  { vad := true, vadHoldOnSec := 1, rmsDb := fun chunk => if chunk.details.numBytes = 0 then -50 else 0
    durationSec := fun _ => 2 }

def chunkOf (numBytes : UInt32) : AudioChunk := { details := { encoding := .pcmAudio, numBytes } }

/-- Two voices, each of which goes before the call stops. -/
def twoVoices : List PortCall :=
  [.audioChunkCallBack 0 (chunkOf 320), .audioChunkCallBack 1 (chunkOf 0),
    .audioChunkCallBack 2 (chunkOf 320), .audioChunkCallBack 3 (chunkOf 0),
    .captureEventCallBack 4 { type := .stop, timestamp := 4 }]

/-- The call stops while the voice is up. -/
def stoppedVoice : List PortCall :=
  [.audioChunkCallBack 0 (chunkOf 320), .captureEventCallBack 1 { type := .stop, timestamp := 1 }]

end Recorder

end Oreka
