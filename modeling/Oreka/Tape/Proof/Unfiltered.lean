import Oreka.Tape.Proof.Recordings

/-!
# Ports without a party filter

What ends the program on the capture side is a message that the party filter withholds, and a chunk for
a tape whose file was not made because the filter had the chunks before it thrown away. Where no
filter is active, every call returns (`portRun_ok`).
-/

namespace Oreka

namespace AudioTape

variable {cfg : PortConfig} {t t' : AudioTape}

theorem isFiltered_eq_false {c : TapeConfig} (hf : c.partyFilterActive = false) (t : AudioTape) :
    t.isFiltered c = false := by simp [isFiltered, hf]

/-- A tape that chunks are written to has its file. -/
def HasFile (t : AudioTape) : Prop := t.state = .active → t.audioFile ≠ none

theorem HasFile.of_audio (h : t.HasFile) (ha : t'.audio = t.audio) : t'.HasFile := by
  have hs : t'.state = t.state := congrArg (·.1) ha
  have hfile : t'.audioFile = t.audioFile := congrArg (·.2.2.2) ha
  unfold HasFile
  rw [hs, hfile]
  exact h

theorem HasFile.createFile (h : t.HasFile) (chunk : AudioChunk) : (t.createFile chunk).HasFile := by
  unfold AudioTape.createFile
  split
  · exact fun _ => by simp
  · exact h

theorem HasFile.writeChunk (h : t.HasFile) (c : TapeConfig) (io : Bool) (chunk : AudioChunk) :
    ∃ t', t.writeChunk c io chunk = .ok t' ∧ t'.HasFile := by
  have hc := h.createFile chunk
  unfold AudioTape.writeChunk
  generalize t.createFile chunk = u at hc
  dsimp only
  split
  · rename_i hactive
    split
    · exact ⟨u, rfl, hc⟩
    · cases hfile : u.audioFile with
      | none => exact absurd hfile (hc hactive)
      | some file =>
        refine ⟨_, rfl, ?_⟩
        cases io with
        | false => exact hc
        | true => exact fun _ => by simp
  · exact ⟨u, rfl, hc⟩

theorem HasFile.writeChunks (c : TapeConfig) : ∀ (chunks : List AudioChunk) (io : Nat → Bool)
    {t : AudioTape}, t.HasFile → ∃ t', AudioTape.writeChunks c io chunks t = .ok t' ∧ t'.HasFile
  | [], _, t, h => ⟨t, rfl, h⟩
  | chunk :: rest, io, t, h => by
    have hpopped : (t.popped chunk rest).HasFile := h
    obtain ⟨t₁, h₁, hf₁⟩ := hpopped.writeChunk c (io 0) chunk
    obtain ⟨t₂, h₂, hf₂⟩ := HasFile.writeChunks c rest (fun n => io (n + 1)) hf₁
    exact ⟨t₂, Except.bind_eq_ok.2 ⟨t₁, h₁, h₂⟩, hf₂⟩

theorem HasFile.write (h : t.HasFile) {c : TapeConfig} (hf : c.partyFilterActive = false)
    (io : Nat → Bool) : ∃ t', t.write c io = .ok t' ∧ t'.HasFile := by
  have hloop : ∃ t₁, t.writeLoop c io = .ok t₁ ∧ t₁.HasFile := by
    unfold writeLoop
    split
    · exact ⟨t, rfl, h⟩
    · exact HasFile.writeChunks c t.chunkQueue io h
  obtain ⟨t₁, h₁, hf₁⟩ := hloop
  refine ⟨t₁.stopIfTold, ?_, ?_⟩
  · unfold AudioTape.write
    rw [if_neg (by simp [isFiltered_eq_false hf])]
    exact Except.bind_eq_ok.2 ⟨t₁, h₁, rfl⟩
  · unfold stopIfTold
    split
    · exact fun hs => by simp [close] at hs
    · exact hf₁

end AudioTape

namespace Recorder

variable {cfg : PortConfig} {w w' : Recorder} {t : Nat}

/-! ## Events -/

section
variable (hf : cfg.partyFilterActive = false)
include hf

theorem report_ok (w : Recorder) (t : Nat) (cause : Cause) :
    ∃ w', w.report cfg t cause = .ok w' := by
  have hmessage : ((w.tape t).getMessage cfg.toTapeConfig).2 ≠ none := by
    unfold AudioTape.getMessage
    rw [if_neg (by simp [AudioTape.isFiltered_eq_false hf])]
    split <;> simp
  obtain ⟨message, hm⟩ := Option.ne_none_iff_exists'.1 hmessage
  unfold Recorder.report
  dsimp only
  rw [hm]
  exact ⟨_, rfl⟩

theorem handleEvent_ok (w : Recorder) (t : Nat) (now : Int) (event : CaptureEvent) :
    ∃ w', w.handleEvent cfg t now event = .ok w' := by
  unfold handleEvent
  cases event.type with
  | start => exact ⟨w, rfl⟩
  | stop =>
    obtain ⟨w₁, h₁⟩ := report_ok hf ((tagHoldDuration cfg { w with port :=
      { w.port with capturing := false } } t).store cfg t now event true) t (.event .stop)
    exact ⟨_, Except.bind_eq_ok.2 ⟨w₁, h₁, rfl⟩⟩
  | hold =>
    dsimp only
    unfold holdTape
    split
    · dsimp only
      split
      · exact report_ok hf _ _ _
      · exact ⟨_, rfl⟩
    · exact ⟨_, rfl⟩
  | resume =>
    have hresume : ∃ w₁, (w.countHold t now).reportResume cfg t now event = .ok w₁ := by
      unfold reportResume
      split
      · exact report_ok hf _ _ _
      · exact ⟨_, rfl⟩
    obtain ⟨w₁, h₁⟩ := hresume
    exact ⟨_, Except.bind_eq_ok.2 ⟨w₁, h₁, rfl⟩⟩
  | endMetadata =>
    obtain ⟨w₁, h₁⟩ := report_ok hf w t (.event .endMetadata)
    exact ⟨_, Except.bind_eq_ok.2 ⟨w₁, h₁, rfl⟩⟩
  | update => exact report_ok hf _ _ _
  | _ => exact ⟨_, rfl⟩

theorem addCaptureEvent_ok (w : Recorder) (now : Int) (event : CaptureEvent) :
    ∃ w', w.addCaptureEvent cfg now event = .ok w' := by
  unfold addCaptureEvent
  dsimp only
  split
  · exact ⟨_, rfl⟩
  · exact handleEvent_ok hf _ _ _ _

theorem captureEventCallBack_ok (w : Recorder) (now : Int) (event : CaptureEvent) :
    ∃ w', w.captureEventCallBack cfg now event = .ok w' := by
  unfold captureEventCallBack
  repeat' split
  all_goals first | exact ⟨w, rfl⟩ | exact addCaptureEvent_ok hf _ _ _

/-! ## Chunks -/

theorem openTape_ok (w : Recorder) (now : Int) : ∃ w', w.openTape cfg now = .ok w' := by
  have hbacklog : ∀ (events : List CaptureEvent) (w : Recorder),
      ∃ w', events.foldlM (fun w event => reportBacklogged cfg w now event) w = .ok w' := by
    intro events
    induction events with
    | nil => exact fun w => ⟨w, rfl⟩
    | cons event events ih =>
      intro w
      have hevent : ∃ w₁, w.reportBacklogged cfg now event = .ok w₁ := by
        unfold reportBacklogged
        split
        · exact addCaptureEvent_ok hf _ _ _
        · exact addCaptureEvent_ok hf _ _ _
      obtain ⟨w₁, h₁⟩ := hevent
      obtain ⟨w₂, h₂⟩ := ih w₁
      exact ⟨w₂, Except.bind_eq_ok.2 ⟨w₁, h₁, h₂⟩⟩
  obtain ⟨w₁, h₁⟩ := addCaptureEvent_ok hf (w.resetTape cfg now) now
    { type := .start, timestamp := now, value := w.port.id }
  obtain ⟨w₂, h₂⟩ := hbacklog w₁.port.captureEvents w₁
  exact ⟨w₂, Except.bind_eq_ok.2 ⟨w₁, h₁, h₂⟩⟩

theorem segment_ok (w : Recorder) (now : Int) : ∃ w', w.segment cfg now = .ok w' := by
  unfold segment
  split
  · exact openTape_ok hf w now
  · split
    · obtain ⟨w₁, h₁⟩ := addCaptureEvent_ok hf w now { type := .stop, timestamp := now }
      obtain ⟨w₂, h₂⟩ := openTape_ok hf w₁ now
      exact ⟨w₂, Except.bind_eq_ok.2 ⟨w₁, h₁, h₂⟩⟩
    · exact ⟨w, rfl⟩

theorem detectVoice_ok (w : Recorder) (now : Int) (chunk : AudioChunk) :
    ∃ w', w.detectVoice cfg now chunk = .ok w' := by
  unfold detectVoice
  split
  · unfold followVoice
    dsimp only
    split
    · unfold endVoice
      obtain ⟨w₁, h₁⟩ := addCaptureEvent_ok hf { w with port := { w.port with
        vadBelowThresholdSec := w.belowThreshold cfg chunk, vadUp := false } } now
        { type := .stop, timestamp := now }
      exact ⟨_, Except.bind_eq_ok.2 ⟨w₁, h₁, rfl⟩⟩
    · exact ⟨_, rfl⟩
  · split
    · unfold startVoice
      dsimp only
      split
      · exact openTape_ok hf _ now
      · exact ⟨_, rfl⟩
    · exact ⟨w, rfl⟩

theorem addAudioChunk_ok (w : Recorder) (now : Int) (chunk : AudioChunk) :
    ∃ w', w.addAudioChunk cfg now chunk = .ok w' := by
  have hbefore (w : Recorder) : ∃ w₁, w.beforeChunk cfg now chunk = .ok w₁ := by
    unfold beforeChunk
    split
    · exact segment_ok hf w now
    · split
      · split
        · exact ⟨w, rfl⟩
        · exact detectVoice_ok hf w now _
      · exact ⟨w, rfl⟩
  unfold addAudioChunk
  dsimp only
  split
  · obtain ⟨w₁, h₁⟩ := hbefore { w with port := { w.port with lastUpdated := now } }
    exact ⟨_, Except.bind_eq_ok.2 ⟨w₁, h₁, rfl⟩⟩
  · exact ⟨_, rfl⟩

end

/-! ## The files of the tapes -/

/-- The tapes that chunks are written to have their files; and the backlog is one of the port's. -/
structure HasFiles (w : Recorder) : Prop where
  files : ∀ u, (w.tape u).HasFile
  queue : ∀ event ∈ w.port.captureEvents, event.type ≠ .start ∧ event.type ≠ .stop

variable {now : Int} {event : CaptureEvent} {chunk : AudioChunk}

theorem HasFiles.delivered (h : HasFiles w) (hd : Delivered cfg now event w w') : HasFiles w' where
  files := fun u => (h.files u).of_audio (hd.audio u)
  queue := by
    rw [(CapturePort.sameCore hd.port).captureEvents]
    exact h.queue

theorem HasFiles.openTape (h : HasFiles w) (hw : w.openTape cfg now = .ok w') : HasFiles w' := by
  have ho := opened_openTape h.queue hw
  refine ⟨fun u => ?_, ?_⟩
  · by_cases hu : w.numTapes ≤ u ∧ u ≤ w.numTapes + 1
    · have hnew : (AudioTape.new cfg.toTapeConfig now w.port.id).HasFile := nofun
      exact hnew.of_audio (ho.audio u hu.1 hu.2)
    · rw [ho.other u (by omega) (by omega)]
      exact h.files u
  · rw [(CapturePort.sameCore ho.port).captureEvents]
    exact h.queue

theorem HasFiles.segment (h : HasFiles w) (hw : w.segment cfg now = .ok w') : HasFiles w' := by
  unfold Recorder.segment at hw
  split at hw
  · exact h.openTape hw
  · split at hw
    · obtain ⟨w₁, h₁, h₂⟩ := Except.bind_eq_ok.1 hw
      exact (h.delivered (delivered_addCaptureEvent (by simp) h₁)).openTape h₂
    · cases hw
      exact h

theorem HasFiles.detectVoice (h : HasFiles w) (hw : w.detectVoice cfg now chunk = .ok w') :
    HasFiles w' := by
  unfold Recorder.detectVoice at hw
  split at hw
  · unfold followVoice at hw
    dsimp only at hw
    split at hw
    · obtain ⟨w₁, h₁, h₂⟩ := Except.bind_eq_ok.1 hw
      cases h₂
      have h₀ : HasFiles { w with port := { w.port with
          vadBelowThresholdSec := w.belowThreshold cfg chunk, vadUp := false } } :=
        ⟨h.files, h.queue⟩
      have h' := h₀.delivered (delivered_addCaptureEvent (by simp) h₁)
      exact ⟨h'.files, h'.queue⟩
    · cases hw
      exact ⟨h.files, h.queue⟩
  · split at hw
    · unfold startVoice at hw
      dsimp only at hw
      have h₀ : HasFiles { w with port :=
          { w.port with vadBelowThresholdSec := 0, vadUp := true } } := ⟨h.files, h.queue⟩
      split at hw
      · exact h₀.openTape hw
      · cases hw
        exact h₀
    · cases hw
      exact h

theorem HasFiles.addAudioChunk (h : HasFiles w) (hw : w.addAudioChunk cfg now chunk = .ok w') :
    HasFiles w' := by
  have hadd (w : Recorder) (h : HasFiles w) : HasFiles (w.addToTape cfg chunk) := by
    refine ⟨fun u => ?_, by rw [(addToTape_port _ w chunk).1]; exact h.queue⟩
    by_cases hu : w.port.audioTape = some u
    · unfold Recorder.addToTape
      rw [hu]
      dsimp only
      split
      · rw [push_tape_self, setTape_tape_self]
        unfold AudioTape.addAudioChunk AudioTape.queueChunk
        repeat' split
        all_goals exact h.files u
      · exact h.files u
    · rw [(addToTape_tape w chunk u).2 hu]
      exact h.files u
  have h₀ : HasFiles { w with port := { w.port with lastUpdated := now } } := ⟨h.files, h.queue⟩
  unfold Recorder.addAudioChunk at hw
  dsimp only at hw
  split at hw
  · obtain ⟨w₁, h₁, h₂⟩ := Except.bind_eq_ok.1 hw
    cases h₂
    apply hadd
    unfold Recorder.beforeChunk at h₁
    split at h₁
    · exact h₀.segment h₁
    · split at h₁
      · split at h₁
        · cases h₁
          exact h₀
        · exact h₀.detectVoice h₁
      · cases h₁
        exact h₀
  · cases hw
    exact h₀

theorem HasFiles.captureEventCallBack (h : HasFiles w) (hport : cfg.vad ∨ cfg.audioSegmentation)
    (hw : w.captureEventCallBack cfg now event = .ok w') : HasFiles w' := by
  unfold Recorder.captureEventCallBack at hw
  rw [if_pos hport] at hw
  split at hw
  · split at hw
    · rename_i hs
      have h₀ : HasFiles w.clearEventQueue := ⟨h.files, by simp [clearEventQueue]⟩
      exact h₀.delivered (delivered_addCaptureEvent (by simp [hs]) hw)
    · cases hw
      exact h
  · rename_i hor
    rw [not_or] at hor
    have h₀ : HasFiles (w.queueCaptureEvent event) := by
      refine ⟨h.files, fun e he => ?_⟩
      rcases List.mem_append.1 he with he | he
      · exact h.queue e he
      · rw [List.mem_singleton.1 he]
        exact hor
    exact h₀.delivered (delivered_addCaptureEvent hor.1 hw)

theorem HasFiles.processNext_ok (h : HasFiles w) (hf : cfg.partyFilterActive = false)
    (io : Nat → Bool) : ∃ w', w.processNext cfg io = .ok w' := by
  unfold processNext
  cases hq : w.imm.audioTapeQueue with
  | nil =>
    rw [ImmediateProcessing.pop_nil hq]
    exact ⟨_, rfl⟩
  | cons t rest =>
    rw [ImmediateProcessing.pop_cons hq]
    dsimp only
    have htape := setTape_tape_self w t { w.tape t with isQueued := false }
    have hpopped : ((w.setTape t { w.tape t with isQueued := false }).tape t).HasFile := by
      rw [htape]
      exact h.files t
    obtain ⟨tape, hwrite, -⟩ := hpopped.write hf io
    exact ⟨_, Except.bind_eq_ok.2 ⟨tape, hwrite, rfl⟩⟩

theorem HasFiles.process (h : HasFiles w) (hf : cfg.partyFilterActive = false) (io : Nat → Bool) :
    ∃ w', w.process cfg io = .ok w' ∧ HasFiles w' := by
  have hok : ∃ w', w.process cfg io = .ok w' := by
    unfold Recorder.process
    split
    · exact ⟨w, rfl⟩
    · have hcounted : HasFiles { w with imm := { w.imm with count := w.imm.count - 1 } } :=
        ⟨h.files, h.queue⟩
      exact hcounted.processNext_ok hf io
  obtain ⟨w', hw⟩ := hok
  refine ⟨w', hw, ?_⟩
  rcases process_cases hw with ⟨count, rfl⟩ | ⟨t, tape, hwrite, hp⟩
  · exact ⟨h.files, h.queue⟩
  · refine ⟨fun u => ?_, by rw [hp.port]; exact h.queue⟩
    by_cases hu : u = t
    · have hpopped : AudioTape.HasFile { w.tape t with isQueued := false } := h.files t
      obtain ⟨tape', hwrite', hfile⟩ := hpopped.write hf io
      cases hwrite.symm.trans hwrite'
      rw [hu, hp.self]
      exact hfile
    · rw [hp.other u hu]
      exact h.files u

/-- What is kept by every call that meets a condition holds behind a run of such calls. -/
theorem portRun_induction {P : List PortCall → Recorder → Prop}
    {C : Except TapeFailure Recorder → PortCall → Prop} {id : String} (hnew : P [] (new cfg id))
    (hstep : ∀ calls c w w', P calls w → C (.ok w) c → w.portCall cfg c = .ok w' → P (calls ++ [c]) w')
    {calls : List PortCall} {w : Recorder} (hm : Run.Meets (portStep cfg) C (.ok (new cfg id)) calls)
    (hw : calls.foldl (portStep cfg) (.ok (new cfg id)) = .ok w) : P calls w := by
  induction calls using List.reverseRecOn generalizing w with
  | nil =>
    cases hw
    exact hnew
  | append_singleton calls c ih =>
    obtain ⟨hm, hc, -⟩ := Run.meets_append.1 hm
    rw [List.foldl_append] at hw
    obtain ⟨w₁, h₁, h₂⟩ := Except.bind_eq_ok.1 hw
    rw [h₁] at hc
    exact hstep calls c w₁ w (ih hm h₁) hc h₂

/-- **Without a party filter every run reaches a state.** -/
theorem portRun_ok (hport : cfg.vad ∨ cfg.audioSegmentation) (hf : cfg.partyFilterActive = false)
    (id : String) (calls : List PortCall) :
    ∃ w, calls.foldl (portStep cfg) (.ok (new cfg id)) = .ok w ∧ HasFiles w := by
  induction calls using List.reverseRecOn with
  | nil => exact ⟨_, rfl, fun _ => nofun, nofun⟩
  | append_singleton calls c ih =>
    obtain ⟨w, hw, h⟩ := ih
    rw [List.foldl_append, hw]
    cases c with
    | audioChunkCallBack now chunk =>
      obtain ⟨w', hw'⟩ := addAudioChunk_ok hf w now chunk
      exact ⟨w', hw', h.addAudioChunk hw'⟩
    | captureEventCallBack now event =>
      obtain ⟨w', hw'⟩ := captureEventCallBack_ok hf w now event
      exact ⟨w', hw', h.captureEventCallBack hport hw'⟩
    | process io =>
      exact h.process hf io

end Recorder

end Oreka
