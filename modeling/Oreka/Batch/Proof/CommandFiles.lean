import Oreka.Batch.CommandProcessing

/-!
# What is left of a recording

The original is renamed before the command is run and removed behind it, whatever the command has left
(`processTape`). `kept_iff` says when the audio still exists, and the name in a tape that is passed on is
that of a file.
-/

namespace Oreka.Batch

open Serializers (bytes)
open Files (Store)

/-- The audio of the tape exists: the original, or an output that passes the test of its size. -/
def AudioExists (files : Store FileName FileContent) : Prop :=
  ∃ name content, files name = some content ∧
    (content.origin = .original ∨ content.origin = .output ∧ 1024 ≤ content.size)

/-- The audio exists, and a tape that is passed on names a file. -/
structure Kept (p : Processed) : Prop where
  audio : AudioExists p.files
  recorded : p.passedOn = true → (p.files p.tape.recordedName).isSome

/-- A tape, and files of which only its own holds the recording. -/
structure Start where
  tape : CommandTape
  files : Store FileName FileContent
  size : Nat
  audio : files tape.audioFileName = some ⟨.original, size⟩
  others : ∀ name content, name ≠ tape.audioFileName → files name = some content → content.origin = .other

namespace Start

variable (s : Start)

abbrev audioName : FileName := s.tape.audioFileName

abbrev tmpName : FileName := s.tape.audioFileName ++ bytes ".tmp"

abbrev newName : FileName := fileNameWoExt s.tape.audioFileName ++ bytes "gsm.wav"

/-- The name that is recorded once the extension is set. -/
abbrev finalName : FileName := (s.tape.setExtension s.newName).recordedName

end Start

/-! ## Names -/

variable {s : Start}

/-- What is behind the last dot has none. -/
theorem fileNameWoExt_split (name : FileName) :
    ∃ ext, name = fileNameWoExt name ++ ext ∧ '.'.toUInt8 ∉ ext := by
  refine ⟨name.rtakeWhile (· ≠ '.'.toUInt8), (List.rdropWhile_append_rtakeWhile).symm, fun h => ?_⟩
  simpa using List.mem_rtakeWhile_imp h

/-- A name does not end in what is put in the place of its extension, whatever is put before it. -/
theorem append_gsm_ne (front : List UInt8) (name : FileName) :
    front ++ (fileNameWoExt name ++ bytes "gsm.wav") ≠ name := by
  intro h
  obtain ⟨ext, hname, hdot⟩ := fileNameWoExt_split name
  have hlength := congrArg List.length (h.trans hname)
  simp only [List.length_append] at hlength
  have hgsm : bytes "gsm.wav" <:+ name := ⟨_, (List.append_assoc ..).trans h⟩
  have hext : ext <:+ name := ⟨fileNameWoExt name, hname.symm⟩
  have hsuffix := List.suffix_of_suffix_length_le hgsm hext (by omega)
  exact hdot (hsuffix.subset (by decide))

theorem append_gsm_ne_tmp (front name : List UInt8) : front ++ bytes "gsm.wav" ≠ name ++ bytes ".tmp" := by
  intro h
  have hlast := congrArg List.getLast? h
  rw [List.getLast?_append_of_ne_nil _ (by decide), List.getLast?_append_of_ne_nil _ (by decide)] at hlast
  exact absurd hlast (by decide)

theorem tmpName_ne : s.tmpName ≠ s.audioName := by
  intro h
  have hlength : (s.tape.audioFileName ++ bytes ".tmp").length = s.tape.audioFileName.length :=
    congrArg List.length h
  have hfour : (bytes ".tmp").length = 4 := rfl
  rw [List.length_append, hfour] at hlength
  omega

theorem newName_ne : s.newName ≠ s.audioName := append_gsm_ne [] _

theorem newName_ne_tmp : s.newName ≠ s.tmpName := append_gsm_ne_tmp _ _

theorem finalName_eq : s.finalName =
    (s.tape.audioOutputPath ++ '/'.toUInt8 :: (s.tape.filePath ++ s.tape.fileIdentifier)) ++ s.newName := by
  simp [Start.finalName, CommandTape.recordedName, CommandTape.getFilename, CommandTape.setExtension]

theorem finalName_ne_audio : s.finalName ≠ s.audioName := by
  rw [finalName_eq]
  exact append_gsm_ne _ _

theorem finalName_ne_tmp : s.finalName ≠ s.tmpName := by
  rw [finalName_eq, Start.newName, ← List.append_assoc]
  exact append_gsm_ne_tmp _ _

/-- The extension that is set is the whole path: the recorded name is another one. -/
theorem finalName_ne_new : s.finalName ≠ s.newName := by
  rw [finalName_eq]
  intro h
  have hlength := congrArg List.length h
  simp only [List.length_append, List.length_cons] at hlength
  omega

/-! ## The steps -/

variable {sys : System} {command : List UInt8} {files : Store FileName FileContent} {name : FileName}

theorem runCommand_other (h : name ≠ s.audioName) :
    runCommand sys files s.audioName command name = files name := by
  unfold runCommand
  cases sys.system command with
  | some size => exact Files.write_other h
  | none => rfl

theorem runCommand_self (h : files name = none) :
    runCommand sys files name command name = (sys.system command).map (⟨.output, ·⟩) := by
  unfold runCommand
  cases sys.system command with
  | some size => exact Files.write_self
  | none => exact h

/-- The files once the original is renamed and the command has run. -/
def afterCommand (sys : System) (command : List UInt8) (s : Start) : Store FileName FileContent :=
  runCommand sys (Files.move s.files s.audioName s.tmpName) s.audioName command

theorem afterCommand_audio : afterCommand sys command s s.audioName = (sys.system command).map (⟨.output, ·⟩) :=
  runCommand_self (Files.move_source tmpName_ne.symm)

theorem afterCommand_tmp : afterCommand sys command s s.tmpName = some ⟨.original, s.size⟩ := by
  rw [afterCommand, runCommand_other tmpName_ne, Files.move_target, s.audio]

theorem afterCommand_other (ha : name ≠ s.audioName) (ht : name ≠ s.tmpName) :
    afterCommand sys command s name = s.files name := by
  rw [afterCommand, runCommand_other ha, Files.move_other ha ht]

theorem rename_audio : rename sys s.files s.audioName s.tmpName =
    if sys.renames s.audioName s.tmpName then some (Files.move s.files s.audioName s.tmpName) else none := by
  rw [rename, s.audio]
  simp

/-- The files once the original is removed. -/
def afterRemove (sys : System) (command : List UInt8) (s : Start) : Store FileName FileContent :=
  remove sys (afterCommand sys command s) s.tmpName

theorem afterRemove_other (ht : name ≠ s.tmpName) :
    afterRemove sys command s name = afterCommand sys command s name := by
  unfold afterRemove remove
  split
  · exact Files.remove_other ht
  · rfl

theorem afterRemove_tmp : afterRemove sys command s s.tmpName =
    if sys.removes s.tmpName then none else some ⟨.original, s.size⟩ := by
  unfold afterRemove remove
  split
  · exact Files.remove_self
  · exact afterCommand_tmp

/-! ## Where the audio is -/

/-- The audio is nowhere but in the two files that the thread writes. -/
theorem audioExists_afterCommand : AudioExists (afterCommand sys command s) :=
  ⟨s.tmpName, _, afterCommand_tmp, .inl rfl⟩

/-- The command has left an output that passes the test of its size. -/
def GoodOutput (sys : System) (command : List UInt8) : Prop :=
  ∃ size, sys.system command = some size ∧ 1024 ≤ size

theorem other_of_afterRemove {content : FileContent} (ha : name ≠ s.audioName) (ht : name ≠ s.tmpName)
    (h : afterRemove sys command s name = some content) : content.origin = .other := by
  rw [afterRemove_other ht, afterCommand_other ha ht] at h
  exact s.others name content ha h

/-- Behind the command, the audio is its output, or the original where that could not be removed. -/
theorem audioExists_afterRemove : AudioExists (afterRemove sys command s) ↔
    sys.removes s.tmpName = false ∨ GoodOutput sys command := by
  constructor
  · rintro ⟨name, content, hname, hcontent⟩
    by_cases ht : name = s.tmpName
    · subst ht
      rw [afterRemove_tmp] at hname
      split at hname
      · cases hname
      · exact .inl (Bool.eq_false_iff.2 ‹_›)
    · by_cases ha : name = s.audioName
      · subst ha
        rw [afterRemove_other ht, afterCommand_audio] at hname
        obtain ⟨size, hsize, rfl⟩ := Option.map_eq_some_iff.1 hname
        obtain hcontent | ⟨-, hlarge⟩ := hcontent
        · cases hcontent
        · exact .inr ⟨size, hsize, hlarge⟩
      · have hother := other_of_afterRemove ha ht hname
        rw [hother] at hcontent
        obtain hcontent | ⟨hcontent, -⟩ := hcontent
        · cases hcontent
        · cases hcontent
  · rintro (hremoves | ⟨size, hsize, hlarge⟩)
    · refine ⟨s.tmpName, ⟨.original, s.size⟩, ?_, .inl rfl⟩
      rw [afterRemove_tmp, hremoves]
      rfl
    · refine ⟨s.audioName, ⟨.output, size⟩, ?_, .inr ⟨rfl, hlarge⟩⟩
      rw [afterRemove_other tmpName_ne.symm, afterCommand_audio, hsize]
      rfl

/-- A file under another name is the same audio. -/
theorem audioExists_move {source target : FileName} (hne : source ≠ target)
    (htarget : ∀ content, files target = some content → content.origin = .other) :
    AudioExists (Files.move files source target) ↔ AudioExists files := by
  constructor
  · rintro ⟨name, content, hname, hcontent⟩
    by_cases ht : name = target
    · subst ht
      rw [Files.move_target] at hname
      exact ⟨source, content, hname, hcontent⟩
    · by_cases hs : name = source
      · subst hs
        rw [Files.move_source hne] at hname
        cases hname
      · rw [Files.move_other hs ht] at hname
        exact ⟨name, content, hname, hcontent⟩
  · rintro ⟨name, content, hname, hcontent⟩
    by_cases hs : name = source
    · subst hs
      exact ⟨target, content, by rw [Files.move_target, hname], hcontent⟩
    · by_cases ht : name = target
      · subst ht
        rw [htarget content hname] at hcontent
        obtain hcontent | ⟨hcontent, -⟩ := hcontent
        · cases hcontent
        · cases hcontent
      · exact ⟨name, content, by rw [Files.move_other hs ht, hname], hcontent⟩

/-! ## The tape -/

/-- When the recording is kept. -/
structure KeepsAudio (command : List UInt8) (sys : System) (s : Start) : Prop where
  /-- Without a command the tape is passed on with the name that it has. -/
  unprocessed : command = [] → (s.files s.tape.recordedName).isSome
  /-- Without `[IN]` only the temporary name is left of the original: the name in the tape is that one, that
  of an output, or of another file. -/
  plain : command ≠ [] → sys.renames s.audioName s.tmpName = true →
    Infix.first command (bytes "[IN]") = none →
    s.tape.recordedName = s.tmpName ∨
      s.tape.recordedName = s.audioName ∧ (sys.system command).isSome ∨
      s.tape.recordedName ≠ s.audioName ∧ (s.files s.tape.recordedName).isSome
  /-- With `[IN]` the output is large enough, or the original cannot be removed, and where the output gets
  its name a file happens to have the one that is recorded. -/
  transcoded : command ≠ [] → sys.renames s.audioName s.tmpName = true →
    (Infix.first command (bytes "[IN]")).isSome →
    (sys.removes s.tmpName = false ∨ GoodOutput sys (commandLine command s.tmpName s.audioName)) ∧
      (GoodOutput sys (commandLine command s.tmpName s.audioName) →
        sys.renames s.audioName s.newName = true → (s.files s.finalName).isSome)

theorem processTape_nil (sys : System) (s : Start) :
    processTape [] sys s.files s.tape = ⟨s.files, s.tape, true⟩ := if_pos rfl

theorem processTape_not_renamed (hne : command ≠ []) (h : sys.renames s.audioName s.tmpName = false) :
    processTape command sys s.files s.tape = ⟨s.files, s.tape.failed, false⟩ := by
  rw [processTape, if_neg hne]
  dsimp only
  rw [rename_audio, h]
  rfl

theorem processTape_plain (hne : command ≠ []) (h : sys.renames s.audioName s.tmpName = true)
    (hin : Infix.first command (bytes "[IN]") = none) : processTape command sys s.files s.tape =
      ⟨afterCommand sys command s, { s.tape with isDoneProcessed := true }, true⟩ := by
  rw [processTape, if_neg hne]
  dsimp only
  rw [rename_audio, h]
  exact if_pos hin

/-- What follows the command, of a template with `[IN]`. -/
theorem processTape_transcoded (hne : command ≠ []) (h : sys.renames s.audioName s.tmpName = true)
    (hin : Infix.first command (bytes "[IN]") ≠ none) : processTape command sys s.files s.tape =
      (rename sys (afterRemove sys (commandLine command s.tmpName s.audioName) s) s.audioName s.newName).elim
        ⟨afterRemove sys (commandLine command s.tmpName s.audioName) s, s.tape.failed, false⟩
        fun files => if fileSizeInKb files s.newName < 1 then ⟨files, s.tape.failed, false⟩
          else ⟨files, { s.tape.setExtension s.newName with isDoneProcessed := true }, true⟩ := by
  rw [processTape, if_neg hne]
  dsimp only
  rw [rename_audio, h, if_pos rfl]
  dsimp only
  rw [if_neg hin]
  generalize hr : rename sys (afterRemove sys (commandLine command s.tmpName s.audioName) s) s.audioName
    s.newName = renamed
  split
  · rename_i hnone
    cases hr.symm.trans hnone
    rfl
  · rename_i files hsome
    cases hr.symm.trans hsome
    rfl

theorem rename_output : rename sys (afterRemove sys command s) s.audioName s.newName =
    if (sys.system command).isSome ∧ sys.renames s.audioName s.newName then
      some (Files.move (afterRemove sys command s) s.audioName s.newName)
    else none := by
  rw [rename, afterRemove_other tmpName_ne.symm, afterCommand_audio, Option.isSome_map]

/-- The files once the output has its name. -/
def afterRename (sys : System) (command : List UInt8) (s : Start) : Store FileName FileContent :=
  Files.move (afterRemove sys command s) s.audioName s.newName

theorem afterRename_new : afterRename sys command s s.newName = (sys.system command).map (⟨.output, ·⟩) := by
  rw [afterRename, Files.move_target, afterRemove_other tmpName_ne.symm, afterCommand_audio]

theorem afterRename_final : afterRename sys command s s.finalName = s.files s.finalName := by
  rw [afterRename, Files.move_other finalName_ne_audio finalName_ne_new, afterRemove_other finalName_ne_tmp,
    afterCommand_other finalName_ne_audio finalName_ne_tmp]

theorem audioExists_afterRename : AudioExists (afterRename sys command s) ↔
    sys.removes s.tmpName = false ∨ GoodOutput sys command := by
  rw [afterRename, audioExists_move newName_ne.symm, audioExists_afterRemove]
  exact fun content hcontent => other_of_afterRemove newName_ne newName_ne_tmp hcontent

theorem kept_failed {files : Store FileName FileContent} {t : CommandTape} :
    Kept ⟨files, t, false⟩ ↔ AudioExists files :=
  ⟨fun h => h.audio, fun h => ⟨h, nofun⟩⟩

theorem kept_passedOn {files : Store FileName FileContent} {t : CommandTape} :
    Kept ⟨files, t, true⟩ ↔ AudioExists files ∧ (files t.recordedName).isSome :=
  ⟨fun h => ⟨h.audio, h.recorded rfl⟩, fun h => ⟨h.1, fun _ => h.2⟩⟩

theorem audioExists_start (s : Start) : AudioExists s.files := ⟨s.audioName, _, s.audio, .inl rfl⟩

/-- The name in the tape, behind a command without `[IN]`. -/
theorem isSome_afterCommand : (afterCommand sys command s name).isSome ↔
    name = s.tmpName ∨ name = s.audioName ∧ (sys.system command).isSome ∨
      name ≠ s.audioName ∧ (s.files name).isSome := by
  by_cases ht : name = s.tmpName
  · subst ht
    rw [afterCommand_tmp]
    simp
  · by_cases ha : name = s.audioName
    · subst ha
      rw [afterCommand_audio, Option.isSome_map]
      simp [ht]
    · rw [afterCommand_other ha ht]
      simp [ha, ht]

/-- A template with `[IN]`. -/
theorem kept_transcoded (hne : command ≠ []) (h : sys.renames s.audioName s.tmpName = true)
    (hin : Infix.first command (bytes "[IN]") ≠ none) :
    Kept (processTape command sys s.files s.tape) ↔
      (sys.removes s.tmpName = false ∨ GoodOutput sys (commandLine command s.tmpName s.audioName)) ∧
      (GoodOutput sys (commandLine command s.tmpName s.audioName) →
        sys.renames s.audioName s.newName = true → (s.files s.finalName).isSome) := by
  rw [processTape_transcoded hne h hin, rename_output]
  generalize commandLine command s.tmpName s.audioName = line
  by_cases hrename : (sys.system line).isSome ∧ sys.renames s.audioName s.newName = true
  · obtain ⟨⟨size, hsize⟩, hren⟩ := hrename.imp_left Option.isSome_iff_exists.1
    have hgood : GoodOutput sys line ↔ 1024 ≤ size := by
      refine ⟨?_, fun hlarge => ⟨size, hsize, hlarge⟩⟩
      rintro ⟨size', hsize', hlarge⟩
      rw [hsize] at hsize'
      cases hsize'
      exact hlarge
    have hkb : fileSizeInKb (afterRename sys line s) s.newName = size / 1024 := by
      rw [fileSizeInKb, afterRename_new, hsize]
      rfl
    rw [if_pos hrename, Option.elim_some]
    change Kept (if fileSizeInKb (afterRename sys line s) s.newName < 1 then ⟨afterRename sys line s, _, _⟩
      else ⟨afterRename sys line s, _, _⟩) ↔ _
    rw [hkb]
    by_cases hlarge : 1024 ≤ size
    · rw [if_neg (by omega), kept_passedOn, audioExists_afterRename]
      change _ ∧ (afterRename sys line s s.finalName).isSome ↔ _
      rw [afterRename_final]
      simp only [hgood, hlarge, hren, or_true, true_and, forall_const]
    · rw [if_pos (by omega), kept_failed, audioExists_afterRename]
      simp only [hgood, hlarge, or_false, false_implies, and_true]
  · rw [if_neg hrename, Option.elim_none, kept_failed, audioExists_afterRemove]
    refine ⟨fun hex => ⟨hex, ?_⟩, fun hex => hex.1⟩
    rintro ⟨size, hsize, -⟩ hren
    exact absurd ⟨by rw [hsize]; rfl, hren⟩ hrename

/-- **When the recording is kept.** -/
theorem kept_iff (command : List UInt8) (sys : System) (s : Start) :
    Kept (processTape command sys s.files s.tape) ↔ KeepsAudio command sys s := by
  by_cases hempty : command = []
  · subst hempty
    rw [processTape_nil, kept_passedOn]
    exact ⟨fun h => ⟨fun _ => h.2, fun hne => absurd rfl hne, fun hne => absurd rfl hne⟩,
      fun h => ⟨audioExists_start s, h.unprocessed rfl⟩⟩
  · by_cases hren : sys.renames s.audioName s.tmpName = true
    · cases hin : Infix.first command (bytes "[IN]") with
      | none =>
        rw [processTape_plain hempty hren hin, kept_passedOn]
        change _ ∧ (afterCommand sys command s s.tape.recordedName).isSome ↔ _
        rw [isSome_afterCommand]
        refine ⟨fun h => ⟨fun he => absurd he hempty, fun _ _ _ => h.2, fun _ _ hsome => ?_⟩, fun h => ?_⟩
        · rw [hin] at hsome
          cases hsome
        · exact ⟨audioExists_afterCommand, h.plain hempty hren hin⟩
      | some pos =>
        have hne : Infix.first command (bytes "[IN]") ≠ none := by simp [hin]
        rw [kept_transcoded hempty hren hne]
        refine ⟨fun h => ⟨fun he => absurd he hempty, fun _ _ hnone => absurd hnone hne, fun _ _ _ => h⟩,
          fun h => h.transcoded hempty hren (by rw [hin]; rfl)⟩
    · rw [processTape_not_renamed hempty (Bool.eq_false_iff.2 hren), kept_failed]
      exact ⟨fun _ => ⟨fun he => absurd he hempty, fun _ h => absurd h hren, fun _ h => absurd h hren⟩,
        fun _ => audioExists_start s⟩

/-- A tape whose file is the only one. -/
def Start.only (t : CommandTape) (size : Nat) : Start where
  tape := t
  files name := if name = t.audioFileName then some ⟨.original, size⟩ else none
  size := size
  audio := if_pos rfl
  others name content hne h := by
    rw [if_neg hne] at h
    cases h

/-- A command that fails leaves nothing of the recording. -/
theorem not_kept_failing_command : ¬ ∀ (command : List UInt8) (sys : System) (s : Start),
    Kept (processTape command sys s.files s.tape) := by
  intro h
  have hkept := h (bytes "sox [IN] [OUT]") ⟨fun _ _ => true, fun _ => true, fun _ => none⟩
    (.only ⟨bytes "out", bytes "2020/", bytes "rec", bytes ".wav", false, [], true, false⟩ 4096)
  rw [kept_transcoded (by decide) rfl (by decide)] at hkept
  obtain ⟨hremoves | ⟨size, hsize, -⟩, -⟩ := hkept
  · cases hremoves
  · cases hsize

end Oreka.Batch
