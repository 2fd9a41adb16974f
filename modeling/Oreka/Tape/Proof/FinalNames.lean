import Oreka.Serializers.Proof.UrlRoundTrip
import Oreka.Tape.TapeFileNaming

/-!
# The final names of a tape

What `generateFinalFilePathAndIdentifier` makes of a tape (`finalNames`), and when it gets there: an empty
element of a naming scheme throws, and the search for a free name ends only where there is one (`Ends`).
-/

namespace Oreka

open Serializers.UrlSerializer (cString cString_append_of_mem cString_append_of_not_mem)

/-! ## Where a name in a directory leads to -/

section

variable {cwd : List Text} {path : Text}

theorem pathSteps_append (path rest : Text) :
    pathSteps (path ++ '/'.toUInt8 :: rest) = pathSteps path ++ pathSteps rest := by
  rw [pathSteps, List.splitOn_append_cons_self, List.map_append]
  rfl

/-- A name is looked for from where its directory leads to. -/
theorem locate_append (h : 0 ∉ path) (name : Text) :
    locate cwd (path ++ '/'.toUInt8 :: name) =
      Walk.walk (locate cwd (path ++ ['/'.toUInt8])) (pathSteps (cString name)) := by
  have hslash : (0 : UInt8) ∉ ['/'.toUInt8] := by decide
  have hcut : ∀ rest, cString (path ++ '/'.toUInt8 :: rest) = path ++ '/'.toUInt8 :: cString rest := by
    intro rest
    rw [cString_append_of_not_mem h]
    exact congrArg (path ++ ·) (cString_append_of_not_mem hslash rest)
  have hhead : ∀ rest : Text, (path ++ '/'.toUInt8 :: rest).head? = (path ++ ['/'.toUInt8]).head? := by
    intro rest
    cases path <;> rfl
  rw [locate, locate, hcut, hcut, hhead, hhead (cString []), pathSteps_append, pathSteps_append,
    Walk.walk_append, Walk.walk_append]
  rfl

/-- What is behind a NUL is no part of a path. -/
theorem locate_of_mem (h : 0 ∈ path) (name : Text) :
    locate cwd (path ++ '/'.toUInt8 :: name) = locate cwd (path ++ ['/'.toUInt8]) := by
  rw [locate, locate, cString_append_of_mem h, cString_append_of_mem h]

/-- A slash more leads nowhere. -/
theorem locate_slash (path name : Text) :
    locate cwd (path ++ '/'.toUInt8 :: '/'.toUInt8 :: name) = locate cwd (path ++ '/'.toUInt8 :: name) := by
  by_cases h : 0 ∈ path
  · rw [locate_of_mem h, locate_of_mem h name]
  · have hslash : (0 : UInt8) ∉ ['/'.toUInt8] := by decide
    have hcut : cString ('/'.toUInt8 :: name) = '/'.toUInt8 :: cString name :=
      cString_append_of_not_mem hslash name
    have hsteps : pathSteps ('/'.toUInt8 :: cString name) = .stay :: pathSteps (cString name) :=
      pathSteps_append [] (cString name)
    rw [locate_append h, locate_append h name, hcut, hsteps]
    rfl

end

/-! ## Naming schemes -/

/-- There is a naming scheme. -/
def NamingConfig.Names (cfg : NamingConfig) : Prop := cfg.tapePathNaming ≠ [] ∨ cfg.tapeFileNaming ≠ []

instance (cfg : NamingConfig) : Decidable cfg.Names := inferInstanceAs (Decidable (_ ∨ _))

/-- The host name in a path. -/
def NamingConfig.pathHostname (cfg : NamingConfig) : Text :=
  if cfg.hostnameReportFqdn = false then cfg.hostname else cfg.hostFqdn

namespace TapeNames

variable {cfg : NamingConfig} {fileCanOpen : Text → Bool} {rounds : Nat} {t t' : TapeNames}

/-! ## The texts of a scheme -/

/-- The text of a naming scheme that has no empty element. -/
def assembled (hostname : Text) (t : TapeNames) (scheme : List Text) : Text :=
  scheme.flatMap fun element => (t.elementText hostname element).getD []

theorem elementText_nil (hostname : Text) (t : TapeNames) : t.elementText hostname [] = none := by
  have hunknown : tapeAttributeToEnum [] = .unknown := by decide
  rw [elementText, hunknown]
  simp

theorem elementText_of_ne {element : Text} (h : element ≠ []) (hostname : Text) (t : TapeNames) :
    t.elementText hostname element = some ((t.elementText hostname element).getD []) := by
  unfold elementText
  cases tapeAttributeToEnum element with
  | unknown => simp [h]
  | _ => rfl

theorem mapM_elementText (hostname : Text) (t : TapeNames) (scheme : List Text) :
    scheme.mapM (t.elementText hostname) =
      if [] ∈ scheme then none
      else some (scheme.map fun element => (t.elementText hostname element).getD []) := by
  induction scheme with
  | nil => rfl
  | cons element scheme ih =>
    rw [List.mapM_cons, ih]
    by_cases hempty : element = []
    · rw [hempty, elementText_nil, if_pos List.mem_cons_self]
      rfl
    · have hmem : [] ∈ element :: scheme ↔ [] ∈ scheme := by simp [Ne.symm hempty]
      rw [elementText_of_ne hempty, if_congr hmem rfl rfl]
      split <;> rfl

theorem schemeText_eq (hostname : Text) (t : TapeNames) (scheme : List Text) :
    t.schemeText hostname scheme = if [] ∈ scheme then none else some (t.assembled hostname scheme) := by
  rw [schemeText, mapM_elementText, assembled, List.flatMap_def]
  split <;> rfl

/-! ## The names -/

def finalPath (cfg : NamingConfig) (t : TapeNames) : Text :=
  let text := t.assembled cfg.pathHostname cfg.tapePathNaming
  if text = [] then t.filePath else text

/-- The identifier that is tested. -/
def finalName (cfg : NamingConfig) (t : TapeNames) : Text :=
  let text := t.assembled cfg.hostname cfg.tapeFileNaming
  if text = [] then t.fileIdentifier else fileEscapeName text

/-- Where a file of that name is looked for. -/
def testedPath (cfg : NamingConfig) (t : TapeNames) : Text :=
  cfg.audioOutputPath ++ '/'.toUInt8 :: (t.finalPath cfg ++ ['/'.toUInt8])

/-- The file that the collision test looks for first. -/
def testedName (cfg : NamingConfig) (t : TapeNames) : Text :=
  indexedName (t.testedPath cfg) (t.finalName cfg) t.fileExtension 0

/-- A file was found under the final name. -/
def Taken (cfg : NamingConfig) (fileCanOpen : Text → Bool) (t : TapeNames) : Prop :=
  cfg.Names ∧ fileCanOpen (t.testedName cfg) = true

instance : Decidable (t.Taken cfg fileCanOpen) := inferInstanceAs (Decidable (_ ∧ _))

def finalIdentifier (cfg : NamingConfig) (fileCanOpen : Text → Bool) (t : TapeNames) : Text :=
  if t.Taken cfg fileCanOpen then t.finalName cfg ++ '-'.toUInt8 :: t.orkUid else t.finalName cfg

def finalNames (cfg : NamingConfig) (fileCanOpen : Text → Bool) (t : TapeNames) : TapeNames :=
  { t with filePath := t.finalPath cfg, fileIdentifier := t.finalIdentifier cfg fileCanOpen }

/-- The names are made: no element of a scheme is empty, and one of the names that are looked for is free. -/
structure Ends (cfg : NamingConfig) (fileCanOpen : Text → Bool) (t : TapeNames) : Prop where
  path : [] ∉ cfg.tapePathNaming
  file : [] ∉ cfg.tapeFileNaming
  free : cfg.Names → ∃ fileIndex,
    fileCanOpen (indexedName (t.testedPath cfg) (t.finalName cfg) t.fileExtension fileIndex) = false

theorem generateIdentifier_eq (cfg : NamingConfig) (t : TapeNames) : t.generateIdentifier cfg =
    if [] ∈ cfg.tapeFileNaming then none else some { t with fileIdentifier := t.finalName cfg } := by
  rw [generateIdentifier, schemeText_eq]
  cases hscheme : cfg.tapeFileNaming with
  | nil => simp [finalName, assembled, hscheme]
  | cons element scheme =>
    rw [if_pos (by simp), finalName, hscheme]
    split
    · rfl
    · cases t.assembled cfg.hostname (element :: scheme) with
      | nil => rfl
      | cons c text => rfl

theorem generateFinalFilePath_eq (cfg : NamingConfig) (t : TapeNames) : t.generateFinalFilePath cfg =
    if [] ∈ cfg.tapePathNaming then none else some { t with filePath := t.finalPath cfg } := by
  rw [generateFinalFilePath, schemeText_eq]
  cases hscheme : cfg.tapePathNaming with
  | nil => simp [finalPath, assembled, hscheme]
  | cons element scheme =>
    rw [if_pos (by simp), finalPath, hscheme, NamingConfig.pathHostname]
    split
    · rfl
    · cases t.assembled (if cfg.hostnameReportFqdn = false then cfg.hostname else cfg.hostFqdn)
          (element :: scheme) with
      | nil => rfl
      | cons c text => rfl

/-! ## The search for a free name -/

section

variable {path identifier extension : Text} {fileIndex k : Nat}

theorem freeIndex_spec (h : freeIndex fileCanOpen path identifier extension rounds fileIndex = some k) :
    fileIndex ≤ k ∧ fileCanOpen (indexedName path identifier extension k) = false ∧
      (k ≠ fileIndex → fileCanOpen (indexedName path identifier extension fileIndex) = true) := by
  induction rounds generalizing fileIndex with
  | zero => exact absurd h (by simp [freeIndex])
  | succ rounds ih =>
    rw [freeIndex] at h
    by_cases hopen : fileCanOpen (indexedName path identifier extension fileIndex) = true
    · rw [if_pos hopen] at h
      obtain ⟨hle, hfree, -⟩ := ih h
      exact ⟨by omega, hfree, fun _ => hopen⟩
    · rw [if_neg hopen] at h
      cases h
      exact ⟨le_refl _, Bool.eq_false_iff.2 hopen, fun hne => absurd rfl hne⟩

/-- Rounds up to a free name are enough. -/
theorem exists_freeIndex (hle : fileIndex ≤ k) (hrounds : k < fileIndex + rounds)
    (hfree : fileCanOpen (indexedName path identifier extension k) = false) :
    ∃ j, freeIndex fileCanOpen path identifier extension rounds fileIndex = some j := by
  induction rounds generalizing fileIndex with
  | zero => omega
  | succ rounds ih =>
    rw [freeIndex]
    by_cases hopen : fileCanOpen (indexedName path identifier extension fileIndex) = true
    · have hne : fileIndex ≠ k := fun h => by rw [h, hfree] at hopen; exact absurd hopen (by decide)
      rw [if_pos hopen]
      exact ih (by omega) (by omega)
    · exact ⟨fileIndex, if_neg hopen⟩

end

theorem preventFileIdentifierCollision_eq {path : Text}
    (h : t.preventFileIdentifierCollision fileCanOpen rounds path = some t') :
    (∃ k, fileCanOpen (indexedName path t.fileIdentifier t.fileExtension k) = false) ∧
      t' = if fileCanOpen (indexedName path t.fileIdentifier t.fileExtension 0) = true then
        { t with fileIdentifier := t.fileIdentifier ++ '-'.toUInt8 :: t.orkUid } else t := by
  obtain ⟨k, hk, rfl⟩ := Option.map_eq_some_iff.1 h
  obtain ⟨-, hfree, htaken⟩ := freeIndex_spec hk
  refine ⟨⟨k, hfree⟩, if_congr ⟨htaken, ?_⟩ rfl rfl⟩
  rintro hopen rfl
  rw [hopen] at hfree
  exact absurd hfree (by decide)

theorem exists_prevented {path : Text} {k : Nat}
    (h : fileCanOpen (indexedName path t.fileIdentifier t.fileExtension k) = false) :
    ∃ rounds t', t.preventFileIdentifierCollision fileCanOpen rounds path = some t' := by
  obtain ⟨j, hj⟩ := exists_freeIndex (Nat.zero_le k) (by omega : k < 0 + (k + 1)) h
  exact ⟨k + 1, _, Option.map_eq_some_iff.2 ⟨j, hj, rfl⟩⟩

/-! ## Together -/

/-- The tape when its collisions are looked for. -/
def testedNames (cfg : NamingConfig) (t : TapeNames) : TapeNames :=
  { t with filePath := t.finalPath cfg, fileIdentifier := t.finalName cfg }

theorem generate_eq (h : [] ∉ cfg.tapePathNaming) (h' : [] ∉ cfg.tapeFileNaming) :
    t.generateFinalFilePathAndIdentifier cfg fileCanOpen rounds =
      if cfg.Names then
        (t.testedNames cfg).preventFileIdentifierCollision fileCanOpen rounds (t.testedPath cfg)
      else some (t.testedNames cfg) := by
  have hnames : (cfg.tapePathNaming.length > 0 ∨ cfg.tapeFileNaming.length > 0) ↔ cfg.Names :=
    or_congr List.length_pos_iff List.length_pos_iff
  rw [generateFinalFilePathAndIdentifier, generateIdentifier_eq, if_neg h']
  simp only [Option.bind_eq_bind, Option.bind_some, generateFinalFilePath_eq, if_neg h, hnames]
  rfl

theorem not_mem_of_generate (h : t.generateFinalFilePathAndIdentifier cfg fileCanOpen rounds = some t') :
    [] ∉ cfg.tapePathNaming ∧ [] ∉ cfg.tapeFileNaming := by
  rw [generateFinalFilePathAndIdentifier, generateIdentifier_eq] at h
  by_cases hfile : [] ∈ cfg.tapeFileNaming
  · rw [if_pos hfile] at h
    cases h
  by_cases hpath : [] ∈ cfg.tapePathNaming
  · rw [if_neg hfile] at h
    simp [generateFinalFilePath_eq, hpath] at h
  · exact ⟨hpath, hfile⟩

theorem finalNames_eq : t.finalNames cfg fileCanOpen =
    if t.Taken cfg fileCanOpen then
      { t.testedNames cfg with fileIdentifier := t.finalName cfg ++ '-'.toUInt8 :: t.orkUid }
    else t.testedNames cfg := by
  rw [finalNames, finalIdentifier]
  split <;> rfl

/-- **The final names.** -/
theorem generate_iff : (∃ rounds, t.generateFinalFilePathAndIdentifier cfg fileCanOpen rounds = some t') ↔
    t.Ends cfg fileCanOpen ∧ t' = t.finalNames cfg fileCanOpen := by
  rw [finalNames_eq]
  constructor
  · intro ⟨rounds, h⟩
    obtain ⟨hpath, hfile⟩ := not_mem_of_generate h
    rw [generate_eq hpath hfile] at h
    by_cases hnames : cfg.Names
    · rw [if_pos hnames] at h
      obtain ⟨hfree, ht'⟩ := preventFileIdentifierCollision_eq h
      exact ⟨⟨hpath, hfile, fun _ => hfree⟩, ht'.trans (if_congr (and_iff_right hnames).symm rfl rfl)⟩
    · rw [if_neg hnames] at h
      exact ⟨⟨hpath, hfile, fun h => absurd h hnames⟩, by rw [if_neg fun h => hnames h.1, Option.some_inj.1 h]⟩
  · intro ⟨hends, ht'⟩
    by_cases hnames : cfg.Names
    · obtain ⟨k, hk⟩ := hends.free hnames
      obtain ⟨rounds, t'', h⟩ := exists_prevented (t := t.testedNames cfg) hk
      obtain ⟨-, ht''⟩ := preventFileIdentifierCollision_eq h
      refine ⟨rounds, ?_⟩
      rw [generate_eq hends.path hends.file, if_pos hnames, h, ht'', ht']
      exact congrArg some (if_congr (and_iff_right hnames).symm rfl rfl)
    · refine ⟨0, ?_⟩
      rw [generate_eq hends.path hends.file, if_neg hnames, ht', if_neg fun h => hnames h.1]

/-- What holds of the names whenever they are made is about the final ones. -/
theorem forall_generate_iff (P : TapeNames → Prop) :
    (∀ rounds t', t.generateFinalFilePathAndIdentifier cfg fileCanOpen rounds = some t' → P t') ↔
      (t.Ends cfg fileCanOpen → P (t.finalNames cfg fileCanOpen)) := by
  constructor
  · intro h hends
    obtain ⟨rounds, hrounds⟩ := generate_iff.2 ⟨hends, rfl⟩
    exact h rounds _ hrounds
  · intro h rounds t' hgenerate
    obtain ⟨hends, ht'⟩ := generate_iff.1 ⟨rounds, hgenerate⟩
    rw [ht']
    exact h hends

end TapeNames

end Oreka

/-!
## Collisions of final names

The file that is looked for before a tape is renamed has a slash between the path and the identifier that
the final name does not have, and where it is found, the name that the tape gets is not looked for at all.
`neverOverwrites_iff` says when the name is free all the same.
-/

namespace Oreka

open Serializers (bytes)

/-- The files that exist, by where they are. -/
abbrev ExistingFiles := List (List Text)

/-- `FileCanOpen`, where every file that exists can be opened. -/
def canOpenIn (cwd : List Text) (existing : ExistingFiles) (file : Text) : Bool := locate cwd file ∈ existing

namespace TapeNames

variable {cfg : NamingConfig} {cwd : List Text} {existing : ExistingFiles} {t : TapeNames}

/-- The file of the tape is not renamed to one that exists. -/
def NeverOverwrites (cfg : NamingConfig) (cwd : List Text) (existing : ExistingFiles) (t : TapeNames) : Prop :=
  ∀ rounds t' source target,
    nameTapeFile cfg (canOpenIn cwd existing) rounds t = some (t', some (source, target)) →
      locate cwd target ∉ existing

/-- The name that the tape has, with another path and another identifier. -/
def nameWith (t : TapeNames) (path identifier : Text) : Text :=
  t.audioOutputPath ++ '/'.toUInt8 :: (path ++ identifier ++ t.fileExtension)

/-- The name with the identifier that was tested. -/
def plainName (cfg : NamingConfig) (t : TapeNames) : Text := t.nameWith (t.finalPath cfg) (t.finalName cfg)

/-- The name with the identifier that is made after a collision. -/
def uidName (cfg : NamingConfig) (t : TapeNames) : Text :=
  t.nameWith (t.finalPath cfg) (t.finalName cfg ++ '-'.toUInt8 :: t.orkUid)

theorem fullName_finalNames : (t.finalNames cfg (canOpenIn cwd existing)).fullName =
    if t.Taken cfg (canOpenIn cwd existing) then t.uidName cfg else t.plainName cfg := by
  rw [finalNames, finalIdentifier]
  split <;> rfl

theorem nameTapeFile_eq_some {fileCanOpen : Text → Bool} {rounds : Nat} {t' : TapeNames}
    {source target : Text} :
    nameTapeFile cfg fileCanOpen rounds t = some (t', some (source, target)) ↔
      t.generateFinalFilePathAndIdentifier cfg fileCanOpen rounds = some t' ∧ t.fullName ≠ t'.fullName ∧
        source = t.fullName ∧ target = t'.fullName := by
  rw [nameTapeFile, Option.map_eq_some_iff]
  constructor
  · rintro ⟨t'', h, heq⟩
    obtain ⟨rfl, hrename⟩ := Prod.mk.inj heq
    split at hrename
    · rename_i hne
      obtain ⟨rfl, rfl⟩ := Prod.mk.inj (Option.some_inj.1 hrename)
      exact ⟨h, hne, rfl, rfl⟩
    · cases hrename
  · rintro ⟨h, hne, rfl, rfl⟩
    exact ⟨t', h, by rw [if_pos hne]⟩

/-- The property is about the final name. -/
theorem neverOverwrites_final : t.NeverOverwrites cfg cwd existing ↔
    (t.Ends cfg (canOpenIn cwd existing) →
      t.fullName ≠ (t.finalNames cfg (canOpenIn cwd existing)).fullName →
        locate cwd (t.finalNames cfg (canOpenIn cwd existing)).fullName ∉ existing) := by
  refine Iff.trans ?_
    (forall_generate_iff fun t' => t.fullName ≠ t'.fullName → locate cwd t'.fullName ∉ existing)
  constructor
  · intro h rounds t' hgenerate hne
    exact h rounds t' _ _ (nameTapeFile_eq_some.2 ⟨hgenerate, hne, rfl, rfl⟩)
  · intro h rounds t' source target hname
    obtain ⟨hgenerate, hne, -, rfl⟩ := nameTapeFile_eq_some.1 hname
    exact h rounds t' hgenerate hne

/-- The name that is not tested is free, or the file has it already: the one without the slash where the
test finds nothing, and the one with the unique identifier where it finds a file. -/
structure Spared (cfg : NamingConfig) (cwd : List Text) (existing : ExistingFiles) (t : TapeNames) : Prop where
  plain : locate cwd (t.testedName cfg) ∉ existing →
    t.fullName = t.plainName cfg ∨ locate cwd (t.plainName cfg) ∉ existing
  uid : locate cwd (t.testedName cfg) ∈ existing →
    t.fullName = t.uidName cfg ∨ locate cwd (t.uidName cfg) ∉ existing

theorem taken_iff : t.Taken cfg (canOpenIn cwd existing) ↔
    cfg.Names ∧ locate cwd (t.testedName cfg) ∈ existing := and_congr Iff.rfl decide_eq_true_iff

/-- Without a scheme, the name is kept. -/
theorem plainName_eq_fullName (h : ¬ cfg.Names) : t.plainName cfg = t.fullName := by
  obtain ⟨hpath, hfile⟩ := not_or.1 h
  rw [plainName, finalPath, finalName, not_not.1 hpath, not_not.1 hfile]
  rfl

/-- Where the path ends in a slash, the file that is tested is the one that the tape is renamed to. -/
theorem locate_plainName {dir : Text} (hoption : t.audioOutputPath = cfg.audioOutputPath)
    (hdir : t.finalPath cfg = dir ++ ['/'.toUInt8]) :
    locate cwd (t.plainName cfg) = locate cwd (t.testedName cfg) := by
  have h : locate cwd _ = locate cwd _ :=
    locate_slash (cfg.audioOutputPath ++ '/'.toUInt8 :: dir) (t.finalName cfg ++ t.fileExtension)
  simpa [plainName, nameWith, testedName, indexedName, testedPath, hoption, hdir] using h.symm

/-- Such a tape is in danger only from a file that has its unique identifier. -/
theorem spared_of_slash {dir : Text} (hoption : t.audioOutputPath = cfg.audioOutputPath)
    (hdir : t.finalPath cfg = dir ++ ['/'.toUInt8]) (huid : locate cwd (t.uidName cfg) ∉ existing) :
    t.Spared cfg cwd existing where
  plain hfree := Or.inr (locate_plainName hoption hdir ▸ hfree)
  uid _ := Or.inr huid

/-- Two callers, one for the directory and one for the file: the file is looked for in the directory
`out/alice`, and the tape gets the name `out/alicebob.wav`. -/
def partyNames : NamingConfig := {
  audioOutputPath := bytes "out"
  tapePathNaming := [bytes "[localparty]"]
  tapeFileNaming := [bytes "[remoteparty]"]
}

def aliceCallsBob : TapeNames := {
  audioOutputPath := bytes "out"
  filePath := bytes "2024/01/01/12/"
  fileIdentifier := bytes "20240101_120000_ABCD"
  fileExtension := bytes ".wav"
  orkUid := bytes "20240101_120000_ABCD"
  localParty := bytes "alice"
  remoteParty := bytes "bob"
}

end TapeNames

end Oreka

/-!
## Recordings under the output directory

The identifier is escaped, the path is not: `..` in the value of an attribute leads out of the output
directory. `staysUnder_iff` says which names stay under it: as far as they go up, they go down the same
names again, and on.
-/

namespace Oreka

open Serializers (bytes)
open Serializers.UrlSerializer (cString)

namespace TapeNames

variable {cfg : NamingConfig} {fileCanOpen : Text → Bool} {cwd : List Text} {t : TapeNames}

/-! ## Names that stay under a directory -/

/-- As far as the name goes up from the directory, it goes down the same names again, and on. -/
def ReturnsTo (dir : List Text) (name : Text) : Prop :=
  let r := Walk.reduce (pathSteps name)
  Walk.Below (dir.drop (dir.length - r.ups)) r.names

theorem below_locate_iff (path name : Text) :
    Walk.Below (locate cwd (path ++ ['/'.toUInt8])) (locate cwd (path ++ '/'.toUInt8 :: name)) ↔
      0 ∉ path ∧ ReturnsTo (locate cwd (path ++ ['/'.toUInt8])) (cString name) := by
  by_cases h : 0 ∈ path
  · exact ⟨fun hbelow => absurd (locate_of_mem h name).symm hbelow.2, fun hpath => absurd h hpath.1⟩
  · rw [locate_append h name, Walk.walk_eq (locate cwd _), Walk.below_apply_iff]
    exact (and_iff_right h).symm

/-- A name that never goes up stays under every directory, unless it leads nowhere. -/
theorem returnsTo_of_no_up {name : Text} (hup : bytes ".." ∉ name.splitOn '/'.toUInt8)
    (hdown : (Walk.reduce (pathSteps name)).names ≠ []) (dir : List Text) : ReturnsTo dir name := by
  have hsteps : ∀ s ∈ pathSteps name, s ≠ .up := by
    intro s hs
    obtain ⟨part, hpart, rfl⟩ := List.mem_map.1 hs
    have hne : part ≠ bytes ".." := fun h => hup (h ▸ hpart)
    rw [pathStep, if_neg hne]
    split <;> simp
  rw [ReturnsTo, Walk.reduce_ups hsteps, Nat.sub_zero, List.drop_length]
  exact ⟨List.nil_prefix, hdown.symm⟩

/-! ## Final names -/

/-- The final name of the tape is under its output directory. -/
def StaysUnder (cfg : NamingConfig) (fileCanOpen : Text → Bool) (cwd : List Text) (t : TapeNames) : Prop :=
  ∀ rounds t', t.generateFinalFilePathAndIdentifier cfg fileCanOpen rounds = some t' →
    Walk.Below (locate cwd (t.audioOutputPath ++ ['/'.toUInt8])) (locate cwd t'.fullName)

/-- **Which names stay under the output directory.** -/
theorem staysUnder_iff (cfg : NamingConfig) (fileCanOpen : Text → Bool) (cwd : List Text) (t : TapeNames) :
    t.StaysUnder cfg fileCanOpen cwd ↔
      (t.Ends cfg fileCanOpen → 0 ∉ t.audioOutputPath ∧
        ReturnsTo (locate cwd (t.audioOutputPath ++ ['/'.toUInt8]))
          (cString (t.finalPath cfg ++ t.finalIdentifier cfg fileCanOpen ++ t.fileExtension))) :=
  (forall_generate_iff _).trans (imp_congr Iff.rfl (below_locate_iff _ _))

/-- The number of a caller leads out of the directory. -/
def upwards : NamingConfig := {
  audioOutputPath := bytes "/var/log/orkaudio"
  tapePathNaming := [bytes "[remoteparty]"]
}

def calledUpwards : TapeNames := {
  audioOutputPath := bytes "/var/log/orkaudio"
  filePath := []
  fileIdentifier := bytes "20240101_120000_ABCD"
  fileExtension := bytes ".wav"
  orkUid := bytes "20240101_120000_ABCD"
  remoteParty := bytes "../../tmp/"
}

theorem not_staysUnder_upwards : ¬ calledUpwards.StaysUnder upwards (fun _ => false) [] := by
  intro h
  have hends : calledUpwards.Ends upwards (fun _ => false) := ⟨by decide, by decide, fun _ => ⟨0, rfl⟩⟩
  have hbelow := (forall_generate_iff _).1 h hends
  exact absurd hbelow.1 (by decide)

end TapeNames

end Oreka
