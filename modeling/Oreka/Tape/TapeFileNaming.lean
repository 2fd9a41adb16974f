import Oreka.Base.Utils
import Oreka.Lib.Walk
import Oreka.Serializers.Serializer

/-!
# The final names of tapes

`GenerateFinalFilePathAndIdentifier` of `AudioTape.cpp` and what `TapeFileNaming::ThreadHandler` does with
one tape: its path and its identifier are put together from its attributes, as the configuration says, and
its file is renamed. A file is where its path leads to (`locate`). The directories that are created for it
are left out.
-/

namespace Oreka

open Serializers

abbrev Text := List UInt8

/-! ## Paths -/

/-- A part of a path between slashes. -/
def pathStep (part : Text) : Walk.Step Text :=
  if part = [] ∨ part = bytes "." then .stay else if part = bytes ".." then .up else .down part

def pathSteps (path : Text) : List (Walk.Step Text) := (path.splitOn '/'.toUInt8).map pathStep

/-- Where a path leads to from the working directory, with `.` and `..` resolved. A path is a C string. -/
def locate (cwd : List Text) (path : Text) : List Text :=
  let path := UrlSerializer.cString path
  Walk.walk (if path.head? = some '/'.toUInt8 then [] else cwd) (pathSteps path)

/-! ## Attributes -/

/-- `TapeAttributeEnum`. -/
inductive TapeAttribute
  | unknown | nativeCallId | trackingId | direction | shortDirection | remoteParty | localParty
  | localEntryPoint | localIp | remoteIp | hostname | year | day | month | hour | min | sec
  deriving DecidableEq, Repr

/-- The attributes, in the order in which an element is compared with them. -/
def tapeAttributes : List (String × TapeAttribute) :=
  [("[nativecallid]", .nativeCallId), ("[trackingid]", .trackingId), ("[direction]", .direction),
    ("[shortdirection]", .shortDirection), ("[remoteparty]", .remoteParty), ("[localparty]", .localParty),
    ("[localentrypoint]", .localEntryPoint), ("[localip]", .localIp), ("[remoteip]", .remoteIp),
    ("[hostname]", .hostname), ("[year]", .year), ("[day]", .day), ("[month]", .month), ("[hour]", .hour),
    ("[min]", .min), ("[sec]", .sec)]

def tapeAttributeToEnum (ta : Text) : TapeAttribute :=
  ((tapeAttributes.find? fun entry => bytes entry.1 == toLower ta).map (·.2)).getD .unknown

/-- `DirectionToShortString`. -/
def Direction.toShortText : Direction → String
  | .dirIn => "I"
  | .dirOut => "O"
  | .dirUnkn => "U"

/-- What the names of a tape are made of. -/
structure TapeNames where
  audioOutputPath : Text
  filePath : Text
  fileIdentifier : Text
  fileExtension : Text
  orkUid : Text
  nativeCallId : Text := []
  trackingId : Text := []
  direction : Direction := .dirUnkn
  remoteParty : Text := []
  localParty : Text := []
  localEntryPoint : Text := []
  localIp : Text := []
  remoteIp : Text := []
  year : Text := []
  day : Text := []
  month : Text := []
  hour : Text := []
  min : Text := []
  sec : Text := []
  tags : PairMap := ∅

/-- What is read of `Config`, and of the host. -/
structure NamingConfig where
  audioOutputPath : Text
  tapePathNaming : List Text := []
  tapeFileNaming : List Text := []
  hostnameReportFqdn : Bool := false
  /-- `OrkGetHostname`. -/
  hostname : Text := []
  /-- `GetHostFqdn`. -/
  hostFqdn : Text := []

namespace TapeNames

def getFilename (t : TapeNames) : Text := t.filePath ++ t.fileIdentifier ++ t.fileExtension

/-- The path that the file of the tape has. -/
def fullName (t : TapeNames) : Text := t.audioOutputPath ++ '/'.toUInt8 :: t.getFilename

/-- A text, or what stands for an empty one. -/
def orElse (s : Text) (missing : String) : Text := if s.length > 0 then s else bytes missing

/-- What an element of a naming scheme stands for: an attribute, a tag, or itself. The `substr` of an empty
element throws. -/
def elementText (hostname : Text) (t : TapeNames) (element : Text) : Option Text :=
  match tapeAttributeToEnum element with
  | .nativeCallId => some (orElse t.nativeCallId "nonativecallid")
  | .trackingId => some (orElse t.trackingId "notrackingid")
  | .direction => some (bytes t.direction.toText)
  | .shortDirection => some (bytes t.direction.toShortText)
  | .remoteParty => some (orElse t.remoteParty "noremoteparty")
  | .localParty => some (orElse t.localParty "nolocalparty")
  | .localEntryPoint => some (orElse t.localEntryPoint "nolocalentrypoint")
  | .localIp => some (orElse t.localIp "nolocalip")
  | .remoteIp => some (orElse t.remoteIp "noremoteip")
  | .hostname => some (orElse hostname "nohostname")
  | .year => some t.year
  | .day => some t.day
  | .month => some t.month
  | .hour => some t.hour
  | .min => some t.min
  | .sec => some t.sec
  | .unknown =>
    if element = [] then none
    else
      let correctKey := (element.drop 1).take (element.length - 2)
      some (t.tags[correctKey]?.getD element)

/-- The texts of a naming scheme, one behind the other. -/
def schemeText (hostname : Text) (t : TapeNames) (scheme : List Text) : Option Text :=
  (scheme.mapM (elementText hostname t)).map List.flatten

/-- `GenerateFinalFilePath`: its host name may be the full one. -/
def generateFinalFilePath (cfg : NamingConfig) (t : TapeNames) : Option TapeNames :=
  if cfg.tapePathNaming.length > 0 then
    (schemeText (if cfg.hostnameReportFqdn = false then cfg.hostname else cfg.hostFqdn) t
        cfg.tapePathNaming).map fun pathIdentifier =>
      if pathIdentifier.length > 0 then { t with filePath := pathIdentifier } else t
  else some t

end TapeNames

/-! ## Escaping -/

/-- `file_ok_chars`. -/
def file_ok_chars : Text := bytes "-.0123456789@ABCDEFGHIJKLMNOPQRSTUVWXYZ_abcdefghijklmnopqrstuvwxyz"

/-- `FileEscapeName`. -/
def fileEscapeName (s : Text) : Text :=
  s.flatMap fun c =>
    if UrlSerializer.strchr file_ok_chars c then [c]
    else ['%'.toUInt8, UrlSerializer.hex_digits (c >>> 4), UrlSerializer.hex_digits (c &&& 0x0F)]

/-! ## Collisions -/

/-- The name that `PreventFileIdentifierCollision` looks for in a round. Of a formatted text, the buffer
holds 1027 characters. -/
def indexedName (path identifier extension : Text) : Nat → Text
  | 0 => path ++ identifier ++ extension
  | fileIndex + 1 =>
    path ++ (UrlSerializer.cString identifier ++ bytes ("-" ++ toString (fileIndex + 1))).take 1027 ++ extension

/-- Its loop, within some rounds: the first index for which there is no such file. -/
def freeIndex (fileCanOpen : Text → Bool) (path identifier extension : Text) : Nat → Nat → Option Nat
  | 0, _ => none
  | rounds + 1, fileIndex =>
    if fileCanOpen (indexedName path identifier extension fileIndex) then
      freeIndex fileCanOpen path identifier extension rounds (fileIndex + 1)
    else some fileIndex

namespace TapeNames

/-- `PreventFileIdentifierCollision`: where a file was found, the identifier is not the one that was
looked for last. -/
def preventFileIdentifierCollision (fileCanOpen : Text → Bool) (rounds : Nat) (path : Text) (t : TapeNames) :
    Option TapeNames :=
  (freeIndex fileCanOpen path t.fileIdentifier t.fileExtension rounds 0).map fun fileIndex =>
    if fileIndex ≠ 0 then { t with fileIdentifier := t.fileIdentifier ++ '-'.toUInt8 :: t.orkUid } else t

/-- The first part of `GenerateFinalFilePathAndIdentifier`. -/
def generateIdentifier (cfg : NamingConfig) (t : TapeNames) : Option TapeNames :=
  if cfg.tapeFileNaming.length > 0 then
    (schemeText cfg.hostname t cfg.tapeFileNaming).map fun fileIdentifier =>
      if fileIdentifier.length > 0 then { t with fileIdentifier := fileEscapeName fileIdentifier } else t
  else some t

/-- `GenerateFinalFilePathAndIdentifier`, where the loop over the indices has so many rounds. -/
def generateFinalFilePathAndIdentifier (cfg : NamingConfig) (fileCanOpen : Text → Bool) (rounds : Nat)
    (t : TapeNames) : Option TapeNames := do
  let t ← t.generateIdentifier cfg
  let t ← t.generateFinalFilePath cfg
  if cfg.tapePathNaming.length > 0 ∨ cfg.tapeFileNaming.length > 0 then
    let path := cfg.audioOutputPath ++ '/'.toUInt8 :: (t.filePath ++ ['/'.toUInt8])
    t.preventFileIdentifierCollision fileCanOpen rounds path
  else return t

end TapeNames

/-- One tape of `TapeFileNaming::ThreadHandler`: the tape with its final names, and from where to where its
file is renamed, if it is. -/
def nameTapeFile (cfg : NamingConfig) (fileCanOpen : Text → Bool) (rounds : Nat) (t : TapeNames) :
    Option (TapeNames × Option (Text × Text)) :=
  (t.generateFinalFilePathAndIdentifier cfg fileCanOpen rounds).map fun t' =>
    (t', if t.fullName ≠ t'.fullName then some (t.fullName, t'.fullName) else none)

end Oreka
