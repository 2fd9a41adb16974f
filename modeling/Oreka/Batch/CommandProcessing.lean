import Oreka.Lib.Files
import Oreka.Lib.Infix
import Oreka.Serializers.Serializer

/-!
# Processing by a command

`CommandProcessing::ThreadHandler` of `CommandProcessing.cpp`, for one tape: its file is renamed, the
command is run on it, and what the command has left under the name is taken for the recording. The
operating system and the command are a parameter.
-/

namespace Oreka.Batch

open Serializers (bytes)
open Files (Store)

abbrev FileName := List UInt8

/-- Where a file comes from. -/
inductive Origin
  | original | output | other
  deriving DecidableEq, Repr

structure FileContent where
  origin : Origin
  size : Nat
  deriving DecidableEq, Repr

/-- What a tape knows of its file, and its fields that are set here. -/
structure CommandTape where
  audioOutputPath : List UInt8
  filePath : List UInt8
  fileIdentifier : List UInt8
  fileExtension : List UInt8
  isExternal : Bool := false
  externalFileName : List UInt8 := []
  isSuccessfulImported : Bool := true
  isDoneProcessed : Bool := false

namespace CommandTape

def getFilename (t : CommandTape) : List UInt8 := t.filePath ++ t.fileIdentifier ++ t.fileExtension

/-- The name recorded in the tape, in its output path. -/
def recordedName (t : CommandTape) : FileName := t.audioOutputPath ++ '/'.toUInt8 :: t.getFilename

def audioFileName (t : CommandTape) : FileName :=
  if !t.isExternal then t.audioOutputPath ++ '/'.toUInt8 :: (t.filePath ++ t.fileIdentifier ++ bytes ".wav")
  else t.audioOutputPath ++ '/'.toUInt8 :: (t.filePath ++ t.externalFileName)

def setExtension (t : CommandTape) (ext : List UInt8) : CommandTape := { t with fileExtension := ext }

/-- The tape is done with, without success. -/
def failed (t : CommandTape) : CommandTape := { t with isSuccessfulImported := false, isDoneProcessed := true }

end CommandTape

/-- The operating system: whether an existing file can be renamed, and removed, and the size of the
output that a command line leaves under the name of the audio file, if it does. -/
structure System where
  renames : FileName → FileName → Bool
  removes : FileName → Bool
  system : List UInt8 → Option Nat

/-- `std::rename`, of an existing file. -/
def rename (sys : System) (files : Store FileName FileContent) (source target : FileName) :
    Option (Store FileName FileContent) :=
  if (files source).isSome ∧ sys.renames source target then some (Files.move files source target) else none

/-- `system`. -/
def runCommand (sys : System) (files : Store FileName FileContent) (audioFileName command : List UInt8) :
    Store FileName FileContent :=
  match sys.system command with
  | some size => Files.write files audioFileName ⟨.output, size⟩
  | none => files

/-- `std::remove`. -/
def remove (sys : System) (files : Store FileName FileContent) (name : FileName) : Store FileName FileContent :=
  if sys.removes name then Files.remove files name else files

def fileSizeInKb (files : Store FileName FileContent) (name : FileName) : Nat :=
  match files name with
  | some content => content.size / 1024
  | none => 0

/-- `fileNameWoExt`: up to the last dot, or nothing. -/
def fileNameWoExt (name : FileName) : List UInt8 := name.rdropWhile (· ≠ '.'.toUInt8)

/-- The first occurrence of an argument is replaced by a file name. -/
def replaceArg (arg value command : List UInt8) : List UInt8 :=
  match Infix.first command arg with
  | none => command
  | some pos_arg =>
    let tmp1 := command.take pos_arg
    let tmp2 := if pos_arg < command.length - arg.length then command.drop (pos_arg + arg.length) else []
    tmp1 ++ ' '.toUInt8 :: (value ++ ' '.toUInt8 :: tmp2)

/-- The command line: `[IN]` is replaced before `[OUT]` is looked for. -/
def commandLine (command tmpName audioFileName : List UInt8) : List UInt8 :=
  replaceArg (bytes "[OUT]") audioFileName (replaceArg (bytes "[IN]") tmpName command)

/-- What is left when the thread has finished with a tape: whether it was passed on to the next tape
processor, too. -/
structure Processed where
  files : Store FileName FileContent
  tape : CommandTape
  passedOn : Bool

/-- One tape of `ThreadHandler`. -/
def processTape (command : List UInt8) (sys : System) (files : Store FileName FileContent) (t : CommandTape) :
    Processed :=
  if command = [] then ⟨files, t, true⟩
  else
    let tmpName := t.audioFileName ++ bytes ".tmp"
    match rename sys files t.audioFileName tmpName with
    | none => ⟨files, t.failed, false⟩
    | some files =>
      if Infix.first command (bytes "[IN]") = none then
        ⟨runCommand sys files t.audioFileName command, { t with isDoneProcessed := true }, true⟩
      else
        let files := runCommand sys files t.audioFileName (commandLine command tmpName t.audioFileName)
        let files := remove sys files tmpName
        let newFileName := fileNameWoExt t.audioFileName ++ bytes "gsm.wav"
        match rename sys files t.audioFileName newFileName with
        | none => ⟨files, t.failed, false⟩
        | some files =>
          if fileSizeInKb files newFileName < 1 then ⟨files, t.failed, false⟩
          else ⟨files, { t.setExtension newFileName with isDoneProcessed := true }, true⟩

end Oreka.Batch
