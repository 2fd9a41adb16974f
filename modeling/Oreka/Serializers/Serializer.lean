import Mathlib.Algebra.Ring.Int.Defs
import Mathlib.Algebra.Ring.Nat
import Oreka.Serializers.UrlSerializer

/-!
# The serialiser an object defines itself to

`serializers/Serializer.cpp` and the integers of `Utils.h`, for a `UrlSerializer`. An object names its
fields once (`Define`): each is written or read, as the serialiser's mode says.
-/

open Std

namespace Oreka.Serializers

/-- The bytes of a string literal. -/
def bytes (s : String) : List UInt8 := s.toList.map Char.toUInt8

/-- What is thrown: a `CStdString`, or `std::out_of_range` by `GetAt`. -/
inductive Failure
  | text (s : List UInt8)
  | outOfRange
  deriving DecidableEq, Repr

/-! ## Integers -/

/-- `IntToString`. -/
def intToString (integer : Int32) : List UInt8 := bytes (toString integer.toInt)

def isdigit (c : UInt8) : Bool := 48 ≤ c && c ≤ 57

/-- The number that decimal digits stand for. -/
def decimal (digits : List UInt8) : Nat := digits.foldl (fun n c => n * 10 + (c.toNat - 48)) 0

/-- `long`. -/
def clampLong (n : Int) : Int := max (-2 ^ 63) (min n (2 ^ 63 - 1))

/-- An optional sign. -/
def readSign : List UInt8 → Int × List UInt8
  | 43 :: rest => (1, rest)
  | 45 :: rest => (-1, rest)
  | rest => (1, rest)

/-- `strtol(s, &errorLocation, 10)`: the number, and what `errorLocation` points at. -/
def strtolBase10 (s : List UInt8) : Int × List UInt8 :=
  let (sign, unsigned) := readSign (s.dropWhile isspace)
  if unsigned.takeWhile isdigit = [] then (0, s)
  else (clampLong (sign * decimal (unsigned.takeWhile isdigit)), unsigned.dropWhile isdigit)

/-- `StringToInt`. -/
def stringToInt (value : List UInt8) : Except Failure Int32 :=
  let (intValue, errorLocation) := strtolBase10 (UrlSerializer.cString value)
  if errorLocation ≠ [] then .error (.text (bytes "StringToInt: invalid integer:" ++ value))
  else .ok (.ofInt intValue)

/-- `CStdString::ToLower`. -/
def toLower (s : List UInt8) : List UInt8 := s.map fun c => if 65 ≤ c ∧ c ≤ 90 then c + 32 else c

/-! ## Escaping -/

/-- What `EscapeCsv` and `EscapePair` share: they differ in the character that they escape besides
the percent sign, and in the letter for it. -/
def escape (special letter : UInt8) (s : List UInt8) : List UInt8 :=
  s.flatMap fun c =>
    if c = special then ['%'.toUInt8, letter]
    else if c = '%'.toUInt8 then ['%'.toUInt8, 'p'.toUInt8]
    else [c]

/-- What `UnEscapeCsv` and `UnEscapePair` share: an escape they do not know is dropped. -/
def unEscape (special letter : UInt8) : List UInt8 → List UInt8
  | [] => []
  | c :: rest =>
    if c = '%'.toUInt8 then
      match rest with
      | [] => []
      | l :: rest =>
        if l = letter then special :: unEscape special letter rest
        else if l = 'p'.toUInt8 then '%'.toUInt8 :: unEscape special letter rest
        else unEscape special letter rest
    else c :: unEscape special letter rest

def escapeCsv (s : List UInt8) : List UInt8 := escape ','.toUInt8 'c'.toUInt8 s

def unEscapeCsv (s : List UInt8) : List UInt8 := unEscape ','.toUInt8 'c'.toUInt8 s

def escapePair (s : List UInt8) : List UInt8 := escape ':'.toUInt8 'k'.toUInt8 s

def unEscapePair (s : List UInt8) : List UInt8 := unEscape ':'.toUInt8 'k'.toUInt8 s

/-! ## Lists -/

/-- The locals of `GetCsv`, and the list it fills. -/
structure CsvReader where
  element : List UInt8 := []
  first : Bool := true
  value : List (List UInt8)

namespace CsvReader

/-- An element is complete: the first one replaces the default value. -/
def push (r : CsvReader) : CsvReader where
  first := false
  value := (if r.first then [] else r.value) ++ [unEscapeCsv (trim r.element)]

def read (r : CsvReader) (c : UInt8) : CsvReader :=
  if c = ','.toUInt8 then r.push else { r with element := r.element ++ [c] }

/-- What is behind the last comma is an element, if there is something. -/
def finish (r : CsvReader) : List (List UInt8) := if r.element ≠ [] then r.push.value else r.value

end CsvReader

/-- The loop of `GetCsv` over the string that it got. -/
def splitCsv (value : List (List UInt8)) (stringValue : List UInt8) : List (List UInt8) :=
  (stringValue.foldl CsvReader.read { value }).finish

/-- One element of `GetCsvMap`. -/
def insertPair (value : PairMap) (keyValuePair : List UInt8) : Except Failure PairMap :=
  match keyValuePair.idxOf? ':'.toUInt8 with
  | some colonPos =>
    .ok (value.insertIfNew (unEscapePair (keyValuePair.take colonPos))
      (unEscapePair (keyValuePair.drop (colonPos + 1))))
  | none => .error (.text (bytes "DeSerializer: GetCsvMap: missing colon in map element"))

/-- The list that `AddCsv` writes. -/
def csvString (value : List (List UInt8)) : List UInt8 :=
  [','.toUInt8].intercalate (value.map escapeCsv)

/-- An element of the list that `AddCsvMap` writes. -/
def csvElement (pair : List UInt8 × List UInt8) : List UInt8 :=
  escapePair pair.1 ++ ':'.toUInt8 :: escapePair pair.2

/-- The list that `AddCsvMap` writes. -/
def csvMapString (value : PairMap) : List UInt8 :=
  [','.toUInt8].intercalate (value.toList.map fun pair => escapeCsv (csvElement pair))

/-! ## Values -/

/-- A serialiser: its mode, the map that it reads from, and what it has written. -/
structure Serializer where
  deSerialize : Bool
  map : PairMap := ∅
  output : List UInt8 := []

abbrev SerializerM := StateT Serializer (Except Failure)

namespace SerializerM

def addString (key : String) (value : List UInt8) : SerializerM Unit :=
  modify fun s => { s with output := s.output ++ UrlSerializer.addString (bytes key) value }

def getString (key : String) (value : List UInt8) (required : Bool) : SerializerM (List UInt8) := do
  match (← get).map[bytes key]? with
  | some second => return second
  | none =>
    if required then
      throw (.text (bytes "Serializer::GetString: required parameter missing:" ++ bytes key))
    else return value

def getInt (key : String) (value : Int32) (required : Bool) : SerializerM Int32 := do
  let stringValue ← getString key [] required
  if stringValue ≠ [] then stringToInt stringValue else return value

def getBool (key : String) (value : Bool) (required : Bool) : SerializerM Bool := do
  let stringValue := toLower (← getString key [] required)
  if stringValue = bytes "true" ∨ stringValue = bytes "yes" ∨ stringValue = bytes "1" then
    return true
  else if stringValue = bytes "false" ∨ stringValue = bytes "no" ∨ stringValue = bytes "0" then
    return false
  else if stringValue = [] then return value
  else throw (.text (bytes "Serializer: Invalid boolean value:" ++ stringValue ++
    bytes " for parameter:" ++ bytes key))

def getCsv (key : String) (value : List (List UInt8)) (required : Bool) :
    SerializerM (List (List UInt8)) := do
  return splitCsv value (← getString key [] required)

def getCsvMap (key : String) (value : PairMap) (required : Bool) : SerializerM PairMap := do
  let cvsList ← getCsv key [] required
  StateT.lift (cvsList.foldlM insertPair value)

/-- What the value functions share: a value is read, or written as it is. -/
def value {α : Type} (read : SerializerM α) (write : SerializerM Unit) (v : α) : SerializerM α := do
  if (← get).deSerialize then read
  else
    write
    return v

def stringValue (key : String) (v : List UInt8) (required : Bool) : SerializerM (List UInt8) :=
  value (getString key v required) (addString key v) v

def intValue (key : String) (v : Int32) (required : Bool) : SerializerM Int32 :=
  value (getInt key v required) (addString key (intToString v)) v

def boolValue (key : String) (v : Bool) (required : Bool) : SerializerM Bool :=
  value (getBool key v required) (addString key (bytes (if v then "true" else "false"))) v

def csvValue (key : String) (v : List (List UInt8)) (required : Bool) :
    SerializerM (List (List UInt8)) :=
  value (getCsv key v required) (addString key (csvString v)) v

def csvMapValue (key : String) (v : PairMap) (required : Bool) : SerializerM PairMap :=
  value (getCsvMap key v required) (addString key (csvMapString v)) v

end SerializerM

end Oreka.Serializers
