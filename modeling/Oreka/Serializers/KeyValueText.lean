import Mathlib.Data.List.DropRight
import Oreka.Lib.KeyedMap

/-!
# Key and value pairs as text

What `serializers/UrlSerializer.cpp` and `serializers/SingleLineSerializer.cpp` share: the key that
`CStdString::Format` writes, and the parser; they differ in the separator and in how a value is
escaped. Strings are lists of bytes; the locale is C. The parser's error descriptions are local to
it and lost.
-/

open Std

namespace Oreka.Serializers

abbrev PairMap := TreeMap (List UInt8) (List UInt8)

def isalnum (c : UInt8) : Bool :=
  (48 ≤ c && c ≤ 57) || (65 ≤ c && c ≤ 90) || (97 ≤ c && c ≤ 122)

def isspace (c : UInt8) : Bool := (9 ≤ c && c ≤ 13) || c == 32

/-- `CStdString::Trim`. -/
def trim (s : List UInt8) : List UInt8 := (s.dropWhile isspace).rdropWhile isspace

/-- What `CStdString::FormatV` keeps of the format `%s=`: it gives `vsnprintf` one byte less than its
buffer of `sslen(szFormat) + STD_BUF_SIZE`. -/
abbrev formatMax : Nat := 3 + 1024 - 1 - 1

/-- `pair.Format("%s=", key)`. -/
def formatKey (key : List UInt8) : List UInt8 := (key ++ ['='.toUInt8]).take formatMax

section
variable (separator : UInt8) (escape : List UInt8 → List UInt8)

/-- `AddString`: what it appends to `m_output`. -/
def addString (key value : List UInt8) : List UInt8 :=
  formatKey key ++ (escape value ++ [separator])

/-- `Serialize` of an object with the given pairs. -/
def serialize (pairs : List (List UInt8 × List UInt8)) : List UInt8 :=
  pairs.flatMap fun p => addString separator escape p.1 p.2

end

inductive KeyValueState
  | start | key | value | error
  deriving DecidableEq, Repr

/-- The locals of `DeSerialize`, and `m_map`. -/
structure PairParser where
  state : KeyValueState := .start
  key : List UInt8 := []
  value : List UInt8 := []
  map : PairMap := ∅

namespace PairParser

variable (separator : UInt8) (unEscape : List UInt8 → Option (List UInt8))

/-- `switch(state)`. -/
def switchState (s : PairParser) (character : UInt8) : PairParser :=
  match s.state with
  | .start =>
    if character = separator then s
    else if isalnum character then { s with state := .key, key := [character] }
    else { s with state := .error }
  | .key =>
    if isalnum character then { s with key := s.key ++ [character] }
    else if character = '='.toUInt8 then { s with state := .value, value := [] }
    else { s with state := .error }
  | .value =>
    if character = '='.toUInt8 then { s with state := .error }
    else if character = separator then { s with state := .start }
    else { s with value := s.value ++ [character] }
  | .error => s

/-- The pair goes into the map behind a separator and behind the last character, whatever the state
is there. -/
def store (s : PairParser) (last : Bool) : Option PairParser := do
  if s.state = .start ∨ last then
    if s.key ≠ [] then
      let unescapedValue ← unEscape s.value
      return { s with map := s.map.insertIfNew s.key unescapedValue, key := [], value := [] }
    else return s
  else return s

/-- The loop over the input; nothing for an exception of `unEscape`. -/
def run (s : PairParser) : List UInt8 → Option PairParser
  | [] => some s
  | character :: rest =>
    if s.state = .error then some s
    else do
      let s ← (s.switchState separator character).store unEscape rest.isEmpty
      s.run rest

end PairParser

/-- `DeSerialize`: the map it leaves. -/
def deSerialize (separator : UInt8) (unEscape : List UInt8 → Option (List UInt8))
    (input : List UInt8) : Option PairMap :=
  (PairParser.run separator unEscape {} (trim input)).map (·.map)

end Oreka.Serializers
