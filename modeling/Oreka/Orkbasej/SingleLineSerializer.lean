import Oreka.Serializers.Serializer

/-!
# Single-line serialisation in Java

`SingleLineSerializer.java` and `KeyValueSerializer.java` of orkbasej. Characters are those of Latin-1.
`deSerialize` is modelled up to the map; the object that the factory makes of the first value then reads it.
-/

open Std

namespace Oreka.Orkbasej

open Serializers (PairMap isalnum bytes)

inductive JavaException
  | orkException (text : List UInt8)
  | stringIndexOutOfBounds
  deriving DecidableEq, Repr

/-- `Character.isLetterOrDigit`. -/
def isLetterOrDigit (c : UInt8) : Bool :=
  isalnum c || c == 0xAA || c == 0xB5 || c == 0xBA || (0xC0 ≤ c && c ≠ 0xD7 && c ≠ 0xF7)

/-- `String.toLowerCase`. -/
def toLowerCase (s : List UInt8) : List UInt8 :=
  s.map fun c => if (65 ≤ c ∧ c ≤ 90) ∨ (0xC0 ≤ c ∧ c ≤ 0xDE ∧ c ≠ 0xD7) then c + 32 else c

/-- `String.trim`. -/
def trim (s : List UInt8) : List UInt8 := (s.dropWhile (· ≤ 32)).rdropWhile (· ≤ 32)

namespace SingleLineSerializer

def escapeSingleLine (s : List UInt8) : List UInt8 :=
  s.flatMap fun c =>
    if c = ' '.toUInt8 then ['%'.toUInt8, 's'.toUInt8]
    else if c = ':'.toUInt8 then ['%'.toUInt8, 'c'.toUInt8]
    else if c = '%'.toUInt8 then ['%'.toUInt8, 'p'.toUInt8]
    else [c]

/-- What stands for the character behind a percent sign; others stand for nothing. -/
def unEscapeChar (c : UInt8) : List UInt8 :=
  if c = 's'.toUInt8 then [' '.toUInt8]
  else if c = 'c'.toUInt8 then [':'.toUInt8]
  else if c = 'p'.toUInt8 then ['%'.toUInt8]
  else []

def unEscapeSingleLine : List UInt8 → Except JavaException (List UInt8)
  | [] => .ok []
  | [37] => .error .stringIndexOutOfBounds
  | 37 :: c :: rest => (unEscapeChar c ++ ·) <$> unEscapeSingleLine rest
  | c :: rest => (c :: ·) <$> unEscapeSingleLine rest

/-- What `addString` appends to `output`. -/
def addString (key value : List UInt8) : List UInt8 :=
  key ++ '='.toUInt8 :: (escapeSingleLine value ++ [' '.toUInt8])

/-- `serialize` of an object with the given class name and pairs. -/
def serialize (classKey className : List UInt8) (pairs : List (List UInt8 × List UInt8)) : List UInt8 :=
  addString classKey className ++ pairs.flatMap fun p => addString p.1 p.2

inductive SingleLineState
  | startState
  | keyState
  | valueState
  deriving DecidableEq, Repr

/-- The locals of `deSerialize`, and `map`. -/
structure LineParser where
  state : SingleLineState := .startState
  key : List UInt8 := []
  value : List UInt8 := []
  map : PairMap := ∅
  firstValue : Option (List UInt8) := none

namespace LineParser

variable (input : List UInt8)

/-- What an exception says of a character of a key. -/
def wrongChar (message : String) (character : UInt8) : JavaException :=
  .orkException (bytes "SingleLineSerializer.deSerialize: " ++ bytes message ++
    bytes ", keys must be alphanum, wrong char:" ++ character :: bytes " input:" ++ input)

/-- `switch(state)`. -/
def switchState (i : Nat) (s : LineParser) (character : UInt8) : Except JavaException LineParser :=
  match s.state with
  | .startState =>
    if character = ' '.toUInt8 then .ok s
    else if isLetterOrDigit character then
      .ok { s with state := .keyState, key := s.key ++ [character] }
    else .error (wrongChar input "Cannot find key start" character)
  | .keyState =>
    if isLetterOrDigit character then .ok { s with key := s.key ++ [character] }
    else if character = '='.toUInt8 then .ok { s with state := .valueState, value := [] }
    else .error (wrongChar input "Invalid key character" character)
  | .valueState =>
    if character = '='.toUInt8 then
      .error (.orkException (bytes "SingleLineSerializer.deSerialize: equals sign misplaced at index:" ++
        bytes (toString i) ++ bytes " in input:" ++ input))
    else if character = ' '.toUInt8 then .ok { s with state := .startState }
    else .ok { s with value := s.value ++ [character] }

/-- The pair goes into the map behind a space and behind the last character, whatever the state is there. -/
def store (s : LineParser) (last : Bool) : Except JavaException LineParser :=
  if s.state = .startState ∨ last then
    if s.key ≠ [] then do
      let value ← unEscapeSingleLine s.value
      return { s with
        map := s.map.insert (toLowerCase s.key) value
        firstValue := s.firstValue.or (some (toLowerCase s.value))
        key := []
        value := [] }
    else .ok s
  else .ok s

/-- The loop over the input, from index `i` on. -/
def run (i : Nat) (s : LineParser) : List UInt8 → Except JavaException LineParser
  | [] => .ok s
  | character :: rest => do
    let s ← s.switchState input i character
    let s ← s.store rest.isEmpty
    s.run (i + 1) rest

end LineParser

/-- `deSerialize`: the map it leaves, and the name of the class to make. -/
def deSerialize (input : List UInt8) : Except JavaException (PairMap × Option (List UInt8)) :=
  (fun s => (s.map, s.firstValue)) <$> LineParser.run (trim input) 0 {} (trim input)

/-- `getString`: the value of a key in the map. -/
def get (map : PairMap) (key : List UInt8) : Option (List UInt8) := map[toLowerCase key]?

end SingleLineSerializer

end Oreka.Orkbasej
