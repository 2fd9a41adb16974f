import Mathlib.Logic.Function.Basic
import Oreka.Lib.Infix
import Oreka.Lib.Memory
import Oreka.Sip.HeaderSearch

/-!
# Extracting key/values

`ExtractKeyValuesData` of `voip/SipParsers.cpp` takes the values of the configured keys out of a SIP
message: of "from.tag" in the line of the From field, of "a.b" behind the line that starts with "a:", and
of any other key wherever it stands. A `char*` is an offset from the start of the payload into the memory
that holds it; behind that memory there is a NUL. What is written to the log is left out.
-/

namespace Oreka.Sip

open Net (byte)

/-- `=`, `:`, `<` and `>`. -/
def isAKeySeparator (c : UInt8) : Bool := c = 0x3D ∨ c = 0x3A ∨ c = 0x3C ∨ c = 0x3E

/-- `;`, `<`, `>`, CR and LF. -/
def isAFieldSeparator (c : UInt8) : Bool := c = 0x3B ∨ c = 0x3C ∨ c = 0x3E ∨ c = 0x0D ∨ c = 0x0A

/-- What is passed before a value. -/
def beforeValue (c : UInt8) : Bool := isAKeySeparator c ∨ c = 0x20

/-- What ends a value. -/
def endsValue (c : UInt8) : Bool := isAFieldSeparator c ∨ c = 0x0A ∨ c = 0x0D ∨ c = 0

def endsLine (c : UInt8) : Bool := c = 0x0D ∨ c = 0x0A

/-- The value at the start of a text, none beyond its end. -/
def valueAt (text : List UInt8) : List UInt8 := (text.dropWhile beforeValue).takeWhile fun c => ¬ endsValue c

def orkStringViewFind (searchedString stringToFind : List UInt8) : Option Nat :=
  Infix.first searchedString stringToFind

/-! ## Keys of the standard fields -/

/-- The value of a key in the first line of an area. -/
def valueInLine (area key : List UInt8) : List UInt8 :=
  let line := area.takeWhile fun c => ¬ endsLine c
  (orkStringViewFind line key).elim [] fun locationInField => valueAt (line.drop (locationInField + key.length))

def extractKeyValueFromField (mem : List UInt8) (pHeaderFirstChar maxLength : Nat) (key : List UInt8) :
    List UInt8 :=
  valueInLine (Memory.read (byte mem) pHeaderFirstChar maxLength) key

inductive SipField
  | fieldFrom
  | fieldTo
  | fieldReplaces
  | fieldContact
  deriving DecidableEq, Repr

/-- What the field is searched by. -/
def SipField.fieldName : SipField → List UInt8
  | .fieldFrom => ascii "from:"
  | .fieldTo => ascii "to:"
  | .fieldReplaces => ascii "replaces:"
  | .fieldContact => ascii "contact:"

/-- What the keys of the field begin with. -/
def SipField.keyStart : SipField → List UInt8
  | .fieldFrom => ascii "from."
  | .fieldTo => ascii "to."
  | .fieldReplaces => ascii "replaces."
  | .fieldContact => ascii "contact."

def fieldOf (x : List UInt8) : Option SipField :=
  [.fieldFrom, .fieldTo, .fieldReplaces, .fieldContact].find? fun field =>
    x.take field.keyStart.length = field.keyStart

abbrev FieldPosition := SipField → Option Nat

/-- `retrieve_field_position_in_payload`: what `MemFindAfter` returns lies behind the name already. -/
def retrieveFieldPositionInPayload (mem : List UInt8) (payLoadLength : Nat) (ptrFirstChar : Option Nat)
    (fieldName : List UInt8) : Option Nat :=
  ptrFirstChar.or ((MemUtils.memFindAfter fieldName mem payLoadLength).map (· + fieldName.length))

/-! ## Other keys -/

/-- Why there is no result: `substr` throws, or the rounds given to a loop do not suffice. -/
inductive Interrupted
  | outOfRange
  | outOfRounds
  deriving DecidableEq, Repr

/-- `while ((buffer[pos] == ' ' || buffer[pos] == '\t') && (pos > 0)) --pos`. -/
def skipBack (buffer : List UInt8) : Nat → Nat
  | 0 => 0
  | pos + 1 =>
    if byte buffer (pos + 1) = 0x20 ∨ byte buffer (pos + 1) = 0x09 then skipBack buffer pos else pos + 1

/-- What stands at `posSubStr` is at the start of a line. -/
def atStartOfLine (buffer : List UInt8) (posSubStr : Nat) : Bool :=
  skipBack buffer posSubStr = 0 ∨ byte buffer (skipBack buffer posSubStr - 1) = 0x0A

/-- The `const char*` at `p`, as a string. -/
def cString (mem : List UInt8) (p : Nat) : List UInt8 := (mem.drop p).takeWhile (· ≠ 0)

/-- The loop for the line that starts with `keyToLookUp` and a colon, from a buffer at `start` on: where
`strToFind` ends that stands behind them. -/
def lineLoop (mem keyToLookUp strToFind : List UInt8) : Nat → Nat → List UInt8 → Except Interrupted (Option Nat)
  | 0, _, _ => .error .outOfRounds
  | rounds + 1, start, bufferToSearch =>
    if bufferToSearch = [] then .ok none
    else
      match orkStringViewFind bufferToSearch keyToLookUp with
      | none => .ok none
      | some posSubStr =>
        let colon := posSubStr + keyToLookUp.length
        if atStartOfLine bufferToSearch posSubStr ∧ byte mem (start + colon) = 0x3A then
          if bufferToSearch.length < colon + 1 then .error .outOfRange
          else
            let subpartToSearchIn := bufferToSearch.drop (colon + 1)
            .ok ((orkStringViewFind subpartToSearchIn strToFind).map fun location =>
              location + (start + (colon + 1)) + strToFind.length)
        else
          match bufferToSearch.idxOf? 0x0A with
          | none => .ok none
          | some nextLinePos =>
            lineLoop mem keyToLookUp strToFind rounds (start + (nextLinePos + 1))
              (cString mem (start + (nextLinePos + 1)))

/-- Where the value of a key is looked for that is of none of the fields. -/
def locationInPayload (mem : List UInt8) (payloadSize : Nat) (x : List UInt8) :
    Except Interrupted (Option Nat) :=
  let payload := Memory.read (byte mem) 0 payloadSize
  match x.idxOf? 0x2E with
  | some dotPosition => lineLoop mem (x.take dotPosition) (x.drop (dotPosition + 1)) (mem.length + 1) 0 payload
  | none => .ok ((orkStringViewFind payload x).map (· + x.length))

/-! ## All keys -/

/-- The value of a key, empty if there is none, and the positions of the fields found so far. -/
def keyData (mem : List UInt8) (payloadSize : Nat) (fieldPosition : FieldPosition) (x : List UInt8) :
    Except Interrupted (FieldPosition × List UInt8) :=
  match fieldOf x with
  | some field =>
    let position := retrieveFieldPositionInPayload mem payloadSize (fieldPosition field) field.fieldName
    .ok (Function.update fieldPosition field position,
      position.elim [] fun p => extractKeyValueFromField mem p (p + payloadSize) (x.drop field.keyStart.length))
  | none => do
    let location ← locationInPayload mem payloadSize x
    return (fieldPosition, location.elim [] fun p => valueAt (Memory.read (byte mem) p (payloadSize - p)))

abbrev KeyValueMap := List UInt8 → Option (List UInt8)

/-- `emplace`. -/
def KeyValueMap.emplace (m : KeyValueMap) (x v : List UInt8) : KeyValueMap :=
  if m x = none then Function.update m x (some v) else m

/-- A key is worked off. -/
def extractKeyValue (mem : List UInt8) (payloadSize : Nat) (s : FieldPosition × KeyValueMap) (x : List UInt8) :
    Except Interrupted (FieldPosition × KeyValueMap) := do
  let (fieldPosition, v) ← keyData mem payloadSize s.1 x
  return (fieldPosition, if v ≠ [] then s.2.emplace x v else s.2)

def extractKeyValuesData (mem : List UInt8) (payloadSize : Nat) (sipExtractKeyValues : List (List UInt8))
    (fieldPosition : FieldPosition) (keyValueMapToFill : KeyValueMap) : Except Interrupted KeyValueMap :=
  (sipExtractKeyValues.foldlM (extractKeyValue mem payloadSize) (fieldPosition, keyValueMapToFill)).map Prod.snd

end Oreka.Sip
