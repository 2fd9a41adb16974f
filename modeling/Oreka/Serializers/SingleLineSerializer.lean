import Oreka.Serializers.KeyValueText

/-!
# Single-line serialisation

`serializers/SingleLineSerializer.cpp`.
-/

namespace Oreka.Serializers.SingleLineSerializer

def escapeSingleLine (s : List UInt8) : List UInt8 :=
  s.flatMap fun c =>
    if c = ' '.toUInt8 then ['%'.toUInt8, 's'.toUInt8]
    else if c = '%'.toUInt8 then ['%'.toUInt8, 'p'.toUInt8]
    else if c = '='.toUInt8 then ['%'.toUInt8, 'e'.toUInt8]
    else [c]

def addString (key value : List UInt8) : List UInt8 :=
  Serializers.addString ' '.toUInt8 escapeSingleLine key value

def serialize (pairs : List (List UInt8 × List UInt8)) : List UInt8 :=
  pairs.flatMap fun p => addString p.1 p.2

/-- What stands for the character behind a percent sign; others stand for nothing. -/
def unEscapeChar (c : UInt8) : List UInt8 :=
  if c = 's'.toUInt8 then [' '.toUInt8]
  else if c = 'p'.toUInt8 then ['%'.toUInt8]
  else if c = 'e'.toUInt8 then ['='.toUInt8]
  else []

def unEscapeSingleLine : List UInt8 → List UInt8
  | [] => []
  | [37] => []
  | 37 :: c :: rest => unEscapeChar c ++ unEscapeSingleLine rest
  | c :: rest => c :: unEscapeSingleLine rest

def deSerialize (input : List UInt8) : Option PairMap :=
  Serializers.deSerialize ' '.toUInt8 (fun s => some (unEscapeSingleLine s)) input

end Oreka.Serializers.SingleLineSerializer
