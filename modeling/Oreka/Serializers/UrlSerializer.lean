import Oreka.Serializers.KeyValueText

/-!
# URL serialisation

`serializers/UrlSerializer.cpp`.
-/

namespace Oreka.Serializers.UrlSerializer

/-- `url_ok_chars`. -/
def url_ok_chars : List UInt8 :=
  "-.0123456789@ABCDEFGHIJKLMNOPQRSTUVWXYZ_abcdefghijklmnopqrstuvwxyz".toList.map Char.toUInt8

/-- `hex_digits`. -/
def hex_digits (i : UInt8) : UInt8 := if i < 10 then 48 + i else 55 + i

/-- `strchr(s, c)`: the terminator is a character of a C string. -/
def strchr (s : List UInt8) (c : UInt8) : Bool := c ∈ s ++ [0]

def escapeUrl (s : List UInt8) : List UInt8 :=
  s.flatMap fun c =>
    if c = ' '.toUInt8 then ['+'.toUInt8]
    else if strchr url_ok_chars c then [c]
    else ['%'.toUInt8, hex_digits (c >>> 4), hex_digits (c &&& 0x0F)]

/-- `(PCSTR)s`: a C string ends at its first NUL. -/
def cString (s : List UInt8) : List UInt8 := s.takeWhile (· ≠ 0)

def addString (key value : List UInt8) : List UInt8 :=
  Serializers.addString '&'.toUInt8 (fun v => cString (escapeUrl v)) key value

def serialize (pairs : List (List UInt8 × List UInt8)) : List UInt8 :=
  pairs.flatMap fun p => addString p.1 p.2

def isxdigit (c : UInt8) : Bool :=
  (48 ≤ c && c ≤ 57) || (65 ≤ c && c ≤ 70) || (97 ≤ c && c ≤ 102)

def hexValue (c : UInt8) : UInt8 :=
  if c ≤ 57 then c - 48 else if c ≤ 70 then c - 55 else c - 87

/-- The digits of `strtol`: the number, as far as a `char` shows it. -/
def hexNumber (s : List UInt8) : UInt8 :=
  (s.takeWhile isxdigit).foldl (fun n c => n * 16 + hexValue c) 0

/-- `(char)strtol(s, NULL, 16)`: white space, a sign and `0x` may stand before the digits. -/
def strtol (s : List UInt8) : UInt8 :=
  let unsigned (s : List UInt8) : UInt8 :=
    match s with
    | 48 :: x :: d :: rest =>
      if (x = 'x'.toUInt8 ∨ x = 'X'.toUInt8) ∧ isxdigit d then hexNumber (d :: rest) else hexNumber s
    | s => hexNumber s
  match s.dropWhile isspace with
  | 43 :: rest => unsigned rest
  | 45 :: rest => - unsigned rest
  | s => unsigned s

/-- `UnEscapeUrl`; nothing where `GetAt` is behind the end, which throws. -/
def unEscapeUrl : List UInt8 → Option (List UInt8)
  | [] => some []
  | c :: rest =>
    if c = '+'.toUInt8 then (unEscapeUrl rest).map (' '.toUInt8 :: ·)
    else if c = '%'.toUInt8 then
      match rest with
      | [] => none
      | h :: rest =>
        if h = '%'.toUInt8 then (unEscapeUrl rest).map ('%'.toUInt8 :: ·)
        else
          match rest with
          | [] => none
          | l :: rest => (unEscapeUrl rest).map (strtol [h, l] :: ·)
    else (unEscapeUrl rest).map (c :: ·)

def deSerialize (input : List UInt8) : Option PairMap :=
  Serializers.deSerialize '&'.toUInt8 unEscapeUrl input

end Oreka.Serializers.UrlSerializer
