import Mathlib.Algebra.Ring.Int.Defs
import Mathlib.Algebra.Ring.Nat
import Mathlib.Data.List.Infix

/-!
# Addresses, texts, identifiers and events

What the capture plugins use of `orkbasecxx`: IPv4 addresses and their dotted form (`inet_ntopV4`),
the text helpers of `Utils.cpp` and `MemUtils.cpp`, the counter that tracking ids are drawn from
(`AlphaCounter`), and the capture events of `AudioCapture.h`. A `time_t` is an `Int`, and so is an
`OrkTimeValue`, in microseconds.
-/

namespace Oreka

/-- A `struct in_addr`: the four bytes of the address, in network order. -/
structure InAddr where
  b0 : UInt8 := 0
  b1 : UInt8 := 0
  b2 : UInt8 := 0
  b3 : UInt8 := 0
  deriving DecidableEq, Repr

/-- `inet_ntopV4`. -/
def inetNtop (a : InAddr) : String :=
  toString a.b0 ++ "." ++ toString a.b1 ++ "." ++ toString a.b2 ++ "." ++ toString a.b3

/-- `s_addr` on a little-endian host, where the first byte is the lowest. -/
def InAddr.sAddr (a : InAddr) : UInt32 :=
  a.b0.toUInt32 ||| (a.b1.toUInt32 <<< 8) ||| (a.b2.toUInt32 <<< 16) ||| (a.b3.toUInt32 <<< 24)

/-- `IpRanges`: whether any range is configured, and whether an address is in one of them. -/
structure IpRanges where
  isEmpty : Bool := true
  contains : InAddr → Bool := fun _ => false

/-- `OrkTimeValue::sec`. -/
def sec (t : Int) : Int := t.tdiv 1000000

/-- `IntToString` of an unsigned value. -/
def intToString (n : Nat) : String := toString n

/-- Whether `CompareNoCase` is 0. -/
def compareNoCase (s t : String) : Bool := s.toLower == t.toLower

/-- `MatchesStringList`. -/
def matchesStringList (s : String) (l : List String) : Bool :=
  if s = "" then false else l.any fun e => compareNoCase e s

/-- Whether `find` finds `t` in `s`. -/
def hasSubstring (s t : String) : Bool := decide (t.toList <:+: s.toList)

def hexDigit (n : Nat) : Char := Char.ofNat (if n < 10 then n + 48 else n + 87)

/-- `MemMacToHumanReadable`: the address is appended to what the text holds already. -/
def memMacToHumanReadable (mac : List UInt8) (output : String) : String :=
  mac.foldl (fun out b =>
    (if out = "" then out else out ++ ":") ++
      String.ofList [hexDigit (b.toNat / 16), hexDigit (b.toNat % 16)]) output

/-- `strtol` to the base 10 into an `int`, and whether it stops at the end of the text. -/
def strtol (s : String) : Int × Bool :=
  let cs := s.toList.dropWhile (·.isWhitespace)
  let signed := match cs with
    | '-' :: cs => (true, cs)
    | '+' :: cs => (false, cs)
    | cs => (false, cs)
  let digits : List Char := signed.2.takeWhile (·.isDigit)
  let n : Int := digits.foldl (fun n c => 10 * n + (c.toNat - 48)) 0
  let n := max (-2 ^ 63) (min (2 ^ 63 - 1) (if signed.1 then -n else n))
  -- without digits nothing is consumed, not even the blanks
  (n.bmod (2 ^ 32), if digits.isEmpty then s.isEmpty else (signed.2.drop digits.length).isEmpty)

/-- `atoi`. -/
def atoi (s : String) : Int := (strtol s).1

/-- `AlphaCounter`: counts below 26^4. -/
structure AlphaCounter where
  counter : Nat
  deriving DecidableEq, Repr

namespace AlphaCounter

/-- The letters of a counter value. -/
def letters (n : Nat) : String :=
  String.ofList ([n / 17576, n % 17576 / 676, n % 17576 % 676 / 26, n % 17576 % 676 % 26].map
    fun d => Char.ofNat (d + 65))

/-- `GetNext`. -/
def getNext (c : AlphaCounter) : AlphaCounter × String :=
  let n := if c.counter + 1 ≥ 456976 then 0 else c.counter + 1
  (⟨n⟩, letters n)

end AlphaCounter

/-- `CaptureEvent::DirectionEnum`. -/
inductive Direction
  | dirIn | dirOut | dirUnkn
  deriving DecidableEq, Repr

/-- `DirectionToString`. -/
def Direction.toText : Direction → String
  | .dirIn => "in"
  | .dirOut => "out"
  | .dirUnkn => "unkn"

/-- `CaptureEvent::EventTypeEnum`, of which only what the plugins send. -/
inductive EventType
  | start | stop | direction | remoteParty | localParty | localEntryPoint | keyValue | localIp
  | remoteIp | localMac | remoteMac | orkUid | endMetadata | update | callId | localSide
  | audioKeepDirection | hold | resume
  deriving DecidableEq, Repr

structure CaptureEvent where
  type : EventType
  timestamp : Int := 0
  key : String := ""
  value : String := ""
  deriving DecidableEq, Repr

end Oreka
