import Oreka.Base.Utils
import Oreka.Serializers.Serializer

/-!
# IP ranges

`inet_pton4` and `IpRanges` of `Utils.cpp`: the entries of a list of addresses and CIDR ranges become
prefixes and the widths of what is behind them, and an address matches where its own prefix is one of
them.
-/

namespace Oreka

open Serializers

/-- `ntohl` on a little-endian host: the bytes the other way round. -/
def ntohl (x : UInt32) : UInt32 :=
  .ofNat (x.toNat % 256 * 16777216 + x.toNat / 256 % 256 * 65536 + x.toNat / 65536 % 256 * 256 +
    x.toNat / 16777216)

/-- The locals of `inet_pton4`: of `tmp`, the bytes before `tp` and the one it points at. -/
structure Pton where
  sawDigit : Bool := false
  octets : Nat := 0
  done : List UInt8 := []
  tp : UInt8 := 0
  deriving DecidableEq, Repr

/-- One character, or 0 is returned. -/
def Pton.read (s : Pton) (ch : UInt8) : Option Pton :=
  if isdigit ch then
    let val := s.tp.toNat * 10 + (ch.toNat - 48)
    if val > 255 then none
    else if s.sawDigit then some { s with tp := .ofNat val }
    else if s.octets + 1 > 4 then none
    else some { s with tp := .ofNat val, octets := s.octets + 1, sawDigit := true }
  else if ch = '.'.toUInt8 ∧ s.sawDigit then
    if s.octets = 4 then none
    else some { s with done := s.done ++ [s.tp], tp := 0, sawDigit := false }
  else none

/-- `inet_pton4`, of a C string. -/
def inetPton4 (src : List UInt8) : Option InAddr :=
  match (UrlSerializer.cString src).foldlM Pton.read {} with
  | none => none
  | some s =>
    if s.octets < 4 then none
    else
      let tmp := s.done ++ [s.tp]
      some ⟨tmp.getD 0 0, tmp.getD 1 0, tmp.getD 2 0, tmp.getD 3 0⟩

/-- What `IpRanges` keeps of its entries. -/
structure IpRangeLists where
  ipRangePrefixes : List UInt32 := []
  ipRangeBitWidths : List UInt32 := []
  deriving DecidableEq, Repr

/-- The address and the prefix length of an entry, as they are told apart by the first slash. -/
def splitCidr (entry : List UInt8) : List UInt8 × Option (List UInt8) :=
  match entry.idxOf? '/'.toUInt8 with
  | some (slashPosition + 1) =>
    (entry.take (slashPosition + 1), some (entry.drop (slashPosition + 2)))
  | _ => (entry, none)

/-- The prefix length: an `int` that is taken for an unsigned one. -/
def cidrPrefixLength (s : List UInt8) : Option UInt32 :=
  match stringToInt s with
  | .ok n => if n.toUInt32 < 1 ∨ n.toUInt32 > 32 then none else some n.toUInt32
  | .error _ => none

namespace IpRangeLists

def push (r : IpRangeLists) (cidrIpAddress : InAddr) (cidrPrefixLength : UInt32) : IpRangeLists :=
  let rangeBitWidth := 32 - cidrPrefixLength
  { ipRangePrefixes := r.ipRangePrefixes ++ [ntohl cidrIpAddress.sAddr >>> rangeBitWidth]
    ipRangeBitWidths := r.ipRangeBitWidths ++ [rangeBitWidth] }

/-- The address of an entry, once its prefix length is known. -/
def addAddress (r : IpRangeLists) (entry address : List UInt8) (length : UInt32) :
    Except Failure IpRangeLists :=
  match inetPton4 address with
  | some cidrIpAddress => .ok (r.push cidrIpAddress length)
  | none => .error (.text (bytes "invalid IP range:" ++ entry))

/-- One entry of `Compute`. -/
def addEntry (r : IpRangeLists) (entry : List UInt8) : Except Failure IpRangeLists :=
  match splitCidr entry with
  | (address, none) => r.addAddress entry address 32
  | (address, some suffix) =>
    match cidrPrefixLength suffix with
    | some length => r.addAddress entry address length
    | none => .error (.text (bytes "IpRanges: invalid CIDR prefix length" ++ entry))

/-- `Compute`. -/
def compute (asciiIpRanges : List (List UInt8)) : Except Failure IpRangeLists :=
  asciiIpRanges.foldlM addEntry {}

/-- `Matches`. -/
def matchesIp (r : IpRangeLists) (ip : InAddr) : Bool :=
  (r.ipRangePrefixes.zip r.ipRangeBitWidths).any fun range => ntohl ip.sAddr >>> range.2 == range.1

end IpRangeLists

/-- The ranges that a configuration holds, as the capture code asks for them. -/
def IpRanges.ofAscii (asciiIpRanges : List (List UInt8)) : Except Failure IpRanges :=
  (IpRangeLists.compute asciiIpRanges).map fun r =>
    { isEmpty := asciiIpRanges.isEmpty, contains := r.matchesIp }

end Oreka
