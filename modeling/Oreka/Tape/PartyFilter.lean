import Mathlib.Data.Int.Basic
import Oreka.Serializers.Serializer

/-!
# Parties

What a tape does with the text of a party: `PartyFilterMatches` of `PartyFilter.cpp`, and the loops of
`AddCaptureEvent` in `AudioTape.cpp` that replace its characters.
-/

namespace Oreka

open Serializers

/-! ## The filter -/

/-- `partyVal`: 0 where the party is no integer. -/
def partyVal (party : List UInt8) : Int :=
  match stringToInt party with
  | .ok n => n.toInt
  | .error _ => 0

/-- One pattern of `PartyFilterMatches`, in a buffer of 1024 bytes that is cut at the first hyphen. -/
def patternMatches (party pattern : List UInt8) : Bool :=
  let buf := (UrlSerializer.cString pattern).take 1023
  let lval := buf.takeWhile (· ≠ '-'.toUInt8)
  let rval := buf.drop (lval.length + 1)
  if lval = [] then false
  else if rval ≠ [] then
    decide ((strtolBase10 lval).1 ≤ partyVal party ∧ partyVal party ≤ (strtolBase10 rval).1)
  else lval == UrlSerializer.cString party

/-- `PartyFilterMatches`. -/
def partyFilterMatches (partyFilter : List (List UInt8)) (party : List UInt8) : Bool :=
  partyFilter.any (patternMatches party)

/-! ## The map -/

/-- The order of a `char`. -/
def charLt (c d : UInt8) : Prop := c.toInt8 < d.toInt8

/-- `m_partyFilterMap`: the entries of a `std::map<char, char>`, as it is iterated over. -/
structure PartyFilterMap where
  entries : List (UInt8 × UInt8)
  ordered : entries.Pairwise fun e e' => charLt e.1 e'.1

/-- One round of the loop for an entry: the first such character is replaced, or removed. -/
def replaceFirst (entry : UInt8 × UInt8) (party : List UInt8) : Option (List UInt8) :=
  (party.idxOf? entry.1).map fun pos =>
    if entry.2 ≠ '?'.toUInt8 then party.set pos entry.2 else party.eraseIdx pos

/-- The loop for an entry, within some rounds. -/
def replaceAll (entry : UInt8 × UInt8) : Nat → List UInt8 → Option (List UInt8)
  | 0, _ => none
  | rounds + 1, party =>
    match replaceFirst entry party with
    | none => some party
    | some party => replaceAll entry rounds party

/-- What `AddCaptureEvent` does with the text of a party, remote or local, within some rounds for each
entry. -/
def filterParty (map : PartyFilterMap) (rounds : Nat) (party : List UInt8) : Option (List UInt8) :=
  map.entries.foldlM (fun party entry => replaceAll entry rounds party) party

end Oreka
