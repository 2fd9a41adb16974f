import Mathlib.Logic.Function.Basic
import Oreka.Lib.Memory
import Oreka.Lib.Reading

/-!
# Information elements

`parse_iax2_ies`, which walks over the elements of a full frame in a buffer of its callers' and ends
every string in place, by a NUL over the type of the element behind it. Pointers are offsets of the
buffer; what is behind it is memory too.
-/

namespace Oreka.Iax2

abbrev MAX_IES_LENGTH : Nat := 1024

abbrev IAX2_IE_CALLED_NUMBER : UInt8 := 1
abbrev IAX2_IE_CALLING_NUMBER : UInt8 := 2
abbrev IAX2_IE_CALLING_NAME : UInt8 := 4
abbrev IAX2_IE_USERNAME : UInt8 := 6
abbrev IAX2_IE_FORMAT : UInt8 := 9
abbrev IAX2_IE_AUTHMETHODS : UInt8 := 14
abbrev IAX2_IE_CHALLENGE : UInt8 := 15

/-- `struct iax2_ies`. -/
structure Iax2Ies where
  caller : Option Nat := none
  callee : Option Nat := none
  format : UInt32 := 0
  username : Option Nat := none
  authmethods : UInt32 := 0
  challenge : Option Nat := none
  callingName : Option Nat := none
  deriving DecidableEq, Repr

/-- The elements reported, the memory, and what of it was read or written. -/
structure IesWalk where
  ies : Iax2Ies := {}
  mem : Nat → UInt8
  touched : List Span := []

namespace IesWalk

/-- `ntohl(get_unaligned_uint32(p))`. -/
def ntohl (m : Nat → UInt8) (p : Nat) : UInt32 :=
  ((m p).toUInt32 <<< 24) ||| ((m (p + 1)).toUInt32 <<< 16) |||
    ((m (p + 2)).toUInt32 <<< 8) ||| (m (p + 3)).toUInt32

/-- A number of four bytes; an element of another length is invalid. -/
def readNumber (w : IesWalk) (len p : Nat) : UInt32 × List Span :=
  if len = 4 then (ntohl w.mem p, [⟨p, p + 4⟩]) else (0, [])

/-- `switch(ie)`. -/
def store (w : IesWalk) (ie : UInt8) (len data : Nat) : IesWalk :=
  let (number, read) := w.readNumber len (data + 2)
  if ie = IAX2_IE_CALLING_NAME then { w with ies := { w.ies with callingName := some (data + 2) } }
  else if ie = IAX2_IE_CALLED_NUMBER then { w with ies := { w.ies with callee := some (data + 2) } }
  else if ie = IAX2_IE_CALLING_NUMBER then { w with ies := { w.ies with caller := some (data + 2) } }
  else if ie = IAX2_IE_FORMAT then
    { w with ies := { w.ies with format := number }, touched := w.touched ++ read }
  else if ie = IAX2_IE_USERNAME then { w with ies := { w.ies with username := some (data + 2) } }
  else if ie = IAX2_IE_AUTHMETHODS then
    { w with ies := { w.ies with authmethods := number }, touched := w.touched ++ read }
  else if ie = IAX2_IE_CHALLENGE then { w with ies := { w.ies with challenge := some (data + 2) } }
  else w

/-- `*data = 0`. -/
def clear (w : IesWalk) (data : Nat) : IesWalk :=
  { w with mem := Function.update w.mem data 0, touched := w.touched ++ [⟨data, data + 1⟩] }

/-- One round of the loop, for an element that is there as a whole. -/
def round (w : IesWalk) (data : Nat) : IesWalk :=
  (w.store (w.mem data) (w.mem (data + 1)).toNat data).clear data

/-- The loop: where it stands in the end, and how much is left; nothing for an element that is longer
than what is left. Every round takes two bytes at least, so as many rounds as bytes are enough. -/
def loop : Nat → IesWalk → Nat → Nat → IesWalk × Option (Nat × Nat)
  | 0, w, data, datalen => (w, some (data, datalen))
  | rounds + 1, w, data, datalen =>
    if datalen ≥ 2 then
      let len := (w.mem (data + 1)).toNat
      let w := { w with touched := w.touched ++ [⟨data, data + 2⟩] }
      if len > datalen - 2 then (w, none)
      else loop rounds (w.round data) (data + (len + 2)) (datalen - (len + 2))
    else (w, some (data, datalen))

end IesWalk

/-- `parse_iax2_ies` on the first `datalen` bytes of a buffer; whether it returns 0. -/
def parseIax2Ies (mem : Nat → UInt8) (datalen : Nat) : IesWalk × Bool :=
  match IesWalk.loop datalen { mem } 0 datalen with
  | (w, none) => (w, false)
  | (w, some (data, left)) => (w.clear data, left = 0)

end Oreka.Iax2
