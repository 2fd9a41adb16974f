import Oreka.Lib.Memory

/-!
# Skinny messages

The structures that Skinny messages are taken for, as the offsets of their members, and the checks that
are made before. An `unsigned int` is that of a little-endian machine. A check is against the end of the
packet, not against the length in the header.
-/

namespace Oreka.Skinny

abbrev SKINNY_MIN_MESSAGE_SIZE : Nat := 12
abbrev SKINNY_HEADER_LENGTH : Nat := 8

abbrev SKINNY_CALLING_PARTY_SIZE : Nat := 24
abbrev SKINNY_CALLED_PARTY_SIZE : Nat := 24
abbrev SKINNY_CALLING_PARTY_NAME_SIZE : Nat := 40
abbrev SKINNY_CALLED_PARTY_NAME_SIZE : Nat := 40
abbrev SKINNY_LINE_DIR_NUMBER_SIZE : Nat := 24
abbrev SKINNY_DISPLAY_NAME_SIZE : Nat := 40

abbrev SKINNY_CALL_TYPE_OUTBOUND : Nat := 2
abbrev SKINNY_CALL_TYPE_FORWARD : Nat := 3

abbrev SKINNY_SOFTKEY_MAX_EVENT : Nat := 18
abbrev SKINNY_SOFTKEY_MIN_EVENT : Nat := 1
abbrev SKINNY_SOFTKEYSET_MAX_EVENT : Nat := 10

/-! `SkinnyMessageEnum` -/

abbrev SkOpenReceiveChannelAck : Nat := 0x0022
abbrev SkStartMediaTransmission : Nat := 0x008A
abbrev SkStopMediaTransmission : Nat := 0x008B
abbrev SkCallInfoMessage : Nat := 0x008F
abbrev SkLineStatMessage : Nat := 0x0092
abbrev SkCloseReceiveChannel : Nat := 0x0106
abbrev SkCcm5CallInfoMessage : Nat := 0x14A
abbrev SkSoftKeyEventMessage : Nat := 0x0026
abbrev SkSoftKeySetDescription : Nat := 0x0110
abbrev SkCallStateMessage : Nat := 0x0111

/-- The `unsigned int` at `p`. -/
def uint (m : Nat → UInt8) (p : Nat) : Nat := LittleEndian.value (Memory.read m p 4)

section
variable (m : Nat → UInt8)

namespace SkinnyHeaderStruct

def len (h : Nat) : Nat := uint m h
def headerVersion (h : Nat) : Nat := uint m (h + 4)
def messageType (h : Nat) : Nat := uint m (h + 8)

end SkinnyHeaderStruct

namespace SkCallInfoStruct

abbrev callingPartyName : Nat := 12
abbrev callingParty : Nat := 52
abbrev calledPartyName : Nat := 76
abbrev calledParty : Nat := 116
abbrev size : Nat := 152

def callType (h : Nat) : Nat := uint m (h + 148)

end SkCallInfoStruct

namespace SkCcm5CallInfoStruct

abbrev parties : Nat := 44
abbrev size : Nat := 44

def callId (h : Nat) : Nat := uint m (h + 16)
def callType (h : Nat) : Nat := uint m (h + 20)

end SkCcm5CallInfoStruct

/-! ## Checks -/

/-- A character is valid between 32 and 122, and from 192 on. -/
def partyChar (c : UInt8) : Bool := ¬ (c < 32 ∨ (c > 122 ∧ c < 192))

/-- `checkPartyString`: valid characters, and a NUL among the first `size`. -/
def checkPartyString (string : Nat) : Nat → Bool
  | 0 => false
  | size + 1 =>
    if m string = 0 then true
    else if partyChar (m string) then checkPartyString (string + 1) size
    else false

/-- A structure of `size` bytes that ends before the packet does, with a port at an offset. -/
def validateMedia (size port sm packetEnd : Nat) : Bool := sm + size ≤ packetEnd && uint m (sm + port) ≤ 65535

def skinnyValidateStartMediaTransmission (smt packetEnd : Nat) : Bool := validateMedia m 28 24 smt packetEnd

def skinnyValidateCcm7_1StartMediaTransmission (smt packetEnd : Nat) : Bool :=
  validateMedia m 44 40 smt packetEnd

def skinnyValidateOpenReceiveChannelAck (orca packetEnd : Nat) : Bool := validateMedia m 28 20 orca packetEnd

def skinnyValidateCcm7_1SkOpenReceiveChannelAckStruct (orca packetEnd : Nat) : Bool :=
  validateMedia m 40 36 orca packetEnd

def skinnyValidateStopMediaTransmission (smt packetEnd : Nat) : Bool := smt + 20 ≤ packetEnd

def skinyValidateCallStateMessage (sci packetEnd : Nat) : Bool := sci + 24 ≤ packetEnd

def skinnyValidateCallInfo (sci packetEnd : Nat) : Bool :=
  sci + SkCallInfoStruct.size ≤ packetEnd && SkCallInfoStruct.callType m sci ≤ SKINNY_CALL_TYPE_FORWARD &&
    checkPartyString m (sci + SkCallInfoStruct.calledParty) SKINNY_CALLED_PARTY_SIZE &&
    checkPartyString m (sci + SkCallInfoStruct.callingParty) SKINNY_CALLING_PARTY_SIZE &&
    checkPartyString m (sci + SkCallInfoStruct.calledPartyName) SKINNY_CALLED_PARTY_NAME_SIZE &&
    checkPartyString m (sci + SkCallInfoStruct.callingPartyName) SKINNY_CALLING_PARTY_NAME_SIZE

/-- `while(*nullChar != '\0')`: the characters before the NUL, which is among the next `size`. -/
def strlen (string : Nat) (size : Nat) : Nat := ((Memory.read m string size).takeWhile (· ≠ 0)).length

/-- `SkinnyValidateCcm5CallInfo`: there are two strings among the parties. -/
def skinnyValidateCcm5CallInfo (sci packetEnd : Nat) : Bool :=
  let parties := sci + SkCcm5CallInfoStruct.parties
  let partiesLen := packetEnd - sci - SkCcm5CallInfoStruct.size
  sci + SkCcm5CallInfoStruct.size ≤ packetEnd &&
    SkCcm5CallInfoStruct.callType m sci ≤ SKINNY_CALL_TYPE_FORWARD && checkPartyString m parties partiesLen &&
    let skip := strlen m parties partiesLen + 1
    checkPartyString m (parties + skip) (partiesLen - skip)

def skinnyValidateLineStat (lineStat packetEnd : Nat) : Bool :=
  lineStat + 80 ≤ packetEnd && checkPartyString m (lineStat + 40) SKINNY_DISPLAY_NAME_SIZE &&
    checkPartyString m (lineStat + 16) SKINNY_LINE_DIR_NUMBER_SIZE

def skinnyValidateSoftKeyEvent (softKeyEvent packetEnd : Nat) : Bool :=
  softKeyEvent + 24 ≤ packetEnd && uint m (softKeyEvent + 12) ≤ SKINNY_SOFTKEY_MAX_EVENT &&
    uint m (softKeyEvent + 12) ≥ SKINNY_SOFTKEY_MIN_EVENT

def skinnyValidateSoftKeySetDescription (softKeySetDescription packetEnd : Nat) : Bool :=
  softKeySetDescription + 24 ≤ packetEnd && uint m (softKeySetDescription + 20) ≤ SKINNY_SOFTKEYSET_MAX_EVENT

end

end Oreka.Skinny
