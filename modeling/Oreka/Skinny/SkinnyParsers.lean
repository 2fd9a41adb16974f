import Mathlib.Logic.Function.Basic
import Oreka.Lib.Memory
import Oreka.Lib.Reading
import Oreka.Sip.HeaderSearch
import Oreka.Skinny.PacketHeaderDefs

/-!
# Party names in Windows 1251

`InitializeWin1251Table` and `ConvertWin1251ToUtf8`, which converts a field of a message in place. An
`unsigned short` is that of a little-endian machine.
-/

namespace Oreka.Skinny

abbrev PARTY_NAME_SIZE : Nat := 40

/-- The UTF-8 code of the first Cyrillic character that has D0. -/
abbrev D0_CYR_UTF_HEX : Nat := 0xD090

/-- The UTF-8 code of the first Cyrillic character that has D1. -/
abbrev D1_CYR_UTF_HEX : Nat := 0xD180

def htons (x : UInt16) : UInt16 := (x <<< 8) ||| (x >>> 8)

/-- The two bytes of an `unsigned short` in memory. -/
def shortBytes (x : UInt16) : List UInt8 := [x.toUInt8, (x >>> 8).toUInt8]

/-- `for (int i=0; i<n; i++) utf[start + i] = htons(code + i)`. -/
def fillTable (start n code : Nat) (utf : Nat → UInt16) : Nat → UInt16 :=
  (List.range n).foldl (fun utf i => Function.update utf (start + i) (htons (UInt16.ofNat (code + i)))) utf

/-- `InitializeWin1251Table`. -/
def initializeWin1251Table (utf : Nat → UInt16) : Nat → UInt16 :=
  let utf := Function.update utf 0 0
  let utf := Function.update utf 192 (UInt16.ofNat D0_CYR_UTF_HEX)
  let utf := fillTable 192 48 D0_CYR_UTF_HEX utf
  let utf := Function.update utf 240 (UInt16.ofNat D1_CYR_UTF_HEX)
  fillTable 240 16 D1_CYR_UTF_HEX utf

/-- What a character becomes. -/
def convertChar (utf : Nat → UInt16) (c : UInt8) : List UInt8 :=
  if c > 191 then shortBytes (utf c.toNat) else [c]

/-- `ConvertWin1251ToUtf8` on the field at `partyName`. The converted text, which is at least as long as
the field, is `tmpPartyName` up to `tmpPos`. -/
def convertWin1251ToUtf8 (utf : Nat → UInt16) (m : Nat → UInt8) (partyName : Nat) : Nat → UInt8 :=
  let tmpPartyName := (Memory.read m partyName PARTY_NAME_SIZE).foldl (fun tmp c => tmp ++ convertChar utf c) []
  let m := Memory.put m partyName (List.replicate PARTY_NAME_SIZE 0)
  Memory.put m partyName (tmpPartyName.take PARTY_NAME_SIZE)

end Oreka.Skinny

/-!
## The Skinny parser

`ScanAllSkinnyMessages`, and `HandleSkinnyMessage` with what it reports to the sessions. The names of a
CallInfo message are converted in the packet, for the log. A CCM5 CallInfo message, or a CallState
message that can be taken for one, is made into a CallInfo structure by copies into its fields. What is
logged is left out.
-/

namespace Oreka.Skinny

structure SkinnyConfig where
  /-- `s_skinnyParsersLog->isInfoEnabled()`. -/
  infoEnabled : Bool := true
  cucm7_1Mode : Bool := false
  skinnyTrackConferencesTransfers : Bool := false

/-- What is written into a field of `size` bytes. -/
structure FieldCopy where
  field : Nat
  size : Nat
  bytes : List UInt8
  deriving DecidableEq, Repr

/-- What is reported, by the address of the message; a CallInfo structure by the copies it was made with. -/
inductive SkinnyReport
  | startMediaTransmission (message : Nat)
  | ccm7_1StartMediaTransmission (message : Nat)
  | stopMediaTransmission (message : Nat)
  | callInfo (message : Nat)
  | callStateMessage (message : Nat)
  | ccm5CallInfo (callId callType : Nat) (copies : List FieldCopy)
  | openReceiveChannelAck (message : Nat)
  | ccm7_1OpenReceiveChannelAck (message : Nat)
  | lineStat (message : Nat)
  | softKeyHold (message : Nat)
  | softKeyResume (message : Nat)
  | softKeyConfPressed
  | softKeySetConfConnected
  | softKeySetTransfConnected (message : Nat)
  deriving DecidableEq, Repr

/-- The packet behind a message, the reports, and what of the packet was read for tokens. -/
structure Handled where
  mem : Nat → UInt8
  reports : List SkinnyReport := []
  tokens : List Span := []

/-! ## The parties of a CCM5 CallInfo message -/

/-- A token, and what is read for it: the character behind it is looked at before the limit is. -/
def grabParty (m : Nat → UInt8) (start limit : Nat) : List UInt8 × Span :=
  let out := Sip.ParsingUtils.grabTokenAcceptSpace m start limit
  (out, ⟨start, start + out.length + 1⟩)

structure Parties where
  callingParty : List UInt8 := []
  calledParty : List UInt8 := []
  callingPartyName : List UInt8 := []
  calledPartyName : List UInt8 := []
  deriving DecidableEq, Repr

/-- `switch(tokenNr)`. -/
def Parties.take (cfg : SkinnyConfig) (callType headerVersion : Nat) (ps : Parties) (tokenNr : Nat)
    (party : List UInt8) : Parties :=
  match tokenNr with
  | 1 => { ps with callingParty := party }
  | 2 => { ps with calledParty := party }
  | 3 => if cfg.cucm7_1Mode = true then { ps with calledParty := party } else ps
  | 5 =>
    if cfg.cucm7_1Mode = false ∧ party.length > 0 ∧ callType = SKINNY_CALL_TYPE_OUTBOUND then
      { ps with callingParty := party }
    else ps
  | 9 => if headerVersion = 0 then { ps with callingPartyName := party } else ps
  | 10 =>
    if headerVersion = 0 then { ps with calledPartyName := party } else { ps with callingPartyName := party }
  | 11 => if headerVersion ≠ 0 then { ps with calledPartyName := party } else ps
  | 12 =>
    if headerVersion ≠ 0 ∧ party.length > ps.calledPartyName.length then { ps with calledPartyName := party }
    else ps
  | _ => ps

/-- `while(tokenNr < 12 && partiesPtr < parties+partiesLen)`, for as many more tokens as `rounds`. -/
def grabParties (cfg : SkinnyConfig) (m : Nat → UInt8) (callType headerVersion packetEnd : Nat) :
    Nat → Nat → Parties → List Span → Parties × List Span
  | 0, _, ps, tokens => (ps, tokens)
  | rounds + 1, partiesPtr, ps, tokens =>
    if partiesPtr < packetEnd then
      let (party, token) := grabParty m partiesPtr packetEnd
      grabParties cfg m callType headerVersion packetEnd rounds (partiesPtr + (party.length + 1))
        (ps.take cfg callType headerVersion (12 - rounds) party) (tokens ++ [token])
    else (ps, tokens)

/-- `strcpy`. -/
def strcpy (field size : Nat) (s : List UInt8) : FieldCopy := ⟨field, size, s ++ [0]⟩

/-- `strncpy` of as many bytes as the field has, or an empty string. -/
def copyName (field size : Nat) (s : List UInt8) : FieldCopy :=
  if s.length > 0 then ⟨field, size, s.take size ++ List.replicate (size - s.length) 0⟩
  else ⟨field, size, [0]⟩

/-- The CallInfo structure that is emulated. -/
def Parties.copies (ps : Parties) : List FieldCopy :=
  [strcpy SkCallInfoStruct.calledParty SKINNY_CALLED_PARTY_SIZE ps.calledParty,
    strcpy SkCallInfoStruct.callingParty SKINNY_CALLING_PARTY_SIZE ps.callingParty,
    copyName SkCallInfoStruct.calledPartyName SKINNY_CALLED_PARTY_NAME_SIZE ps.calledPartyName,
    copyName SkCallInfoStruct.callingPartyName SKINNY_CALLING_PARTY_NAME_SIZE ps.callingPartyName]

/-- `case SkCcm5CallInfoMessage`. -/
def handleCcm5CallInfo (cfg : SkinnyConfig) (m : Nat → UInt8) (h packetEnd : Nat) : Handled :=
  if skinnyValidateCcm5CallInfo m h packetEnd then
    let callType := SkCcm5CallInfoStruct.callType m h
    let (ps, tokens) := grabParties cfg m callType (SkinnyHeaderStruct.headerVersion m h) packetEnd 12
      (h + SkCcm5CallInfoStruct.parties) {} []
    { mem := m, tokens, reports := [.ccm5CallInfo (SkCcm5CallInfoStruct.callId m h) callType ps.copies] }
  else { mem := m }

/-! ## Messages -/

/-- The table of the program. -/
def utf : Nat → UInt16 := initializeWin1251Table fun _ => 0

/-- `case SkCallInfoMessage`: the names are converted where they are logged. -/
def handleCallInfo (cfg : SkinnyConfig) (m : Nat → UInt8) (h packetEnd : Nat) : Handled :=
  if skinnyValidateCallInfo m h packetEnd then
    let m :=
      if cfg.infoEnabled then
        let m := convertWin1251ToUtf8 utf m (h + SkCallInfoStruct.callingPartyName)
        convertWin1251ToUtf8 utf m (h + SkCallInfoStruct.calledPartyName)
      else m
    { mem := m, reports := [.callInfo h] }
  else { mem := m }

/-- `case SkSoftKeyEventMessage`: hold, resume and conference. -/
def softKeyReports (cfg : SkinnyConfig) (softKeyEvent h : Nat) : List SkinnyReport :=
  match softKeyEvent with
  | 3 => [.softKeyHold h]
  | 10 => [.softKeyResume h]
  | 13 => if cfg.skinnyTrackConferencesTransfers then [.softKeyConfPressed] else []
  | _ => []

/-- `case SkSoftKeySetDescription`: transfer and conference. -/
def softKeySetReports (cfg : SkinnyConfig) (softKeySetDescription h : Nat) : List SkinnyReport :=
  match softKeySetDescription with
  | 5 => [.softKeySetTransfConnected h]
  | 7 => if cfg.skinnyTrackConferencesTransfers then [.softKeySetConfConnected] else []
  | _ => []

/-- `HandleSkinnyMessage`. -/
def handleSkinnyMessage (cfg : SkinnyConfig) (m : Nat → UInt8) (h packetEnd : Nat) : Handled :=
  let type := SkinnyHeaderStruct.messageType m h
  if type = SkStartMediaTransmission then
    if skinnyValidateStartMediaTransmission m h packetEnd then
      { mem := m, reports := [.startMediaTransmission h] }
    else if skinnyValidateCcm7_1StartMediaTransmission m h packetEnd then
      { mem := m, reports := [.ccm7_1StartMediaTransmission h] }
    else { mem := m }
  else if type = SkStopMediaTransmission ∨ type = SkCloseReceiveChannel then
    if skinnyValidateStopMediaTransmission h packetEnd then { mem := m, reports := [.stopMediaTransmission h] }
    else { mem := m }
  else if type = SkCallInfoMessage then handleCallInfo cfg m h packetEnd
  else if type = SkCallStateMessage then
    let reports := if skinyValidateCallStateMessage h packetEnd then [.callStateMessage h] else []
    -- no break: the next case follows
    let ccm5 := handleCcm5CallInfo cfg m h packetEnd
    { ccm5 with reports := reports ++ ccm5.reports }
  else if type = SkCcm5CallInfoMessage then handleCcm5CallInfo cfg m h packetEnd
  else if type = SkOpenReceiveChannelAck then
    if skinnyValidateOpenReceiveChannelAck m h packetEnd then
      { mem := m, reports := [.openReceiveChannelAck h] }
    else if skinnyValidateCcm7_1SkOpenReceiveChannelAckStruct m h packetEnd then
      { mem := m, reports := [.ccm7_1OpenReceiveChannelAck h] }
    else { mem := m }
  else if type = SkLineStatMessage then
    if skinnyValidateLineStat m h packetEnd then { mem := m, reports := [.lineStat h] } else { mem := m }
  else if type = SkSoftKeyEventMessage then
    if skinnyValidateSoftKeyEvent m h packetEnd then
      { mem := m, reports := softKeyReports cfg (uint m (h + 12)) h }
    else { mem := m }
  else if type = SkSoftKeySetDescription then
    if skinnyValidateSoftKeySetDescription m h packetEnd then
      { mem := m, reports := softKeySetReports cfg (uint m (h + 20)) h }
    else { mem := m }
  else { mem := m }

/-! ## The scan -/

/-- The packet, the headers that were read, and the messages that were handled. -/
structure Scan where
  mem : Nat → UInt8
  headers : List Nat := []
  handled : List Nat := []

/-- `skinnyHeader->len > 1 && skinnyHeader->len < 2048 && …`. -/
def acceptedHeader (m : Nat → UInt8) (h : Nat) : Bool :=
  SkinnyHeaderStruct.len m h > 1 && SkinnyHeaderStruct.len m h < 2048 &&
    SkinnyHeaderStruct.messageType m h ≤ 0x200

/-- The loop of `ScanAllSkinnyMessages`; nothing if it still goes on after so many rounds. -/
def scanLoop (cfg : SkinnyConfig) (startTcpPayload ipPacketEnd : Nat) : Nat → Scan → Nat → Option Scan
  | 0, _, _ => none
  | rounds + 1, s, skinnyHeader =>
    if ipPacketEnd > skinnyHeader ∧ skinnyHeader ≥ startTcpPayload ∧
        ipPacketEnd - skinnyHeader > SKINNY_MIN_MESSAGE_SIZE then
      let s := { s with headers := s.headers ++ [skinnyHeader] }
      if acceptedHeader s.mem skinnyHeader then
        let s := { s with
          mem := (handleSkinnyMessage cfg s.mem skinnyHeader ipPacketEnd).mem
          handled := s.handled ++ [skinnyHeader] }
        scanLoop cfg startTcpPayload ipPacketEnd rounds s
          (skinnyHeader + SKINNY_HEADER_LENGTH + SkinnyHeaderStruct.len s.mem skinnyHeader)
      else some s
    else some s

/-- `ScanAllSkinnyMessages`, for as many rounds as the payload has bytes, and one. -/
def scanAllSkinnyMessages (cfg : SkinnyConfig) (m : Nat → UInt8) (startTcpPayload ipPacketEnd : Nat) :
    Option Scan :=
  scanLoop cfg startTcpPayload ipPacketEnd (ipPacketEnd - startTcpPayload + 1) { mem := m } startTcpPayload

end Oreka.Skinny
