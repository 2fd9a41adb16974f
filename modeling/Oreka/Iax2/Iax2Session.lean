import Oreka.Audio.AudioChunk
import Oreka.Base.Utils
import Oreka.Lib.KeyedMap
import Mathlib.Logic.Function.Basic

/-!
# IAX2 sessions

`voip/Iax2Session.cpp`. A session is created by a NEW, gets its peer's call number from an AUTHREQ or
an ACCEPT, and is found through two maps: by the address and call number of the side that sent the
NEW, and by those of the side it was sent to. Session and packet objects are shared by reference in
the source; here a reference is a number, and `Iax2Sessions` holds the objects.

Call numbers reach the sessions as decimal strings of 15-bit values; they are `UInt16` here. The
log messages are left out, and so is the list of NEWs (`m_news`), which nothing reads.
-/

open Std

namespace Oreka.Iax2

/-- A reference to a session or a packet. -/
abbrev Ref := Nat

/-- What the sessions read of the configuration, and of the local time zone. -/
structure Config where
  rtpSessionWithSignallingTimeoutSec : Int := 10
  iax2TreatCallerIdNameAsXUniqueId : Bool := true
  iax2RewriteTimestamps : Bool := false
  isMediaGateway : InAddr → Bool := fun _ => false
  isPartOfLan : InAddr → Bool := fun _ => false
  /-- A time as `GenerateOrkUid` prints it. -/
  formatTime : Int → String := fun _ => ""

structure Iax2NewInfo where
  senderIp : InAddr
  receiverIp : InAddr
  caller : String := "HIDDEN"
  callee : String := ""
  callNo : UInt16
  callingName : String := ""
  localExtension : String := ""

/-- `Iax2AuthreqInfo`, `Iax2AcceptInfo` and `Iax2HangupInfo`: they have the same fields. -/
structure Iax2PeerInfo where
  senderIp : InAddr
  receiverIp : InAddr
  senderCallno : UInt16
  receiverCallno : UInt16

inductive FrameType
  | full | mini | trunk
  deriving DecidableEq, Repr

structure Iax2PacketInfo where
  sourceIp : InAddr := {}
  destIp : InAddr := {}
  sourcecallno : UInt16 := 0
  destcallno : UInt16 := 0
  frameType : FrameType := .mini
  payloadSize : UInt32 := 0
  payloadType : UInt16 := 0
  payload : List UInt8 := []
  timestamp : UInt32 := 0
  arrivalTimestamp : Int := 0
  deriving DecidableEq

inductive Iax2State
  | waiting | linked | up
  deriving DecidableEq, Repr

structure Iax2Session where
  trackingId : String := ""
  srcIpAndCallNo : String := ""
  destIpAndCallNo : String := ""
  newInfo : Option Iax2NewInfo := none
  lastUpdated : Int := 0
  localParty : String := ""
  remoteParty : String := ""
  localEntryPoint : String := ""
  direction : Direction := .dirUnkn
  numIax2Packets : Nat := 0
  codec : Int := 0
  state : Iax2State := .waiting
  lastIax2Packet : Option Ref := none
  lastIax2PacketSide1 : Option Ref := none
  lastIax2PacketSide2 : Option Ref := none
  invitorIp : InAddr := {}
  inviteeIp : InAddr := {}
  localIp : InAddr := {}
  remoteIp : InAddr := {}
  invitorScallno : UInt16 := 0
  inviteeScallno : UInt16 := 0
  capturePort : String := ""
  started : Bool := false
  stopped : Bool := false
  beginDate : Int := 0
  orkUid : String := ""
  hasDuplicateIax2 : Bool := false
  tags : TreeMap String String := ∅
  channel1SeqNo : UInt16 := 1
  channel2SeqNo : UInt16 := 1

/-- What is handed to the recorder. -/
inductive Output
  | event (e : CaptureEvent) (capturePort : String)
  | chunk (details : AudioChunkDetails) (buffer : List UInt8) (capturePort : String)

/-- The key of a peer: its address and its call number. -/
def ipAndCallNo (ip : InAddr) (callNo : UInt16) : String :=
  inetNtop ip ++ "," ++ intToString callNo.toNat

theorem ipAndCallNo_ne_empty (ip : InAddr) (callNo : UInt16) : ipAndCallNo ip callNo ≠ "" := by
  intro h
  have hl := congrArg String.length h
  simp [ipAndCallNo] at hl

namespace Iax2Session

/-- The constructor. -/
def new (trackingId : String) (now : Int) : Iax2Session := { trackingId, lastUpdated := now }

def stop (s : Iax2Session) : Iax2Session × List Output :=
  if s.started ∧ ¬ s.stopped then
    ({ s with stopped := true },
      [.event { type := .stop, timestamp := s.lastUpdated } s.capturePort])
  else (s, [])

def start (s : Iax2Session) (cfg : Config) (now : Int) : Iax2Session × List Output :=
  ({ s with
      started := true, beginDate := now, orkUid := cfg.formatTime now ++ "_" ++ s.trackingId },
    [.event { type := .start, timestamp := now, value := s.trackingId } s.capturePort])

/-! ## Metadata -/

def processMetadataIax2Incoming (s : Iax2Session) (n : Iax2NewInfo) : Iax2Session :=
  { s with
    remoteParty := n.caller
    localParty := if n.localExtension ≠ "" then n.localExtension else n.callee
    localEntryPoint := if n.localExtension ≠ "" then n.callee else ""
    direction := .dirIn
    localIp := s.inviteeIp
    remoteIp := s.invitorIp
    capturePort := ipAndCallNo s.invitorIp s.invitorScallno }

def processMetadataIax2Outgoing (s : Iax2Session) (n : Iax2NewInfo) : Iax2Session :=
  { s with
    remoteParty := n.callee
    localParty := if n.localExtension ≠ "" then n.localExtension else n.caller
    localEntryPoint := if n.localExtension ≠ "" then n.caller else ""
    direction := .dirOut
    capturePort := ipAndCallNo s.invitorIp s.invitorScallno
    localIp := s.invitorIp
    remoteIp := s.inviteeIp }

/-- `ProcessMetadataIax2`: the codec, the capture port and the direction, from the first full voice
frame. A session in a map always has its NEW (`m_new`). -/
def processMetadataIax2 (s : Iax2Session) (cfg : Config) (iax2Packet : Iax2PacketInfo) :
    Iax2Session :=
  let s := { s with codec := iax2Packet.payloadType.toNat }
  match s.newInfo with
  | none => s
  | some n =>
    if cfg.isMediaGateway s.invitorIp then s.processMetadataIax2Incoming n
    else if cfg.isPartOfLan s.invitorIp then s.processMetadataIax2Outgoing n
    else if cfg.isMediaGateway s.inviteeIp then s.processMetadataIax2Incoming n
    else if cfg.isPartOfLan s.inviteeIp then s.processMetadataIax2Incoming n
    else s.processMetadataIax2Outgoing n

/-- The local party that `ReportMetadata` makes sure of. -/
def ensureLocalParty (s : Iax2Session) : Iax2Session :=
  if s.localParty = "" then { s with localParty := inetNtop s.localIp } else s

def reportMetadata (s : Iax2Session) : Iax2Session × List Output :=
  let s := s.ensureLocalParty
  let events : List CaptureEvent :=
    [{ type := .localParty, value := s.localParty }, { type := .remoteParty, value := s.remoteParty }]
    ++ (if s.localEntryPoint ≠ "" then [{ type := .localEntryPoint, value := s.localEntryPoint }]
        else [])
    ++ [{ type := .direction, value := s.direction.toText },
        { type := .localIp, value := inetNtop s.localIp },
        { type := .remoteIp, value := inetNtop s.remoteIp },
        { type := .orkUid, value := s.orkUid },
        { type := .callId, value := s.srcIpAndCallNo }]
    ++ s.tags.toList.map (fun t => { type := .keyValue, key := t.1, value := t.2 })
    ++ [{ type := .endMetadata }]
  (s, events.map fun e => .event e s.capturePort)

/-! ## Voice frames -/

/-- The cases of `RtpTimestamp` with what each assigns. None of them ends with a `break`. -/
def rtpTimestampCases : List (List Int × UInt32) := [([0, 8], 160), ([18], 20), ([4], 24)]

/-- `RtpTimestamp`: from the codec's case on, every assignment is made, the default one last. -/
def rtpTimestamp (s : Iax2Session) : UInt32 :=
  let assigned := (rtpTimestampCases.dropWhile fun c => s.codec ∉ c.1).map (·.2)
  (assigned ++ [160]).getLast (by simp)

/-- The next 16-bit sequence number of a channel. -/
def nextSeqNo (seq : UInt16) : UInt16 := if seq + 1 ≥ 65535 then 1 else seq + 1

/-- The side of the call that a voice frame belongs to, as `AddIax2Packet` works it out after the
packet has become the last one: none for a duplicate, which is dismissed, otherwise the session, the
packet objects (a timestamp may have been rewritten) and the channel. -/
def side (s : Iax2Session) (cfg : Config) (packets : Ref → Iax2PacketInfo) (p : Ref) :
    Option (Iax2Session × (Ref → Iax2PacketInfo) × UInt8) :=
  let pkt := packets p
  match s.lastIax2PacketSide1 with
  | none => some ({ s with lastIax2PacketSide1 := some p }, packets, 1)
  | some l1 =>
    if pkt.destIp = (packets l1).destIp then
      if cfg.iax2RewriteTimestamps then
        -- `=+`, an assignment
        let packets := Function.update packets p
          { pkt with timestamp := (packets l1).timestamp + 20 }
        some ({ s with lastIax2PacketSide1 := some p }, packets, 1)
      else if pkt.timestamp = (packets l1).timestamp then none
      else some ({ s with lastIax2PacketSide1 := some p }, packets, 1)
    else
      match s.lastIax2PacketSide2 with
      | none => some ({ s with lastIax2PacketSide2 := some p }, packets, 2)
      | some l2 =>
        if cfg.iax2RewriteTimestamps then
          let packets := Function.update packets p
            { pkt with timestamp := pkt.timestamp + ((packets l2).timestamp + 20) }
          some ({ s with lastIax2PacketSide2 := some p }, packets, 2)
        else if pkt.timestamp = (packets l2).timestamp then none
        else some ({ s with lastIax2PacketSide2 := some p }, packets, 2)

/-- The sequence numbers after a frame of a channel. -/
def advance (s : Iax2Session) (channel : UInt8) : Iax2Session :=
  if channel = 1 then { s with channel1SeqNo := nextSeqNo s.channel1SeqNo }
  else { s with channel2SeqNo := nextSeqNo s.channel2SeqNo }

/-- The chunk of a started session for a frame of a channel. -/
def deliver (s : Iax2Session) (pkt : Iax2PacketInfo) (channel : UInt8) :
    Iax2Session × List Output :=
  let seq := if channel = 1 then s.channel1SeqNo else s.channel2SeqNo
  if s.started then
    let details : AudioChunkDetails :=
      { arrivalTimestamp := UInt32.ofInt pkt.arrivalTimestamp
        numBytes := pkt.payloadSize
        timestamp := seq.toUInt32 * s.rtpTimestamp
        rtpPayloadType := s.codec
        channel := channel
        sequenceNumber := seq.toUInt32
        encoding := .alawAudio }
    ({ s with lastUpdated := pkt.arrivalTimestamp },
      [.chunk details (pkt.payload.take pkt.payloadSize.toNat) s.capturePort])
  else (s, [])

/-- The start of a session at its first frame. -/
def startAtFirst (s : Iax2Session) (cfg : Config) (now : Int) : Iax2Session × List Output :=
  if s.numIax2Packets = 1 then
    let (s, started) := s.start cfg now
    let (s, metadata) := s.reportMetadata
    (s, started ++ metadata)
  else (s, [])

/-- What `AddIax2Packet` leaves: the session, the packet objects, what was sent, what it returns. -/
structure Added where
  session : Iax2Session
  packets : Ref → Iax2PacketInfo
  outputs : List Output
  ok : Bool

/-- `AddIax2Packet` from the codec update on. -/
def acceptPacket (s : Iax2Session) (cfg : Config) (packets : Ref → Iax2PacketInfo) (p : Ref)
    (now : Int) : Added :=
  let s := if (packets p).frameType = .full then { s with codec := (packets p).payloadType.toNat }
    else s
  let s := { s with lastIax2Packet := some p }
  match s.side cfg packets p with
  | none => ⟨{ s with hasDuplicateIax2 := true }, packets, [], true⟩
  | some (s, packets, channel) =>
    let s := { s with numIax2Packets := s.numIax2Packets + 1 }
    let (s, started) := s.startAtFirst cfg now
    let (s, chunk) := (s.advance channel).deliver (packets p) channel
    ⟨s, packets, started ++ chunk, true⟩

/-- `AddIax2Packet` of the packet that `p` refers to; it returns false where the session is not in a
state to receive voice. -/
def addIax2Packet (s : Iax2Session) (cfg : Config) (packets : Ref → Iax2PacketInfo) (p : Ref)
    (now : Int) : Added :=
  if s.state ≠ .linked ∧ s.state ≠ .up then ⟨s, packets, [], false⟩
  else if s.lastIax2Packet = none then
    if (packets p).frameType ≠ .full then ⟨s, packets, [], true⟩
    else
      let s := { s.processMetadataIax2 cfg (packets p) with state := .up }
      s.acceptPacket cfg packets p now
  else s.acceptPacket cfg packets p now

/-! ## Signalling -/

def reportIax2Authreq (s : Iax2Session) (authreq : Iax2PeerInfo) : Iax2Session :=
  { s with inviteeScallno := authreq.senderCallno }

def reportIax2Accept (s : Iax2Session) (acceptinfo : Iax2PeerInfo) : Iax2Session :=
  { s with inviteeScallno := acceptinfo.senderCallno }

/-- The calling name taken as a unique id, followed by a local extension if there is a blank. -/
def splitCallingName (name : String) : String × Option String :=
  let cs := name.toList
  if ' ' ∈ cs then
    (String.ofList (cs.takeWhile (· ≠ ' ')),
      some (String.ofList ((cs.dropWhile (· ≠ ' ')).drop 1)))
  else (name, none)

/-- `ReportIax2New`; the second NEW of a session changes no more than its tags. -/
def reportIax2New (s : Iax2Session) (cfg : Config) (invite : Iax2NewInfo) : Iax2Session :=
  let (uniqueId, localExt) := splitCallingName invite.callingName
  let s := if cfg.iax2TreatCallerIdNameAsXUniqueId then
      { s with tags := s.tags.insertIfNew "X-Unique-ID" uniqueId }
    else s
  let invite := if cfg.iax2TreatCallerIdNameAsXUniqueId then
      { invite with localExtension := localExt.getD invite.localExtension }
    else invite
  match s.newInfo with
  | none =>
    { s with
      newInfo := some invite
      invitorIp := invite.senderIp
      inviteeIp := invite.receiverIp
      invitorScallno := invite.callNo
      srcIpAndCallNo := ipAndCallNo invite.senderIp invite.callNo }
  | some _ => s

/-- The session object that a NEW creates. -/
def newFor (cfg : Config) (trackingId : String) (invite : Iax2NewInfo) (now : Int) : Iax2Session :=
  let s := { new trackingId now with srcIpAndCallNo := ipAndCallNo invite.senderIp invite.callNo }
  s.reportIax2New cfg invite

end Iax2Session

/-! ## The session tables -/

structure Iax2Sessions where
  /-- The session objects, by reference. -/
  sessions : Ref → Iax2Session := fun _ => {}
  /-- How many sessions have been created. -/
  created : Nat := 0
  packets : Ref → Iax2PacketInfo := fun _ => {}
  bySrcIpAndCallNo : TreeMap String Ref := ∅
  byDestIpAndCallNo : TreeMap String Ref := ∅
  alphaCounter : AlphaCounter := ⟨0⟩
  outputs : List Output := []

namespace Iax2Sessions

/-- Replace the object of a session. -/
def setSession (σ : Iax2Sessions) (r : Ref) (s : Iax2Session) : Iax2Sessions :=
  { σ with sessions := Function.update σ.sessions r s }

def send (σ : Iax2Sessions) (out : List Output) : Iax2Sessions :=
  { σ with outputs := σ.outputs ++ out }

/-- An entry erased, if the session has the key. -/
def eraseKey (m : TreeMap String Ref) (key : String) : TreeMap String Ref :=
  if key ≠ "" then m.erase key else m

def stop (σ : Iax2Sessions) (r : Ref) : Iax2Sessions :=
  let (s, out) := (σ.sessions r).stop
  let σ := (σ.setSession r s).send out
  { σ with
    bySrcIpAndCallNo := eraseKey σ.bySrcIpAndCallNo s.srcIpAndCallNo
    byDestIpAndCallNo := eraseKey σ.byDestIpAndCallNo s.destIpAndCallNo }

def reportIax2Accept (σ : Iax2Sessions) (acceptinfo : Iax2PeerInfo) : Iax2Sessions :=
  let src := ipAndCallNo acceptinfo.receiverIp acceptinfo.receiverCallno
  let dest := ipAndCallNo acceptinfo.senderIp acceptinfo.senderCallno
  match σ.bySrcIpAndCallNo[src]? with
  | none => σ
  | some r =>
    match σ.byDestIpAndCallNo[dest]? with
    | some r' => σ.setSession r' { σ.sessions r' with state := .linked }
    | none =>
      let s := { σ.sessions r with destIpAndCallNo := dest, state := .linked }
      let σ := σ.setSession r (s.reportIax2Accept acceptinfo)
      { σ with byDestIpAndCallNo := σ.byDestIpAndCallNo.insertIfNew dest r }

def reportIax2Authreq (σ : Iax2Sessions) (authreq : Iax2PeerInfo) : Iax2Sessions :=
  let src := ipAndCallNo authreq.receiverIp authreq.receiverCallno
  let dest := ipAndCallNo authreq.senderIp authreq.senderCallno
  match σ.bySrcIpAndCallNo[src]? with
  | none => σ
  | some r =>
    let s := { (σ.sessions r).reportIax2Authreq authreq with
      destIpAndCallNo := dest, state := .waiting }
    let σ := σ.setSession r s
    { σ with byDestIpAndCallNo := σ.byDestIpAndCallNo.insertIfNew dest r }

/-- A session created for a NEW, at the time `now`. -/
def create (σ : Iax2Sessions) (cfg : Config) (invite : Iax2NewInfo) (now : Int) : Iax2Sessions :=
  let (counter, trackingId) := σ.alphaCounter.getNext
  let s := Iax2Session.newFor cfg trackingId invite now
  { σ.setSession σ.created s with
    created := σ.created + 1
    alphaCounter := counter
    bySrcIpAndCallNo := σ.bySrcIpAndCallNo.insertIfNew s.srcIpAndCallNo σ.created }

def reportIax2New (σ : Iax2Sessions) (cfg : Config) (invite : Iax2NewInfo) (now : Int) :
    Iax2Sessions :=
  match σ.bySrcIpAndCallNo[ipAndCallNo invite.senderIp invite.callNo]? with
  | none => σ.create cfg invite now
  | some r =>
    if (σ.sessions r).state = .up then σ
    else (σ.stop r).create cfg invite now

/-- One of the lookups of `ReportIax2Hangup`: what is found is stopped. -/
def stopFound (σ : Iax2Sessions) (found : Option Ref) : Iax2Sessions :=
  match found with
  | some r => σ.stop r
  | none => σ

def reportIax2Hangup (σ : Iax2Sessions) (bye : Iax2PeerInfo) : Iax2Sessions :=
  let receiver := ipAndCallNo bye.receiverIp bye.receiverCallno
  let sender := ipAndCallNo bye.senderIp bye.senderCallno
  let σ := σ.stopFound σ.bySrcIpAndCallNo[receiver]?
  let σ := σ.stopFound σ.bySrcIpAndCallNo[sender]?
  let σ := σ.stopFound σ.byDestIpAndCallNo[receiver]?
  σ.stopFound σ.byDestIpAndCallNo[sender]?

/-- The packet `p` given to the session `r`; one it does not take stops it. -/
def givePacket (σ : Iax2Sessions) (cfg : Config) (r p : Ref) (now : Int) : Iax2Sessions × Bool :=
  let a := (σ.sessions r).addIax2Packet cfg σ.packets p now
  let σ := { (σ.setSession r a.session).send a.outputs with packets := a.packets }
  if a.ok then (σ, true) else (σ.stop r, false)

def reportIax2Packet (σ : Iax2Sessions) (cfg : Config) (p : Ref) (now : Int) :
    Iax2Sessions × Bool :=
  let key := ipAndCallNo (σ.packets p).sourceIp (σ.packets p).sourcecallno
  match σ.bySrcIpAndCallNo[key]? with
  | some r => σ.givePacket cfg r p now
  | none =>
    match σ.byDestIpAndCallNo[key]? with
    | some r => σ.givePacket cfg r p now
    | none => (σ, false)

/-- The sessions of a map that have not been updated within the timeout, in the map's order. -/
def toDismiss (σ : Iax2Sessions) (cfg : Config) (m : TreeMap String Ref) (now : Int) : List Ref :=
  (m.toList.map (·.2)).filter fun r =>
    now - (σ.sessions r).lastUpdated > cfg.rtpSessionWithSignallingTimeoutSec

def stopEach (σ : Iax2Sessions) (rs : List Ref) : Iax2Sessions := rs.foldl stop σ

def hoover (σ : Iax2Sessions) (cfg : Config) (now : Int) : Iax2Sessions :=
  let σ := σ.stopEach (σ.toDismiss cfg σ.bySrcIpAndCallNo now)
  σ.stopEach (σ.toDismiss cfg σ.byDestIpAndCallNo now)

def stopAll (σ : Iax2Sessions) (cfg : Config) (now : Int) : Iax2Sessions :=
  σ.hoover cfg (now + 2 * cfg.rtpSessionWithSignallingTimeoutSec)

/-- A call of one of the operations, with the time it reads. -/
inductive Op
  | new (invite : Iax2NewInfo) (now : Int)
  | authreq (info : Iax2PeerInfo)
  | accept (info : Iax2PeerInfo)
  | hangup (info : Iax2PeerInfo)
  /-- A voice frame, in the packet object `p`. -/
  | packet (p : Ref) (iax2Packet : Iax2PacketInfo) (now : Int)
  | hoover (now : Int)
  | stopAll (now : Int)

def step (cfg : Config) (σ : Iax2Sessions) : Op → Iax2Sessions
  | .new invite now => σ.reportIax2New cfg invite now
  | .authreq info => σ.reportIax2Authreq info
  | .accept info => σ.reportIax2Accept info
  | .hangup info => σ.reportIax2Hangup info
  | .packet p iax2Packet now =>
    (reportIax2Packet { σ with packets := Function.update σ.packets p iax2Packet } cfg p now).1
  | .hoover now => σ.hoover cfg now
  | .stopAll now => σ.stopAll cfg now

end Iax2Sessions

end Oreka.Iax2
