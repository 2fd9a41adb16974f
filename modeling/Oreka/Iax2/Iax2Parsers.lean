import Oreka.Capture.HandlePacket
import Oreka.Iax2.Iax2Session

/-!
# IAX2 voice frames

The parsers of `voip/Iax2Parsers.cpp` that recognise voice: full frames, mini frames and meta trunk
frames, which carry the mini frames of several calls. Each allocates the packet object that it hands
to the sessions, the trunk parser one for all the entries of a frame.

IAX2 support is on (`m_iax2Support`); the parsers of signalling are modelled from the operations of
the sessions on (`Signal`).
-/

namespace Oreka.Iax2

open Oreka.Net

/-- A UDP packet as the parsers read it: its addresses, and its payload up to the end that the IP and
the UDP header agree on. -/
structure UdpPacket where
  ipSrc : InAddr
  ipDest : InAddr
  payload : List UInt8

/-- `get_uncompressed_subclass`. -/
def getUncompressedSubclass (cSub : UInt8) : Int :=
  if cSub &&& 0x80 ≠ 0 then
    if cSub = 0xFF then -1 else (2 ^ (cSub.toNat % 32) : Nat)
  else cSub.toNat

/-- The codecs of `iax2_codec_to_rtp_payloadtype`. -/
def rtpPayloadTypes : List (Int × UInt16) :=
  [(4, 0), (16, 2), (2, 3), (1, 4), (32, 5), (128, 7), (8, 8), (64, 9), (256, 18), (1024, 97)]

/-- `iax2_codec_to_rtp_payloadtype`: none for -1. -/
def iax2CodecToRtpPayloadtype (codec : Int) : Option UInt16 := rtpPayloadTypes.lookup codec

/-- A call number without its top bit. -/
def callno (b : List UInt8) (i : Nat) : UInt16 := UInt16.ofNat (ntohs b i % 32768)

/-- Whether the top bit of the first field is set. -/
def isFullFrame (b : List UInt8) : Bool := 32768 ≤ ntohs b 0

/-- What `TryIax2FullVoiceFrame` makes of a packet at the time `now`. -/
def fullVoiceFrame (u : UdpPacket) (now : Int) : Option Iax2PacketInfo :=
  let fh := u.payload
  if fh.length < 12 then none
  else if ¬ isFullFrame fh then none
  else if byte fh 10 ≠ 2 then none
  else
    match iax2CodecToRtpPayloadtype (getUncompressedSubclass (byte fh 11)) with
    | none => none
    | some pt =>
      if fh.length = 12 then none
      else some
        { sourceIp := u.ipSrc
          destIp := u.ipDest
          sourcecallno := callno fh 0
          destcallno := callno fh 2
          frameType := .full
          payloadSize := UInt32.ofNat (fh.length - 12)
          payloadType := pt
          payload := fh.drop 12
          timestamp := UInt32.ofNat (Capture.ntohl fh 4)
          arrivalTimestamp := now }

/-- What `TryIax2MiniVoiceFrame` makes of a packet at the time `now`. -/
def miniVoiceFrame (u : UdpPacket) (now : Int) : Option Iax2PacketInfo :=
  let mini := u.payload
  if mini.length < 4 then none
  else if isFullFrame mini then none
  else if mini.length = 4 then none
  else some
    { sourceIp := u.ipSrc
      destIp := u.ipDest
      sourcecallno := callno mini 0
      frameType := .mini
      payloadSize := UInt32.ofNat (mini.length - 4)
      payload := mini.drop 4
      timestamp := UInt32.ofNat (ntohs mini 2)
      arrivalTimestamp := now }

/-! ## Meta trunk frames -/

/-- An entry of a meta trunk frame. One without a timestamp is given the timestamp 0. -/
structure TrunkEntry where
  scallno : UInt16
  ts : UInt16 := 0
  data : List UInt8
  deriving DecidableEq

/-- The entries that `TryIax2MetaTrunkFrame` steps over, with (`Iax2MetaTrunkEntryTs`) or without
timestamps; an entry that is cut off ends the loop. Each takes up some bytes, of which there are no
more than `fuel`. -/
def trunkEntries (timestamps : Bool) : Nat → List UInt8 → List TrunkEntry
  | 0, _ => []
  | fuel + 1, b =>
    let header := if timestamps then 6 else 4
    let len := ntohs b (if timestamps then 0 else 2)
    if b.length < header then []
    else if b.length < header + len then []
    else
      { scallno := callno b (if timestamps then 2 else 0)
        ts := if timestamps then UInt16.ofNat (ntohs b 4) else 0
        data := (b.drop header).take len } :: trunkEntries timestamps fuel (b.drop (header + len))

/-- What is written into the packet object for an entry. -/
def TrunkEntry.info (e : TrunkEntry) (u : UdpPacket) (now : Int) : Iax2PacketInfo where
  sourceIp := u.ipSrc
  destIp := u.ipDest
  sourcecallno := e.scallno
  frameType := .mini
  payloadSize := UInt32.ofNat e.data.length
  payload := e.data
  timestamp := e.ts.toUInt32
  arrivalTimestamp := now

/-- The frames that `TryIax2MetaTrunkFrame` reports for a packet, the `i`-th at the time
`clock i`. -/
def metaTrunkFrame (u : UdpPacket) (clock : Nat → Int) : List Iax2PacketInfo :=
  let mh := u.payload
  if mh.length < 8 then []
  else if ntohs mh 0 ≠ 0 then []
  else if byte mh 2 &&& 0x80 ≠ 0 then []
  else if byte mh 2 ≠ 1 then []
  else
    let entries := trunkEntries (byte mh 3 &&& 1 ≠ 0) mh.length (mh.drop 8)
    entries.mapIdx fun i e => e.info u (clock i)

/-! ## The parsers -/

/-- The sessions, and how many packet objects have been allocated. -/
structure Plugin where
  sessions : Iax2Sessions := {}
  allocated : Nat := 0

/-- `ReportIax2Packet` of the packet object `p`, after `info` was written into it. -/
def Iax2Sessions.report (σ : Iax2Sessions) (cfg : Config) (p : Ref) (info : Iax2PacketInfo) :
    Iax2Sessions × Bool :=
  reportIax2Packet { σ with packets := Function.update σ.packets p info } cfg p
    info.arrivalTimestamp

/-- The frames reported one after another through the same packet object. -/
def Iax2Sessions.reportShared (σ : Iax2Sessions) (cfg : Config) (p : Ref)
    (infos : List Iax2PacketInfo) : Iax2Sessions :=
  infos.foldl (fun σ info => (σ.report cfg p info).1) σ

namespace Plugin

/-- A packet object is allocated. -/
def alloc (π : Plugin) : Plugin := { π with allocated := π.allocated + 1 }

def tryIax2FullVoiceFrame (π : Plugin) (cfg : Config) (u : UdpPacket) (now : Int) :
    Plugin × Bool :=
  match fullVoiceFrame u now with
  | none => (π.alloc, false)
  | some info => ({ π.alloc with sessions := (π.sessions.report cfg π.allocated info).1 }, true)

/-- `TryIax2MetaTrunkFrame`; it returns false where there are no entries. -/
def tryIax2MetaTrunkFrame (π : Plugin) (cfg : Config) (u : UdpPacket) (clock : Nat → Int) :
    Plugin × Bool :=
  let infos := metaTrunkFrame u clock
  ({ π.alloc with sessions := π.sessions.reportShared cfg π.allocated infos }, !infos.isEmpty)

def tryIax2MiniVoiceFrame (π : Plugin) (cfg : Config) (u : UdpPacket) (now : Int) :
    Plugin × Bool :=
  match miniVoiceFrame u now with
  | none => (π.alloc, false)
  | some info =>
    let (sessions, found) := π.sessions.report cfg π.allocated info
    ({ π.alloc with sessions }, found)

/-- The end of `DetectUsefulUdpPacket`, for a packet that none of the parsers before has taken: the
parsers of voice, until one takes it. -/
def detectVoice (π : Plugin) (cfg : Config) (u : UdpPacket) (clock : Nat → Int) : Plugin :=
  let (π, detected) := π.tryIax2FullVoiceFrame cfg u (clock 0)
  if detected then π
  else
    let (π, detected) := π.tryIax2MetaTrunkFrame cfg u clock
    if detected then π else (π.tryIax2MiniVoiceFrame cfg u (clock 0)).1

/-- A call of one of the sessions' operations that is not about voice. -/
def IsSignal : Iax2Sessions.Op → Prop
  | .packet .. => False
  | _ => True

/-- What reaches the sessions: signalling (and the timer), and the packets that may be voice, with
the times that the clock shows. -/
inductive Input
  | signal (op : Iax2Sessions.Op) (h : IsSignal op)
  | udp (u : UdpPacket) (clock : Nat → Int)

def step (cfg : Config) (π : Plugin) : Input → Plugin
  | .signal op _ => { π with sessions := π.sessions.step cfg op }
  | .udp u clock => π.detectVoice cfg u clock

def run (cfg : Config) (π : Plugin) (inputs : List Input) : Plugin := inputs.foldl (step cfg) π

end Plugin

end Oreka.Iax2
