import Oreka.Base.Utils
import Oreka.Net.IpHeader

/-!
# SIP over TCP

`common/SipTcp.cpp`: `TrySipTcp` takes the TCP segments of all connections. A segment that begins
with a method name is searched for complete SIP messages (`ParseSipStream`); what is left over opens a
stream, to which the segments that follow are appended by sequence number and which is searched again
each time. Each message found is handed to `ParseSipMessage`; what that does with it is not modelled
here, a run returns the messages handed over.

A `char*` is an offset into the memory that holds a segment or a stream's buffer. Behind a segment
there is whatever was captured, behind a buffer the NUL that `SafeBuffer` keeps there. The clock is
an input, and `unsigned long` has 64 bits.
-/

namespace Oreka.Sip

open Net (byte)

/-- The bytes of a string literal. -/
def ascii (s : String) : List UInt8 := s.toList.map fun c => UInt8.ofNat c.toNat

/-! ## Searching memory -/

def toLower (b : UInt8) : UInt8 := if 65 ≤ b ∧ b ≤ 90 then b + 32 else b

/-- `strncasecmp(toFind, ptr, strlen(toFind)) == 0`. -/
def matchesAt (toFind mem : List UInt8) (p : Nat) : Bool :=
  (List.range toFind.length).all fun i => toLower (byte mem (p + i)) = toLower (byte toFind i)

/-- `memFindAfter`, over the `len` bytes from the start of `mem`: the start and then every occurrence
of the first character (`memchr`) are compared, without regard to case; what comes after the first
match is returned. The comparison may read past the `len` bytes. -/
def memFindAfter (toFind mem : List UInt8) (len : Nat) : Option Nat :=
  let found := (List.range len).find? fun p =>
    (p = 0 ∨ byte mem p = byte toFind 0) && matchesAt toFind mem p
  found.map (· + toFind.length)

def isDigit (b : UInt8) : Bool := 48 ≤ b ∧ b ≤ 57

/-- `isspace`. -/
def isSpace (b : UInt8) : Bool := b = 32 ∨ (9 ≤ b ∧ b ≤ 13)

/-- The number that a string of digits denotes. -/
def decimal (ds : List UInt8) : Nat := ds.foldl (fun n d => 10 * n + (d.toNat - 48)) 0

/-- An `int` from a `long`. -/
def toInt (n : Int) : Int := n.bmod 4294967296

/-- `sscanf(s, "%d", &n)`, none where no number is read. -/
def scanInt (s : List UInt8) : Option Int :=
  let s := s.dropWhile isSpace
  let negative := s.head? = some 45
  let s := if s.head? = some 45 ∨ s.head? = some 43 then s.drop 1 else s
  let ds := s.takeWhile isDigit
  if ds = [] then none
  else
    let n : Int := if negative then -decimal ds else decimal ds
    some (toInt (max (-9223372036854775808) (min n 9223372036854775807)))

/-! ## The messages of a stream -/

/-- "Content-Length: ". -/
def contentLength : List UInt8 := ascii "Content-Length: "

/-- The blank line after the header fields. -/
def blankLine : List UInt8 := [13, 10, 13, 10]

/-- What the environment decides: how many rounds a loop is given, and what an `int` holds that
`sscanf` has not set. -/
structure Env where
  fuel : Nat
  unset : Int := 0

/-- One round of the loop of `ParseSipStream`, at the start of a message: where the message ends, if
its header fields and its content are there. -/
def messageEnd (env : Env) (mem : List UInt8) (len : Nat) : Option Int :=
  match memFindAfter contentLength mem len with
  | none => none
  | some contentLenStart =>
    let contentLen := (scanInt (mem.drop contentLenStart)).getD env.unset
    match memFindAfter blankLine (mem.drop contentLenStart) (len - contentLenStart) with
    | none => none
    | some sipHeaderEnd =>
      let sipMessageEnd := (contentLenStart + sipHeaderEnd : Nat) + contentLen
      if sipMessageEnd > len then none else some sipMessageEnd

/-- The loop of `ParseSipStream` from the offset `start` on: the messages, and the offset returned.
None where the loop is not done within its rounds, or a negative content length takes it in front of
the buffer. -/
def parseLoop (env : Env) (mem : List UInt8) (len : Nat) :
    Nat → Nat → Option (List (List UInt8) × Nat)
  | 0, _ => none
  | rounds + 1, start =>
    match messageEnd env (mem.drop start) (len - start) with
    | none => some ([], start)
    | some e =>
      if start + e < 0 then none
      else
        (parseLoop env mem len rounds (start + e).toNat).map fun r =>
          ((mem.drop start).take e.toNat :: r.1, r.2)

/-- `ParseSipStream` of the `len` bytes at the start of `mem`. -/
def parseSipStream (env : Env) (mem : List UInt8) (len : Nat) :
    Option (List (List UInt8) × Nat) :=
  parseLoop env mem len env.fuel 0

/-! ## Streams -/

/-- The two ends of a connection, sender first. -/
structure Ends where
  senderIp : InAddr
  receiverIp : InAddr
  senderPort : UInt16
  receiverPort : UInt16
  deriving DecidableEq, Repr

/-- A TCP segment, within an IP packet. -/
structure TcpSegment where
  ends : Ends
  seq : UInt32
  payload : List UInt8
  payload_lt : payload.length < 65536
  /-- The memory behind the payload. -/
  behind : List UInt8 := []
  /-- The time at which it is looked at. -/
  now : Int := 0

structure SipTcpStream where
  ends : Ends
  expectingSeqNo : UInt64
  lastSeqNo : UInt64
  offset : Nat
  entryTime : Int
  /-- `m_tcpBuffer`. -/
  buffer : List UInt8
  deriving DecidableEq

/-- `SafeBuffer::Add`, which throws where the new size is too large for an `int`. -/
def safeBufferAdd (buffer buf : List UInt8) : Option (List UInt8) :=
  if buffer.length + buf.length + 1 < 2147483648 then some (buffer ++ buf) else none

/-- The names that a segment which opens a stream begins with. -/
def methods : List String :=
  ["INVITE", "ACK", "BYE", "SIP/2.0 200", "SIP/2.0 183 Session Progress", "REFER", "INFO",
   "SUBSCRIBE", "SIP/2.0 302 Moved Temporarily", "NOTIFY", "SIP/2.0 4", "SIP/2.0 5", "SIP/2.0 6",
   "CANCEL "]

/-- The payload is long enough and begins with a method name. -/
def opensStream (payload : List UInt8) : Bool :=
  payload.length ≥ 31 && methods.any fun m => (ascii m).isPrefixOf payload

/-- The duplicate test of `TrySipTcp`. -/
def isDuplicate (streams : List SipTcpStream) (seg : TcpSegment) : Bool :=
  streams.any fun s => s.ends = seg.ends ∧ s.lastSeqNo ≥ seg.seq.toUInt64

/-- A segment that begins with a method name. -/
def openStream (env : Env) (streams : List SipTcpStream) (seg : TcpSegment) :
    Option (List SipTcpStream × List (List UInt8)) :=
  (parseSipStream env (seg.payload ++ seg.behind) seg.payload.length).map fun (messages, offset) =>
    if offset ≠ seg.payload.length then
      let stream : SipTcpStream :=
        { ends := seg.ends
          expectingSeqNo := (seg.seq + UInt32.ofNat seg.payload.length).toUInt64
          lastSeqNo := seg.seq.toUInt64
          offset := offset
          entryTime := seg.now
          buffer := seg.payload }
      (streams ++ [stream], messages)
    else (streams, messages)

/-- The segment appended to a stream, which is searched from where the last message ended. -/
def addToStream (env : Env) (stream : SipTcpStream) (seg : TcpSegment) :
    Option (SipTcpStream × List (List UInt8)) :=
  (safeBufferAdd stream.buffer seg.payload).bind fun buffer =>
    let size := buffer.length
    (parseSipStream env (buffer.drop stream.offset) (size - stream.offset)).map
      fun (messages, offset) =>
        ({ stream with
            buffer := buffer
            offset := stream.offset + offset
            expectingSeqNo := stream.expectingSeqNo + UInt64.ofNat seg.payload.length }, messages)

/-- The end of the loop over the streams: a stream stays unless it is used up or 60 seconds old. -/
def keepStream (stream : SipTcpStream) (now : Int) : List SipTcpStream :=
  if stream.offset = stream.buffer.length ∨ now - stream.entryTime ≥ 60 then [] else [stream]

/-- One stream of the loop over the streams. -/
def visitStream (env : Env) (stream : SipTcpStream) (seg : TcpSegment) :
    Option (List SipTcpStream × List (List UInt8)) :=
  if stream.ends = seg.ends ∧ stream.expectingSeqNo = seg.seq.toUInt64 then
    (addToStream env stream seg).map fun r => (keepStream r.1 seg.now, r.2)
  else some (keepStream stream seg.now, [])

/-- A segment that may belong to streams. -/
def visitStreams (env : Env) (seg : TcpSegment) :
    List SipTcpStream → Option (List SipTcpStream × List (List UInt8))
  | [] => some ([], [])
  | stream :: streams =>
    (visitStream env stream seg).bind fun r =>
      (visitStreams env seg streams).map fun r' => (r.1 ++ r'.1, r.2 ++ r'.2)

/-- `TrySipTcp`: the streams afterwards, and the messages handed to `ParseSipMessage`. None where
`ParseSipStream` does not return or a buffer throws. -/
def trySipTcp (env : Env) (streams : List SipTcpStream) (seg : TcpSegment) :
    Option (List SipTcpStream × List (List UInt8)) :=
  if isDuplicate streams seg then some (streams, [])
  else if opensStream seg.payload then openStream env streams seg
  else visitStreams env seg streams

/-- The segments of a capture in turn. -/
def trySegments (env : Env) :
    List SipTcpStream → List TcpSegment → Option (List SipTcpStream × List (List UInt8))
  | streams, [] => some (streams, [])
  | streams, seg :: segs =>
    (trySipTcp env streams seg).bind fun r =>
      (trySegments env r.1 segs).map fun r' => (r'.1, r.2 ++ r'.2)

end Oreka.Sip
