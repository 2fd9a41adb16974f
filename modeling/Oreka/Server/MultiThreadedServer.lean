import Oreka.Capture.TcpConnection
import Oreka.Lib.Infix
import Oreka.Serializers.Serializer

/-!
# The command line server

`CommandLineServer::RoutineSvc` of `MultiThreadedServer.cpp`: the thread that serves one connection. What
becomes of a command (`FindClass`, the object factory, `Process`) is a parameter, the response to it.
-/

namespace Oreka.Server

open Capture (Socket)

/-- How much of `buf` is used. -/
abbrev bufSize : Nat := 2040

/-- What the loop over the bytes of one read finds. -/
inductive Scan
  | more (buf : List UInt8)
  | invalid
  | foundCRLF (command : List UInt8)
  deriving DecidableEq, Repr

/-- The loop over the bytes of a read, behind what `buf` holds already. A `char` above 127 is negative,
and so it is below 32. -/
def scan (buf : List UInt8) : List UInt8 → Scan
  | [] => .more buf
  | c :: rest =>
    if c < 32 ∨ c > 126 then .invalid
    else if c = 13 ∨ c = 10 then .foundCRLF buf
    else scan (buf ++ [c]) rest

/-- How the loop that gets one command line ends. -/
inductive LineEnd
  | full
  | inactive
  | invalid
  | command (command : List UInt8)
  deriving DecidableEq, Repr

/-- "Get one command line". -/
def getCommandLine (sock : Socket) (buf : List UInt8) : LineEnd × Socket :=
  if buf.length < bufSize then
    if _h : 0 < (sock.recv (bufSize - buf.length)).1 then
      match scan buf (sock.recv (bufSize - buf.length)).2.1 with
      | .more buf' => getCommandLine (sock.recv (bufSize - buf.length)).2.2 buf'
      | .invalid => (.invalid, (sock.recv (bufSize - buf.length)).2.2)
      | .foundCRLF command => (.command command, (sock.recv (bufSize - buf.length)).2.2)
    else (.inactive, (sock.recv (bufSize - buf.length)).2.2)
  else (.full, sock)
termination_by sock.stream.length
decreasing_by exact Socket.recv_lt _h

/-- The loop starts with a read: it leaves less of the stream, unless it ends the connection. -/
theorem getCommandLine_lt (sock : Socket) (buf : List UInt8) (hbuf : buf.length < bufSize) :
    (getCommandLine sock buf).1 = .inactive ∨
      (getCommandLine sock buf).2.stream.length < sock.stream.length := by
  fun_induction getCommandLine sock buf with
  | case1 sock buf _ h buf' hscan ih =>
    by_cases hbuf' : buf'.length < bufSize
    · exact (ih hbuf').imp_right fun hlt => Nat.lt_trans hlt (Socket.recv_lt h)
    · refine .inr ?_
      rw [getCommandLine, if_neg hbuf']
      exact Socket.recv_lt h
  | case2 sock buf _ h => exact .inr (Socket.recv_lt h)
  | case3 sock buf _ h => exact .inr (Socket.recv_lt h)
  | case4 => exact .inl rfl
  | case5 sock buf hfull => exact absurd hbuf hfull

/-- What the server does on a connection. -/
inductive ServerEvent
  | send (text : List UInt8)
  | execute (command : List UInt8)
  | close
  deriving DecidableEq, Repr

def prompt : List UInt8 := [13, 10, 62]

/-- `RoutineSvc`; `prompts` is whether the prompts can be sent, as those behind its end can. -/
def routineSvc (respond : List UInt8 → List UInt8) (prompts : List Bool) (sock : Socket) :
    List ServerEvent :=
  .send prompt ::
    if prompts.headD true then
      match _hline : getCommandLine sock [] with
      | (.full, sock') => routineSvc respond prompts.tail sock'
      | (.inactive, _) | (.invalid, _) => [.close]
      | (.command command, sock') =>
        .execute command :: .send (respond command) :: routineSvc respond prompts.tail sock'
    else [.close]
termination_by sock.stream.length
decreasing_by
  all_goals
    have hlt := getCommandLine_lt sock [] (by decide)
    rw [_hline] at hlt
    exact hlt.resolve_left nofun

/-- The commands that were executed. -/
def commands (events : List ServerEvent) : List (List UInt8) :=
  events.filterMap fun
    | .execute command => some command
    | _ => none

end Oreka.Server

/-!
## The HTTP servers

`HttpServer::HandleHttpMessage` and `HandleSslHttpMessage` of `MultiThreadedServer.cpp`, up to where the
command is created: one read into `buf`, and what is found in the memory from there on.
-/

namespace Oreka.Server

open Serializers (bytes toLower)
open Serializers.UrlSerializer (cString)

/-- The size of `buf`. -/
abbrev httpBufSize : Nat := 2048

/-- `strstr(s, key)`, of what stands from `s` on. -/
def strstr (s key : List UInt8) : Option Nat := Infix.first (cString s) key

/-- `UrlSerializer::FindClass`. -/
def findClass (input : List UInt8) : List UInt8 :=
  toLower <|
    match input.idxOf? '='.toUInt8 with
    | none => []
    | some equalsPosition =>
      match input.idxOf? '&'.toUInt8 with
      | none => input.drop (equalsPosition + 1)
      | some ampersandPosition =>
        if ampersandPosition > equalsPosition then
          (input.drop (equalsPosition + 1)).take (ampersandPosition - equalsPosition - 1)
        else input.drop (equalsPosition + 1)

/-- What becomes of a request. -/
inductive HttpRequest
  | notFound
  | malformedRequest
  | invalidCharacter
  | command (className url : List UInt8) (singleLineResp : Bool)
  deriving DecidableEq, Repr

/-- The beginning of an URL of the form `service/command?type=ping`. -/
def stripQuery (url : List UInt8) : List UInt8 :=
  match url.idxOf? '?'.toUInt8 with
  | some (queryOffset + 1) => url.drop (queryOffset + 2)
  | _ => url

/-- The URL, from `startUrlOffset` up to `stopUrl`. -/
def findUrl (mem : List UInt8) : Except HttpRequest (List UInt8) :=
  match strstr (mem.drop 5) (bytes " HTTP") with
  | none => .error .malformedRequest
  | some stopUrl =>
    let url := (mem.drop 5).take stopUrl
    -- a char above 127 is negative
    if url.any fun c => c < 33 || c > 126 then .error .invalidCharacter
    else .ok (stripQuery url)

/-- What the two handlers share: the memory from `buf` on, of which `size` bytes were received. -/
def parseRequest (size : Nat) (mem : List UInt8) (singleLineResp : Bool) : HttpRequest :=
  if size > 5 then
    match findUrl mem with
    | .error e => e
    | .ok url => .command (findClass url) url singleLineResp
  else .notFound

/-- The memory from `buf` on: what was received, the rest of `buf`, the last byte of which was set to
NUL before, and what is behind it. -/
def receive (buf behind received : List UInt8) : List UInt8 :=
  received ++ ((buf.set 2047 0 ++ behind).drop received.length)

/-- `HandleHttpMessage`: `apr_socket_recv` of 2047 bytes. -/
def handleHttpMessage (buf behind received : List UInt8) : HttpRequest :=
  let mem := receive buf behind received
  parseRequest received.length mem (strstr mem (bytes "text/single-line")).isSome

/-- `HandleSslHttpMessage`: `OrkSslRead` of 2048 bytes. -/
def handleSslHttpMessage (buf behind received : List UInt8) : HttpRequest :=
  parseRequest received.length (receive buf behind received) false

end Oreka.Server
