import Mathlib.Algebra.Ring.Nat
import Mathlib.Data.List.Infix
import Oreka.Capture.TcpConnection
import Oreka.Serializers.Serializer

/-!
# The HTTP client

`OrkHttpClient` of `OrkClient.cpp`: `ExecuteUrl` and `ExecuteSSLRequest`, from where the request has been
sent on, with `SSL_Session` of `SslUtils.cpp`. Either returns whether it has succeeded, and the response.
-/

namespace Oreka.Client

open Capture (Socket)
open Serializers (isspace bytes)

/-! ## ExecuteUrl -/

/-- `BUFSIZE`. -/
abbrev bufSize : Nat := 4096

/-- `apr_status_t`, as far as it is told apart: `APR_SUCCESS`, `APR_EOF`, anything else. -/
inductive AprStatus
  | success
  | eof
  | error
  deriving DecidableEq, Repr

/-- `apr_socket_recv`. -/
def aprSocketRecv (sock : Socket) (numReceived : Nat) : AprStatus × List UInt8 × Socket :=
  (if 0 < (sock.recv numReceived).1 then .success
    else if (sock.recv numReceived).1 = 0 then .eof
    else .error, (sock.recv numReceived).2)

theorem recv_pos_of_success {sock : Socket} {wanted : Nat}
    (h : (aprSocketRecv sock wanted).1 = .success) : 0 < (sock.recv wanted).1 := by
  unfold aprSocketRecv at h
  split at h
  · assumption
  · split at h <;> cases h

/-- The socket, and `time(NULL) - beginRequestTimestamp` behind each read. -/
structure Connection where
  sock : Socket
  clock : Nat → Int

/-- `header`, `gotHeader` and `response`. -/
structure HttpReader where
  header : List UInt8 := []
  gotHeader : Bool := false
  response : List UInt8 := []

/-- CR-LF-CR-LF. -/
abbrev delimiter : List UInt8 := [13, 10, 13, 10]

/-- The body of the loop over `buf`. -/
def HttpReader.next (s : HttpReader) (c : UInt8) : HttpReader :=
  if s.gotHeader then { s with response := s.response ++ [c] }
  else { s with
    header := s.header ++ [c]
    gotHeader := decide (4 < (s.header ++ [c]).length ∧ delimiter <:+ s.header ++ [c]) }

/-- The loop over the reads. `numReceived` also says how much to read: a read gets no more than the one
before. -/
def recvLoop (timeout : Int) (clock : Nat → Int) (n : Nat) (sock : Socket) (numReceived : Nat)
    (s : HttpReader) : AprStatus × HttpReader :=
  if _h : (aprSocketRecv sock numReceived).1 = .success ∧ clock n ≤ timeout then
    recvLoop timeout clock (n + 1) (aprSocketRecv sock numReceived).2.2
      (aprSocketRecv sock numReceived).2.1.length
      ((aprSocketRecv sock numReceived).2.1.foldl HttpReader.next s)
  else ((aprSocketRecv sock numReceived).1, s)
termination_by sock.stream.length
decreasing_by exact Socket.recv_lt (recv_pos_of_success _h.1)

/-- The three characters of the status code are those of `code`. -/
def hasStatus (header : List UInt8) (code : List UInt8) : Prop := (header.drop 9).take 3 = code

instance (header code : List UInt8) : Decidable (hasStatus header code) :=
  inferInstanceAs (Decidable (_ = _))

/-- What is made of the header and the response. `numReceived < 0`, of an unsigned number, does not hold; how
the last read ended is not looked at. -/
def HttpReader.succeeds (s : HttpReader) : Bool :=
  if 12 < s.header.length ∧ hasStatus s.header (bytes "400") then true
  else if s.header.length < 12 ∨ s.response = [] then false
  else if ¬ hasStatus s.header (bytes "200") then false
  else true

def executeUrl (timeout : Int) (conn : Connection) : Bool × List UInt8 :=
  let s := (recvLoop (if timeout < 1 then 1 else timeout) conn.clock 0 conn.sock bufSize {}).2
  (s.succeeds, s.response)

/-! ## ExecuteSSLRequest -/

/-- `SSL_Session::read_until` into the buffer `s`: what is in it, and the reads behind. -/
def readUntil (delim : List UInt8) (s : List UInt8) :
    List (List UInt8) → Option (List UInt8 × List (List UInt8))
  | [] => if delim <:+: s then some (s, []) else none
  | read :: reads => if delim <:+: s then some (s, read :: reads) else readUntil delim (s ++ read) reads

/-- `operator>>` for a string. -/
def extractWord (s : List UInt8) : List UInt8 × List UInt8 :=
  ((s.dropWhile isspace).takeWhile fun c => !isspace c,
    (s.dropWhile isspace).dropWhile fun c => !isspace c)

def isdigit (c : UInt8) : Bool := 48 ≤ c && c ≤ 57

/-- The number that digits stand for. -/
def number (digits : List UInt8) : Nat := digits.foldl (fun n c => 10 * n + (c.toNat - 48)) 0

/-- `operator>>` for an `unsigned int`. -/
def extractUnsigned (s : List UInt8) : Option Nat × List UInt8 :=
  let s := s.dropWhile isspace
  let negative := s.head? = some '-'.toUInt8
  let unsigned := if negative ∨ s.head? = some '+'.toUInt8 then s.drop 1 else s
  let digits := unsigned.takeWhile isdigit
  (if digits = [] ∨ 2 ^ 32 ≤ number digits then none
    else some (if negative then (2 ^ 32 - number digits) % 2 ^ 32 else number digits),
    unsigned.dropWhile isdigit)

/-- `std::getline`: the line and what is left. A last line without its line feed is a line. -/
def getline (s : List UInt8) : Option (List UInt8 × List UInt8) :=
  if s = [] then none
  else some (s.takeWhile (· ≠ 10), (s.dropWhile (· ≠ 10)).drop 1)

theorem getline_lt {s line rest : List UInt8} (h : getline s = some (line, rest)) :
    rest.length < s.length := by
  unfold getline at h
  split at h
  · cases h
  · rename_i hne
    cases h
    have hle : (s.dropWhile (· ≠ 10)).length ≤ s.length := List.length_dropWhile_le _ _
    have hpos := List.length_pos_of_ne_nil hne
    rw [List.length_drop]
    omega

/-- The loop over the lines in the buffer: `readContent`, and the response if it has been received. -/
def readLines (readContent : Bool) (s : List UInt8) : Bool × Option (List UInt8) :=
  match _h : getline s with
  | none => (readContent, none)
  | some (line, rest) =>
    if readContent then (readContent, some line)
    else readLines (line = [13]) rest
termination_by s.length
decreasing_by exact getline_lt _h

/-- The loop that refills the buffer by `SSL_Session::read`. -/
def receive (readContent : Bool) (s : List UInt8) : List (List UInt8) → Option (List UInt8)
  | [] => (readLines readContent s).2
  | read :: reads =>
    match readLines readContent s with
    | (_, some line) => some line
    | (readContent, none) => receive readContent read reads

/-- The session is established; `reads` are what is read of it before it is closed. -/
def executeSSLRequest (reads : List (List UInt8)) : Bool × List UInt8 :=
  match readUntil [13, 10] [] reads with
  | none => (false, [])
  | some (response, reads) =>
    let (httpVersion, response) := extractWord response
    let (statusCode, response) := extractUnsigned response
    if statusCode = none ∨ httpVersion.take 5 ≠ bytes "HTTP/" then (false, [])
    else if statusCode ≠ some 200 then (false, [])
    else match receive false response reads with
      | none => (false, [])
      | some line => (true, line)

end Oreka.Client

/-!
## HTTP responses

A well-formed response, as it stands on the wire: the status line, the header fields, and the body.
-/

namespace Oreka.Client

open Serializers (bytes)

abbrev cr : UInt8 := 13
abbrev lf : UInt8 := 10
abbrev crlf : List UInt8 := [cr, lf]

/-- Text within one line. -/
def IsText (s : List UInt8) : Prop := cr ∉ s ∧ lf ∉ s

instance : DecidablePred IsText := fun _ => inferInstanceAs (Decidable (_ ∧ _))

/-- The version has two digits, the status code three. A header field is a line that is not empty. -/
structure HttpResponse where
  major : UInt8
  minor : UInt8
  code : List UInt8
  reason : List UInt8
  fields : List (List UInt8)
  body : List UInt8
  version_digits : isdigit major = true ∧ isdigit minor = true
  code_digits : code.length = 3 ∧ ∀ c ∈ code, isdigit c = true
  reason_text : IsText reason
  fields_text : ∀ f ∈ fields, f ≠ [] ∧ IsText f

namespace HttpResponse

variable (r : HttpResponse)

def version : List UInt8 := bytes "HTTP/" ++ [r.major, '.'.toUInt8, r.minor]

def statusLine : List UInt8 := r.version ++ ' '.toUInt8 :: (r.code ++ ' '.toUInt8 :: r.reason)

/-- The header fields and the empty line. -/
def fieldLines (fields : List (List UInt8)) : List UInt8 := (fields.flatMap fun f => f ++ crlf) ++ crlf

def head : List UInt8 := r.statusLine ++ crlf ++ fieldLines r.fields

def wire : List UInt8 := r.head ++ r.body

/-- The body is one line, with or without its terminator. -/
def OneLine (line : List UInt8) : Prop :=
  IsText line ∧ r.body ≠ [] ∧ ∃ terminator ∈ [[], [lf], crlf], r.body = line ++ terminator

end HttpResponse

/-- The line without its terminator. -/
def chomp (s : List UInt8) : List UInt8 := s.takeWhile fun c => c ≠ cr ∧ c ≠ lf

end Oreka.Client
