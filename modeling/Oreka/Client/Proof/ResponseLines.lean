import Oreka.Client.Proof.PlainReads
import Oreka.Client.Proof.TlsReads

/-!
# The response line, however the response is cut

`ExecuteUrl` gives the body whatever the reads, but does not ask how they ended; `ExecuteSSLRequest` gives
the body line where the reads leave the lines whole. `responses_iff` says exactly when.
-/

namespace Oreka.Client

open Serializers (bytes isspace)

/-! ## The status line -/

variable {s y : List UInt8} {reads : List (List UInt8)}

/-- The first CR LF is the one behind the text. -/
theorem crlf_infix_iff {text : List UInt8} (htext : IsText text) (hs : s <+: (text ++ crlf) ++ y) :
    crlf <:+: s ↔ (text ++ crlf).length ≤ s.length := by
  constructor
  · intro h
    by_contra hlen
    have hshort : s <+: text ++ [cr] := by
      refine List.prefix_of_prefix_length_le hs ⟨lf :: y, by simp⟩ ?_
      simp only [List.length_append, List.length_cons, List.length_nil] at hlen ⊢
      omega
    have hmem : lf ∈ text ++ [cr] := hshort.subset (h.subset (by simp))
    simp only [List.mem_append, List.mem_singleton] at hmem
    obtain hmem | hmem := hmem
    · exact htext.2 hmem
    · cases hmem
  · intro hlen
    obtain ⟨c, rfl⟩ := List.prefix_of_prefix_length_le (List.prefix_append (text ++ crlf) y) hs hlen
    exact ⟨text, c, rfl⟩

/-- `read_until` reads up to the end of the status line, and maybe more. -/
theorem readUntil_line {text : List UInt8} (htext : IsText text) (hreads : ∀ read ∈ reads, read ≠ [])
    (hs : s ++ reads.flatten = (text ++ crlf) ++ y) :
    ∃ s' reads', readUntil crlf s reads = some ((text ++ crlf) ++ s', reads') ∧
      (∀ read ∈ reads', read ≠ []) ∧ s' ++ reads'.flatten = y ∧
      ∀ k, Begins s'.length reads' k ↔ Begins s.length reads ((text ++ crlf).length + k) := by
  have hfound := crlf_infix_iff htext (hs ▸ List.prefix_append s reads.flatten)
  induction reads generalizing s with
  | nil =>
    have hs' : s = (text ++ crlf) ++ y := by simpa using hs
    have hlen : (text ++ crlf).length ≤ s.length := hs' ▸ (List.prefix_append _ y).length_le
    refine ⟨y, [], by rw [readUntil, if_pos (hfound.2 hlen), hs'], hreads, by simp, fun k => Iff.rfl⟩
  | cons read reads ih =>
    by_cases h : crlf <:+: s
    · obtain ⟨c, rfl⟩ := List.prefix_of_prefix_length_le (List.prefix_append (text ++ crlf) y)
        (hs ▸ List.prefix_append s (read :: reads).flatten) (hfound.1 h)
      refine ⟨c, read :: reads, by rw [readUntil, if_pos h], hreads, ?_, fun k => ?_⟩
      · rw [List.append_assoc] at hs
        exact List.append_cancel_left hs
      · rw [List.length_append, begins_add]
    · have hs' : (s ++ read) ++ reads.flatten = (text ++ crlf) ++ y := by simpa using hs
      obtain ⟨s', reads', heq, hreads', hy, hbegins⟩ := ih (List.forall_mem_cons.1 hreads).2 hs'
        (crlf_infix_iff htext (hs' ▸ List.prefix_append (s ++ read) reads.flatten))
      refine ⟨s', reads', by rw [readUntil, if_neg h, heq], hreads', hy, fun k => ?_⟩
      have hlen : ¬ (text ++ crlf).length + k = s.length := fun he => h (hfound.2 (by omega))
      rw [hbegins, List.length_append, Begins]
      exact (or_iff_right hlen).symm

namespace HttpResponse

variable (r : HttpResponse)

theorem version_not_space : ∀ c ∈ r.version, (!isspace c) = true := by
  have hdigit {c : UInt8} (hc : isdigit c = true) : (!isspace c) = true := by
    simp only [isdigit, isspace, Bool.and_eq_true, decide_eq_true_eq, Bool.not_eq_true', Bool.or_eq_false_iff,
      Bool.and_eq_false_iff, decide_eq_false_iff_not, beq_eq_false_iff_ne, UInt8.le_iff_toNat_le, ne_eq,
      ← UInt8.toNat_inj] at hc ⊢
    simp at hc ⊢
    omega
  intro c hc
  simp only [version, List.mem_append, List.mem_cons, List.not_mem_nil, or_false] at hc
  obtain hc | rfl | rfl | rfl := hc
  · revert c
    decide +kernel
  · exact hdigit r.version_digits.1
  · rfl
  · exact hdigit r.version_digits.2

/-- `response_stream >> http_version`. -/
theorem extractWord_statusLine (z : List UInt8) : extractWord (r.statusLine ++ z) =
    (r.version, ' '.toUInt8 :: (r.code ++ ' '.toUInt8 :: r.reason) ++ z) := by
  have hline : r.statusLine ++ z =
      r.version ++ (' '.toUInt8 :: (r.code ++ ' '.toUInt8 :: r.reason) ++ z) := by
    simp [statusLine]
  have hfirst : (r.statusLine ++ z).dropWhile isspace = r.statusLine ++ z := rfl
  rw [extractWord, hfirst, hline, List.takeWhile_append_of_pos r.version_not_space,
    List.dropWhile_append_of_pos r.version_not_space]
  have hspace : (!isspace ' '.toUInt8) = false := rfl
  simp [hspace]

/-- `response_stream >> status_code`. -/
theorem extractUnsigned_ok (z : List UInt8) :
    extractUnsigned (' '.toUInt8 :: (bytes "200" ++ ' '.toUInt8 :: z)) = (some 200, ' '.toUInt8 :: z) := rfl

/-- What is done with the status line of a response with status 200. -/
theorem executeSSLRequest_eq (hreads : ∀ read ∈ reads, read ≠ []) (hwire : reads.flatten = r.wire)
    (hcode : r.code = bytes "200") :
    ∃ s reads', (∀ read ∈ reads', read ≠ []) ∧ s ++ reads'.flatten = fieldLines r.fields ++ r.body ∧
      (executeSSLRequest reads = match receive false s reads' with
        | none => (false, [])
        | some line => (true, line)) ∧
      ∀ k, Begins s.length reads' k ↔ Begins 0 reads ((r.statusLine ++ crlf).length + k) := by
  have hs : [] ++ reads.flatten = (r.statusLine ++ crlf) ++ (fieldLines r.fields ++ r.body) := by
    rw [List.nil_append, hwire, wire, head, List.append_assoc]
  obtain ⟨s, reads', hread, hreads', hy, hbegins⟩ := readUntil_line r.statusLine_text hreads hs
  refine ⟨s, reads', hreads', hy, ?_, hbegins⟩
  have hword := r.extractWord_statusLine (crlf ++ s)
  have hrest : lf ∉ ' '.toUInt8 :: (r.reason ++ [cr]) := by
    simp only [List.mem_cons, List.mem_append, List.not_mem_nil, or_false, not_or]
    exact ⟨by decide, r.reason_text.2, by decide⟩
  have hget : getline (' '.toUInt8 :: (r.reason ++ (crlf ++ s))) = some (' '.toUInt8 :: (r.reason ++ [cr]), s) := by
    have hline : ' '.toUInt8 :: (r.reason ++ (crlf ++ s)) = (' '.toUInt8 :: (r.reason ++ [cr])) ++ lf :: s := by
      simp
    rw [hline]
    exact getline_line hrest
  have hfalse : decide (' '.toUInt8 :: (r.reason ++ [cr]) = [13]) = false := by
    refine decide_eq_false fun h => ?_
    cases h
  have hreceive : receive false (' '.toUInt8 :: (r.reason ++ (crlf ++ s))) reads' = receive false s reads' := by
    rw [receive_header hget, hfalse]
  rw [hcode] at hword
  have hnumber := extractUnsigned_ok (r.reason ++ (crlf ++ s))
  have hsplit : ' '.toUInt8 :: (bytes "200" ++ ' '.toUInt8 :: r.reason) ++ (crlf ++ s) =
      ' '.toUInt8 :: (bytes "200" ++ ' '.toUInt8 :: (r.reason ++ (crlf ++ s))) := by
    simp
  have hversion : r.version.take 5 = bytes "HTTP/" := rfl
  rw [hsplit] at hword
  rw [executeSSLRequest, hread, List.append_assoc]
  simp only [hword, hnumber, hversion, hreceive]
  rfl

/-- Where reads begin, behind the status line. -/
def Cut (reads : List (List UInt8)) (k : Nat) : Prop := Begins 0 reads ((r.statusLine ++ crlf).length + k)

instance (reads : List (List UInt8)) : DecidablePred (r.Cut reads) :=
  fun k => inferInstanceAs (Decidable (Begins 0 reads ((r.statusLine ++ crlf).length + k)))

/-- The whole response, in time, and then the end of file. -/
structure Delivered (timeout : Int) (conn : Connection) : Prop where
  stream : conn.sock.stream = r.wire
  wellCut : conn.sock.WellCut
  closed : conn.sock.ending = .closed
  inTime : ∀ n, conn.clock n ≤ atLeastOne timeout

/-- The loop over a response ends, but not at the end of file. -/
structure CutOff (timeout : Int) (conn : Connection) : Prop where
  stream : conn.sock.stream <+: r.wire
  wellCut : conn.sock.WellCut
  status : conn.status timeout ≠ .eof

end HttpResponse

/-- Both have succeeded, with the same line. -/
def SameLine (plain tls : Bool × List UInt8) : Prop :=
  plain.1 = true ∧ tls.1 = true ∧ chomp plain.2 = chomp tls.2

instance (plain tls : Bool × List UInt8) : Decidable (SameLine plain tls) :=
  inferInstanceAs (Decidable (_ ∧ _))

theorem terminator_head {terminator : List UInt8} (h : terminator ∈ [[], [lf], crlf]) :
    ∀ c ∈ terminator.head?, c = cr ∨ c = lf := by
  simp only [List.mem_cons, List.not_mem_nil, or_false] at h
  obtain rfl | rfl | rfl := h
  · simp
  · simp
  · simp

/-- **Both clients get the response line** of a delivered response exactly where the TLS reads leave the
lines whole, or what is taken instead is the same. **A response that is cut off** is not taken for a success
exactly where neither status 400 nor, with status 200, some of the body has been received. -/
theorem responses_iff (r : HttpResponse) (timeout : Int) :
    (∀ line conn reads, r.code = bytes "200" → r.OneLine line → r.Delivered timeout conn →
      reads.flatten = r.wire → (∀ read ∈ reads, read ≠ []) →
      (SameLine (executeUrl timeout conn) (executeSSLRequest reads) ↔
        Whole line (r.Cut reads) r.fields ∨ Coincides line (r.Cut reads) r.fields)) ∧
    (∀ conn, r.CutOff timeout conn →
      ((executeUrl timeout conn).1 = false ↔ ¬ r.Accepted (conn.received timeout).length)) := by
  constructor
  · rintro line conn reads hcode ⟨hline, hne, terminator, hterminator, hbody⟩ hconn hwire hreads
    obtain ⟨s, reads', hreads', hs, heq, hbegins⟩ := r.executeSSLRequest_eq hreads hwire hcode
    have hhead := terminator_head hterminator
    have hcut : Begins s.length reads' = r.Cut reads := funext fun k => propext (hbegins k)
    rw [hbody] at hne hs
    rw [executeUrl_wire r hconn.wellCut hconn.stream hconn.inTime hcode (hbody ▸ hne), SameLine, heq,
      ← hcut, ← receive_iff hreads' r.fields_text hline hhead hne hs, hbody, chomp_text hline hhead]
    cases receive false s reads' with
    | none => simp
    | some l => simp [eq_comm]
  · intro conn hconn
    rw [← executeUrl_succeeds_iff r timeout conn hconn.wellCut hconn.stream, Bool.not_eq_true]

/-- A response with one field. -/
def okResponse : HttpResponse where
  major := '1'.toUInt8
  minor := '1'.toUInt8
  code := bytes "200"
  reason := bytes "OK"
  fields := [bytes "Content-Length: 4"]
  body := bytes "ok" ++ crlf
  version_digits := by decide
  code_digits := by decide +kernel
  reason_text := by decide
  fields_text := by decide

/-- The whole of it, a byte at a time, and the beginning of it, before the connection is lost. -/
def slowConnection : Connection := ⟨⟨okResponse.wire.map fun c => [c], .closed⟩, fun _ => 4⟩
def lostConnection : Connection := ⟨⟨[okResponse.wire.take 30], .error⟩, fun _ => 1⟩

/-- Reads that begin behind the lines, and between the CR and LF of the field. -/
def tlsReads : List (List UInt8) :=
  [okResponse.wire.take 5, (okResponse.wire.drop 5).take 30, (okResponse.wire.drop 35).take 1,
    (okResponse.wire.drop 36).take 2, okResponse.wire.drop 38]

theorem slowConnection_delivered : okResponse.Delivered 5 slowConnection :=
  ⟨by decide, by decide, rfl, fun _ => (by decide : (4 : Int) ≤ atLeastOne 5)⟩

theorem responses_ok : SameLine (executeUrl 5 slowConnection) (executeSSLRequest tlsReads) ∧
    (executeUrl 5 lostConnection).1 = false := by
  have hline : okResponse.OneLine (bytes "ok") := ⟨by decide, by decide, crlf, by simp, rfl⟩
  have hlost : okResponse.CutOff 5 lostConnection :=
    ⟨by decide +kernel, by decide +kernel, by decide +kernel⟩
  exact ⟨((responses_iff okResponse 5).1 _ _ _ rfl hline slowConnection_delivered (by decide)
      (by decide)).2 (.inl (by decide)),
    ((responses_iff okResponse 5).2 lostConnection hlost).2 (by decide +kernel)⟩

/-- The beginning of it and one byte of the body. -/
def tornConnection : Connection := ⟨⟨[okResponse.wire.take 39], .error⟩, fun _ => 1⟩

/-- A read that begins within the body line; a connection that is lost there. -/
theorem not_responses :
    (okResponse.Delivered 5 slowConnection ∧ ¬ SameLine (executeUrl 5 slowConnection)
      (executeSSLRequest [okResponse.wire.take 39, okResponse.wire.drop 39])) ∧
    okResponse.CutOff 5 tornConnection ∧ (executeUrl 5 tornConnection).1 = true :=
  ⟨⟨slowConnection_delivered, by decide +kernel⟩,
    ⟨by decide +kernel, by decide +kernel, by decide +kernel⟩, by decide +kernel⟩

end Oreka.Client
