import Oreka.Client.OrkHttpClient

/-!
# What `ExecuteUrl` makes of what it receives

`received` is what the loop takes of the stream. Where this is the beginning of a response, the header is
what stands before the body (`foldl_wire`), and `succeeds_iff` says what becomes of it.
-/

namespace Oreka.Client

open Capture (Socket)
open Serializers (bytes)

/-! ## What is received -/

/-- The bytes of the reads that are in time. -/
def received (timeout : Int) (clock : Nat → Int) (n : Nat) (sock : Socket) (numReceived : Nat) :
    List UInt8 :=
  if _h : (aprSocketRecv sock numReceived).1 = .success ∧ clock n ≤ timeout then
    (aprSocketRecv sock numReceived).2.1 ++ received timeout clock (n + 1)
      (aprSocketRecv sock numReceived).2.2 (aprSocketRecv sock numReceived).2.1.length
  else []
termination_by sock.stream.length
decreasing_by exact Socket.recv_lt (recv_pos_of_success _h.1)

theorem recvLoop_eq (timeout : Int) (clock : Nat → Int) (n : Nat) (sock : Socket) (wanted : Nat)
    (s : HttpReader) : (recvLoop timeout clock n sock wanted s).2 =
      (received timeout clock n sock wanted).foldl HttpReader.next s := by
  fun_induction recvLoop timeout clock n sock wanted s with
  | case1 n sock wanted s h ih =>
    have hreceived : received timeout clock n sock wanted = (aprSocketRecv sock wanted).2.1 ++
        received timeout clock (n + 1) (aprSocketRecv sock wanted).2.2
          (aprSocketRecv sock wanted).2.1.length := by
      rw [received, dif_pos h]
    rw [ih, hreceived, List.foldl_append]
  | case2 n sock wanted s h =>
    have hreceived : received timeout clock n sock wanted = [] := by rw [received, dif_neg h]
    rw [hreceived]
    rfl

/-- A read takes bytes off the stream, unless that is over. -/
theorem aprSocketRecv_cases (sock : Socket) {wanted : Nat} (hwanted : 0 < wanted) (hcut : sock.WellCut) :
    (sock.stream = [] ∧ (aprSocketRecv sock wanted).1 ≠ .success) ∨
    ((aprSocketRecv sock wanted).1 = .success ∧ 0 < (aprSocketRecv sock wanted).2.1.length ∧
      sock.stream = (aprSocketRecv sock wanted).2.1 ++ (aprSocketRecv sock wanted).2.2.stream ∧
      (aprSocketRecv sock wanted).2.2.WellCut) := by
  unfold aprSocketRecv
  obtain ⟨hnil, hr⟩ | ⟨bytes, sock', hr, -, hst, hnext⟩ := sock.recv_cases wanted
  · refine .inl ⟨by simp [Socket.stream, hnil], ?_⟩
    rw [hr]
    cases sock.ending <;> simp [Capture.Ending.size]
  · have hpos : 0 < bytes.length := by
      refine List.length_pos_of_ne_nil fun h => ?_
      exact absurd ((hnext hcut).2 h) (Nat.ne_of_gt hwanted)
    rw [hr]
    exact .inr ⟨if_pos (Int.natCast_pos.2 hpos), hpos, hst, (hnext hcut).1⟩

theorem received_isPrefix (timeout : Int) (clock : Nat → Int) (n : Nat) (sock : Socket) (wanted : Nat)
    (hwanted : 0 < wanted) (hcut : sock.WellCut) :
    received timeout clock n sock wanted <+: sock.stream := by
  fun_induction received timeout clock n sock wanted with
  | case1 n sock wanted h ih =>
    obtain ⟨-, hfail⟩ | ⟨-, hpos, hst, hcut'⟩ := aprSocketRecv_cases sock hwanted hcut
    · exact absurd h.1 hfail
    · obtain ⟨rest, hrest⟩ := ih hpos hcut'
      exact ⟨rest, by rw [hst, ← hrest, List.append_assoc]⟩
  | case2 => exact List.nil_prefix

/-- In time, everything is received. -/
theorem received_eq {timeout : Int} {clock : Nat → Int} (hclock : ∀ n, clock n ≤ timeout) (n : Nat)
    (sock : Socket) (wanted : Nat) (hwanted : 0 < wanted) (hcut : sock.WellCut) :
    received timeout clock n sock wanted = sock.stream := by
  fun_induction received timeout clock n sock wanted with
  | case1 n sock wanted h ih =>
    obtain ⟨-, hfail⟩ | ⟨-, hpos, hst, hcut'⟩ := aprSocketRecv_cases sock hwanted hcut
    · exact absurd h.1 hfail
    · rw [ih hpos hcut', ← hst]
  | case2 n sock wanted h =>
    obtain ⟨hnil, -⟩ | ⟨hsuccess, -⟩ := aprSocketRecv_cases sock hwanted hcut
    · exact hnil.symm
    · exact absurd ⟨hsuccess, hclock n⟩ h

/-! ## The header -/

variable {h t : List UInt8}

theorem next_more {c : UInt8} (hmore : ¬ (4 < (h ++ [c]).length ∧ delimiter <:+ h ++ [c])) :
    HttpReader.next ⟨h, false, []⟩ c = ⟨h ++ [c], false, []⟩ := by
  simp only [HttpReader.next, decide_eq_false hmore, Bool.false_eq_true, if_false]

theorem next_last {c : UInt8} (hlast : 4 < (h ++ [c]).length ∧ delimiter <:+ h ++ [c]) :
    HttpReader.next ⟨h, false, []⟩ c = ⟨h ++ [c], true, []⟩ := by
  simp only [HttpReader.next, decide_eq_true hlast, Bool.false_eq_true, if_false]

theorem foldl_body (b : List UInt8) :
    t.foldl HttpReader.next ⟨h, true, b⟩ = ⟨h, true, b ++ t⟩ := by
  induction t generalizing b with
  | nil => simp
  | cons c t ih =>
    have hc : HttpReader.next ⟨h, true, b⟩ c = ⟨h, true, b ++ [c]⟩ := rfl
    rw [List.foldl_cons, hc, ih, List.append_assoc, List.singleton_append]

/-- The header ends with a line feed. -/
theorem foldl_text (ht : lf ∉ t) :
    t.foldl HttpReader.next ⟨h, false, []⟩ = ⟨h ++ t, false, []⟩ := by
  induction t generalizing h with
  | nil => simp
  | cons c t ih =>
    simp only [List.mem_cons, not_or] at ht
    have hmore : ¬ (4 < (h ++ [c]).length ∧ delimiter <:+ h ++ [c]) := by
      rintro ⟨-, u, hu⟩
      have hlast := congrArg List.getLast? hu
      simp only [List.getLast?_append, List.getLast?_singleton] at hlast
      exact ht.1 (by simpa using hlast)
    rw [List.foldl_cons, next_more hmore, ih ht.2, List.append_assoc, List.singleton_append]

/-- A line that is not empty is not the end of the header. -/
theorem foldl_line (ht : IsText t) (hne : t ≠ []) :
    (t ++ crlf).foldl HttpReader.next ⟨h, false, []⟩ = ⟨h ++ (t ++ crlf), false, []⟩ := by
  have hcr : lf ∉ t ++ [cr] := by
    simp only [List.mem_append, not_or]
    exact ⟨ht.2, by decide⟩
  have hmore : ¬ (4 < (h ++ (t ++ [cr]) ++ [lf]).length ∧ delimiter <:+ h ++ (t ++ [cr]) ++ [lf]) := by
    rintro ⟨-, u, hu⟩
    obtain ⟨t', c, hc⟩ := List.eq_nil_or_concat t |>.resolve_left hne
    rw [List.concat_eq_append] at hc
    have hlast : (u ++ [cr]) ++ [lf, cr, lf] = (h ++ t') ++ [c, cr, lf] := by
      simpa [hc] using hu
    obtain ⟨-, htail⟩ := List.append_inj' hlast rfl
    obtain ⟨rfl, -⟩ := List.cons_eq_cons.1 htail
    exact ht.2 (by simp [hc])
  have hsplit : t ++ crlf = (t ++ [cr]) ++ [lf] := by simp
  rw [hsplit, List.foldl_append, foldl_text hcr, List.foldl_cons, List.foldl_nil, next_more hmore,
    List.append_assoc]

/-- An empty line is. -/
theorem foldl_empty (hline : crlf <:+ h) (hlong : 2 < h.length) :
    crlf.foldl HttpReader.next ⟨h, false, []⟩ = ⟨h ++ crlf, true, []⟩ := by
  have hcr : [cr].foldl HttpReader.next ⟨h, false, []⟩ = ⟨h ++ [cr], false, []⟩ :=
    foldl_text (by decide)
  have hlast : 4 < (h ++ [cr] ++ [lf]).length ∧ delimiter <:+ h ++ [cr] ++ [lf] := by
    obtain ⟨u, rfl⟩ := hline
    refine ⟨by simp only [List.length_append, List.length_cons, List.length_nil] at hlong ⊢; omega, u, ?_⟩
    simp
  have hsplit : crlf = [cr] ++ [lf] := rfl
  rw [hsplit, List.foldl_append, hcr, List.foldl_cons, List.foldl_nil, next_last hlast, List.append_assoc]

theorem foldl_fields {fields : List (List UInt8)} (hfields : ∀ f ∈ fields, f ≠ [] ∧ IsText f)
    (hline : crlf <:+ h) (hlong : 2 < h.length) :
    (HttpResponse.fieldLines fields).foldl HttpReader.next ⟨h, false, []⟩ =
      ⟨h ++ HttpResponse.fieldLines fields, true, []⟩ := by
  induction fields generalizing h with
  | nil => exact foldl_empty hline hlong
  | cons f fields ih =>
    obtain ⟨⟨hne, hf⟩, hfields⟩ := List.forall_mem_cons.1 hfields
    have hcons : HttpResponse.fieldLines (f :: fields) = (f ++ crlf) ++ HttpResponse.fieldLines fields := by
      simp [HttpResponse.fieldLines]
    have hlong' : 2 < (h ++ (f ++ crlf)).length := by
      simp only [List.length_append]
      omega
    rw [hcons, List.foldl_append, foldl_line hf hne,
      ih hfields (List.suffix_append_of_suffix (List.suffix_append f crlf)) hlong', List.append_assoc]

namespace HttpResponse

variable (r : HttpResponse)

theorem isText_of_digits {s : List UInt8} (hs : ∀ c ∈ s, isdigit c = true) : IsText s := by
  constructor
  · intro hc
    cases hs cr hc
  · intro hc
    cases hs lf hc

theorem statusLine_text : IsText r.statusLine := by
  have hversion : IsText r.version := by
    obtain ⟨hmajor, hminor⟩ := isText_of_digits (s := [r.major, r.minor])
      (by simpa using r.version_digits)
    simp only [List.mem_cons, List.not_mem_nil, or_false, not_or] at hmajor hminor
    have hbytes : IsText (bytes "HTTP/" ++ ['.'.toUInt8]) := by decide
    simp only [version, IsText, List.mem_append, List.mem_cons, List.not_mem_nil, or_false, not_or] at hbytes ⊢
    tauto
  obtain ⟨hcr, hlf⟩ := isText_of_digits r.code_digits.2
  obtain ⟨hcr', hlf'⟩ := r.reason_text
  have hspace : cr ≠ ' '.toUInt8 ∧ lf ≠ ' '.toUInt8 := by decide
  simp only [statusLine, IsText, List.mem_append, List.mem_cons, not_or] at hversion ⊢
  tauto

theorem statusLine_ne : r.statusLine ≠ [] := by simp [statusLine]

/-- The header is what stands before the body. -/
theorem foldl_head : r.head.foldl HttpReader.next {} = ⟨r.head, true, []⟩ := by
  have hlong : 2 < (r.statusLine ++ crlf).length := by
    have hpos := List.length_pos_of_ne_nil r.statusLine_ne
    simp only [List.length_append, List.length_cons, List.length_nil]
    omega
  have hline : (r.statusLine ++ crlf).foldl HttpReader.next {} = ⟨r.statusLine ++ crlf, false, []⟩ :=
    foldl_line r.statusLine_text r.statusLine_ne
  rw [head, List.foldl_append, hline]
  exact foldl_fields r.fields_text (List.suffix_append _ _) hlong

end HttpResponse

/-- What has been read is in the header, until that is complete. -/
theorem foldl_split (t : List UInt8) :
    (t.foldl HttpReader.next {} = ⟨t, false, []⟩) ∨
      ∃ h b, t.foldl HttpReader.next {} = ⟨h, true, b⟩ ∧ h ++ b = t := by
  induction t using List.reverseRecOn with
  | nil => exact .inl rfl
  | append_singleton t c ih =>
    rw [List.foldl_append, List.foldl_cons, List.foldl_nil]
    obtain ih | ⟨h, b, ih, hsplit⟩ := ih
    · rw [ih]
      by_cases hlast : 4 < (t ++ [c]).length ∧ delimiter <:+ t ++ [c]
      · exact .inr ⟨t ++ [c], [], next_last hlast, List.append_nil _⟩
      · exact .inl (next_more hlast)
    · rw [ih]
      exact .inr ⟨h, b ++ [c], rfl, by rw [← hsplit, List.append_assoc]⟩

namespace HttpResponse

variable (r : HttpResponse)

/-- Of the beginning of a response. -/
theorem foldl_wire {x : List UInt8} (hx : x <+: r.wire) :
    x.foldl HttpReader.next {} = if r.head.length ≤ x.length then ⟨r.head, true, x.drop r.head.length⟩
      else ⟨x, false, []⟩ := by
  by_cases hlen : r.head.length ≤ x.length
  · obtain ⟨y, rfl⟩ := List.prefix_of_prefix_length_le (List.prefix_append r.head r.body) hx hlen
    rw [if_pos hlen, List.foldl_append, foldl_head, foldl_body, List.nil_append, List.drop_left]
  · rw [if_neg hlen]
    obtain ⟨y, hy⟩ := List.prefix_of_prefix_length_le hx (List.prefix_append r.head r.body)
      (Nat.le_of_not_le hlen)
    obtain hopen | ⟨h, b, hclosed, hsplit⟩ := foldl_split x
    · exact hopen
    · -- A header that is complete here would stay as it is.
      have hhead := r.foldl_head
      rw [← hy, List.foldl_append, hclosed, foldl_body] at hhead
      have hheader : h = r.head := (congrArg HttpReader.header hhead).trans hy
      rw [← hsplit, hheader, List.length_append] at hlen
      omega

theorem length_version : r.version.length = 8 := by simp [version, bytes]

theorem length_head : 13 ≤ r.head.length := by
  simp only [head, statusLine, List.length_append, List.length_cons, length_version, r.code_digits.1]
  omega

/-- The status stands in the header as soon as it has been read. -/
theorem hasStatus_iff {x : List UInt8} (hx : x <+: r.wire) (hlong : 12 ≤ x.length) (code : List UInt8) :
    hasStatus x code ↔ r.code = code := by
  have hwire : r.wire = (r.version ++ [' '.toUInt8]) ++ (r.code ++
      (' '.toUInt8 :: r.reason ++ crlf ++ fieldLines r.fields ++ r.body)) := by
    simp [wire, head, statusLine]
  have htake : (x.drop 9).take 3 = r.code := by
    obtain ⟨y, hy⟩ := hx
    have hx' : (x.drop 9).take 3 = (r.wire.drop 9).take 3 := by
      rw [← hy, List.drop_append_of_le_length (by omega), List.take_append_of_le_length]
      rw [List.length_drop]
      omega
    have hlen : (r.version ++ [' '.toUInt8]).length = 9 := by
      rw [List.length_append, length_version]
      rfl
    rw [hx', hwire, ← hlen, List.drop_left, ← r.code_digits.1, List.take_left]
  rw [hasStatus, htake]

/-- What `ExecuteUrl` says of the beginning of a response. -/
def Accepted (n : Nat) : Prop :=
  r.code = bytes "400" ∧ 12 < n ∨ r.code = bytes "200" ∧ r.head.length < n

instance (n : Nat) : Decidable (r.Accepted n) := inferInstanceAs (Decidable (_ ∨ _))

theorem succeeds_iff {x : List UInt8} (hx : x <+: r.wire) :
    (x.foldl HttpReader.next {}).succeeds = true ↔ r.Accepted x.length := by
  rw [r.foldl_wire hx]
  by_cases hlen : r.head.length ≤ x.length
  · have hhead := r.length_head
    have hstatus := r.hasStatus_iff (List.prefix_append r.head r.body) (Nat.le_of_lt hhead)
    have hresponse : x.drop r.head.length = [] ↔ ¬ r.head.length < x.length := by
      rw [List.drop_eq_nil_iff, Nat.not_lt]
    rw [if_pos hlen, HttpReader.succeeds, Accepted]
    simp only [hstatus, hresponse]
    split
    · rename_i h
      exact iff_of_true rfl (.inl ⟨h.2, by omega⟩)
    · rename_i h
      have hnot : r.code ≠ bytes "400" := fun hc => h ⟨by omega, hc⟩
      split
      · refine iff_of_false Bool.false_ne_true ?_
        rintro (⟨hc, -⟩ | ⟨-, hlt⟩)
        · exact hnot hc
        · omega
      · split
        · rename_i hc
          refine iff_of_false Bool.false_ne_true ?_
          rintro (⟨hc', -⟩ | ⟨hc', -⟩)
          · exact hnot hc'
          · exact hc hc'
        · rename_i hshort hc
          exact iff_of_true rfl (.inr ⟨not_not.1 hc, by omega⟩)
  · rw [if_neg hlen, HttpReader.succeeds, Accepted]
    split
    · rename_i h
      exact iff_of_true rfl (.inl ⟨(r.hasStatus_iff hx (Nat.le_of_lt h.1) _).1 h.2, h.1⟩)
    · rename_i h
      rw [if_pos (.inr rfl)]
      refine iff_of_false Bool.false_ne_true ?_
      rintro (⟨hc, hlong⟩ | ⟨-, hlt⟩)
      · exact h ⟨hlong, (r.hasStatus_iff hx (Nat.le_of_lt hlong) _).2 hc⟩
      · omega

end HttpResponse

/-! ## ExecuteUrl -/

/-- `if(timeout < 1){timeout = 1;}` -/
abbrev atLeastOne (timeout : Int) : Int := if timeout < 1 then 1 else timeout

/-- How the loop ended. -/
def Connection.status (timeout : Int) (conn : Connection) : AprStatus :=
  (recvLoop (atLeastOne timeout) conn.clock 0 conn.sock bufSize {}).1

/-- What is received of a connection in time. -/
def Connection.received (timeout : Int) (conn : Connection) : List UInt8 :=
  Client.received (atLeastOne timeout) conn.clock 0 conn.sock bufSize

theorem executeUrl_eq (timeout : Int) (conn : Connection) : executeUrl timeout conn =
    (((conn.received timeout).foldl HttpReader.next {}).succeeds,
      ((conn.received timeout).foldl HttpReader.next {}).response) := by
  rw [executeUrl, recvLoop_eq]
  rfl

/-- **What `ExecuteUrl` says of what it has received**, however that was cut and however it ended. -/
theorem executeUrl_succeeds_iff (r : HttpResponse) (timeout : Int) (conn : Connection)
    (hcut : conn.sock.WellCut) (hwire : conn.sock.stream <+: r.wire) :
    (executeUrl timeout conn).1 = true ↔ r.Accepted (conn.received timeout).length := by
  rw [executeUrl_eq]
  exact r.succeeds_iff ((received_isPrefix _ _ _ _ _ (by decide) hcut).trans hwire)

/-- The whole response, in time. -/
theorem executeUrl_wire (r : HttpResponse) {timeout : Int} {conn : Connection} (hcut : conn.sock.WellCut)
    (hwire : conn.sock.stream = r.wire) (hclock : ∀ n, conn.clock n ≤ atLeastOne timeout)
    (hcode : r.code = bytes "200") (hbody : r.body ≠ []) : executeUrl timeout conn = (true, r.body) := by
  have hreceived : conn.received timeout = r.wire :=
    (received_eq hclock 0 conn.sock bufSize (by decide) hcut).trans hwire
  have hlen : r.head.length ≤ r.wire.length := by simp [HttpResponse.wire]
  have hdrop : r.wire.drop r.head.length = r.body := List.drop_left
  have hsucceeds : (r.wire.foldl HttpReader.next {}).succeeds = true := by
    refine (r.succeeds_iff (List.prefix_refl _)).2 (.inr ⟨hcode, ?_⟩)
    rw [HttpResponse.wire, List.length_append]
    exact Nat.lt_add_of_pos_right (List.length_pos_of_ne_nil hbody)
  rw [executeUrl_eq, hreceived, hsucceeds, r.foldl_wire (List.prefix_refl _), if_pos hlen, hdrop]

end Oreka.Client
