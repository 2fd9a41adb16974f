import Oreka.Sip.Proof.Framing

/-!
# SIP over TCP, however it is cut into segments

The requests of a connection arrive in `Piece`s, in order, the first of which begins with a method
name and none of the others where a request begins. `trySegments_delivers_iff` says exactly when every
request is handed over, once and in full: when the sequence numbers do not wrap before the last piece
begins, the pieces fit a buffer, and none but the last comes 60 seconds after the first.

While that is so, the one stream of the connection is `At` the number of bytes that have arrived, and
every piece takes it on (`At.feed`). A piece that is not taken leaves fewer bytes to hand over than
the requests have (`outputs_le`).
-/

namespace Oreka.Sip

/-! ## Pieces -/

/-- What a segment brings, and when. -/
structure Piece where
  payload : List UInt8
  payload_lt : payload.length < 65536
  behind : List UInt8 := []
  now : Int := 0

/-- How many bytes the pieces bring. -/
def size (ps : List Piece) : Nat := (ps.map Piece.payload).flatten.length

@[simp] theorem size_cons (p : Piece) (ps : List Piece) :
    size (p :: ps) = p.payload.length + size ps := by simp [size]

@[simp] theorem size_nil : size [] = 0 := rfl

/-- The segment of a piece. -/
def segment (ends : Ends) (seq : UInt32) (p : Piece) : TcpSegment :=
  { ends, seq, payload := p.payload, payload_lt := p.payload_lt, behind := p.behind, now := p.now }

/-- The segments of a connection, from a sequence number on. -/
def segments (ends : Ends) : UInt32 → List Piece → List TcpSegment
  | _, [] => []
  | seq, p :: ps => segment ends seq p :: segments ends (seq + UInt32.ofNat p.payload.length) ps

/-- The requests are handed over, each once and in full, and nothing else is. -/
def Delivered (env : Env) (streams : List SipTcpStream) (segs : List TcpSegment)
    (rs : List SipRequest) : Prop :=
  ∃ streams', trySegments env streams segs = some (streams', frames rs)

/-- The condition of `trySegments_delivers_iff`: `first` is the first piece, `ps` are the others. -/
def InSequence (seq : UInt32) (first : Piece) (ps : List Piece) : Prop :=
  ps = [] ∨
    (seq.toNat + size (first :: ps.dropLast) < 4294967296 ∧
      size (first :: ps) + 1 < 2147483648 ∧
      ∀ p ∈ ps.dropLast, p.now - first.now < 60)

/-- The same, piece by piece, with `n` bytes arrived since the sequence number `q`. -/
def Goes (q : Nat) (t : Int) : Nat → List Piece → Prop
  | _, [] => True
  | n, p :: ps =>
    q + n < 4294967296 ∧ n + p.payload.length + 1 < 2147483648 ∧ (ps = [] ∨ p.now - t < 60) ∧
      Goes q t (n + p.payload.length) ps

theorem goes_iff (q : Nat) (t : Int) (n : Nat) (ps : List Piece) :
    Goes q t n ps ↔ ps = [] ∨ (q + (n + size ps.dropLast) < 4294967296 ∧
      n + size ps + 1 < 2147483648 ∧ ∀ p ∈ ps.dropLast, p.now - t < 60) := by
  induction ps generalizing n with
  | nil => simp [Goes]
  | cons p ps ih =>
    cases ps with
    | nil => simp [Goes]
    | cons p' ps =>
      rw [Goes, ih]
      simp only [List.dropLast_cons_cons, List.mem_cons, size_cons, List.cons_ne_nil, false_or,
        forall_eq_or_imp]
      constructor
      · rintro ⟨-, -, ht, hq, hs, hall⟩
        exact ⟨by omega, by omega, ht, hall⟩
      · rintro ⟨hq, hs, ht, hall⟩
        exact ⟨by omega, by omega, ht, by omega, by omega, hall⟩

/-! ## Streams of other connections -/

/-- The streams of a connection. -/
def ofEnds (ends : Ends) (streams : List SipTcpStream) : List SipTcpStream :=
  streams.filter fun s => s.ends = ends

theorem ofEnds_append (ends : Ends) (ss ss' : List SipTcpStream) :
    ofEnds ends (ss ++ ss') = ofEnds ends ss ++ ofEnds ends ss' := List.filter_append ..

theorem isDuplicate_ofEnds (ss : List SipTcpStream) (seg : TcpSegment) :
    isDuplicate (ofEnds seg.ends ss) seg = isDuplicate ss seg := by
  unfold isDuplicate ofEnds
  rw [List.any_filter]
  congr 1
  funext s
  by_cases h : s.ends = seg.ends <;> simp [h]

theorem ofEnds_keepStream (s : SipTcpStream) (ends : Ends) (now : Int) :
    ofEnds ends (keepStream s now) = if s.ends = ends then keepStream s now else [] := by
  unfold keepStream ofEnds
  split <;> by_cases h : s.ends = ends <;> simp [h]

theorem visitStreams_cons (env : Env) (seg : TcpSegment) (s : SipTcpStream)
    (ss : List SipTcpStream) : visitStreams env seg (s :: ss) =
      (visitStream env s seg).bind fun r =>
        (visitStreams env seg ss).map fun r' => (r.1 ++ r'.1, r.2 ++ r'.2) := rfl

theorem visitStreams_ofEnds (env : Env) (seg : TcpSegment) (ss : List SipTcpStream) :
    (visitStreams env seg ss).map (fun r => (ofEnds seg.ends r.1, r.2)) =
      visitStreams env seg (ofEnds seg.ends ss) := by
  induction ss with
  | nil => rfl
  | cons s ss ih =>
    by_cases h : s.ends = seg.ends
    · have hcons : ofEnds seg.ends (s :: ss) = s :: ofEnds seg.ends ss := by simp [ofEnds, h]
      have hkeep : ∀ r, visitStream env s seg = some r → ofEnds seg.ends r.1 = r.1 := by
        intro r hr
        unfold visitStream at hr
        split at hr
        · rw [Option.map_eq_some_iff] at hr
          obtain ⟨a, ha, rfl⟩ := hr
          have hends : a.1.ends = seg.ends := by
            unfold addToStream at ha
            rw [Option.bind_eq_some_iff] at ha
            obtain ⟨b, -, hb⟩ := ha
            rw [Option.map_eq_some_iff] at hb
            obtain ⟨c, -, rfl⟩ := hb
            exact h
          simp [ofEnds_keepStream, hends]
        · cases hr
          simp [ofEnds_keepStream, h]
      rw [hcons, visitStreams_cons, visitStreams_cons, ← ih]
      cases hv : visitStream env s seg with
      | none => rfl
      | some r =>
        have hr := hkeep r hv
        cases visitStreams env seg ss with
        | none => rfl
        | some r' => simp [ofEnds_append, hr]
    · have hcons : ofEnds seg.ends (s :: ss) = ofEnds seg.ends ss := by simp [ofEnds, h]
      have hv : visitStream env s seg = some (keepStream s seg.now, []) := by
        simp [visitStream, h]
      rw [hcons, ← ih, visitStreams_cons, hv]
      cases visitStreams env seg ss with
      | none => rfl
      | some r' => simp [ofEnds_append, ofEnds_keepStream, h]

theorem trySipTcp_ofEnds (env : Env) (seg : TcpSegment) (ss : List SipTcpStream) :
    (trySipTcp env ss seg).map (fun r => (ofEnds seg.ends r.1, r.2)) =
      trySipTcp env (ofEnds seg.ends ss) seg := by
  unfold trySipTcp
  rw [isDuplicate_ofEnds]
  split
  · rfl
  · split
    · unfold openStream
      cases parseSipStream env (seg.payload ++ seg.behind) seg.payload.length with
      | none => rfl
      | some r =>
        simp only [Option.map_some]
        split
        · rw [ofEnds_append]
          simp [ofEnds]
        · rfl
    · exact visitStreams_ofEnds env seg ss

/-- What other connections have left has no part in what a connection's segments give. -/
theorem trySegments_ofEnds (env : Env) (ends : Ends) (ss : List SipTcpStream)
    (segs : List TcpSegment) (h : ∀ seg ∈ segs, seg.ends = ends) :
    (trySegments env ss segs).map (fun r => (ofEnds ends r.1, r.2)) =
      trySegments env (ofEnds ends ss) segs := by
  induction segs generalizing ss with
  | nil => rfl
  | cons seg segs ih =>
    have hseg : seg.ends = ends := h seg (List.mem_cons_self ..)
    have hsegs : ∀ seg ∈ segs, seg.ends = ends := fun x hx => h x (List.mem_cons_of_mem _ hx)
    have hstep := trySipTcp_ofEnds env seg ss
    rw [hseg] at hstep
    unfold trySegments
    rw [← hstep]
    cases trySipTcp env ss seg with
    | none => rfl
    | some r =>
      have hrec := ih r.1 hsegs
      simp only [Option.map_some, Option.bind_some, ← hrec]
      cases trySegments env r.1 segs with
      | none => rfl
      | some r' => rfl

theorem segments_ends (ends : Ends) (seq : UInt32) (ps : List Piece) :
    ∀ seg ∈ segments ends seq ps, seg.ends = ends := by
  induction ps generalizing seq with
  | nil => simp [segments]
  | cons p ps ih =>
    intro seg h
    rcases List.mem_cons.1 h with rfl | h
    · rfl
    · exact ih _ seg h

theorem delivered_ofEnds (env : Env) (ends : Ends) (ss : List SipTcpStream) (seq : UInt32)
    (ps : List Piece) (rs : List SipRequest) (h : ∀ s ∈ ss, s.ends ≠ ends) :
    Delivered env ss (segments ends seq ps) rs ↔ Delivered env [] (segments ends seq ps) rs := by
  have hnil : ofEnds ends ss = [] := by
    refine List.filter_eq_nil_iff.2 fun s hs => ?_
    simpa using h s hs
  have hrun := trySegments_ofEnds env ends ss _ (segments_ends ends seq ps)
  rw [hnil] at hrun
  unfold Delivered
  rw [← hrun]
  constructor
  · rintro ⟨ss', hss'⟩
    exact ⟨ofEnds ends ss', by rw [hss']; rfl⟩
  · rintro ⟨ss', hss'⟩
    rw [Option.map_eq_some_iff] at hss'
    obtain ⟨⟨ss'', out⟩, hr, he⟩ := hss'
    cases he
    exact ⟨ss'', hr⟩

/-! ## One segment and the stream of its connection -/

variable {env : Env} {s s' : SipTcpStream} {seg : TcpSegment} {ends : Ends}

theorem trySipTcp_nil (hno : opensStream seg.payload = false) :
    trySipTcp env [] seg = some ([], []) := by
  simp [trySipTcp, isDuplicate, hno, visitStreams]

theorem trySegments_nil {segs : List TcpSegment}
    (hno : ∀ seg ∈ segs, opensStream seg.payload = false) :
    trySegments env [] segs = some ([], []) := by
  induction segs with
  | nil => rfl
  | cons seg segs ih =>
    unfold trySegments
    rw [trySipTcp_nil (hno seg (List.mem_cons_self ..))]
    simp [ih fun x hx => hno x (List.mem_cons_of_mem _ hx)]

theorem visitStreams_single : visitStreams env seg [s] = visitStream env s seg := by
  rw [visitStreams_cons]
  cases visitStream env s seg with
  | none => rfl
  | some r => simp [visitStreams]

theorem trySipTcp_duplicate (hends : s.ends = seg.ends) (hdup : s.lastSeqNo ≥ seg.seq.toUInt64) :
    trySipTcp env [s] seg = some ([s], []) := by
  simp [trySipTcp, isDuplicate, hends, hdup]

theorem trySipTcp_take (hends : s.ends = seg.ends) (hno : opensStream seg.payload = false)
    (hdup : ¬ s.lastSeqNo ≥ seg.seq.toUInt64) (hexp : s.expectingSeqNo = seg.seq.toUInt64) :
    trySipTcp env [s] seg =
      (addToStream env s seg).map fun r => (keepStream r.1 seg.now, r.2) := by
  unfold trySipTcp
  rw [hno, visitStreams_single]
  simp [isDuplicate, hdup, visitStream, hends, hexp]

theorem trySipTcp_pass (hno : opensStream seg.payload = false)
    (hdup : ¬ s.lastSeqNo ≥ seg.seq.toUInt64) (hexp : s.expectingSeqNo ≠ seg.seq.toUInt64) :
    trySipTcp env [s] seg = some (keepStream s seg.now, []) := by
  unfold trySipTcp
  rw [hno, visitStreams_single]
  simp [isDuplicate, hdup, visitStream, hexp]

theorem addToStream_eq {buffer : List UInt8} {out : List (List UInt8)} {off : Nat}
    (hadd : safeBufferAdd s.buffer seg.payload = some buffer)
    (hparse : parseSipStream env (buffer.drop s.offset) (buffer.length - s.offset) =
      some (out, off)) :
    addToStream env s seg = some ({ s with
      buffer := buffer
      offset := s.offset + off
      expectingSeqNo := s.expectingSeqNo + UInt64.ofNat seg.payload.length }, out) := by
  unfold addToStream
  rw [hadd, Option.bind_some]
  dsimp only
  rw [hparse]
  rfl

/-! ## No more is handed over than has been taken -/

/-- The loop of `ParseSipStream`, where every message it hands over has a byte: they take no more
than it moves on. -/
theorem parseLoop_length {mem : List UInt8} {len rounds start off : Nat}
    {out : List (List UInt8)} (h : parseLoop env mem len rounds start = some (out, off))
    (hout : [] ∉ out) (hle : start ≤ len) : out.flatten.length + start ≤ off ∧ off ≤ len := by
  induction rounds generalizing start out with
  | zero => cases h
  | succ k ih =>
    unfold parseLoop at h
    split at h
    · cases h
      simpa using hle
    · rename_i e he
      split at h
      · cases h
      · rw [Option.map_eq_some_iff] at h
        obtain ⟨⟨out', off'⟩, hr, heq⟩ := h
        cases heq
        obtain ⟨hmsg, hout'⟩ := not_or.1 (mt List.mem_cons.2 hout)
        have hpos : 0 < e.toNat := by
          by_contra h0
          have h0 : e.toNat = 0 := by omega
          rw [h0] at hmsg
          exact hmsg rfl
        have hend : e ≤ (len - start : Nat) := by
          unfold messageEnd at he
          split at he
          · cases he
          · dsimp only at he
            split at he
            · cases he
            · split at he
              · cases he
              · cases he
                omega
        have hrec := ih hr hout' (by omega)
        have hlen : ((mem.drop start).take e.toNat).length ≤ e.toNat := List.length_take_le ..
        simp only [List.flatten_cons, List.length_append]
        omega

/-- What a stream still has to hand over. -/
def pending (ss : List SipTcpStream) : Nat :=
  (ss.map fun s => s.buffer.length - s.offset).sum

theorem pending_keepStream (s : SipTcpStream) (now : Int) :
    pending (keepStream s now) ≤ s.buffer.length - s.offset := by
  unfold keepStream
  split <;> simp [pending]

theorem addToStream_length {out : List (List UInt8)} (h : addToStream env s seg = some (s', out))
    (hout : [] ∉ out) (hle : s.offset ≤ s.buffer.length) :
    out.flatten.length + (s'.buffer.length - s'.offset) ≤
        s.buffer.length - s.offset + seg.payload.length ∧
      s'.offset ≤ s'.buffer.length ∧ s'.ends = s.ends := by
  unfold addToStream at h
  rw [Option.bind_eq_some_iff] at h
  obtain ⟨buffer, hb, h⟩ := h
  rw [Option.map_eq_some_iff] at h
  obtain ⟨⟨msgs, off⟩, hp, heq⟩ := h
  cases heq
  have hlen : buffer.length = s.buffer.length + seg.payload.length := by
    unfold safeBufferAdd at hb
    split at hb
    · cases hb
      exact List.length_append
    · cases hb
  have := parseLoop_length hp hout (Nat.zero_le _)
  refine ⟨?_, ?_, rfl⟩ <;> dsimp only <;> omega

/-- The streams that the segments of a connection leave: none, or one of theirs. -/
inductive AtMostOne (ends : Ends) : List SipTcpStream → Prop
  | none : AtMostOne ends []
  | one {s : SipTcpStream} : s.ends = ends → s.offset ≤ s.buffer.length → AtMostOne ends [s]

theorem atMostOne_keepStream (hends : s.ends = ends) (hle : s.offset ≤ s.buffer.length)
    (now : Int) : AtMostOne ends (keepStream s now) := by
  unfold keepStream
  split
  · exact .none
  · exact .one hends hle

theorem trySipTcp_length {ss ss' : List SipTcpStream} {out : List (List UInt8)}
    (hss : AtMostOne seg.ends ss) (hno : opensStream seg.payload = false)
    (h : trySipTcp env ss seg = some (ss', out)) (hout : [] ∉ out) :
    out.flatten.length + pending ss' ≤ pending ss + seg.payload.length ∧
      AtMostOne seg.ends ss' := by
  cases hss with
  | none =>
    rw [trySipTcp_nil hno] at h
    cases h
    exact ⟨by simp, .none⟩
  | one hends hle =>
    rename_i s
    have hpend : pending [s] = s.buffer.length - s.offset := by simp [pending]
    by_cases hdup : s.lastSeqNo ≥ seg.seq.toUInt64
    · rw [trySipTcp_duplicate hends hdup] at h
      cases h
      exact ⟨by simp, .one hends hle⟩
    · by_cases hexp : s.expectingSeqNo = seg.seq.toUInt64
      · rw [trySipTcp_take hends hno hdup hexp, Option.map_eq_some_iff] at h
        obtain ⟨⟨s', out'⟩, hadd, heq⟩ := h
        cases heq
        obtain ⟨hlen, hle', hends'⟩ := addToStream_length hadd hout hle
        have hkeep := pending_keepStream s' seg.now
        dsimp only
        exact ⟨by omega, atMostOne_keepStream (hends'.trans hends) hle' _⟩
      · rw [trySipTcp_pass hno hdup hexp] at h
        cases h
        have hkeep := pending_keepStream s seg.now
        simp only [List.flatten_nil, List.length_nil]
        exact ⟨by omega, atMostOne_keepStream hends hle _⟩

/-- Where every message handed over has a byte, they have no more bytes together than were pending
and have arrived. -/
theorem outputs_le {ss ss' : List SipTcpStream} {out : List (List UInt8)} {seq : UInt32}
    {ps : List Piece} (hss : AtMostOne ends ss) (hno : ∀ p ∈ ps, opensStream p.payload = false)
    (h : trySegments env ss (segments ends seq ps) = some (ss', out)) (hout : [] ∉ out) :
    out.flatten.length ≤ pending ss + size ps := by
  induction ps generalizing ss seq out with
  | nil =>
    cases h
    simp
  | cons p ps ih =>
    unfold segments trySegments at h
    rw [Option.bind_eq_some_iff] at h
    obtain ⟨⟨ss₁, out₁⟩, h₁, h⟩ := h
    rw [Option.map_eq_some_iff] at h
    obtain ⟨⟨ss₂, out₂⟩, h₂, heq⟩ := h
    cases heq
    have hout₁ : [] ∉ out₁ := fun hm => hout (List.mem_append_left _ hm)
    have hout₂ : [] ∉ out₂ := fun hm => hout (List.mem_append_right _ hm)
    have hnop : opensStream (segment ends seq p).payload = false := hno p (List.mem_cons_self ..)
    have hss' : AtMostOne (segment ends seq p).ends ss := hss
    obtain ⟨hlen₁, hss₁⟩ := trySipTcp_length hss' hnop h₁ hout₁
    have hlen₂ := ih hss₁ (fun x hx => hno x (List.mem_cons_of_mem _ hx)) h₂ hout₂
    have hsize : (segment ends seq p).payload.length = p.payload.length := rfl
    simp only [List.flatten_append, List.length_append, size_cons]
    omega

/-! ## The stream of a connection as its pieces arrive -/

/-- The stream that began at `seq` and the time `t`, when `n` bytes of the requests have arrived. -/
structure At (ends : Ends) (seq : UInt32) (t : Int) (rs : List SipRequest) (n : Nat)
    (s : SipTcpStream) : Prop where
  ends : s.ends = ends
  last : s.lastSeqNo = seq.toUInt64
  offset : s.offset = Frames.consumed (frames rs) n
  entry : s.entryTime = t
  buffer : s.buffer = (frames rs).flatten.take n

variable {seq sq : UInt32} {t : Int} {rs : List SipRequest} {n : Nat} {p : Piece} {ps : List Piece}

theorem At.length_buffer (h : At ends seq t rs n s) (hn : n ≤ (frames rs).flatten.length) :
    s.buffer.length = n := by
  rw [h.buffer, List.length_take]
  omega

/-- Whether a segment is one that the stream has had. -/
theorem At.lastSeqNo_ge (h : At ends seq t rs n s) : s.lastSeqNo ≥ sq.toUInt64 ↔ sq.toNat ≤ seq.toNat := by
  rw [h.last, ge_iff_le, UInt64.le_iff_toNat_le, UInt32.toNat_toUInt64, UInt32.toNat_toUInt64]

theorem expectingSeqNo_eq (hexp : s.expectingSeqNo.toNat = seq.toNat + n) (hsq : sq.toNat = seq.toNat + n) :
    s.expectingSeqNo = sq.toUInt64 := by
  apply UInt64.toNat.inj
  rw [hexp, UInt32.toNat_toUInt64, hsq]

/-- A piece in sequence takes the stream on, and the requests that it completes are handed over. -/
theorem At.feed (h : At ends seq t rs n s) (hexp : s.expectingSeqNo.toNat = seq.toNat + n)
    (hsq : sq.toNat = seq.toNat + n) (hpos : 0 < n)
    (hno : opensStream p.payload = false) (hsize : n + p.payload.length + 1 < 2147483648)
    {rest : List UInt8} (hbytes : (frames rs).flatten.drop n = p.payload ++ rest)
    (hn : n + p.payload.length ≤ (frames rs).flatten.length) (hfuel : rs.length < env.fuel) :
    ∃ s', trySipTcp env [s] (segment ends sq p) = some (keepStream s' p.now,
        Frames.complete (Frames.remaining (frames rs) n)
          (n + p.payload.length - Frames.consumed (frames rs) n)) ∧
      At ends seq t rs (n + p.payload.length) s' ∧
      s'.expectingSeqNo.toNat = seq.toNat + (n + p.payload.length) := by
  have hplt := p.payload_lt
  have hsqlt := sq.toNat_lt
  have hlast : ¬ s.lastSeqNo ≥ sq.toUInt64 := by
    rw [h.lastSeqNo_ge]
    omega
  have heq := expectingSeqNo_eq hexp hsq
  have hlen := h.length_buffer (by omega)
  have hadd : safeBufferAdd s.buffer p.payload =
      some ((frames rs).flatten.take (n + p.payload.length)) := by
    unfold safeBufferAdd
    rw [if_pos (by omega), h.buffer, List.take_add, hbytes, List.take_left]
  set buffer := (frames rs).flatten.take (n + p.payload.length) with hbuffer
  have hlen' : buffer.length = n + p.payload.length := by
    rw [hbuffer, List.length_take]
    omega
  set m := n + p.payload.length - Frames.consumed (frames rs) n with hm
  set used := Frames.consumed (Frames.remaining (frames rs) n) m with hused
  have hparse : parseSipStream env (buffer.drop s.offset) (buffer.length - s.offset) =
      some (Frames.complete (Frames.remaining (frames rs) n) m, used) := by
    rw [hlen', h.offset]
    exact parseSipStream_remaining env rs (Nat.le_add_right ..) hn hfuel
  have hcons : Frames.consumed (frames rs) (n + p.payload.length) =
      Frames.consumed (frames rs) n + used := by
    have hc := Frames.complete_of_le (frames rs) (Nat.le_add_right n p.payload.length)
    rw [hused, Frames.consumed, Frames.consumed, Frames.consumed, hc, List.flatten_append,
      List.length_append]
  refine ⟨{ s with
      buffer := buffer
      offset := s.offset + used
      expectingSeqNo := s.expectingSeqNo + UInt64.ofNat p.payload.length }, ?_, ?_, ?_⟩
  · have hends : s.ends = (segment ends sq p).ends := h.ends
    have hadd' : safeBufferAdd s.buffer (segment ends sq p).payload = some buffer := hadd
    rw [trySipTcp_take hends hno hlast heq, addToStream_eq hadd' hparse]
    rfl
  · exact ⟨h.ends, h.last, by rw [hcons, ← h.offset], h.entry, rfl⟩
  · have h64 : (UInt64.ofNat p.payload.length).toNat = p.payload.length := by
      rw [UInt64.toNat_ofNat']
      omega
    simp only [UInt64.toNat_add, h64, hexp]
    omega

/-- A piece whose sequence number has wrapped is not taken. -/
theorem At.wrapped (h : At ends seq t rs n s)
    (hexp : s.expectingSeqNo.toNat = seq.toNat + n ∨ n < 65536)
    (hwrap : 4294967296 ≤ seq.toNat + n) (hsq : sq.toNat = (seq.toNat + n) % 4294967296)
    (hno : opensStream p.payload = false) :
    trySipTcp env [s] (segment ends sq p) = some ([s], []) ∨
      trySipTcp env [s] (segment ends sq p) = some (keepStream s p.now, []) := by
  have hends : s.ends = (segment ends sq p).ends := h.ends
  have hsqlt := seq.toNat_lt
  rcases hexp with hexp | hn
  · -- the 64-bit number expected is one that no segment has
    have hne : s.expectingSeqNo ≠ sq.toUInt64 := by
      intro he
      have := sq.toNat_lt
      rw [he, UInt32.toNat_toUInt64] at hexp
      omega
    by_cases hdup : s.lastSeqNo ≥ sq.toUInt64
    · exact .inl (trySipTcp_duplicate hends hdup)
    · exact .inr (trySipTcp_pass hno hdup hne)
  · -- the segment is taken for a duplicate of the first
    have hdup : s.lastSeqNo ≥ sq.toUInt64 := by
      rw [h.lastSeqNo_ge]
      omega
    exact .inl (trySipTcp_duplicate hends hdup)

/-- A piece that does not fit the buffer ends the run. -/
theorem At.tooLarge (env : Env) (h : At ends seq t rs n s)
    (hexp : s.expectingSeqNo.toNat = seq.toNat + n) (hsq : sq.toNat = seq.toNat + n)
    (hpos : 0 < n) (hno : opensStream p.payload = false) (hn : n ≤ (frames rs).flatten.length)
    (hsize : 2147483648 ≤ n + p.payload.length + 1) :
    trySipTcp env [s] (segment ends sq p) = none := by
  have hends : s.ends = (segment ends sq p).ends := h.ends
  have hlast : ¬ s.lastSeqNo ≥ sq.toUInt64 := by
    rw [h.lastSeqNo_ge]
    omega
  have heq := expectingSeqNo_eq hexp hsq
  have hlen := h.length_buffer hn
  have hadd : safeBufferAdd s.buffer p.payload = none := by
    unfold safeBufferAdd
    rw [if_neg (by omega)]
  rw [trySipTcp_take hends hno hlast heq]
  dsimp only [segment, addToStream]
  rw [hadd]
  rfl

theorem frames_ne_nil (rs : List SipRequest) : [] ∉ frames rs := by
  intro h
  obtain ⟨r, -, hr⟩ := List.mem_map.1 h
  have hlen := r.length_bytes
  have h16 : contentLength.length = 16 := by decide
  rw [hr] at hlen
  simp only [List.length_nil] at hlen
  omega

theorem remaining_ne_nil (rs : List SipRequest) (n : Nat) :
    [] ∉ Frames.remaining (frames rs) n :=
  fun h => frames_ne_nil rs (List.mem_of_mem_drop h)

theorem segments_opens (ends : Ends) (sq : UInt32) {ps : List Piece}
    (hno : ∀ p ∈ ps, opensStream p.payload = false) :
    ∀ seg ∈ segments ends sq ps, opensStream seg.payload = false := by
  induction ps generalizing sq with
  | nil => simp [segments]
  | cons p ps ih =>
    intro seg h
    rcases List.mem_cons.1 h with rfl | h
    · exact hno p (List.mem_cons_self ..)
    · exact ih _ (fun x hx => hno x (List.mem_cons_of_mem _ hx)) seg h

/-- The run of the first of some pieces and of the others. -/
theorem trySegments_cons {ss : List SipTcpStream} {r : List SipTcpStream × List (List UInt8)} :
    trySegments env ss (segments ends sq (p :: ps)) = some r ↔
      ∃ ss₁ out₁ ss₂ out₂, trySipTcp env ss (segment ends sq p) = some (ss₁, out₁) ∧
        trySegments env ss₁ (segments ends (sq + UInt32.ofNat p.payload.length) ps) =
          some (ss₂, out₂) ∧ r = (ss₂, out₁ ++ out₂) := by
  rw [segments, trySegments, Option.bind_eq_some_iff]
  constructor
  · rintro ⟨⟨ss₁, out₁⟩, h₁, h⟩
    rw [Option.map_eq_some_iff] at h
    obtain ⟨⟨ss₂, out₂⟩, h₂, heq⟩ := h
    exact ⟨ss₁, out₁, ss₂, out₂, h₁, h₂, heq.symm⟩
  · rintro ⟨ss₁, out₁, ss₂, out₂, h₁, h₂, rfl⟩
    refine ⟨(ss₁, out₁), h₁, ?_⟩
    rw [h₂]
    rfl

/-- The pieces bring what comes after the first `n` bytes of the requests. -/
structure Rest (rs : List SipRequest) (n : Nat) (ps : List Piece) : Prop where
  bytes : (frames rs).flatten.drop n = (ps.map Piece.payload).flatten
  total : n + size ps = (frames rs).flatten.length
  ne : ∀ p ∈ ps, p.payload ≠ []
  method : ∀ p ∈ ps, opensStream p.payload = false
  start : ∀ i < ps.length, ¬ Frames.AtBoundary (frames rs) (n + size (ps.take i))

namespace Rest

theorem head_pos (h : Rest rs n (p :: ps)) : 0 < p.payload.length :=
  List.length_pos_of_ne_nil (h.ne p (List.mem_cons_self ..))

theorem head_method (h : Rest rs n (p :: ps)) : opensStream p.payload = false :=
  h.method p (List.mem_cons_self ..)

theorem bytes_cons (h : Rest rs n (p :: ps)) :
    (frames rs).flatten.drop n = p.payload ++ (ps.map Piece.payload).flatten := by
  simpa using h.bytes

theorem tail (h : Rest rs n (p :: ps)) : Rest rs (n + p.payload.length) ps where
  bytes := by rw [← List.drop_drop, h.bytes_cons, List.drop_left]
  total := by rw [← h.total, size_cons, Nat.add_assoc]
  ne x hx := h.ne x (List.mem_cons_of_mem _ hx)
  method x hx := h.method x (List.mem_cons_of_mem _ hx)
  start i hi := by
    have hb := h.start (i + 1) (by simpa using hi)
    rw [List.take_succ_cons, size_cons, ← Nat.add_assoc] at hb
    exact hb

theorem consumed_lt (h : Rest rs n ps) (hps : ps ≠ []) : Frames.consumed (frames rs) n < n := by
  apply Frames.consumed_lt
  simpa using h.start 0 (List.length_pos_of_ne_nil hps)

theorem size_pos (h : Rest rs n ps) (hps : ps ≠ []) : 0 < size ps := by
  obtain ⟨p, ps, rfl⟩ := List.exists_cons_of_ne_nil hps
  have := h.head_pos
  rw [size_cons]
  omega

end Rest

/-- The run hands over what remains of the requests. -/
def Finishes (env : Env) (ss : List SipTcpStream) (ends : Ends) (sq : UInt32) (ps : List Piece)
    (rs : List SipRequest) (n : Nat) : Prop :=
  ∃ ss', trySegments env ss (segments ends sq ps) = some (ss', Frames.remaining (frames rs) n)

/-- Once a piece has not been taken, too little is left to hand over. -/
theorem At.not_finishes_of_wrapped (h : At ends seq t rs n s) (hrest : Rest rs n (p :: ps))
    (hexp : s.expectingSeqNo.toNat = seq.toNat + n ∨ n < 65536)
    (hwrap : 4294967296 ≤ seq.toNat + n) (hsq : sq.toNat = (seq.toNat + n) % 4294967296) :
    ¬ Finishes env [s] ends sq (p :: ps) rs n := by
  rintro ⟨ss', hrun⟩
  obtain ⟨ss₁, out₁, ss₂, out₂, h₁, h₂, heq⟩ := trySegments_cons.1 hrun
  have hcle := Frames.consumed_le (frames rs) n
  have htotal := hrest.total
  rw [size_cons] at htotal
  have hlen := h.length_buffer (by omega)
  have hoff := h.offset
  have hlive : out₁ = [] ∧ AtMostOne ends ss₁ ∧ pending ss₁ ≤ s.buffer.length - s.offset := by
    have hle : s.offset ≤ s.buffer.length := by omega
    rcases h.wrapped hexp hwrap hsq hrest.head_method with hw | hw
    · rw [hw] at h₁
      cases h₁
      exact ⟨rfl, .one h.ends hle, by simp [pending]⟩
    · rw [hw] at h₁
      cases h₁
      exact ⟨rfl, atMostOne_keepStream h.ends hle _, pending_keepStream s _⟩
  obtain ⟨rfl, hss₁, hpend⟩ := hlive
  obtain ⟨-, hout⟩ := Prod.mk.inj heq
  rw [List.nil_append] at hout
  rw [← hout] at h₂
  have hle := outputs_le hss₁ hrest.tail.method h₂ (remaining_ne_nil rs n)
  have hsplit := Frames.consumed_add_remaining (frames rs) n
  have hpos := hrest.head_pos
  omega

/-- The last piece completes the last request. -/
theorem At.finishes_last (h : At ends seq t rs n s) (hrest : Rest rs n [p])
    (hexp : s.expectingSeqNo.toNat = seq.toNat + n) (hsq : sq.toNat = seq.toNat + n) (hpos : 0 < n)
    (hsize : n + p.payload.length + 1 < 2147483648) (hfuel : rs.length < env.fuel) :
    Finishes env [s] ends sq [p] rs n := by
  have htotal := hrest.total
  rw [size_cons, size_nil] at htotal
  have hsplit := Frames.consumed_add_remaining (frames rs) n
  obtain ⟨s', hstep, -, -⟩ :=
    h.feed hexp hsq hpos hrest.head_method hsize hrest.bytes_cons (by omega) hfuel
  rw [Frames.complete_eq_self _ (by omega)] at hstep
  exact ⟨_, trySegments_cons.2 ⟨_, _, _, [], hstep, rfl, by rw [List.append_nil]⟩⟩

/-- A piece that is not the last: the others must come within 60 seconds of the first. -/
theorem At.finishes_next (h : At ends seq t rs n s) (hrest : Rest rs n (p :: ps)) (hps : ps ≠ [])
    (hexp : s.expectingSeqNo.toNat = seq.toNat + n) (hsq : sq.toNat = seq.toNat + n) (hpos : 0 < n)
    (hsize : n + p.payload.length + 1 < 2147483648) (hfuel : rs.length < env.fuel) :
    ∃ s', At ends seq t rs (n + p.payload.length) s' ∧
      s'.expectingSeqNo.toNat = seq.toNat + (n + p.payload.length) ∧
      (Finishes env [s] ends sq (p :: ps) rs n ↔ p.now - t < 60 ∧
        Finishes env [s'] ends (sq + UInt32.ofNat p.payload.length) ps rs
          (n + p.payload.length)) := by
  have htotal := hrest.total
  rw [size_cons] at htotal
  have hsizeps := hrest.tail.size_pos hps
  have hsplit := Frames.consumed_add_remaining (frames rs) n
  obtain ⟨s', hstep, hat, hexp'⟩ :=
    h.feed hexp hsq hpos hrest.head_method hsize hrest.bytes_cons (by omega) hfuel
  refine ⟨s', hat, hexp', ?_⟩
  have hdone := Frames.remaining_of_le (frames rs) (Nat.le_add_right n p.payload.length)
  have hopen : s'.offset ≠ s'.buffer.length := by
    have hlt := hrest.tail.consumed_lt hps
    rw [hat.offset, hat.length_buffer (by omega)]
    omega
  by_cases hage : p.now - t < 60
  · have hkeep : keepStream s' p.now = [s'] := by
      unfold keepStream
      rw [hat.entry, if_neg]
      omega
    rw [hkeep] at hstep
    constructor
    · rintro ⟨ss', hrun⟩
      obtain ⟨ss₁, out₁, ss₂, out₂, h₁, h₂, heq⟩ := trySegments_cons.1 hrun
      rw [hstep] at h₁
      cases h₁
      obtain ⟨-, hout⟩ := Prod.mk.inj heq
      rw [← List.append_cancel_left (hdone.trans hout)] at h₂
      exact ⟨hage, ss₂, h₂⟩
    · rintro ⟨-, ss₂, h₂⟩
      exact ⟨ss₂, trySegments_cons.2 ⟨_, _, _, _, hstep, h₂, by rw [hdone]⟩⟩
  · -- the stream is dropped before the last piece
    have hkeep : keepStream s' p.now = [] := by
      unfold keepStream
      rw [hat.entry, if_pos]
      omega
    rw [hkeep] at hstep
    constructor
    · rintro ⟨ss', hrun⟩
      exfalso
      obtain ⟨ss₁, out₁, ss₂, out₂, h₁, h₂, heq⟩ := trySegments_cons.1 hrun
      rw [hstep] at h₁
      cases h₁
      rw [trySegments_nil (segments_opens ends _ hrest.tail.method)] at h₂
      cases h₂
      obtain ⟨-, hout⟩ := Prod.mk.inj heq
      rw [List.append_nil] at hout
      have hlen := Frames.consumed_le (Frames.remaining (frames rs) n)
        (n + p.payload.length - Frames.consumed (frames rs) n)
      have hcle := Frames.consumed_le (frames rs) n
      rw [Frames.consumed, ← hout] at hlen
      omega
    · rintro ⟨hlt, -⟩
      exact absurd hlt hage

/-- From the stream at `n` bytes, the pieces bring the remaining requests iff they all go. -/
theorem At.finishes_iff (hfuel : rs.length < env.fuel) :
    ∀ {ps : List Piece} {n : Nat} {s : SipTcpStream} {sq : UInt32}, At ends seq t rs n s →
      Rest rs n ps → ps ≠ [] → 0 < n →
      (s.expectingSeqNo.toNat = seq.toNat + n ∨
        (4294967296 ≤ seq.toNat + n ∧ n < 65536)) →
      sq.toNat = (seq.toNat + n) % 4294967296 →
      (Finishes env [s] ends sq ps rs n ↔ Goes seq.toNat t n ps)
  | [], _, _, _, _, _, hps, _, _, _ => absurd rfl hps
  | p :: ps, n, s, sq, h, hrest, _, hpos, hexp, hsq => by
    rw [Goes]
    by_cases hwrap : seq.toNat + n < 4294967296
    · have hexp : s.expectingSeqNo.toNat = seq.toNat + n := by omega
      have hsq : sq.toNat = seq.toNat + n := by omega
      by_cases hsize : n + p.payload.length + 1 < 2147483648
      · by_cases hps : ps = []
        · subst hps
          have hlast := h.finishes_last hrest hexp hsq hpos hsize hfuel
          exact ⟨fun _ => ⟨hwrap, hsize, .inl rfl, trivial⟩, fun _ => hlast⟩
        · obtain ⟨s', hat, hexp', hiff⟩ :=
            h.finishes_next hrest hps hexp hsq hpos hsize hfuel
          have hseq' : (sq + UInt32.ofNat p.payload.length).toNat =
              (seq.toNat + (n + p.payload.length)) % 4294967296 := by
            rw [UInt32.toNat_add, UInt32.toNat_ofNat']
            omega
          have ih := At.finishes_iff hfuel hat hrest.tail hps (by omega) (.inl hexp') hseq'
          rw [hiff, ih]
          constructor
          · rintro ⟨hage, hg⟩
            exact ⟨hwrap, hsize, .inr hage, hg⟩
          · rintro ⟨-, -, hage, hg⟩
            exact ⟨hage.resolve_left hps, hg⟩
      · have htotal := hrest.total
        have hstep := h.tooLarge env hexp hsq hpos hrest.head_method (by omega) (by omega)
        constructor
        · rintro ⟨ss', hrun⟩
          obtain ⟨_, _, _, _, h₁, -⟩ := trySegments_cons.1 hrun
          rw [hstep] at h₁
          cases h₁
        · rintro ⟨-, hs, -⟩
          exact absurd hs hsize
    · constructor
      · intro hf
        exact absurd hf (h.not_finishes_of_wrapped hrest (hexp.imp_right And.right)
          (Nat.le_of_not_lt hwrap) hsq)
      · rintro ⟨hq, -⟩
        exact absurd hq hwrap

/-! ## Every request, once and in full -/

/-- The first piece: what it holds in full is handed over, and the rest opens a stream. -/
theorem trySipTcp_first (ends : Ends) (seq : UInt32) {first : Piece}
    (hfirst : opensStream first.payload = true) {rest : List UInt8}
    (hbytes : first.payload ++ rest = (frames rs).flatten) (hfuel : rs.length < env.fuel) :
    ∃ ss, trySipTcp env [] (segment ends seq first) =
        some (ss, Frames.complete (frames rs) first.payload.length) ∧
      (Frames.consumed (frames rs) first.payload.length ≠ first.payload.length →
        ∃ s, ss = [s] ∧ At ends seq first.now rs first.payload.length s ∧
          s.expectingSeqNo.toNat = (seq.toNat + first.payload.length) % 4294967296) := by
  have hplt := first.payload_lt
  have htake : (frames rs).flatten.take first.payload.length = first.payload := by
    rw [← hbytes, List.take_left]
  have hn : first.payload.length ≤ (frames rs).flatten.length := by
    rw [← hbytes, List.length_append]
    omega
  have hparse := parseSipStream_requests env rs first.behind hn hfuel
  rw [htake] at hparse
  have hstep : trySipTcp env [] (segment ends seq first) =
      openStream env [] (segment ends seq first) := by
    simp [trySipTcp, isDuplicate, segment, hfirst]
  rw [hstep]
  unfold openStream segment
  dsimp only
  rw [hparse]
  simp only [Option.map_some]
  by_cases hall : Frames.consumed (frames rs) first.payload.length = first.payload.length
  · exact ⟨[], by simp [hall], fun hne => absurd hall hne⟩
  · rw [if_pos hall, List.nil_append]
    refine ⟨_, rfl, fun _ => ⟨_, rfl, ⟨rfl, rfl, rfl, rfl, htake.symm⟩, ?_⟩⟩
    rw [UInt32.toNat_toUInt64, UInt32.toNat_add, UInt32.toNat_ofNat']
    omega

/-- A request with two bytes of content. -/
def invite : SipRequest where
  start := ascii "INVITE sip:a@b SIP/2.0\r\n"
  digits := ascii "2"
  fields := []
  body := ascii "ab"
  first := by decide
  digits_ne := by decide
  digits_digit := by decide +kernel
  correct := by decide
  body_lt := by decide
  blank_first := by decide
  blank := by decide

/-- The request up to the middle of "Content-Length", and the rest of it. -/
def invitePieces : Piece × Piece :=
  (⟨invite.bytes.take 32, by decide, [], 0⟩, ⟨invite.bytes.drop 32, by decide, [], 5⟩)

def inviteEnds : Ends := ⟨⟨10, 0, 0, 1⟩, ⟨10, 0, 0, 2⟩, 5060, 5060⟩

end Oreka.Sip
