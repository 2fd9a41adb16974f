import Mathlib.Data.List.TakeWhile
import Oreka.Skinny.SkinnyParsers

/-!
# Taking a message for a CCM5 CallInfo

The parties are tokens of the message, which ones depends on the mode, the version and the call type
(`takeAll_eq`). The copies into the fields of the emulated structure are contained if the tokens are
shorter than the fields, the reads if a token that ends the packet is followed by a character that ends
it (`contained_iff`); a CallState message can be taken for one too.
-/

namespace Oreka.Skinny

open Memory Sip.ParsingUtils SkinnyHeaderStruct

/-! ## Tokens -/

/-- The tokens of a text: one before each character that ends a token, and what is behind the last of
these. -/
def tokens : List UInt8 → List (List UInt8)
  | [] => []
  | c :: cs =>
    if endsToken c then [] :: tokens cs
    else
      match tokens cs with
      | [] => [[c]]
      | t :: ts => (c :: t) :: ts

/-- The token that a text begins with. -/
def firstToken (text : List UInt8) : List UInt8 := text.takeWhile fun c => ¬ endsToken c

theorem tokens_eq {text : List UInt8} (h : text ≠ []) :
    tokens text = firstToken text :: tokens (text.drop ((firstToken text).length + 1)) := by
  induction text with
  | nil => exact absurd rfl h
  | cons c cs ih =>
    unfold firstToken
    by_cases hc : endsToken c = true
    · simp [tokens, hc]
    · cases cs with
      | nil => simp [tokens, hc]
      | cons d ds =>
        have hrest := ih (List.cons_ne_nil _ _)
        have htoken : List.takeWhile (fun c => decide (¬ endsToken c = true)) (c :: d :: ds) =
            c :: firstToken (d :: ds) := by
          rw [List.takeWhile_cons_of_pos (by simpa using hc)]
          rfl
        rw [htoken, tokens, if_neg hc, hrest]
        rfl

theorem endsToken_of_mem_tokens {text t : List UInt8} (ht : t ∈ tokens text) :
    ∀ c ∈ t, endsToken c = false := by
  induction text generalizing t with
  | nil => cases ht
  | cons c cs ih =>
    unfold tokens at ht
    by_cases hc : endsToken c = true
    · rw [if_pos hc] at ht
      rcases List.mem_cons.1 ht with rfl | ht
      · simp
      · exact ih ht
    · rw [if_neg hc] at ht
      cases hcs : tokens cs with
      | nil =>
        rw [hcs] at ht
        obtain rfl := List.mem_singleton.1 ht
        simpa using hc
      | cons t' ts =>
        rw [hcs] at ht
        rcases List.mem_cons.1 ht with rfl | ht
        · refine List.forall_mem_cons.2 ⟨by simpa using hc, ih ?_⟩
          rw [hcs]
          exact List.mem_cons_self
        · apply ih
          rw [hcs]
          exact List.mem_cons_of_mem _ ht

/-- The text ends with a character that ends a token. -/
def Terminated (text : List UInt8) : Prop := ∀ c ∈ text.getLast?, endsToken c = true

/-! ## The parties -/

variable (cfg : SkinnyConfig) (callType headerVersion : Nat)

/-- The parties of as many tokens as `rounds`. -/
def takeAll : Nat → List (List UInt8) → Parties → Parties
  | rounds + 1, t :: ts, ps => takeAll rounds ts (ps.take cfg callType headerVersion (12 - rounds) t)
  | _, _, ps => ps

/-- A token by its number. -/
def token (ts : List (List UInt8)) (tokenNr : Nat) : List UInt8 := (ts[tokenNr - 1]?).getD []

/-- Which token is which party. -/
def partiesOf (ts : List (List UInt8)) : Parties where
  callingParty :=
    if cfg.cucm7_1Mode = false ∧ (token ts 5).length > 0 ∧ callType = SKINNY_CALL_TYPE_OUTBOUND then token ts 5
    else token ts 1
  calledParty := if cfg.cucm7_1Mode = true ∧ 3 ≤ ts.length then token ts 3 else token ts 2
  callingPartyName := if headerVersion = 0 then token ts 9 else token ts 10
  calledPartyName :=
    if headerVersion = 0 then token ts 10
    else if (token ts 12).length > (token ts 11).length then token ts 12
    else token ts 11

/-- The first five tokens are numbers. -/
theorem takeAll_numbers (ts : List (List UInt8)) :
    takeAll cfg callType headerVersion 12 ts {} = takeAll cfg callType headerVersion 7 (ts.drop 5)
      { callingParty := (partiesOf cfg callType headerVersion ts).callingParty
        calledParty := (partiesOf cfg callType headerVersion ts).calledParty } := by
  rcases ts with _ | ⟨t1, _ | ⟨t2, _ | ⟨t3, _ | ⟨t4, _ | ⟨t5, ts⟩⟩⟩⟩⟩
  all_goals
    by_cases hmode : cfg.cucm7_1Mode = true
    · simp [takeAll, Parties.take, partiesOf, token, hmode]
    · by_cases hout : callType = SKINNY_CALL_TYPE_OUTBOUND
      · simp [takeAll, Parties.take, partiesOf, token, hmode, hout] <;> split <;> rfl
      · simp [takeAll, Parties.take, partiesOf, token, hmode, hout]

/-- The next three are not taken. -/
theorem takeAll_unused (ts : List (List UInt8)) (ps : Parties) :
    takeAll cfg callType headerVersion 7 ts ps = takeAll cfg callType headerVersion 4 (ts.drop 3) ps := by
  rcases ts with _ | ⟨t6, _ | ⟨t7, _ | ⟨t8, ts⟩⟩⟩ <;> rfl

/-- The others are names. -/
theorem takeAll_names (ts : List (List UInt8)) (callingParty calledParty : List UInt8) :
    takeAll cfg callType headerVersion 4 ts { callingParty, calledParty } =
      { callingParty, calledParty
        callingPartyName := if headerVersion = 0 then token ts 1 else token ts 2
        calledPartyName :=
          if headerVersion = 0 then token ts 2
          else if (token ts 4).length > (token ts 3).length then token ts 4
          else token ts 3 } := by
  rcases ts with _ | ⟨t1, _ | ⟨t2, _ | ⟨t3, _ | ⟨t4, ts⟩⟩⟩⟩
  all_goals
    by_cases hversion : headerVersion = 0
    · simp [takeAll, Parties.take, token, hversion]
    · simp [takeAll, Parties.take, token, hversion] <;> split <;> rfl

theorem takeAll_eq (ts : List (List UInt8)) :
    takeAll cfg callType headerVersion 12 ts {} = partiesOf cfg callType headerVersion ts := by
  have hdrop (i : Nat) : token (ts.drop 8) (i + 1) = token ts (i + 9) := by
    unfold token
    rw [List.getElem?_drop, Nat.add_sub_cancel, show 8 + i = i + 9 - 1 by omega]
  rw [takeAll_numbers, takeAll_unused, List.drop_drop, takeAll_names, hdrop 0, hdrop 1, hdrop 2, hdrop 3]
  rfl

variable {cfg callType headerVersion} {m : Nat → UInt8} {h ptr stop : Nat}

theorem drop_read (m : Nat → UInt8) (ptr n k : Nat) : (read m ptr n).drop k = read m (ptr + k) (n - k) := by
  rcases Nat.le_total k n with hle | hle
  · obtain ⟨j, rfl⟩ := Nat.exists_eq_add_of_le hle
    rw [read_add, List.drop_left' (length_read ..), Nat.add_sub_cancel_left]
  · rw [List.drop_eq_nil_of_le (by rwa [length_read]), Nat.sub_eq_zero_of_le hle, read_zero]

/-- What the loop takes from what is left of the packet. -/
theorem grabParties_parties (rounds : Nat) (ptr : Nat) (ps : Parties) (spans : List Span) :
    (grabParties cfg m callType headerVersion stop rounds ptr ps spans).1 =
      takeAll cfg callType headerVersion rounds (tokens (read m ptr (stop - ptr))) ps := by
  induction rounds generalizing ptr ps spans with
  | zero => simp [grabParties, takeAll]
  | succ rounds ih =>
    unfold grabParties
    by_cases hptr : ptr < stop
    · have hne : read m ptr (stop - ptr) ≠ [] := by
        apply List.ne_nil_of_length_pos
        rw [length_read]
        omega
      rw [if_pos hptr, tokens_eq hne, drop_read, takeAll]
      dsimp only
      rw [ih]
      unfold grabParty grabTokenAcceptSpace grabUntil firstToken
      dsimp only
      rw [Nat.sub_sub]
    · rw [if_neg hptr, Nat.sub_eq_zero_of_le (by omega), read_zero]
      rfl

theorem firstToken_split (text : List UInt8) : text = firstToken text ∨
    ∃ c rest, text = firstToken text ++ c :: rest ∧ endsToken c = true := by
  have hsplit : firstToken text ++ text.dropWhile (fun c => ¬ endsToken c) = text :=
    List.takeWhile_append_dropWhile
  cases hdrop : text.dropWhile fun c => ¬ endsToken c with
  | nil =>
    rw [hdrop, List.append_nil] at hsplit
    exact .inl hsplit.symm
  | cons c rest =>
    rw [hdrop] at hsplit
    refine .inr ⟨c, rest, hsplit.symm, ?_⟩
    have h := List.head?_dropWhile_not (fun c => ¬ endsToken c) text
    rw [hdrop] at h
    simpa using h

theorem endsToken_of_mem_firstToken {text t : List UInt8} (ht : t = firstToken text) :
    ∀ c ∈ t, endsToken c = false := by
  intro c hc
  rw [ht] at hc
  simpa using List.mem_takeWhile_imp hc

theorem terminated_append_cons {t rest : List UInt8} {c : UInt8} (hc : endsToken c = true) :
    Terminated (t ++ c :: rest) ↔ Terminated rest := by
  unfold Terminated
  cases rest with
  | nil => simp [hc]
  | cons d ds => rw [List.getLast?_append_of_ne_nil _ (List.cons_ne_nil _ _), List.getLast?_cons_cons]

/-- What was read for a token stays among what was read. -/
theorem mem_grabParties_spans {rounds : Nat} {ps : Parties} {spans : List Span} {s : Span} (hs : s ∈ spans) :
    s ∈ (grabParties cfg m callType headerVersion stop rounds ptr ps spans).2 := by
  induction rounds generalizing ptr ps spans with
  | zero => exact hs
  | succ rounds ih =>
    unfold grabParties
    split
    · exact ih (List.mem_append_left _ hs)
    · exact hs

/-- A token that is taken ends in the packet, with the character behind it, if that is there. -/
theorem grabParties_spans_iff (rounds : Nat) {n : Nat} (ps : Parties) {spans : List Span} (hn : n ≤ ptr)
    (hspans : ∀ s ∈ spans, n ≤ s.start ∧ s.stop ≤ stop) :
    (∀ s ∈ (grabParties cfg m callType headerVersion stop rounds ptr ps spans).2, n ≤ s.start ∧ s.stop ≤ stop) ↔
      rounds < (tokens (read m ptr (stop - ptr))).length ∨ Terminated (read m ptr (stop - ptr)) := by
  induction rounds generalizing ptr ps spans with
  | zero =>
    have hright : 0 < (tokens (read m ptr (stop - ptr))).length ∨ Terminated (read m ptr (stop - ptr)) := by
      by_cases hne : read m ptr (stop - ptr) = []
      · rw [hne]
        exact .inr fun c hc => by cases hc
      · rw [tokens_eq hne]
        exact .inl (Nat.succ_pos _)
    exact iff_of_true hspans hright
  | succ rounds ih =>
    unfold grabParties
    by_cases hptr : ptr < stop
    · have hne : read m ptr (stop - ptr) ≠ [] := by
        apply List.ne_nil_of_length_pos
        rw [length_read]
        omega
      obtain ⟨t, ht⟩ : ∃ t, t = firstToken (read m ptr (stop - ptr)) := ⟨_, rfl⟩
      have hgrab : grabParty m ptr stop = (t, ⟨ptr, ptr + t.length + 1⟩) := by
        rw [ht]
        rfl
      rw [if_pos hptr, hgrab, tokens_eq hne, ← ht, List.length_cons, Nat.add_lt_add_iff_right]
      dsimp only
      rcases firstToken_split (read m ptr (stop - ptr)) with hall | ⟨c, rest, hsplit, hc⟩
      -- no character of the rest ends the token
      · rw [← ht] at hall
        have hlen : stop - ptr = t.length := by rw [← hall, length_read]
        refine iff_of_false (fun h => ?_) ?_
        · have hlast := (h _ (mem_grabParties_spans (List.mem_append_right _ (List.mem_singleton_self _)))).2
          dsimp only at hlast
          omega
        · rw [not_or]
          constructor
          · rw [hall, List.drop_eq_nil_of_le (by omega)]
            exact Nat.not_lt_zero _
          · intro hterminated
            have hends := endsToken_of_mem_firstToken ht
            rw [hall] at hterminated hne
            have hlast := List.getLast?_eq_some_getLast hne
            have hmem := List.getLast_mem hne
            exact absurd (hterminated _ hlast) (by simp [hends _ hmem])
      · rw [← ht] at hsplit
        have hlen : stop - ptr = t.length + (rest.length + 1) := by
          have hlength := congrArg List.length hsplit
          rwa [length_read, List.length_append, List.length_cons] at hlength
        have hdrop : (read m ptr (stop - ptr)).drop (t.length + 1) = rest := by
          rw [hsplit, List.drop_append]
          simp
        have hrest : read m (ptr + (t.length + 1)) (stop - (ptr + (t.length + 1))) = rest := by
          rw [← hdrop, drop_read, Nat.sub_sub]
        have hspans' : ∀ s ∈ spans ++ [⟨ptr, ptr + t.length + 1⟩], n ≤ s.start ∧ s.stop ≤ stop := by
          refine List.forall_mem_append.2 ⟨hspans, List.forall_mem_singleton.2 ⟨hn, ?_⟩⟩
          show ptr + t.length + 1 ≤ stop
          omega
        rw [ih _ (by omega) hspans', hrest, hdrop, hsplit, terminated_append_cons hc]
    · rw [if_neg hptr, Nat.sub_eq_zero_of_le (by omega), read_zero]
      exact iff_of_true hspans (.inr fun c hc => by cases hc)

/-! ## The message -/

/-- The copy fits the field, and leaves it with a NUL. -/
def FieldCopy.Contained (c : FieldCopy) : Prop := c.bytes.length ≤ c.size ∧ 0 ∈ c.bytes

theorem strcpy_contained (field size : Nat) (s : List UInt8) :
    (strcpy field size s).Contained ↔ s.length < size := by
  unfold strcpy FieldCopy.Contained
  rw [List.length_append]
  exact and_iff_left (by simp)

theorem copyName_contained (field : Nat) {size : Nat} {s : List UInt8} (hsize : 0 < size) (hs : 0 ∉ s) :
    (copyName field size s).Contained ↔ s.length < size := by
  unfold copyName
  by_cases hlen : s.length > 0
  · have htake : 0 ∉ s.take size := fun h => hs (List.mem_of_mem_take h)
    rw [if_pos hlen]
    simp [FieldCopy.Contained, htake]
    omega
  · rw [if_neg hlen]
    simp [FieldCopy.Contained]
    omega

/-- The parties of a message. -/
def partiesText (m : Nat → UInt8) (h packetEnd : Nat) : List UInt8 :=
  read m (h + SkCcm5CallInfoStruct.parties) (packetEnd - (h + SkCcm5CallInfoStruct.parties))

/-- The tokens that are taken are shorter than their fields. -/
structure ShortParties (ps : Parties) : Prop where
  calledParty : ps.calledParty.length < SKINNY_CALLED_PARTY_SIZE
  callingParty : ps.callingParty.length < SKINNY_CALLING_PARTY_SIZE
  calledPartyName : ps.calledPartyName.length < SKINNY_CALLED_PARTY_NAME_SIZE
  callingPartyName : ps.callingPartyName.length < SKINNY_CALLING_PARTY_NAME_SIZE

/-- What is asked of a message: if it is made into a CallInfo, then it is a CCM5 CallInfo, each copy is
contained, and what is read for tokens is in the packet. -/
structure Contained (cfg : SkinnyConfig) (m : Nat → UInt8) (h packetEnd : Nat) : Prop where
  type : ∀ callId callType copies,
    .ccm5CallInfo callId callType copies ∈ (handleSkinnyMessage cfg m h packetEnd).reports →
      messageType m h = SkCcm5CallInfoMessage
  copies : ∀ callId callType copies,
    .ccm5CallInfo callId callType copies ∈ (handleSkinnyMessage cfg m h packetEnd).reports →
      ∀ c ∈ copies, c.Contained
  tokens : ∀ s ∈ (handleSkinnyMessage cfg m h packetEnd).tokens,
    h + SkCcm5CallInfoStruct.parties ≤ s.start ∧ s.stop ≤ packetEnd

/-- The parties that a message names. -/
def messageParties (cfg : SkinnyConfig) (m : Nat → UInt8) (h packetEnd : Nat) : Parties :=
  partiesOf cfg (SkCcm5CallInfoStruct.callType m h) (SkinnyHeaderStruct.headerVersion m h)
    (tokens (partiesText m h packetEnd))

theorem zero_not_mem_token {text : List UInt8} (tokenNr : Nat) : 0 ∉ token (tokens text) tokenNr := by
  intro hzero
  unfold token at hzero
  cases ht : (tokens text)[tokenNr - 1]? with
  | none => simp [ht] at hzero
  | some t =>
    rw [ht] at hzero
    have hends := endsToken_of_mem_tokens (List.mem_of_getElem? ht) 0 hzero
    cases hends

theorem copies_contained_iff {packetEnd : Nat} :
    (∀ c ∈ (messageParties cfg m h packetEnd).copies, c.Contained) ↔
      ShortParties (messageParties cfg m h packetEnd) := by
  have hcalled : 0 ∉ (messageParties cfg m h packetEnd).calledPartyName := by
    unfold messageParties partiesOf
    dsimp only
    split
    · exact zero_not_mem_token 10
    · split
      · exact zero_not_mem_token 12
      · exact zero_not_mem_token 11
  have hcalling : 0 ∉ (messageParties cfg m h packetEnd).callingPartyName := by
    unfold messageParties partiesOf
    dsimp only
    split
    · exact zero_not_mem_token 9
    · exact zero_not_mem_token 10
  have hcalledName := copyName_contained SkCallInfoStruct.calledPartyName
    (show 0 < SKINNY_CALLED_PARTY_NAME_SIZE by decide) hcalled
  have hcallingName := copyName_contained SkCallInfoStruct.callingPartyName
    (show 0 < SKINNY_CALLING_PARTY_NAME_SIZE by decide) hcalling
  unfold Parties.copies
  simp only [List.forall_mem_cons, strcpy_contained, hcalledName, hcallingName]
  constructor
  · intro hall
    exact ⟨hall.1, hall.2.1, hall.2.2.1, hall.2.2.2.1⟩
  · intro hshort
    exact ⟨hshort.calledParty, hshort.callingParty, hshort.calledPartyName, hshort.callingPartyName, by simp⟩

section
variable {packetEnd : Nat}

/-- What becomes of a valid message. -/
theorem handleCcm5CallInfo_valid (cfg : SkinnyConfig)
    (hvalid : skinnyValidateCcm5CallInfo m h packetEnd = true) :
    (handleCcm5CallInfo cfg m h packetEnd).reports =
      [.ccm5CallInfo (SkCcm5CallInfoStruct.callId m h) (SkCcm5CallInfoStruct.callType m h)
        (messageParties cfg m h packetEnd).copies] ∧
    ((∀ s ∈ (handleCcm5CallInfo cfg m h packetEnd).tokens,
      h + SkCcm5CallInfoStruct.parties ≤ s.start ∧ s.stop ≤ packetEnd) ↔
        12 < (tokens (partiesText m h packetEnd)).length ∨ Terminated (partiesText m h packetEnd)) := by
  unfold handleCcm5CallInfo
  rw [if_pos hvalid]
  constructor
  · dsimp only
    rw [grabParties_parties, takeAll_eq]
    rfl
  · exact grabParties_spans_iff 12 {} (Nat.le_refl _) fun s hs => by cases hs

theorem handle_ccm5 (cfg : SkinnyConfig) (packetEnd : Nat) (htype : messageType m h = SkCcm5CallInfoMessage) :
    handleSkinnyMessage cfg m h packetEnd = handleCcm5CallInfo cfg m h packetEnd := by
  unfold handleSkinnyMessage
  rw [htype]
  rfl

/-- The next case follows. -/
theorem handle_callState (htype : messageType m h = SkCallStateMessage) {r : SkinnyReport}
    (hr : r ∈ (handleCcm5CallInfo cfg m h packetEnd).reports) :
    r ∈ (handleSkinnyMessage cfg m h packetEnd).reports := by
  have hhandle : (handleSkinnyMessage cfg m h packetEnd).reports =
      (if skinyValidateCallStateMessage h packetEnd then [.callStateMessage h] else []) ++
        (handleCcm5CallInfo cfg m h packetEnd).reports := by
    unfold handleSkinnyMessage
    rw [htype]
    rfl
  rw [hhandle]
  exact List.mem_append_right _ hr

/-- It is not made into a CallInfo. -/
def Handled.NotCcm5 (r : Handled) : Prop :=
  (∀ callId callType copies, .ccm5CallInfo callId callType copies ∉ r.reports) ∧ r.tokens = []

theorem notCcm5_reports {reports : List SkinnyReport}
    (hreports : ∀ callId callType copies, .ccm5CallInfo callId callType copies ∉ reports) :
    ({ mem := m, reports } : Handled).NotCcm5 := ⟨hreports, rfl⟩

theorem ccm5_not_mem_softKey (cfg : SkinnyConfig) (event h callId callType : Nat) (copies : List FieldCopy) :
    .ccm5CallInfo callId callType copies ∉ softKeyReports cfg event h := by
  unfold softKeyReports
  repeat' split
  all_goals simp

theorem ccm5_not_mem_softKeySet (cfg : SkinnyConfig) (set h callId callType : Nat) (copies : List FieldCopy) :
    .ccm5CallInfo callId callType copies ∉ softKeySetReports cfg set h := by
  unfold softKeySetReports
  repeat' split
  all_goals simp

/-- No other message is made into a CallInfo. -/
theorem handle_other (cfg : SkinnyConfig) (packetEnd : Nat) (hccm5 : messageType m h ≠ SkCcm5CallInfoMessage)
    (hstate : messageType m h ≠ SkCallStateMessage) : (handleSkinnyMessage cfg m h packetEnd).NotCcm5 := by
  unfold handleSkinnyMessage handleCallInfo
  dsimp only
  rw [if_neg hstate, if_neg hccm5]
  repeat' split
  all_goals
    first
      | exact notCcm5_reports (ccm5_not_mem_softKey cfg _ h)
      | exact notCcm5_reports (ccm5_not_mem_softKeySet cfg _ h)
      | exact notCcm5_reports (by simp)

/-- **A message that can be taken for a CCM5 CallInfo is contained** exactly if it is no CallState
message and, being a CCM5 CallInfo, its parties are shorter than the fields and the last token that is
taken is terminated. -/
theorem contained_iff (cfg : SkinnyConfig) (hvalid : skinnyValidateCcm5CallInfo m h packetEnd = true) :
    Contained cfg m h packetEnd ↔ messageType m h ≠ SkCallStateMessage ∧
      (messageType m h = SkCcm5CallInfoMessage → ShortParties (messageParties cfg m h packetEnd) ∧
        (12 < (tokens (partiesText m h packetEnd)).length ∨ Terminated (partiesText m h packetEnd))) := by
  obtain ⟨hreports, htokens⟩ := handleCcm5CallInfo_valid cfg hvalid
  by_cases hccm5 : messageType m h = SkCcm5CallInfoMessage
  · have hstate : messageType m h ≠ SkCallStateMessage := by
      rw [hccm5]
      decide
    have hhandle := handle_ccm5 cfg packetEnd hccm5
    constructor
    · intro hc
      refine ⟨hstate, fun _ => ⟨copies_contained_iff.1 ?_, htokens.1 (hhandle ▸ hc.tokens)⟩⟩
      apply hc.copies
      rw [hhandle, hreports]
      exact List.mem_singleton_self _
    · intro hcond
      obtain ⟨hshort, hlast⟩ := hcond.2 hccm5
      refine ⟨fun _ _ _ _ => hccm5, fun callId callType copies hmem => ?_, hhandle ▸ htokens.2 hlast⟩
      rw [hhandle, hreports, List.mem_singleton] at hmem
      cases hmem
      exact copies_contained_iff.2 hshort
  · by_cases hstate : messageType m h = SkCallStateMessage
    · refine iff_of_false (fun hc => hccm5 ?_) fun hcond => hcond.1 hstate
      apply hc.type
      apply handle_callState hstate
      rw [hreports]
      exact List.mem_singleton_self _
    · obtain ⟨hnone, hnil⟩ := handle_other cfg packetEnd hccm5 hstate
      refine iff_of_true ?_ ⟨hstate, fun h => absurd h hccm5⟩
      refine ⟨fun _ _ _ hmem => (hnone _ _ _ hmem).elim, fun _ _ _ hmem => (hnone _ _ _ hmem).elim, ?_⟩
      rw [hnil]
      exact fun s hs => by cases hs

end

/-- A message of a type from 0x100 on, with parties. -/
def sampleMessage (type : UInt8) (parties : List UInt8) : Nat → UInt8 :=
  put (fun _ => 0) 0 ([40, 0, 0, 0, 0, 0, 0, 0, type, 1, 0, 0, 0, 0, 0, 0, 7, 0, 0, 0, 1, 0, 0, 0] ++
    (List.replicate 20 0 ++ parties))

theorem contained_sampleMessage : skinnyValidateCcm5CallInfo (sampleMessage 0x4A [49, 0, 50, 0]) 0 48 = true ∧
    Contained {} (sampleMessage 0x4A [49, 0, 50, 0]) 0 48 := by
  have hlast : Terminated (partiesText (sampleMessage 0x4A [49, 0, 50, 0]) 0 48) := by
    intro c hc
    have hc' : c = 0 := (Option.some.inj hc).symm
    rw [hc']
    rfl
  have hvalid : skinnyValidateCcm5CallInfo (sampleMessage 0x4A [49, 0, 50, 0]) 0 48 = true := by decide
  refine ⟨hvalid, (contained_iff {} hvalid).2 ⟨by decide, fun _ => ⟨?_, .inr hlast⟩⟩⟩
  exact ⟨by decide, by decide, by decide, by decide⟩

/-- Twenty-four digits in the place of the called party. -/
def longParties : List UInt8 := [49, 0] ++ List.replicate 24 53 ++ [0]

/-- A called party of 24 digits is one byte too long; and a valid CallState message is taken for a CCM5
CallInfo. -/
theorem not_contained :
    (skinnyValidateCcm5CallInfo (sampleMessage 0x4A longParties) 0 71 = true ∧
      ¬ Contained {} (sampleMessage 0x4A longParties) 0 71) ∧
    skinyValidateCallStateMessage 0 48 = true ∧
      skinnyValidateCcm5CallInfo (sampleMessage 0x11 [49, 0, 50, 0]) 0 48 = true ∧
        ¬ Contained {} (sampleMessage 0x11 [49, 0, 50, 0]) 0 48 := by
  refine ⟨⟨by decide, fun hc => ?_⟩, by decide, by decide, fun hc => ?_⟩
  · obtain ⟨hreports, -⟩ := handleCcm5CallInfo_valid {}
      (show skinnyValidateCcm5CallInfo (sampleMessage 0x4A longParties) 0 71 = true by decide)
    rw [← handle_ccm5 {} 71 (by decide)] at hreports
    have hcopies := hc.copies 7 1 _ (hreports ▸ List.mem_singleton_self _)
    exact absurd (copies_contained_iff.1 hcopies).calledParty (by decide)
  · obtain ⟨hreports, -⟩ := handleCcm5CallInfo_valid {}
      (show skinnyValidateCcm5CallInfo (sampleMessage 0x11 [49, 0, 50, 0]) 0 48 = true by decide)
    have htype := hc.type 7 1 _ (handle_callState (by decide) (hreports ▸ List.mem_singleton_self _))
    exact absurd htype (by decide)

end Oreka.Skinny
