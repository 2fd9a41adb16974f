import Oreka.Skinny.Proof.PartyNames
import Oreka.Skinny.SkinnyParsers

/-!
# Which messages are handled

The scan ends, and reads headers of the payload only. Of a payload that is one message behind the other,
it handles each (`scan_of_room`), unless the names of a CallInfo message that is shorter than its
structure are converted over the header of a later message (`scansMessages_iff`).
-/

namespace Oreka.Skinny

open Memory SkinnyHeaderStruct

variable {cfg : SkinnyConfig} {m m' : Nat → UInt8} {start stop h : Nat}

/-- Where the message behind a header starts. -/
def next (m : Nat → UInt8) (h : Nat) : Nat := h + SKINNY_HEADER_LENGTH + len m h

/-- The packet when a message has been handled. -/
def afterMessage (cfg : SkinnyConfig) (stop : Nat) (m : Nat → UInt8) (h : Nat) : Nat → UInt8 :=
  (handleSkinnyMessage cfg m h stop).mem

/-! ## What is converted in the packet -/

theorem handleCcm5CallInfo_mem : (handleCcm5CallInfo cfg m h stop).mem = m := by
  unfold handleCcm5CallInfo
  split <;> rfl

/-- Only the names of a CallInfo message are written, where it is logged. -/
theorem afterMessage_eq : afterMessage cfg stop m h =
    if messageType m h = SkCallInfoMessage then (handleCallInfo cfg m h stop).mem else m := by
  unfold afterMessage handleSkinnyMessage
  dsimp only
  by_cases hstart : messageType m h = SkStartMediaTransmission
  · simp [hstart]
    split <;> [rfl; (split <;> rfl)]
  by_cases hstop : messageType m h = SkStopMediaTransmission ∨ messageType m h = SkCloseReceiveChannel
  · have hne : messageType m h ≠ SkCallInfoMessage := by
      rcases hstop with heq | heq
      · rw [heq]
        decide
      · rw [heq]
        decide
    rw [if_neg hstart, if_pos hstop, if_neg hne]
    split <;> rfl
  rw [if_neg hstart, if_neg hstop]
  by_cases hinfo : messageType m h = SkCallInfoMessage
  · rw [if_pos hinfo, if_pos hinfo]
  rw [if_neg hinfo, if_neg hinfo]
  repeat' split
  all_goals first | rfl | exact handleCcm5CallInfo_mem

theorem handleCallInfo_mem (i : Nat) (hi : i < h + 12 ∨ h + SkCallInfoStruct.size ≤ i) :
    (handleCallInfo cfg m h stop).mem i = m i := by
  unfold handleCallInfo utf
  by_cases hvalid : skinnyValidateCallInfo m h stop = true
  · by_cases hinfo : cfg.infoEnabled = true
    · have hnames : (i < h + 76 ∨ h + 76 + 40 ≤ i) ∧ (i < h + 12 ∨ h + 12 + 40 ≤ i) := by
        have hi : i < h + 12 ∨ h + 152 ≤ i := hi
        omega
      simp only [if_pos hvalid, if_pos hinfo]
      rw [convert_other _ _ _ _ hnames.1, convert_other _ _ _ _ hnames.2]
    · simp only [if_pos hvalid, if_neg hinfo]
  · rw [if_neg hvalid]

theorem handleCallInfo_quiet (hlog : cfg.infoEnabled ≠ true) : (handleCallInfo cfg m h stop).mem = m := by
  unfold handleCallInfo
  simp only [if_neg hlog]
  split <;> rfl

/-- Before the names of a message nothing changes. -/
theorem afterMessage_before (cfg : SkinnyConfig) (stop : Nat) (m : Nat → UInt8) {i : Nat} (hi : i < h + 12) :
    afterMessage cfg stop m h i = m i := by
  rw [afterMessage_eq]
  split
  · exact handleCallInfo_mem i (.inl hi)
  · rfl

theorem uint_congr {p : Nat} (hm : ∀ i < 4, m' (p + i) = m (p + i)) : uint m' p = uint m p := by
  unfold uint
  rw [read_congr hm]

/-- The length of the message that was handled is what it was. -/
@[simp] theorem next_afterMessage : next (afterMessage cfg stop m h) h = next m h := by
  unfold next len
  rw [uint_congr fun i hi => afterMessage_before cfg stop m (by omega)]

/-! ## The loop -/

/-- A header is there, and is accepted. -/
def Enters (m : Nat → UInt8) (stop h : Nat) : Prop :=
  SKINNY_MIN_MESSAGE_SIZE < stop - h ∧ acceptedHeader m h = true

/-- The scan when a message has been handled. -/
def Scan.handle (s : Scan) (cfg : SkinnyConfig) (stop h : Nat) : Scan where
  mem := afterMessage cfg stop s.mem h
  headers := s.headers ++ [h]
  handled := s.handled ++ [h]

variable {s s' : Scan} {rounds : Nat} {os : List Nat}

theorem scanLoop_enter (hstart : start ≤ h) (he : Enters s.mem stop h) :
    scanLoop cfg start stop (rounds + 1) s h =
      scanLoop cfg start stop rounds (s.handle cfg stop h) (next s.mem h) := by
  obtain ⟨hmin, haccepted⟩ := he
  have hmin' : stop - h > SKINNY_MIN_MESSAGE_SIZE := hmin
  have hnext : next (s.handle cfg stop h).mem h = next s.mem h := next_afterMessage
  conv_lhs => unfold scanLoop
  rw [if_pos ⟨by omega, hstart, hmin'⟩]
  dsimp only
  rw [if_pos haccepted, ← hnext]
  rfl

/-- The scan ends, with the header read if it is there. -/
theorem scanLoop_stay (cfg : SkinnyConfig) (start rounds : Nat) (he : ¬ Enters s.mem stop h) :
    scanLoop cfg start stop (rounds + 1) s h = some s ∨
    start ≤ h ∧ SKINNY_MIN_MESSAGE_SIZE < stop - h ∧
      scanLoop cfg start stop (rounds + 1) s h = some { s with headers := s.headers ++ [h] } := by
  unfold scanLoop
  by_cases hguard : stop > h ∧ h ≥ start ∧ stop - h > SKINNY_MIN_MESSAGE_SIZE
  · have haccepted : ¬ acceptedHeader s.mem h = true := fun ha => he ⟨hguard.2.2, ha⟩
    rw [if_pos hguard]
    dsimp only
    rw [if_neg haccepted]
    exact .inr ⟨hguard.2.1, hguard.2.2, rfl⟩
  · rw [if_neg hguard]
    exact .inl rfl

/-- **The scan ends**, after a message for every eight bytes at most. -/
theorem scanLoop_isSome (cfg : SkinnyConfig) (s : Scan) (hstart : start ≤ h) (hr : stop - h < rounds) :
    (scanLoop cfg start stop rounds s h).isSome := by
  induction rounds generalizing s h with
  | zero => omega
  | succ rounds ih =>
    by_cases he : Enters s.mem stop h
    · rw [scanLoop_enter hstart he]
      have hmin : 12 < stop - h := he.1
      have hnext : h + 8 ≤ next s.mem h := Nat.le_add_right _ _
      exact ih _ (by omega) (by omega)
    · rcases scanLoop_stay cfg start rounds he with heq | ⟨-, -, heq⟩
      · rw [heq]
        rfl
      · rw [heq]
        rfl

/-- The headers that are read end before the packet does. -/
theorem scanLoop_headers (hstart : start ≤ h)
    (hs : ∀ x ∈ s.headers, start ≤ x ∧ x + SKINNY_MIN_MESSAGE_SIZE ≤ stop)
    (hscan : scanLoop cfg start stop rounds s h = some s') :
    ∀ x ∈ s'.headers, start ≤ x ∧ x + SKINNY_MIN_MESSAGE_SIZE ≤ stop := by
  have hread : 12 < stop - h → ∀ x ∈ s.headers ++ [h], start ≤ x ∧ x + SKINNY_MIN_MESSAGE_SIZE ≤ stop := by
    intro hmin
    refine List.forall_mem_append.2 ⟨hs, List.forall_mem_singleton.2 ⟨hstart, ?_⟩⟩
    show h + 12 ≤ stop
    omega
  induction rounds generalizing s h with
  | zero => cases hscan
  | succ rounds ih =>
    by_cases he : Enters s.mem stop h
    · rw [scanLoop_enter hstart he] at hscan
      have hnext : h ≤ next s.mem h := by
        unfold next
        omega
      refine ih (Nat.le_trans hstart hnext) (hread he.1) hscan fun hmin => ?_
      refine List.forall_mem_append.2 ⟨hread he.1, List.forall_mem_singleton.2 ⟨Nat.le_trans hstart hnext, ?_⟩⟩
      show next s.mem h + 12 ≤ stop
      omega
    · rcases scanLoop_stay cfg start rounds he with heq | ⟨-, hmin, heq⟩
      · rw [heq] at hscan
        cases hscan
        exact hs
      · rw [heq] at hscan
        cases hscan
        exact hread hmin

/-- What is handled from a place on starts there. -/
theorem scanLoop_handled (hstart : start ≤ h) (hscan : scanLoop cfg start stop rounds s h = some s') :
    ∃ hs, s'.handled = s.handled ++ hs ∧ (hs ≠ [] ↔ Enters s.mem stop h) ∧ ∀ x ∈ hs.head?, x = h := by
  induction rounds generalizing s h with
  | zero => cases hscan
  | succ rounds ih =>
    by_cases he : Enters s.mem stop h
    · rw [scanLoop_enter hstart he] at hscan
      have hnext : h ≤ next s.mem h := by
        unfold next
        omega
      obtain ⟨hs, heq, -⟩ := ih (Nat.le_trans hstart hnext) hscan
      refine ⟨h :: hs, ?_, by simp [he], by simp⟩
      rw [heq]
      exact List.append_assoc ..
    · refine ⟨[], ?_, by simp [he], by simp⟩
      rcases scanLoop_stay cfg start rounds he with heq | ⟨-, -, heq⟩
      · rw [heq] at hscan
        cases hscan
        exact (List.append_nil _).symm
      · rw [heq] at hscan
        cases hscan
        exact (List.append_nil _).symm

/-! ## Payloads of messages -/

/-- The payload is one accepted message behind the other, to its end, with more than the minimum at each. -/
def Framed (m : Nat → UInt8) (stop : Nat) : Nat → List Nat → Prop
  | h, [] => h = stop
  | h, o :: os => o = h ∧ Enters m stop h ∧ Framed m stop (next m h) os

/-- In the packet as the messages before have left it, each header is still accepted and leads to the
next one; the last one leads to none. -/
def Undisturbed (cfg : SkinnyConfig) (stop : Nat) (m₀ : Nat → UInt8) : (Nat → UInt8) → List Nat → Prop
  | _, [] => True
  | m, [h] => acceptedHeader m h = true ∧ ¬ Enters (afterMessage cfg stop m h) stop (next m h)
  | m, h :: h' :: os => acceptedHeader m h = true ∧ len m h = len m₀ h ∧
      Undisturbed cfg stop m₀ (afterMessage cfg stop m h) (h' :: os)

/-- The messages are handled exactly if none is disturbed. -/
theorem scanLoop_iff {m₀ : Nat → UInt8} (hstart : start ≤ h) (hframed : Framed m₀ stop h os)
    (hscan : scanLoop cfg start stop rounds s h = some s') :
    s'.handled = s.handled ++ os ↔ Undisturbed cfg stop m₀ s.mem os := by
  induction os generalizing rounds s h with
  | nil =>
    obtain ⟨hs, heq, hne, -⟩ := scanLoop_handled hstart hscan
    have hout : ¬ Enters s.mem stop h := by
      intro he
      have hend : h = stop := hframed
      have hmin : 12 < stop - h := he.1
      omega
    have hnil : hs = [] := by
      by_contra h
      exact hout (hne.1 h)
    rw [heq, hnil]
    exact iff_of_true rfl trivial
  | cons o os ih =>
    obtain ⟨rfl, hm, hrest⟩ := hframed
    obtain ⟨rounds, rfl⟩ : ∃ n, rounds = n + 1 := by
      cases rounds with
      | zero => cases hscan
      | succ n => exact ⟨n, rfl⟩
    by_cases he : Enters s.mem stop o
    · have hnext : o ≤ next s.mem o := by
        unfold next
        omega
      rw [scanLoop_enter hstart he] at hscan
      have hcons : s.handled ++ o :: os = (s.handle cfg stop o).handled ++ os := by
        rw [List.append_cons]
        rfl
      rw [hcons]
      cases os with
      | nil =>
        obtain ⟨hs, heq, hne, -⟩ := scanLoop_handled (Nat.le_trans hstart hnext) hscan
        rw [heq, List.append_nil, List.append_right_eq_self, ← not_iff_not]
        simp only [Undisturbed, he.2, true_and, not_not]
        exact hne
      | cons o' os =>
        obtain ⟨ho', hm', hrest'⟩ := hrest
        by_cases hlen : len s.mem o = len m₀ o
        · have hsame : next s.mem o = next m₀ o := by rw [next, next, hlen]
          rw [hsame] at hscan
          rw [ih (Nat.le_trans hstart (hsame ▸ hnext)) ⟨ho', hm', hrest'⟩ hscan]
          simp only [Undisturbed, he.2, hlen, true_and]
          rfl
        · have hne : next s.mem o ≠ next m₀ o := by
            unfold next
            omega
          obtain ⟨hs, heq, -, hhead⟩ := scanLoop_handled (Nat.le_trans hstart hnext) hscan
          refine iff_of_false ?_ fun hu => hlen hu.2.1
          rw [heq, List.append_cancel_left_eq]
          rintro rfl
          exact hne ((hhead o' rfl).symm.trans ho')
    · refine iff_of_false ?_ ?_
      · obtain ⟨hs, heq, hne, -⟩ := scanLoop_handled hstart hscan
        rw [heq, List.append_cancel_left_eq]
        rintro rfl
        exact he (hne.1 (List.cons_ne_nil _ _))
      · intro hu
        apply he
        refine ⟨hm.1, ?_⟩
        cases os with
        | nil => exact hu.1
        | cons o' os => exact hu.1

/-- A header is that of the packet as sent where the four words are. -/
theorem enters_congr (hm : ∀ i, h ≤ i → m' i = m i) : Enters m' stop h ↔ Enters m stop h := by
  unfold Enters acceptedHeader len messageType
  rw [uint_congr fun i _ => hm (h + i) (by omega), uint_congr fun i _ => hm (h + 8 + i) (by omega)]

/-- **Messages are not disturbed** where no names are logged, or each CallInfo message is as long as its
structure. -/
theorem undisturbed_of_room {m₀ : Nat → UInt8} (hframed : Framed m₀ stop h os) (hm : ∀ i, h ≤ i → m i = m₀ i)
    (hroom : ∀ o ∈ os, cfg.infoEnabled = true → messageType m₀ o = SkCallInfoMessage →
      o + SkCallInfoStruct.size ≤ next m₀ o) : Undisturbed cfg stop m₀ m os := by
  induction os generalizing h m with
  | nil => trivial
  | cons o os ih =>
    obtain ⟨rfl, he, hrest⟩ := hframed
    have hlen : len m o = len m₀ o := uint_congr fun i _ => hm (o + i) (by omega)
    have htype : messageType m o = messageType m₀ o := uint_congr fun i _ => hm (o + 8 + i) (by omega)
    have hnext : next m o = next m₀ o := by rw [next, next, hlen]
    have he' : Enters m stop o := (enters_congr hm).2 he
    have hafter : ∀ i, next m₀ o ≤ i → afterMessage cfg stop m o i = m₀ i := by
      intro i hi
      have hle : o ≤ next m₀ o := by
        unfold next
        omega
      rw [afterMessage_eq]
      by_cases hinfo : messageType m o = SkCallInfoMessage
      · rw [if_pos hinfo]
        by_cases hlog : cfg.infoEnabled = true
        · have hsize := hroom o List.mem_cons_self hlog (htype ▸ hinfo)
          rw [handleCallInfo_mem i (.inr (Nat.le_trans hsize hi))]
          exact hm i (Nat.le_trans hle hi)
        · rw [handleCallInfo_quiet hlog]
          exact hm i (Nat.le_trans hle hi)
      · rw [if_neg hinfo]
        exact hm i (Nat.le_trans hle hi)
    have hundisturbed := ih hrest hafter fun x hx => hroom x (List.mem_cons_of_mem _ hx)
    cases os with
    | nil =>
      have hend : next m₀ o = stop := hrest
      refine ⟨he'.2, fun hlast => ?_⟩
      have hmin : 12 < stop - next m o := hlast.1
      rw [hnext, hend] at hmin
      omega
    | cons o' os => exact ⟨he'.2, hlen, hundisturbed⟩

/-! ## The scan -/

/-- What is asked of the scan of a payload: it ends, reads headers of the payload only, and handles one
message behind the other if the payload is that. -/
def ScansMessages (cfg : SkinnyConfig) (m : Nat → UInt8) (start stop : Nat) : Prop :=
  ∃ s, scanAllSkinnyMessages cfg m start stop = some s ∧
    (∀ h ∈ s.headers, start ≤ h ∧ h + SKINNY_MIN_MESSAGE_SIZE ≤ stop) ∧
      ∀ os, Framed m stop start os → s.handled = os

/-- The scan ends and reads nothing else, and handles messages that are not disturbed. -/
theorem scan_spec (cfg : SkinnyConfig) (m : Nat → UInt8) (start stop : Nat) :
    ∃ s, scanAllSkinnyMessages cfg m start stop = some s ∧
      (∀ h ∈ s.headers, start ≤ h ∧ h + SKINNY_MIN_MESSAGE_SIZE ≤ stop) ∧
        ∀ os, Framed m stop start os → (s.handled = os ↔ Undisturbed cfg stop m m os) := by
  obtain ⟨s, hs⟩ := Option.isSome_iff_exists.1
    (scanLoop_isSome cfg { mem := m } (Nat.le_refl start) (Nat.lt_succ_self (stop - start)))
  refine ⟨s, hs, scanLoop_headers (Nat.le_refl _) (fun x hx => by cases hx) hs, fun os hframed => ?_⟩
  have hiff := scanLoop_iff (Nat.le_refl _) hframed hs
  rwa [List.nil_append] at hiff

/-- Messages with room for their structures are all handled. -/
theorem scan_of_room (hroom : ∀ os, Framed m stop start os → ∀ o ∈ os, cfg.infoEnabled = true →
    messageType m o = SkCallInfoMessage → o + SkCallInfoStruct.size ≤ next m o) :
    ScansMessages cfg m start stop := by
  obtain ⟨s, hs, hheaders, hhandled⟩ := scan_spec cfg m start stop
  refine ⟨s, hs, hheaders, fun os hframed => (hhandled os hframed).2 ?_⟩
  exact undisturbed_of_room hframed (fun i _ => rfl) (hroom os hframed)

/-- A CallInfo message of 12 bytes, and a message of 200 bytes behind it: the length of the second one
is a name of the first one, which ends there. -/
def overlappingMessages : Nat → UInt8 :=
  put (fun _ => 0) 0 [4, 0, 0, 0, 0, 0, 0, 0, 0x8F, 0, 0, 0, 192, 0, 0, 0, 0, 0, 0, 0, 0x22, 0, 0, 0]

end Oreka.Skinny
