import Oreka.Lib.Run
import Oreka.VoIp.DtmfHandling
import Mathlib.Algebra.Group.Nat.Even

/-!
# DTMF commands

A command is recognised where its string occurs in the digits that `ReportDtmfDigit` keeps. They are
cleared after a command, and when they are more than a hundred.
-/

namespace Oreka.VoIp.VoIpCall

variable {cfg : VoIpConfig} {c : VoIpCall} {digit : String}

/-- The digits kept, with a new one. -/
def digitsWith (c : VoIpCall) (digit : String) : String :=
  (if c.dtmfDigitString.length > 100 then "" else c.dtmfDigitString) ++ digit

/-- The digits of before that are kept. -/
def digitsKept (c : VoIpCall) : List Char :=
  if c.dtmfDigitString.length > 100 then [] else c.dtmfDigitString.toList

def isOnDemandCommand (c : VoIpCall) (cfg : VoIpConfig) (digit : String) : Bool :=
  cfg.onDemandViaDtmfDigitsString ≠ "" && hasSubstring (c.digitsWith digit) cfg.onDemandViaDtmfDigitsString

/-- Without a string for on demand, the one for pause is not looked for. -/
def isPauseCommand (c : VoIpCall) (cfg : VoIpConfig) (digit : String) : Bool :=
  cfg.onDemandViaDtmfDigitsString ≠ "" && (cfg.onDemandPauseViaDtmfDigitsString ≠ "" &&
    hasSubstring (c.digitsWith digit) cfg.onDemandPauseViaDtmfDigitsString)

def recognises (c : VoIpCall) (cfg : VoIpConfig) (digit : String) : Bool :=
  c.isOnDemandCommand cfg digit || c.isPauseCommand cfg digit

/-- What a command makes of the two flags. -/
def onDemandState (onDemandCommand pauseCommand : Bool) : Bool × Bool → Bool × Bool
  | (false, false) => if onDemandCommand then (true, true) else (false, false)
  | (false, true) =>
    if onDemandCommand then (true, true) else if pauseCommand then (false, false) else (false, true)
  | (true, false) => if onDemandCommand then (true, true) else (true, false)
  | (true, true) => if pauseCommand then (true, false) else (true, true)

theorem unless_eq (p : Prop) [Decidable p] (b : Bool) : (if p then false else b) = (b && !decide p) := by
  by_cases hp : p
  · simp [hp]
  · simp [hp]

/-- The digits are cleared where a command is recognised. -/
theorem dtmfDigitString_reportDtmfDigit (c : VoIpCall) (cfg : VoIpConfig) (digit : String) :
    (c.reportDtmfDigit cfg digit).dtmfDigitString =
      if c.recognises cfg digit then "" else c.digitsWith digit := by
  unfold reportDtmfDigit
  extract_lets c₁ c₂ onDemandCommand pauseCommand c₃ identical pauseCommand' onDemandCommand'
  have h₂ : c₂.dtmfDigitString = c.digitsWith digit := by
    unfold c₂ c₁ digitsWith
    split
    · rfl
    · rfl
  have h₃ : c₃.dtmfDigitString = if onDemandCommand || pauseCommand then "" else c.digitsWith digit := by
    unfold c₃
    split
    · rfl
    · exact h₂
  have hrecognises (hnone : cfg.onDemandViaDtmfDigitsString ≠ "") :
      c.recognises cfg digit = (onDemandCommand || pauseCommand) := by
    unfold recognises isOnDemandCommand isPauseCommand onDemandCommand pauseCommand
    rw [h₂, decide_eq_true hnone, Bool.true_and, Bool.true_and]
  clear_value c₂ c₃ onDemandCommand' pauseCommand' onDemandCommand pauseCommand
  by_cases hnone : cfg.onDemandViaDtmfDigitsString = ""
  · rw [if_pos hnone, h₂]
    simp [recognises, isOnDemandCommand, isPauseCommand, hnone]
  · rw [if_neg hnone, hrecognises hnone, ← h₃]
    cases c₃.onDemand <;> cases c₃.keepRtp <;> cases onDemandCommand' <;> cases pauseCommand' <;> rfl

/-- The two flags behind a digit. Of two commands with the same string, the one that is meant is the one
that the flags do not have yet. -/
theorem flags_reportDtmfDigit (c : VoIpCall) (cfg : VoIpConfig) (digit : String) :
    ((c.reportDtmfDigit cfg digit).onDemand, (c.reportDtmfDigit cfg digit).keepRtp) =
      onDemandState
        (c.isOnDemandCommand cfg digit &&
          !(cfg.onDemandPauseViaDtmfDigitsString = cfg.onDemandViaDtmfDigitsString &&
            (c.isOnDemandCommand cfg digit && c.keepRtp)))
        (c.isPauseCommand cfg digit &&
          !(cfg.onDemandPauseViaDtmfDigitsString = cfg.onDemandViaDtmfDigitsString &&
            (c.isOnDemandCommand cfg digit && !c.keepRtp)))
        (c.onDemand, c.keepRtp) := by
  unfold reportDtmfDigit
  extract_lets c₁ c₂ onDemandCommand pauseCommand c₃ identical pauseCommand' onDemandCommand'
  have h₂ : c₂.dtmfDigitString = c.digitsWith digit ∧ c₂.onDemand = c.onDemand ∧ c₂.keepRtp = c.keepRtp := by
    unfold c₂ c₁ digitsWith
    split
    · exact ⟨rfl, rfl, rfl⟩
    · exact ⟨rfl, rfl, rfl⟩
  obtain ⟨hdigits, honDemand₂, hkeep₂⟩ := h₂
  have h₃ : c₃.onDemand = c.onDemand ∧ c₃.keepRtp = c.keepRtp := by
    rw [← honDemand₂, ← hkeep₂]
    unfold c₃
    split
    · exact ⟨rfl, rfl⟩
    · exact ⟨rfl, rfl⟩
  obtain ⟨honDemand₃, hkeep₃⟩ := h₃
  by_cases hnone : cfg.onDemandViaDtmfDigitsString = ""
  · rw [if_pos hnone, honDemand₂, hkeep₂]
    clear_value c₂ c₃
    cases c.onDemand <;> cases c.keepRtp <;> simp [isOnDemandCommand, isPauseCommand, hnone, onDemandState]
  · rw [if_neg hnone]
    have hmeant : onDemandCommand' = (c.isOnDemandCommand cfg digit &&
        !(cfg.onDemandPauseViaDtmfDigitsString = cfg.onDemandViaDtmfDigitsString &&
          (c.isOnDemandCommand cfg digit && c.keepRtp))) := by
      unfold onDemandCommand' identical onDemandCommand isOnDemandCommand
      rw [hkeep₃, hdigits, decide_eq_true hnone, Bool.true_and]
      exact unless_eq _ _ |>.trans (by simp [Bool.decide_and])
    have hpause : pauseCommand' = (c.isPauseCommand cfg digit &&
        !(cfg.onDemandPauseViaDtmfDigitsString = cfg.onDemandViaDtmfDigitsString &&
          (c.isOnDemandCommand cfg digit && !c.keepRtp))) := by
      unfold pauseCommand' identical onDemandCommand pauseCommand isOnDemandCommand isPauseCommand
      rw [hkeep₃, hdigits, decide_eq_true hnone, Bool.true_and, Bool.true_and]
      exact unless_eq _ _ |>.trans (by simp [Bool.decide_and])
    rw [← hmeant, ← hpause, ← honDemand₃, ← hkeep₃]
    clear_value c₃ onDemandCommand' pauseCommand'
    cases hd : c₃.onDemand <;> cases hk : c₃.keepRtp <;> cases onDemandCommand' <;> cases pauseCommand' <;>
      simp [onDemandState, hd, hk]

/-! ## Two strings -/

/-- A call, with the digits since its last command, or since its start. -/
structure DtmfHistory where
  call : VoIpCall
  since : List Char := []

namespace DtmfHistory

variable (cfg : VoIpConfig) (s : DtmfHistory) (d : Char)

def step : DtmfHistory where
  call := s.call.reportDtmfDigit cfg (String.singleton d)
  since := if s.call.recognises cfg (String.singleton d) then [] else s.since ++ [d]

/-- Each command is recognised exactly where the digits end with its string. -/
structure Right : Prop where
  onDemand : s.call.isOnDemandCommand cfg (String.singleton d) = true ↔
    cfg.onDemandViaDtmfDigitsString.toList <:+ s.since ++ [d]
  pause : s.call.isPauseCommand cfg (String.singleton d) = true ↔
    cfg.onDemandPauseViaDtmfDigitsString.toList <:+ s.since ++ [d]

/-- No command that the digits end with is longer than what is kept of them: every 101 digits, they are
cleared. -/
structure Kept : Prop where
  onDemand : cfg.onDemandViaDtmfDigitsString.toList <:+ s.since ++ [d] →
    cfg.onDemandViaDtmfDigitsString.length ≤ s.since.length % 101 + 1
  pause : cfg.onDemandPauseViaDtmfDigitsString.toList <:+ s.since ++ [d] →
    cfg.onDemandPauseViaDtmfDigitsString.length ≤ s.since.length % 101 + 1

/-- The digits kept for the next one are the last ones, as many as there are since they were cleared,
and have no command in them. -/
structure Inv : Prop where
  suffix : s.call.digitsKept <:+ s.since
  length : s.call.digitsKept.length = s.since.length % 101
  onDemand : ¬ cfg.onDemandViaDtmfDigitsString.toList <:+: s.call.digitsKept
  pause : ¬ cfg.onDemandPauseViaDtmfDigitsString.toList <:+: s.call.digitsKept

end DtmfHistory

open DtmfHistory

variable {s : DtmfHistory} {d : Char} {command kept since : List Char}

/-- A command at the end of the digits kept is one at the end of all of them that is not too long. -/
theorem suffix_kept_iff (h : kept <:+ since) :
    command <:+ kept ++ [d] ↔ command <:+ since ++ [d] ∧ command.length ≤ kept.length + 1 := by
  have hwith : kept ++ [d] <:+ since ++ [d] := by
    obtain ⟨front, rfl⟩ := h
    exact ⟨front, by simp⟩
  constructor
  · intro hsuffix
    exact ⟨hsuffix.trans hwith, by simpa using hsuffix.length_le⟩
  · intro hboth
    exact List.suffix_of_suffix_length_le hboth.1 hwith (by simpa using hboth.2)

theorem getLast_of_suffix {e : Char} (he : command.getLast? = some e)
    (h : command <:+ since ++ [d]) : d = e := by
  rcases List.suffix_concat_iff.1 h with rfl | ⟨front, rfl, -⟩
  · cases he
  · simpa using he

/-- Where a command does not occur in the digits kept, it occurs with a new one only at their end. -/
theorem infix_with_iff (h : ¬ command <:+: kept) : command <:+: kept ++ [d] ↔ command <:+ kept ++ [d] := by
  rw [List.infix_concat_iff]
  exact or_iff_left h

theorem digitsWith_singleton (c : VoIpCall) (d : Char) :
    (c.digitsWith (String.singleton d)).toList = c.digitsKept ++ [d] := by
  unfold digitsWith digitsKept
  rw [String.toList_append, String.toList_singleton]
  split
  · rfl
  · rfl

namespace DtmfHistory.Inv

theorem isOnDemandCommand_iff (h : Inv cfg s) (hnone : cfg.onDemandViaDtmfDigitsString ≠ "") :
    s.call.isOnDemandCommand cfg (String.singleton d) = true ↔
      cfg.onDemandViaDtmfDigitsString.toList <:+ s.since ++ [d] ∧
        cfg.onDemandViaDtmfDigitsString.length ≤ s.since.length % 101 + 1 := by
  unfold isOnDemandCommand hasSubstring
  rw [decide_eq_true hnone, Bool.true_and, decide_eq_true_iff, digitsWith_singleton, infix_with_iff h.onDemand,
    suffix_kept_iff h.suffix, h.length, String.length_toList]

theorem isPauseCommand_iff (h : Inv cfg s) (hnone : cfg.onDemandViaDtmfDigitsString ≠ "")
    (hpause : cfg.onDemandPauseViaDtmfDigitsString ≠ "") :
    s.call.isPauseCommand cfg (String.singleton d) = true ↔
      cfg.onDemandPauseViaDtmfDigitsString.toList <:+ s.since ++ [d] ∧
        cfg.onDemandPauseViaDtmfDigitsString.length ≤ s.since.length % 101 + 1 := by
  unfold isPauseCommand hasSubstring
  rw [decide_eq_true hnone, decide_eq_true hpause, Bool.true_and, Bool.true_and, decide_eq_true_iff,
    digitsWith_singleton, infix_with_iff h.pause, suffix_kept_iff h.suffix, h.length, String.length_toList]

theorem right_iff (h : Inv cfg s) (hnone : cfg.onDemandViaDtmfDigitsString ≠ "")
    (hpause : cfg.onDemandPauseViaDtmfDigitsString ≠ "") : s.Right cfg d ↔ s.Kept cfg d := by
  have honDemand := h.isOnDemandCommand_iff (d := d) hnone
  have hpauseCommand := h.isPauseCommand_iff (d := d) hnone hpause
  constructor
  · intro hright
    exact ⟨fun hsuffix => (honDemand.1 (hright.onDemand.2 hsuffix)).2,
      fun hsuffix => (hpauseCommand.1 (hright.pause.2 hsuffix)).2⟩
  · intro hkept
    refine ⟨⟨fun hcommand => (honDemand.1 hcommand).1,
        fun hsuffix => honDemand.2 ⟨hsuffix, hkept.onDemand hsuffix⟩⟩,
      ⟨fun hcommand => (hpauseCommand.1 hcommand).1,
        fun hsuffix => hpauseCommand.2 ⟨hsuffix, hkept.pause hsuffix⟩⟩⟩

theorem of_cleared (hnone : cfg.onDemandViaDtmfDigitsString ≠ "")
    (hpause : cfg.onDemandPauseViaDtmfDigitsString ≠ "")
    (hdigits : s.call.dtmfDigitString = "") (hsince : s.since = []) : Inv cfg s := by
  have hkept : s.call.digitsKept = [] := by
    unfold digitsKept
    rw [hdigits]
    rfl
  refine ⟨?_, ?_, ?_, ?_⟩
  · simp [hkept]
  · simp [hkept, hsince]
  · simpa [hkept] using hnone
  · simpa [hkept] using hpause

theorem step (h : Inv cfg s) (hnone : cfg.onDemandViaDtmfDigitsString ≠ "")
    (hpause : cfg.onDemandPauseViaDtmfDigitsString ≠ "") (d : Char) : Inv cfg (s.step cfg d) := by
  have hdigits := dtmfDigitString_reportDtmfDigit s.call cfg (String.singleton d)
  by_cases hcommand : s.call.recognises cfg (String.singleton d) = true
  · rw [if_pos hcommand] at hdigits
    exact of_cleared hnone hpause hdigits (if_pos hcommand)
  · rw [if_neg hcommand] at hdigits
    have hsince : (s.step cfg d).since = s.since ++ [d] := if_neg hcommand
    have hlist : (s.step cfg d).call.dtmfDigitString.toList = s.call.digitsKept ++ [d] := by
      rw [← digitsWith_singleton, ← hdigits]
      rfl
    have hlength : (s.step cfg d).call.dtmfDigitString.length = s.since.length % 101 + 1 := by
      rw [← String.length_toList, hlist, ← h.length]
      simp
    have hmod : (s.step cfg d).since.length % 101 =
        if s.since.length % 101 = 100 then 0 else s.since.length % 101 + 1 := by
      rw [hsince, List.length_append, List.length_singleton]
      split
      · omega
      · omega
    by_cases hfull : s.since.length % 101 = 100
    · -- a digit later they are cleared
      have hkept : (s.step cfg d).call.digitsKept = [] := by
        unfold digitsKept
        exact if_pos (by omega)
      rw [if_pos hfull] at hmod
      refine ⟨?_, ?_, ?_, ?_⟩
      · simp [hkept]
      · simp [hkept, hmod]
      · simpa [hkept] using hnone
      · simpa [hkept] using hpause
    · have hkept : (s.step cfg d).call.digitsKept = s.call.digitsKept ++ [d] := by
        unfold digitsKept
        exact (if_neg (by omega)).trans hlist
      rw [if_neg hfull] at hmod
      have hnot : s.call.isOnDemandCommand cfg (String.singleton d) = false ∧
          s.call.isPauseCommand cfg (String.singleton d) = false := by
        simpa [recognises] using hcommand
      refine ⟨?_, ?_, ?_, ?_⟩
      · obtain ⟨front, hfront⟩ := h.suffix
        exact ⟨front, by rw [hkept, hsince, ← hfront, List.append_assoc]⟩
      · rw [hkept, hmod, ← h.length]
        simp
      · have hno := hnot.1
        unfold isOnDemandCommand hasSubstring at hno
        rw [decide_eq_true hnone, Bool.true_and, digitsWith_singleton, ← hkept] at hno
        exact of_decide_eq_false hno
      · have hno := hnot.2
        unfold isPauseCommand hasSubstring at hno
        rw [decide_eq_true hnone, decide_eq_true hpause, Bool.true_and, Bool.true_and, digitsWith_singleton,
          ← hkept] at hno
        exact of_decide_eq_false hno

end DtmfHistory.Inv

def starNine : VoIpConfig := { onDemandViaDtmfDigitsString := "*9", onDemandPauseViaDtmfDigitsString := "*8" }

/-- Digits that no command ends with stay. -/
theorem DtmfHistory.Inv.since_foldl (h : Inv starNine s) (digits : List Char)
    (hnone : ∀ d ∈ digits, d ≠ '9' ∧ d ≠ '8') :
    Inv starNine (digits.foldl (DtmfHistory.step starNine) s) ∧
      (digits.foldl (DtmfHistory.step starNine) s).since = s.since ++ digits := by
  induction digits generalizing s with
  | nil => exact ⟨h, by simp⟩
  | cons d digits ih =>
    have hd := hnone d List.mem_cons_self
    have hrecognises : s.call.recognises starNine (String.singleton d) = false := by
      have honDemand : s.call.isOnDemandCommand starNine (String.singleton d) = false := by
        rw [Bool.eq_false_iff, Ne, h.isOnDemandCommand_iff (by decide)]
        exact fun hcommand => hd.1 (getLast_of_suffix (by decide) hcommand.1)
      have hpause : s.call.isPauseCommand starNine (String.singleton d) = false := by
        rw [Bool.eq_false_iff, Ne, h.isPauseCommand_iff (by decide) (by decide)]
        exact fun hcommand => hd.2 (getLast_of_suffix (by decide) hcommand.1)
      unfold recognises
      rw [honDemand, hpause]
      rfl
    have hsince : (s.step starNine d).since = s.since ++ [d] := by
      unfold DtmfHistory.step
      rw [hrecognises]
      rfl
    obtain ⟨hinv, hdigits⟩ :=
      ih (h.step (by decide) (by decide) d) fun c hc => hnone c (List.mem_cons_of_mem d hc)
    refine ⟨hinv, ?_⟩
    rw [List.foldl_cons, hdigits, hsince]
    simp

/-- A digit with which the command is recognised flips `keepRtp`, and any other leaves both flags. -/
structure Toggles (cfg : VoIpConfig) (c : VoIpCall) (digit : String) : Prop where
  recognised : c.recognises cfg digit = true → (c.reportDtmfDigit cfg digit).dtmfDigitString = "" ∧
    (c.reportDtmfDigit cfg digit).keepRtp = !c.keepRtp
  other : c.recognises cfg digit = false → (c.reportDtmfDigit cfg digit).onDemand = c.onDemand ∧
    (c.reportDtmfDigit cfg digit).keepRtp = c.keepRtp

/-- The number of digits with which a command is recognised. -/
def commands (cfg : VoIpConfig) : VoIpCall → List String → Nat
  | _, [] => 0
  | c, digit :: digits =>
    (if c.recognises cfg digit then 1 else 0) + commands cfg (c.reportDtmfDigit cfg digit) digits

theorem isPauseCommand_eq (hnone : cfg.onDemandViaDtmfDigitsString ≠ "")
    (hsame : cfg.onDemandPauseViaDtmfDigitsString = cfg.onDemandViaDtmfDigitsString) :
    c.isPauseCommand cfg digit = c.isOnDemandCommand cfg digit := by
  unfold isPauseCommand isOnDemandCommand
  rw [hsame, decide_eq_true hnone, Bool.true_and]

theorem toggles_step (hnone : cfg.onDemandViaDtmfDigitsString ≠ "")
    (hsame : cfg.onDemandPauseViaDtmfDigitsString = cfg.onDemandViaDtmfDigitsString) : Toggles cfg c digit := by
  have hflags := flags_reportDtmfDigit c cfg digit
  have hdigits := dtmfDigitString_reportDtmfDigit c cfg digit
  rw [isPauseCommand_eq hnone hsame, decide_eq_true hsame, Bool.true_and, Bool.true_and, Prod.ext_iff] at hflags
  have hrecognises : c.recognises cfg digit = c.isOnDemandCommand cfg digit := by
    unfold recognises
    rw [isPauseCommand_eq hnone hsame, Bool.or_self]
  refine ⟨fun hcommand => ⟨?_, ?_⟩, fun hother => ⟨?_, ?_⟩⟩
  · rw [hdigits, if_pos hcommand]
  · rw [hrecognises] at hcommand
    refine hflags.2.trans ?_
    rw [hcommand]
    -- the command that is meant is never the one that the state ignores
    cases c.onDemand <;> cases c.keepRtp <;> rfl
  · rw [hrecognises] at hother
    refine hflags.1.trans ?_
    rw [hother]
    cases c.onDemand <;> cases c.keepRtp <;> rfl
  · rw [hrecognises] at hother
    refine hflags.2.trans ?_
    rw [hother]
    cases c.onDemand <;> cases c.keepRtp <;> rfl

/-- One digit after the other. -/
def reportDtmfDigits (c : VoIpCall) (cfg : VoIpConfig) (digits : List String) : VoIpCall :=
  digits.foldl (fun c digit => c.reportDtmfDigit cfg digit) c

/-- **With one string for both**, each command flips `keepRtp` and no other digit changes a flag, so that
an even number of commands leaves it. -/
theorem toggles (cfg : VoIpConfig) (hnone : cfg.onDemandViaDtmfDigitsString ≠ "")
    (hsame : cfg.onDemandPauseViaDtmfDigitsString = cfg.onDemandViaDtmfDigitsString) (c : VoIpCall)
    (digits : List String) :
    Run.Meets (fun c digit => c.reportDtmfDigit cfg digit) (Toggles cfg) c digits ∧
      ((c.reportDtmfDigits cfg digits).keepRtp = c.keepRtp ↔ Even (commands cfg c digits)) := by
  induction digits generalizing c with
  | nil => simp [Run.Meets, commands, reportDtmfDigits]
  | cons digit digits ih =>
    have hstep : Toggles cfg c digit := toggles_step hnone hsame
    obtain ⟨hmeets, hkeep⟩ := ih (c.reportDtmfDigit cfg digit)
    refine ⟨⟨hstep, hmeets⟩, ?_⟩
    show ((c.reportDtmfDigit cfg digit).reportDtmfDigits cfg digits).keepRtp = c.keepRtp ↔ _
    unfold commands
    by_cases hcommand : c.recognises cfg digit = true
    · have hflip := (hstep.recognised hcommand).2
      rw [if_pos hcommand, Nat.add_comm, Nat.even_add_one, ← hkeep, hflip]
      cases ((c.reportDtmfDigit cfg digit).reportDtmfDigits cfg digits).keepRtp <;> cases c.keepRtp <;> simp
    · have hother := (hstep.other (by simpa using hcommand)).2
      rw [if_neg hcommand, Nat.zero_add, ← hkeep, hother]

def starNineBoth : VoIpConfig :=
  { onDemandViaDtmfDigitsString := "*9", onDemandPauseViaDtmfDigitsString := "*9" }

/-- Two commands. -/
theorem toggles_starNineBoth :
    Run.Meets (fun c digit => c.reportDtmfDigit starNineBoth digit) (Toggles starNineBoth) {}
        ["*", "9", "*", "9"] ∧
      ((reportDtmfDigits {} starNineBoth ["*", "9", "*", "9"]).keepRtp = ({} : VoIpCall).keepRtp ↔
        Even (commands starNineBoth {} ["*", "9", "*", "9"])) :=
  toggles starNineBoth (by decide) rfl {} ["*", "9", "*", "9"]

end Oreka.VoIp.VoIpCall
