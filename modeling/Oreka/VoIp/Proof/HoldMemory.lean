import Oreka.Lib.Run
import Oreka.Sip.HeaderSearch
import Oreka.VoIp.Signalling

/-!
# The parties put on hold by NOTIFYs

`lastHoldRemoteParty` is one array for all phones, and a key of a message is its index. Run beside it
are the parties put on hold by each endpoint. The array has what it should have wherever the last party
under a key was put on hold by the same endpoint (`holdMemory_iff`).
-/

namespace Oreka.VoIp

open VoIpSessions
open Sip (ascii notifyPkey)

/-- A NOTIFY, and the sessions there are when it comes. -/
structure NotifyEvent where
  sessions : VoIpSessions
  notify : SipNotifyInfo

/-- The array, with who put which party on hold last: at an endpoint under a key, and under a key alone. -/
structure HoldMemory where
  lastHoldRemoteParty : Int → String := fun _ => ""
  held : InAddr → Int → Option String := fun _ _ => none
  lastHold : Int → Option (InAddr × String) := fun _ => none

namespace NotifyEvent

variable (cfg : VoIpConfig) (e : NotifyEvent)

/-- The remote party that the NOTIFY puts on hold. -/
def putsOnHold : Option String :=
  if e.notify.onHoldMarker then
    (e.sessions.findByNotify cfg e.notify).map fun r => (e.sessions.sessions r).sipRemoteParty
  else none

/-- The NOTIFY restores a remote party. -/
def Restores : Prop :=
  e.putsOnHold cfg = none ∧ e.notify.offHoldMarker = true ∧
    (if e.notify.dsp.toList.all (·.isAlphanum) then e.notify.dsp else "") = ""

/-- The sessions with the array as it is. -/
def sessionsWith (m : HoldMemory) : VoIpSessions :=
  { e.sessions with lastHoldRemoteParty := m.lastHoldRemoteParty }

/-- `ReportSipNotify`. The array is local to it: between two NOTIFYs the sessions change, and it does
not. -/
def step (m : HoldMemory) : HoldMemory where
  lastHoldRemoteParty := ((e.sessionsWith m).reportSipNotify cfg e.notify).lastHoldRemoteParty
  held :=
    match e.putsOnHold cfg with
    | some party => fun ip key =>
      if ip = e.notify.receiverIp ∧ key = e.notify.pkey then some party else m.held ip key
    | none => m.held
  lastHold :=
    match e.putsOnHold cfg with
    | some party => Function.update m.lastHold e.notify.pkey (some (e.notify.receiverIp, party))
    | none => m.lastHold

/-- What is asked of a NOTIFY: its index is one of the array, and what it restores is the party that the
same endpoint has put on hold last under the key. -/
structure Right (m : HoldMemory) : Prop where
  index : e.putsOnHold cfg ≠ none ∨ e.Restores cfg → 0 ≤ e.notify.pkey ∧ e.notify.pkey < 128
  restored : e.Restores cfg →
    m.lastHoldRemoteParty e.notify.pkey = (m.held e.notify.receiverIp e.notify.pkey).getD ""

/-- The index is one of the array, and the last party put on hold under a key that is restored was put
on hold by the same endpoint, or is the same. -/
structure OwnHold (m : HoldMemory) : Prop where
  index : e.putsOnHold cfg ≠ none ∨ e.Restores cfg → 0 ≤ e.notify.pkey ∧ e.notify.pkey < 128
  last : e.Restores cfg → ∀ ip party, m.lastHold e.notify.pkey = some (ip, party) →
    ip = e.notify.receiverIp ∨ party = (m.held e.notify.receiverIp e.notify.pkey).getD ""

end NotifyEvent

open NotifyEvent

variable {cfg : VoIpConfig} {e : NotifyEvent} {m : HoldMemory}

/-! ## A NOTIFY -/

theorem findByNotify_sessionsWith (cfg : VoIpConfig) (e : NotifyEvent) (m : HoldMemory) :
    (e.sessionsWith m).findByNotify cfg e.notify = e.sessions.findByNotify cfg e.notify := rfl

/-- A NOTIFY stores the party that it puts on hold, and nothing else. -/
theorem lastHoldRemoteParty_step (cfg : VoIpConfig) (e : NotifyEvent) (m : HoldMemory) :
    (e.step cfg m).lastHoldRemoteParty = (e.putsOnHold cfg).elim m.lastHoldRemoteParty
      (Function.update m.lastHoldRemoteParty e.notify.pkey) := by
  unfold NotifyEvent.step putsOnHold VoIpSessions.reportSipNotify
  dsimp only
  rw [findByNotify_sessionsWith]
  cases hmarker : e.notify.onHoldMarker with
  | true =>
    cases hsession : e.sessions.findByNotify cfg e.notify with
    | some r => rfl
    | none =>
      dsimp only
      repeat' split
      all_goals rfl
  | false =>
    rw [if_neg Bool.false_ne_true]
    cases hsession : e.sessions.findByNotify cfg e.notify with
    | some r =>
      dsimp only
      repeat' split
      all_goals rfl
    | none =>
      dsimp only
      repeat' split
      all_goals rfl

/-- The party that is restored is reported to the session at the endpoint. -/
theorem reportSipNotify_restored {r : Ref} (hr : e.Restores cfg)
    (hsession : e.sessions.findByNotify cfg e.notify = some r)
    (hsize : 4 ≤ (m.lastHoldRemoteParty e.notify.pkey).utf8ByteSize) :
    (e.sessionsWith m).reportSipNotify cfg e.notify = (e.sessionsWith m).updateCall r
      (·.reportSipNotify cfg { e.notify with dsp := m.lastHoldRemoteParty e.notify.pkey }) := by
  obtain ⟨hhold, hoff, hdsp⟩ := hr
  have hmarker : e.notify.onHoldMarker = false := by
    unfold putsOnHold at hhold
    rw [hsession] at hhold
    simpa using hhold
  unfold VoIpSessions.reportSipNotify
  dsimp only
  rw [findByNotify_sessionsWith, hsession, hmarker, hdsp]
  simp only [hoff, and_self, if_true]
  exact if_neg (Nat.not_lt.2 hsize)

/-! ## Runs -/

/-- The array holds the last party under each key, which is the one that its endpoint has put on hold
last. -/
structure Shared (m : HoldMemory) : Prop where
  array : ∀ key, m.lastHoldRemoteParty key = ((m.lastHold key).map (·.2)).getD ""
  own : ∀ key ip party, m.lastHold key = some (ip, party) → m.held ip key = some party
  unused : ∀ key, m.lastHold key = none → ∀ ip, m.held ip key = none

theorem Shared.step (h : Shared m) (cfg : VoIpConfig) (e : NotifyEvent) : Shared (e.step cfg m) := by
  cases hhold : e.putsOnHold cfg with
  | none =>
    have hsame : e.step cfg m = m := by
      have harray := lastHoldRemoteParty_step cfg e m
      rw [hhold, Option.elim_none] at harray
      unfold NotifyEvent.step at harray ⊢
      simp only [hhold] at harray ⊢
      rw [harray]
    rwa [hsame]
  | some party =>
    have harray := lastHoldRemoteParty_step cfg e m
    rw [hhold, Option.elim_some] at harray
    have hlast : (e.step cfg m).lastHold =
        Function.update m.lastHold e.notify.pkey (some (e.notify.receiverIp, party)) := by
      unfold NotifyEvent.step
      simp only [hhold]
    have hheld (ip : InAddr) (key : Int) : (e.step cfg m).held ip key =
        if ip = e.notify.receiverIp ∧ key = e.notify.pkey then some party else m.held ip key := by
      unfold NotifyEvent.step
      simp only [hhold]
    refine ⟨fun key => ?_, fun key ip p hp => ?_, fun key hnone ip => ?_⟩
    · rw [harray, hlast]
      by_cases hkey : key = e.notify.pkey
      · subst hkey
        simp
      · rw [Function.update_of_ne hkey, Function.update_of_ne hkey]
        exact h.array key
    · rw [hlast] at hp
      rw [hheld]
      by_cases hkey : key = e.notify.pkey
      · subst hkey
        rw [Function.update_self, Option.some.injEq, Prod.mk.injEq] at hp
        obtain ⟨rfl, rfl⟩ := hp
        rw [if_pos ⟨rfl, rfl⟩]
      · rw [Function.update_of_ne hkey] at hp
        rw [if_neg fun hboth => hkey hboth.2]
        exact h.own key ip p hp
    · rw [hlast] at hnone
      rw [hheld]
      by_cases hkey : key = e.notify.pkey
      · subst hkey
        rw [Function.update_self] at hnone
        cases hnone
      · rw [Function.update_of_ne hkey] at hnone
        rw [if_neg fun hboth => hkey hboth.2]
        exact h.unused key hnone ip

/-- What a NOTIFY restores is its own endpoint's, exactly if the last party under the key is. -/
theorem Shared.right_iff (h : Shared m) : e.Right cfg m ↔ e.OwnHold cfg m := by
  have hrestored : m.lastHoldRemoteParty e.notify.pkey = (m.held e.notify.receiverIp e.notify.pkey).getD "" ↔
      ∀ ip party, m.lastHold e.notify.pkey = some (ip, party) →
        ip = e.notify.receiverIp ∨ party = (m.held e.notify.receiverIp e.notify.pkey).getD "" := by
    rw [h.array]
    cases hlast : m.lastHold e.notify.pkey with
    | none => simp [h.unused _ hlast]
    | some last =>
      obtain ⟨ip, party⟩ := last
      have hown := h.own _ _ _ hlast
      constructor
      · intro heq ip' party' hl
        obtain ⟨rfl, rfl⟩ := Prod.mk.inj (Option.some.inj hl)
        exact .inr heq
      · intro hor
        rcases hor ip party rfl with rfl | heq
        · rw [hown]
          rfl
        · exact heq
  constructor
  · intro hright
    exact ⟨hright.index, fun hr => hrestored.1 (hright.restored hr)⟩
  · intro hown
    exact ⟨hown.index, fun hr => hrestored.2 (hown.last hr)⟩

/-- **In a run of NOTIFYs all are right** exactly if each has an index of the array, and restores a
party only where the last one under the key was put on hold by the same endpoint, or is the same. -/
theorem holdMemory_iff (cfg : VoIpConfig) (events : List NotifyEvent) :
    Run.Meets (fun m e => e.step cfg m) (fun m e => e.Right cfg m) {} events ↔
      Run.Meets (fun m e => e.step cfg m) (fun m e => e.OwnHold cfg m) {} events := by
  have hstart : Shared {} := ⟨fun _ => rfl, fun _ _ _ h => (by cases h), fun _ _ _ => rfl⟩
  exact Run.meets_congr_of_inv (fun m e h => h.step cfg e) (fun m e h => h.right_iff) hstart

/-! ## Two phones -/

/-- A call of an endpoint with a remote party. -/
def oneCall (ip : InAddr) (party : String) : VoIpSessions where
  sessions _ := { invite := some { senderIp := ip, callId := "a" }, sipRemoteParty := party }
  byCallId := (∅ : Std.TreeMap String Ref).insert "a" 0

def onHold (ip : InAddr) (party : String) (pkey : Int) : NotifyEvent where
  sessions := oneCall ip party
  notify := { receiverIp := ip, dsp := "", onHoldMarker := true, pkey }

def offHold (ip : InAddr) (pkey : Int) : NotifyEvent where
  sessions := {}
  notify := { receiverIp := ip, dsp := "", offHoldMarker := true, pkey }

theorem findByNotify_onHold (ip : InAddr) (party : String) (pkey : Int) :
    (onHold ip party pkey).sessions.findByNotify {} (onHold ip party pkey).notify = some 0 := by
  have hids : (oneCall ip party).onCallIds = [0] := by
    have hlist : ((∅ : Std.TreeMap String Ref).insert "a" 0).toList = [("a", 0)] := rfl
    unfold VoIpSessions.onCallIds oneCall
    rw [hlist]
    rfl
  show VoIpSessions.newest _ _ ((oneCall ip party).onCallIds.filter _) = some 0
  rw [hids]
  simp [oneCall, onHold, inviteEndpointIp, VoIpSessions.newest]

theorem putsOnHold_onHold (ip : InAddr) (party : String) (pkey : Int) :
    (onHold ip party pkey).putsOnHold {} = some party := by
  unfold putsOnHold
  rw [if_pos (show (onHold ip party pkey).notify.onHoldMarker = true from rfl), findByNotify_onHold]
  rfl

theorem step_onHold (ip : InAddr) (party : String) (pkey : Int) (m : HoldMemory) :
    (onHold ip party pkey).step {} m =
      { lastHoldRemoteParty := Function.update m.lastHoldRemoteParty pkey party
        held := fun i key => if i = ip ∧ key = pkey then some party else m.held i key
        lastHold := Function.update m.lastHold pkey (some (ip, party)) } := by
  have hputs := putsOnHold_onHold ip party pkey
  have harray := lastHoldRemoteParty_step {} (onHold ip party pkey) m
  rw [hputs, Option.elim_some] at harray
  unfold NotifyEvent.step at harray ⊢
  simp only [hputs] at harray ⊢
  rw [harray]
  rfl

theorem restores_offHold (ip : InAddr) (pkey : Int) : (offHold ip pkey).Restores {} :=
  ⟨rfl, rfl, rfl⟩

/-- A second phone puts another party on hold under the key of the first, and the first gets that one
back. The key is a number of the message, also one past the array. -/
theorem not_holdMemory :
    ¬ Run.Meets (fun m e => e.step {} m) (fun m e => e.Right {} m) {}
      [onHold ⟨10, 0, 0, 1⟩ "1111" 1, onHold ⟨10, 0, 0, 2⟩ "2222" 1, offHold ⟨10, 0, 0, 1⟩ 1] ∧
    notifyPkey (ascii "NOTIFY sip:x\r\nInd-Pkey=200\r\n") 29 7 = 200 ∧
    ¬ Run.Meets (fun m e => e.step {} m) (fun m e => e.Right {} m) {} [onHold ⟨10, 0, 0, 1⟩ "1111" 200] := by
  refine ⟨?_, by decide, ?_⟩
  · intro hmeets
    have hright := hmeets.2.2.1.restored (restores_offHold _ _)
    simp only [step_onHold] at hright
    exact absurd hright (by decide)
  · intro hmeets
    have hputs : (onHold ⟨10, 0, 0, 1⟩ "1111" 200).putsOnHold {} ≠ none := by
      rw [putsOnHold_onHold]
      exact Option.some_ne_none _
    exact absurd (hmeets.1.index (.inl hputs)).2 (by decide)

end Oreka.VoIp
