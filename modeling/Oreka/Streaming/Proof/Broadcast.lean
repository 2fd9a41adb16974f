import Mathlib.Data.List.Nodup
import Oreka.Streaming.EventStreaming

/-!
# The streams agree

`AddMessage` gives its message to every session before the next one begins, so that a session follows
the one log of all messages from the point where it was added. What its thread has sent is in the order
of the log; where the session has dropped nothing, it is all of it but for what is on its way.
-/

namespace Oreka.Streaming

open EventStreamingSession

variable {ι μ : Type*} [DecidableEq ι] {reportable : μ → Bool} {s s' : EventStreaming ι μ}

namespace EventStreaming

/-! ## Fields -/

@[simp] theorem setSvc_svc_self (s : EventStreaming ι μ) (i : ι) (c : StreamingSvc μ) :
    (s.setSvc i c).svc i = c := by simp [setSvc]

theorem setSvc_svc_of_ne {i k : ι} (c : StreamingSvc μ) (h : k ≠ i) : (s.setSvc i c).svc k = s.svc k := by
  simp [setSvc, h]

@[simp] theorem setSession_self (s : EventStreaming ι μ) (i : ι) (session : EventStreamingSession μ) :
    (s.setSession i session).session i = session := by simp [setSession]

theorem setSession_of_ne {i k : ι} (session : EventStreamingSession μ) (h : k ≠ i) :
    (s.setSession i session).session k = s.session k := by simp [setSession, h]

theorem toCome_of_none (h : s.adding = none) (i : ι) : s.toCome i = [] := by simp [toCome, h]

theorem toCome_of_some {message : μ} {rest : List ι} (h : s.adding = some (message, rest)) (i : ι) :
    s.toCome i = if i ∈ rest then [message] else [] := by simp [toCome, h]

/-! ## One session and the log -/

/-- What a session has passed on, what it holds and what it is being given make up the log since it was
added; its thread has sent some of what was passed on, all but what was dropped. -/
def Follows (reportable : μ → Bool) (s : EventStreaming ι μ) (i : ι) : Prop :=
  ∃ passed rest : List μ, (s.sent i ++ (s.svc i).inFlight).Sublist passed ∧
    passed ++ (s.session i).messages ++ (s.toCome i).filter reportable ++ rest =
      (s.log.drop (s.joined i)).filter reportable ∧
    ((s.svc i).isListed = true → rest = [] ∧ (s.svc i ≠ .removing →
      passed.length = (s.sent i ++ (s.svc i).inFlight).length + s.dropped i))

/-- Nothing that `Follows` reads of a session has changed but where its thread is. -/
theorem Follows.transfer {i : ι} (h : Follows reportable s i) (hsent : s'.sent i = s.sent i)
    (hsession : (s'.session i).messages = (s.session i).messages) (hcome : s'.toCome i = s.toCome i)
    (hlog : s'.log.drop (s'.joined i) = s.log.drop (s.joined i)) (hdropped : s'.dropped i = s.dropped i)
    (hflight : (s'.svc i).inFlight = (s.svc i).inFlight)
    (hlisted : (s'.svc i).isListed = true → (s.svc i).isListed = true)
    (hremoving : s'.svc i ≠ .removing → s.svc i ≠ .removing) : Follows reportable s' i := by
  obtain ⟨passed, rest, hsub, heq, hl⟩ := h
  refine ⟨passed, rest, ?_, ?_, fun hs => ?_⟩
  · rwa [hsent, hflight]
  · rwa [hsession, hcome, hlog]
  · obtain ⟨hrest, hlen⟩ := hl (hlisted hs)
    rw [hsent, hflight, hdropped]
    exact ⟨hrest, fun hr => hlen (hremoving hr)⟩

/-- The invariant of all runs. -/
structure Inv (reportable : μ → Bool) (s : EventStreaming ι μ) : Prop where
  nodup : s.sessions.Nodup
  mem : ∀ i, i ∈ s.sessions ↔ (s.svc i).isListed = true
  adding : ∀ message rest, s.adding = some (message, rest) → rest.Nodup ∧ rest ⊆ s.sessions
  joined : ∀ i, s.joined i ≤ s.log.length
  fresh : ∀ i, s.svc i = .new → s.sent i = [] ∧ (s.session i).messages = [] ∧ s.dropped i = 0
  follows : ∀ i, s.svc i ≠ .new → Follows reportable s i

theorem inv_init : Inv reportable ({} : EventStreaming ι μ) where
  nodup := List.nodup_nil
  mem := by simp [StreamingSvc.isListed]
  adding := by simp
  joined := by simp
  fresh := by simp
  follows i h := absurd rfl h

theorem Inv.addMessage (h : Inv reportable s) (message : μ) :
    Inv reportable (s.step reportable (.addMessage message)) := by
  cases ha : s.adding with
  | some p => simpa [step, ha] using h
  | none =>
    simp only [step, ha]
    refine ⟨h.nodup, h.mem, ?_, ?_, h.fresh, ?_⟩
    · rintro m rest ⟨⟩
      exact ⟨h.nodup, fun _ => id⟩
    · intro i
      have := h.joined i
      simp only [List.length_append, List.length_singleton]
      omega
    · intro i hi
      obtain ⟨passed, rest, hsub, heq, hl⟩ := h.follows i hi
      have hdrop : (s.log ++ [message]).drop (s.joined i) = s.log.drop (s.joined i) ++ [message] :=
        List.drop_append_of_le_length (h.joined i)
      rw [toCome_of_none ha, List.filter_nil, List.append_nil] at heq
      by_cases hlisted : (s.svc i).isListed = true
      · have hmem : i ∈ s.sessions := (h.mem i).2 hlisted
        obtain ⟨rfl, hlen⟩ := hl hlisted
        refine ⟨passed, [], hsub, ?_, fun _ => ⟨rfl, hlen⟩⟩
        rw [hdrop, List.filter_append, ← heq]
        simp [toCome, hmem]
      · have hmem : i ∉ s.sessions := fun hm => hlisted ((h.mem i).1 hm)
        refine ⟨passed, rest ++ [message].filter reportable, hsub, ?_, fun hs => absurd hs hlisted⟩
        rw [hdrop, List.filter_append, ← heq]
        simp [toCome, hmem]

/-- A session that is given the message. -/
theorem Follows.give {i : ι} {message : μ} {rest : List ι} (h : Follows reportable s i)
    (hlisted : (s.svc i).isListed = true) (hadding : s.adding = some (message, i :: rest))
    (hnot : i ∉ rest) :
    Follows reportable { s.giveTo reportable i message with adding := some (message, rest) } i := by
  obtain ⟨passed, tail, hsub, heq, hl⟩ := h
  obtain ⟨rfl, hlen⟩ := hl hlisted
  rw [toCome_of_some hadding, if_pos List.mem_cons_self] at heq
  have hcome : toCome { s.giveTo reportable i message with adding := some (message, rest) } i = [] := by
    simp [toCome, hnot]
  have hmessages : ((s.session i).addMessage reportable message).messages =
      (if (s.session i).drops then (s.session i).messages.tail else (s.session i).messages) ++
        [message].filter reportable := by
    cases hr : reportable message <;> simp [EventStreamingSession.addMessage, hr]
  cases hd : (s.session i).drops with
  | false =>
    refine ⟨passed, [], hsub, ?_, fun _ => ⟨rfl, fun hr => ?_⟩⟩
    · rw [hcome]
      refine Eq.trans ?_ heq
      simp [giveTo, hmessages, hd]
    · simpa [giveTo, setSession, hd] using hlen hr
  | true =>
    obtain ⟨oldest, messages, hm⟩ : ∃ x xs, (s.session i).messages = x :: xs := by
      apply List.exists_cons_of_length_pos
      simp only [drops, decide_eq_true_eq] at hd
      omega
    refine ⟨passed ++ [oldest], [], hsub.trans (List.sublist_append_left _ _), ?_, fun _ => ⟨rfl, fun hr => ?_⟩⟩
    · rw [hcome]
      refine Eq.trans ?_ heq
      simp [giveTo, hmessages, hd, hm]
    · have := hlen hr
      simp only [giveTo, setSession, Function.update_self, hd, if_true, List.length_append,
        List.length_singleton] at this ⊢
      omega

theorem Inv.give (h : Inv reportable s) : Inv reportable (s.step reportable .give) := by
  match ha : s.adding with
  | none => simpa [EventStreaming.step, ha] using h
  | some (message, []) => simpa [EventStreaming.step, ha] using h
  | some (message, i :: rest) =>
    obtain ⟨hnodup, hsub⟩ := h.adding message _ ha
    have hi : (s.svc i).isListed = true := (h.mem i).1 (hsub List.mem_cons_self)
    have hnot : i ∉ rest := (List.nodup_cons.mp hnodup).1
    simp only [step, ha]
    refine ⟨h.nodup, h.mem, ?_, h.joined, fun k hk => ?_, fun k hk => ?_⟩
    · rintro m l ⟨⟩
      exact ⟨(List.nodup_cons.mp hnodup).2, fun k hk => hsub (List.mem_cons_of_mem _ hk)⟩
    · have hne : k ≠ i := by
        rintro rfl
        rw [show s.svc k = .new from hk] at hi
        cases hi
      simpa [giveTo, setSession, hne] using h.fresh k hk
    · by_cases hki : k = i
      · subst hki
        exact (h.follows k hk).give hi ha hnot
      · refine (h.follows k hk).transfer rfl ?_ ?_ rfl ?_ rfl id id
        · simp [giveTo, setSession, hki]
        · simp [toCome, ha, hki]
        · simp [giveTo, hki]

theorem Inv.unlock (h : Inv reportable s) : Inv reportable (s.step reportable .unlock) := by
  match ha : s.adding with
  | none => simpa [EventStreaming.step, ha] using h
  | some (_, _ :: _) => simpa [EventStreaming.step, ha] using h
  | some (message, []) =>
    simp only [step, ha]
    refine ⟨h.nodup, h.mem, by simp, h.joined, h.fresh, fun k hk => ?_⟩
    exact (h.follows k hk).transfer rfl rfl (by simp [toCome, ha]) rfl rfl rfl id id

/-- A thread moves between two places of its loop, with what it holds. -/
theorem Inv.setSvc (h : Inv reportable s) {i : ι} {c : StreamingSvc μ} (hold : (s.svc i).isListed = true)
    (hlisted : c.isListed = true) (hflight : c.inFlight = (s.svc i).inFlight)
    (hremoving : c ≠ .removing → s.svc i ≠ .removing) : Inv reportable (s.setSvc i c) := by
  have hnew {k : ι} (hk : (s.setSvc i c).svc k = .new) : k ≠ i ∧ s.svc k = .new := by
    by_cases hki : k = i
    · subst hki
      rw [setSvc_svc_self] at hk
      rw [hk] at hlisted
      cases hlisted
    · rw [setSvc_svc_of_ne _ hki] at hk
      exact ⟨hki, hk⟩
  refine ⟨h.nodup, fun k => ?_, h.adding, h.joined, fun k hk => h.fresh k (hnew hk).2, fun k hk => ?_⟩
  · by_cases hki : k = i
    · subst hki
      rw [setSvc_svc_self, hlisted]
      exact (h.mem k).trans (by rw [hold])
    · rw [setSvc_svc_of_ne _ hki]
      exact h.mem k
  · by_cases hki : k = i
    · subst hki
      have hk' : s.svc k ≠ .new := fun hn => by
        rw [hn] at hold
        cases hold
      refine (h.follows k hk').transfer rfl rfl rfl rfl rfl ?_ (fun _ => hold) ?_
      · rw [setSvc_svc_self, hflight]
      · rwa [setSvc_svc_self]
    · rw [setSvc_svc_of_ne _ hki] at hk
      refine (h.follows k hk).transfer rfl rfl rfl rfl rfl ?_ ?_ ?_ <;> rw [setSvc_svc_of_ne _ hki]
      · exact id
      · exact id

/-- The count of a semaphore does not matter here. -/
theorem Inv.setSession (h : Inv reportable s) {i : ι} {session : EventStreamingSession μ}
    (hmessages : session.messages = (s.session i).messages) : Inv reportable (s.setSession i session) := by
  have hsame (k : ι) : ((s.setSession i session).session k).messages = (s.session k).messages := by
    by_cases hki : k = i
    · subst hki
      rw [setSession_self, hmessages]
    · rw [setSession_of_ne _ hki]
  refine ⟨h.nodup, h.mem, h.adding, h.joined, fun k hk => ?_, fun k hk => ?_⟩
  · rw [hsame]
    exact h.fresh k hk
  · exact (h.follows k hk).transfer rfl (hsame k) rfl rfl rfl rfl id id

theorem Inv.addSession (h : Inv reportable s) (i : ι) :
    Inv reportable (s.step reportable (.addSession i)) := by
  by_cases hen : s.adding = none ∧ s.svc i = .new
  · obtain ⟨ha, hc⟩ := hen
    have hi : i ∉ s.sessions := by
      rw [h.mem i, hc]
      exact Bool.false_ne_true
    simp only [step, ha, hc]
    refine ⟨?_, fun k => ?_, by simp [EventStreaming.setSvc, ha], fun k => ?_, fun k hk => ?_, fun k hk => ?_⟩
    · exact List.nodup_append.mpr ⟨h.nodup, List.nodup_singleton i, by
        rintro a hm b hb rfl
        rw [List.mem_singleton] at hb
        exact hi (hb ▸ hm)⟩
    · by_cases hki : k = i
      · subst hki
        simp [EventStreaming.setSvc, StreamingSvc.isListed]
      · simp [EventStreaming.setSvc, hki, h.mem k]
    · by_cases hki : k = i
      · subst hki
        simp [EventStreaming.setSvc]
      · simpa [EventStreaming.setSvc, hki] using h.joined k
    · by_cases hki : k = i
      · subst hki
        simp [EventStreaming.setSvc] at hk
      · exact h.fresh k (by simpa [EventStreaming.setSvc, hki] using hk)
    · by_cases hki : k = i
      · subst hki
        obtain ⟨hsent, hmessages, hdropped⟩ := h.fresh k hc
        refine ⟨[], [], ?_, ?_, ?_⟩ <;>
          simp [EventStreaming.setSvc, toCome, ha, hsent, hmessages, hdropped, StreamingSvc.inFlight]
      · have hk' : s.svc k ≠ .new := by simpa [EventStreaming.setSvc, hki] using hk
        refine (h.follows k hk').transfer rfl rfl rfl ?_ rfl ?_ ?_ ?_ <;> simp [EventStreaming.setSvc, hki]
  · have : s.step reportable (.addSession i) = s := by
      simp only [step]
      split
      · exact absurd ⟨by assumption, by assumption⟩ hen
      · rfl
    rwa [this]

theorem Inv.getNumSessions (h : Inv reportable s) (i : ι) :
    Inv reportable (s.step reportable (.getNumSessions i)) := by
  by_cases hen : s.adding = none ∧ s.svc i = .added
  · obtain ⟨ha, hc⟩ := hen
    simp only [step, ha, hc]
    refine h.setSvc (by simp [hc, StreamingSvc.isListed]) ?_ ?_ (by simp [hc])
    · split <;> rfl
    · rw [hc]
      split <;> rfl
  · have : s.step reportable (.getNumSessions i) = s := by
      simp only [step]
      split
      · exact absurd ⟨by assumption, by assumption⟩ hen
      · rfl
    rwa [this]

theorem Inv.waitForMessages (h : Inv reportable s) (i : ι) :
    Inv reportable (s.step reportable (.waitForMessages i)) := by
  cases hc : s.svc i with
  | waiting =>
    simp only [step, hc]
    split
    · refine (h.setSession (i := i) ?_).setSvc ?_ rfl ?_ ?_
      · rfl
      · simp [EventStreaming.setSession, hc, StreamingSvc.isListed]
      · simp [EventStreaming.setSession, hc, StreamingSvc.inFlight]
      · simp [EventStreaming.setSession, hc]
    · exact h
  | new | added | polling | taking | sending m | removing | stopped => simpa [EventStreaming.step, hc] using h

theorem Inv.getNumMessages (h : Inv reportable s) (i : ι) :
    Inv reportable (s.step reportable (.getNumMessages i)) := by
  cases hc : s.svc i with
  | polling =>
    simp only [step, hc]
    refine h.setSvc (by simp [hc, StreamingSvc.isListed]) ?_ ?_ (by simp [hc])
    · split <;> rfl
    · rw [hc]
      split <;> rfl
  | new | added | waiting | taking | sending m | removing | stopped => simpa [EventStreaming.step, hc] using h

/-- The oldest message passes from the session to the thread. -/
theorem Inv.take (h : Inv reportable s) {i : ι} {message : μ} {rest : List μ} (hc : s.svc i = .taking)
    (hm : (s.session i).messages = message :: rest) :
    Inv reportable ((s.setSession i { s.session i with messages := rest }).setSvc i (.sending message)) := by
  refine ⟨h.nodup, fun k => ?_, h.adding, h.joined, fun k hk => ?_, fun k hk => ?_⟩
  · by_cases hki : k = i
    · subst hki
      rw [setSvc_svc_self]
      have := h.mem k
      rw [hc] at this
      exact this
    · rw [setSvc_svc_of_ne _ hki]
      exact h.mem k
  · have hki : k ≠ i := by
      rintro rfl
      simp at hk
    rw [setSvc_svc_of_ne _ hki] at hk
    have := h.fresh k hk
    rwa [← setSession_of_ne (s := s) { s.session i with messages := rest } hki] at this
  · by_cases hki : k = i
    · subst hki
      obtain ⟨passed, tail, hsub, heq, hl⟩ := h.follows k (by simp [hc])
      obtain ⟨rfl, hlen⟩ := hl (by simp [hc, StreamingSvc.isListed])
      have hlen := hlen (by simp [hc])
      have hflight : (s.svc k).inFlight = [] := by rw [hc]; rfl
      rw [hflight, List.append_nil] at hsub hlen
      refine ⟨passed ++ [message], [], ?_, ?_, fun _ => ⟨rfl, fun _ => ?_⟩⟩
      · rw [setSvc_svc_self]
        exact hsub.append (List.Sublist.refl _)
      · rw [hm] at heq
        refine Eq.trans ?_ heq
        simp [EventStreaming.setSvc, EventStreaming.setSession, toCome]
      · rw [setSvc_svc_self, StreamingSvc.inFlight, List.length_append, List.length_append, hlen]
        simp only [EventStreaming.setSvc, EventStreaming.setSession, List.length_singleton]
        omega
    · rw [setSvc_svc_of_ne _ hki] at hk
      refine (h.follows k hk).transfer rfl ?_ rfl rfl rfl ?_ ?_ ?_
      · exact congrArg EventStreamingSession.messages (setSession_of_ne _ hki)
      all_goals rw [setSvc_svc_of_ne _ hki]
      · rfl
      · exact id
      · exact id

theorem Inv.getTapeMessage (h : Inv reportable s) (i : ι) :
    Inv reportable (s.step reportable (.getTapeMessage i)) := by
  cases hc : s.svc i with
  | taking =>
    simp only [step, hc, EventStreamingSession.getTapeMessage]
    cases hm : (s.session i).messages with
    | nil =>
      refine (h.setSession (i := i) ?_).setSvc ?_ rfl ?_ ?_
      · rfl
      · simp [EventStreaming.setSession, hc, StreamingSvc.isListed]
      · simp [EventStreaming.setSession, hc, StreamingSvc.inFlight]
      · simp [EventStreaming.setSession, hc]
    | cons message rest => exact h.take hc hm
  | new | added | waiting | polling | sending m | removing | stopped => simpa [EventStreaming.step, hc] using h

theorem Inv.send (h : Inv reportable s) (i : ι) (ok : Bool) :
    Inv reportable (s.step reportable (.send i ok)) := by
  cases hc : s.svc i with
  | sending message =>
    have hlisted : (s.svc i).isListed = true := by simp [hc, StreamingSvc.isListed]
    obtain ⟨passed, tail, hsub, heq, hl⟩ := h.follows i (by simp [hc])
    obtain ⟨rfl, hlen⟩ := hl hlisted
    have hlen := hlen (by simp [hc])
    rw [hc, StreamingSvc.inFlight] at hsub hlen
    have hmem (c : StreamingSvc μ) (hcl : c.isListed = true) (k : ι) :
        k ∈ s.sessions ↔ ((s.setSvc i c).svc k).isListed = true := by
      by_cases hki : k = i
      · subst hki
        rw [setSvc_svc_self, hcl]
        exact (h.mem k).trans (by rw [hlisted])
      · rw [setSvc_svc_of_ne _ hki]
        exact h.mem k
    have hother (c : StreamingSvc μ) {k : ι} (hki : k ≠ i) (hk : (s.setSvc i c).svc k ≠ .new) :
        Follows reportable (s.setSvc i c) k := by
      rw [setSvc_svc_of_ne _ hki] at hk
      refine (h.follows k hk).transfer rfl rfl rfl rfl rfl ?_ ?_ ?_ <;> rw [setSvc_svc_of_ne _ hki]
      · exact id
      · exact id
    cases ok with
    | false =>
      simp only [step, hc, Bool.false_eq_true, if_false]
      refine ⟨h.nodup, hmem _ rfl, h.adding, h.joined, fun k hk => ?_, fun k hk => ?_⟩
      · by_cases hki : k = i
        · subst hki
          simp [EventStreaming.setSvc] at hk
        · exact h.fresh k (by simpa [EventStreaming.setSvc, hki] using hk)
      · by_cases hki : k = i
        · subst hki
          refine ⟨passed, [], ?_, heq, fun _ => ⟨rfl, fun hr => ?_⟩⟩
          · rw [setSvc_svc_self]
            change (s.sent k ++ []).Sublist passed
            rw [List.append_nil]
            exact (List.sublist_append_left _ _).trans hsub
          · simp [EventStreaming.setSvc] at hr
        · exact hother _ hki hk
    | true =>
      simp only [step, hc, if_true]
      refine ⟨h.nodup, hmem .polling rfl, h.adding, h.joined, fun k hk => ?_, fun k hk => ?_⟩
      · by_cases hki : k = i
        · subst hki
          simp [EventStreaming.setSvc] at hk
        · have := h.fresh k (by simpa [EventStreaming.setSvc, hki] using hk)
          rwa [← Function.update_of_ne hki (s.sent i ++ [message]) s.sent] at this
      · by_cases hki : k = i
        · subst hki
          refine ⟨passed, [], ?_, heq, fun _ => ⟨rfl, fun _ => ?_⟩⟩
          · simpa [EventStreaming.setSvc, StreamingSvc.inFlight] using hsub
          · simpa [EventStreaming.setSvc, StreamingSvc.inFlight] using hlen
        · refine (hother .polling hki hk).transfer ?_ rfl rfl rfl rfl rfl id id
          simp [hki, EventStreaming.setSvc]
  | new | added | waiting | polling | taking | removing | stopped => simpa [EventStreaming.step, hc] using h

theorem Inv.removeSession (h : Inv reportable s) (i : ι) :
    Inv reportable (s.step reportable (.removeSession i)) := by
  by_cases hen : s.adding = none ∧ s.svc i = .removing
  · obtain ⟨ha, hc⟩ := hen
    simp only [step, ha, hc]
    refine ⟨h.nodup.filter _, fun k => ?_, by simp [EventStreaming.setSvc, ha], h.joined, fun k hk => ?_,
      fun k hk => ?_⟩
    · by_cases hki : k = i
      · subst hki
        simp [EventStreaming.setSvc, StreamingSvc.isListed]
      · simp [EventStreaming.setSvc, hki, h.mem k]
    · by_cases hki : k = i
      · subst hki
        simp [EventStreaming.setSvc] at hk
      · exact h.fresh k (by simpa [EventStreaming.setSvc, hki] using hk)
    · by_cases hki : k = i
      · subst hki
        obtain ⟨passed, tail, hsub, heq, -⟩ := h.follows k (by simp [hc])
        refine ⟨passed, tail, ?_, heq, fun hs => ?_⟩
        · simpa [EventStreaming.setSvc, hc, StreamingSvc.inFlight] using hsub
        · simp [EventStreaming.setSvc, StreamingSvc.isListed] at hs
      · have hk' : s.svc k ≠ .new := by simpa [EventStreaming.setSvc, hki] using hk
        refine (h.follows k hk').transfer rfl rfl rfl rfl rfl ?_ ?_ ?_ <;> simp [EventStreaming.setSvc, hki]
  · have : s.step reportable (.removeSession i) = s := by
      simp only [step]
      split
      · exact absurd ⟨by assumption, by assumption⟩ hen
      · rfl
    rwa [this]

theorem Inv.step (h : Inv reportable s) (a : StreamingAction ι μ) : Inv reportable (s.step reportable a) := by
  cases a with
  | addMessage message => exact h.addMessage message
  | give => exact h.give
  | unlock => exact h.unlock
  | addSession i => exact h.addSession i
  | getNumSessions i => exact h.getNumSessions i
  | waitForMessages i => exact h.waitForMessages i
  | getNumMessages i => exact h.getNumMessages i
  | getTapeMessage i => exact h.getTapeMessage i
  | send i ok => exact h.send i ok
  | removeSession i => exact h.removeSession i

theorem inv_run (l : List (StreamingAction ι μ)) :
    Inv reportable (l.foldl (EventStreaming.step reportable) {}) :=
  Run.inv_foldl (P := Inv reportable) (fun _ a h => Inv.step h a) l inv_init

/-! ## All streams -/

/-- What the streams have sent is in the order of the one log; a stream in its loop that has dropped
nothing has sent all of it since it was added, but for what it holds and is being given. -/
structure Broadcast (reportable : μ → Bool) (s : EventStreaming ι μ) : Prop where
  inOrder : ∀ i, (s.sent i).Sublist ((s.log.drop (s.joined i)).filter reportable)
  complete : ∀ i, (s.svc i).isStreaming = true → s.dropped i = 0 →
    s.sent i ++ (s.svc i).inFlight ++ (s.session i).messages ++ (s.toCome i).filter reportable =
      (s.log.drop (s.joined i)).filter reportable
  agree : s.log.Nodup → ∀ i j a b, [a, b].Sublist (s.sent i) → ¬ [b, a].Sublist (s.sent j)

theorem not_swapped {a b : μ} : ∀ {l : List μ}, l.Nodup → [a, b].Sublist l → ¬ [b, a].Sublist l
  | [], _, h, _ => by cases h
  | x :: l, hl, h, h' => by
    obtain ⟨hx, hl⟩ := List.nodup_cons.mp hl
    cases h with
    | cons _ h =>
      cases h' with
      | cons _ h' => exact not_swapped hl h h'
      | cons_cons _ _ => exact hx (h.subset (by simp))
    | cons_cons _ h =>
      cases h' with
      | cons _ h' => exact hx (h'.subset (by simp))
      | cons_cons _ _ => exact hx (h.subset (by simp))

theorem Inv.inOrder (h : Inv reportable s) (i : ι) :
    (s.sent i).Sublist ((s.log.drop (s.joined i)).filter reportable) := by
  by_cases hc : s.svc i = .new
  · rw [(h.fresh i hc).1]
    exact List.nil_sublist _
  · obtain ⟨passed, rest, hsub, heq, -⟩ := h.follows i hc
    rw [← heq, List.append_assoc, List.append_assoc]
    exact ((List.sublist_append_left _ _).trans hsub).trans (List.sublist_append_left _ _)

theorem Inv.broadcast (h : Inv reportable s) : Broadcast reportable s where
  inOrder := h.inOrder
  complete i hs hd := by
    have hlisted : (s.svc i).isListed = true := by
      cases hc : s.svc i <;> simp_all [StreamingSvc.isStreaming, StreamingSvc.isListed]
    have hnew : s.svc i ≠ .new := by
      intro hc
      simp [hc, StreamingSvc.isStreaming] at hs
    have hremoving : s.svc i ≠ .removing := by
      intro hc
      simp [hc, StreamingSvc.isStreaming] at hs
    obtain ⟨passed, rest, hsub, heq, hl⟩ := h.follows i hnew
    obtain ⟨rfl, hlen⟩ := hl hlisted
    have hpassed := hsub.eq_of_length (by rw [hlen hremoving, hd, Nat.add_zero])
    rwa [hpassed, ← List.append_nil (_ ++ _ ++ (s.toCome i).filter reportable)]
  agree hl i j a b hi hj := by
    have hsub (k : ι) : (s.sent k).Sublist s.log :=
      ((h.inOrder k).trans List.filter_sublist).trans (List.drop_sublist _ _)
    exact not_swapped hl (hi.trans (hsub i)) (hj.trans (hsub j))

/-- **The streams agree** on the messages and their order, whatever the threads do. -/
theorem broadcast_run (reportable : μ → Bool) (l : List (StreamingAction ι μ)) :
    Broadcast reportable (l.foldl (EventStreaming.step reportable) ({} : EventStreaming ι μ)) :=
  (inv_run l).broadcast

/-- Two streams and two messages, the second of which the first stream has been given and the other not yet. -/
example : (([.addSession 0, .getNumSessions 0, .addSession 1, .getNumSessions 1, .addMessage 5, .give,
    .waitForMessages 0, .give, .unlock, .addMessage 6, .getNumMessages 0, .getTapeMessage 0, .give,
    .send 0 true].foldl (EventStreaming.step fun _ => true) ({} : EventStreaming Nat Nat)).sent 0) = [5] := by
  decide

/-! ## Waking up -/

/-- The semaphore has been acquired for messages that may still be there. -/
def credit : StreamingSvc μ → Nat
  | .polling | .taking | .sending _ => 1
  | _ => 0

/-- The count of the semaphore covers the messages, but for those of the thread that has acquired it last. -/
structure Counted (s : EventStreaming ι μ) : Prop where
  covers : ∀ i, (s.svc i).isListed = true → s.svc i ≠ .removing →
    (s.session i).messages.length ≤ (s.session i).count + credit (s.svc i)
  bounded : ∀ i, (s.session i).messages.length ≤ 10001
  few : (s.sessions.filter fun i => (s.svc i).isStreaming).length ≤ 100

/-- No stream waits while its session has messages; a session never holds more than 10001, and there are never
more than 100 streams behind the count of the sessions. -/
structure Responsive (s : EventStreaming ι μ) : Prop where
  awake : ∀ i, s.svc i = .waiting → (s.session i).messages ≠ [] → 0 < (s.session i).count
  bounded : ∀ i, (s.session i).messages.length ≤ 10001
  few : (s.sessions.filter fun i => (s.svc i).isStreaming).length ≤ 100

omit [DecidableEq ι] in
theorem Counted.responsive (h : Counted s) : Responsive s where
  awake i hc hm := by
    have hcovers := h.covers i (by simp [hc, StreamingSvc.isListed]) (by simp [hc])
    have hpos := List.length_pos_iff.mpr hm
    simp only [hc, credit] at hcovers
    omega
  bounded := h.bounded
  few := h.few

omit [DecidableEq ι] in
theorem counted_init : Counted ({} : EventStreaming ι μ) where
  covers := by simp
  bounded := by simp
  few := by simp

omit [DecidableEq ι] in
theorem filter_length_mono {p q : ι → Bool} (hpq : ∀ i, q i = true → p i = true) {l l' : List ι}
    (hl : l'.Sublist l) : (l'.filter q).length ≤ (l.filter p).length :=
  ((List.monotone_filter_right l' hpq).trans (hl.filter p)).length_le

theorem addMessage_counted {t : EventStreamingSession μ} (message : μ) {c : Nat}
    (h : t.messages.length ≤ t.count + c) :
    (t.addMessage reportable message).messages.length ≤ (t.addMessage reportable message).count + c := by
  simp only [EventStreamingSession.addMessage]
  split <;> split <;> simp <;> omega

theorem addMessage_bounded {t : EventStreamingSession μ} (message : μ) (h : t.messages.length ≤ 10001) :
    (t.addMessage reportable message).messages.length ≤ 10001 := by
  simp only [EventStreamingSession.addMessage, drops, decide_eq_true_eq]
  split <;> split <;> simp <;> omega

/-- A thread moves to a place where it is not streaming, or was before. -/
theorem Counted.setSvc (h : Counted s) {i : ι} {c : StreamingSvc μ}
    (hstreaming : c.isStreaming = true → (s.svc i).isStreaming = true)
    (hcovers : c.isListed = true → c ≠ .removing →
      (s.session i).messages.length ≤ (s.session i).count + credit c) : Counted (s.setSvc i c) := by
  have hfew (hk : ∀ k, ((s.setSvc i c).svc k).isStreaming = true → (s.svc k).isStreaming = true) :=
    Nat.le_trans (filter_length_mono hk (List.Sublist.refl s.sessions)) h.few
  refine ⟨fun k hk hr => ?_, h.bounded, hfew fun k hk => ?_⟩
  · by_cases hki : k = i
    · subst hki
      rw [setSvc_svc_self] at hk hr ⊢
      exact hcovers hk hr
    · rw [setSvc_svc_of_ne _ hki] at hk hr ⊢
      exact h.covers k hk hr
  · by_cases hki : k = i
    · subst hki
      rw [setSvc_svc_self] at hk
      exact hstreaming hk
    · rwa [setSvc_svc_of_ne _ hki] at hk

/-- A session changes. -/
theorem Counted.setSession (h : Counted s) {i : ι} {session : EventStreamingSession μ}
    (hcovers : (s.svc i).isListed = true → s.svc i ≠ .removing →
      session.messages.length ≤ session.count + credit (s.svc i))
    (hbounded : session.messages.length ≤ 10001) : Counted (s.setSession i session) := by
  refine ⟨fun k hk hr => ?_, fun k => ?_, h.few⟩ <;> by_cases hki : k = i
  · subst hki
    rw [setSession_self]
    exact hcovers hk hr
  · rw [setSession_of_ne _ hki]
    exact h.covers k hk hr
  · subst hki
    rwa [setSession_self]
  · rw [setSession_of_ne _ hki]
    exact h.bounded k

theorem Counted.give (h : Counted s) : Counted (s.step reportable .give) := by
  match ha : s.adding with
  | none => simpa [EventStreaming.step, ha] using h
  | some (message, []) => simpa [EventStreaming.step, ha] using h
  | some (message, i :: rest) =>
    have hset : Counted (s.setSession i ((s.session i).addMessage reportable message)) :=
      h.setSession (fun hl hr => addMessage_counted message (h.covers i hl hr))
        (addMessage_bounded message (h.bounded i))
    simp only [EventStreaming.step, ha]
    exact ⟨hset.covers, hset.bounded, hset.few⟩

/-- A thread that is added is not streaming yet. -/
theorem Counted.addSession (h : Counted s) (hinv : Inv reportable s) (i : ι) :
    Counted (s.step reportable (.addSession i)) := by
  by_cases hen : s.adding = none ∧ s.svc i = .new
  · obtain ⟨ha, hc⟩ := hen
    have hset : Counted (s.setSvc i .added) := h.setSvc (by simp [StreamingSvc.isStreaming]) (by
      simp [(hinv.fresh i hc).2.1])
    simp only [EventStreaming.step, ha, hc]
    refine ⟨hset.covers, hset.bounded, ?_⟩
    have hfew := hset.few
    rw [List.filter_append]
    simpa [EventStreaming.setSvc, StreamingSvc.isStreaming] using hfew
  · have : s.step reportable (.addSession i) = s := by
      simp only [EventStreaming.step]
      split
      · exact absurd ⟨by assumption, by assumption⟩ hen
      · rfl
    rwa [this]

/-- A thread passes the count only when all the sessions, its own included, are at most 100. -/
theorem Counted.getNumSessions (h : Counted s) (i : ι) : Counted (s.step reportable (.getNumSessions i)) := by
  by_cases hen : s.adding = none ∧ s.svc i = .added
  · obtain ⟨ha, hc⟩ := hen
    have hcovers := h.covers i (by simp [hc, StreamingSvc.isListed]) (by simp [hc])
    simp only [EventStreaming.step, ha, hc]
    split
    · exact h.setSvc (by simp [StreamingSvc.isStreaming]) (by simp)
    · refine ⟨fun k hk hr => ?_, h.bounded, ?_⟩
      · by_cases hki : k = i
        · subst hki
          rw [setSvc_svc_self]
          rwa [hc] at hcovers
        · rw [setSvc_svc_of_ne _ hki] at hk hr ⊢
          exact h.covers k hk hr
      · exact Nat.le_trans (List.length_filter_le _ _) (by simp only [EventStreaming.setSvc]; omega)
  · have : s.step reportable (.getNumSessions i) = s := by
      simp only [EventStreaming.step]
      split
      · exact absurd ⟨by assumption, by assumption⟩ hen
      · rfl
    rwa [this]

/-- The thread acquires the semaphore for what it then finds. -/
theorem Counted.waitForMessages (h : Counted s) (i : ι) : Counted (s.step reportable (.waitForMessages i)) := by
  cases hc : s.svc i with
  | waiting =>
    have hcovers := h.covers i (by simp [hc, StreamingSvc.isListed]) (by simp [hc])
    simp only [hc, credit] at hcovers
    simp only [EventStreaming.step, hc]
    split
    · rename_i hpos
      refine ⟨fun k hk hr => ?_, fun k => ?_, ?_⟩
      · by_cases hki : k = i
        · subst hki
          simp only [EventStreaming.setSvc, EventStreaming.setSession, Function.update_self, credit]
          omega
        · rw [setSvc_svc_of_ne _ hki] at hk hr ⊢
          simpa [EventStreaming.setSvc, EventStreaming.setSession, hki] using h.covers k hk hr
      · by_cases hki : k = i
        · subst hki
          simpa [EventStreaming.setSvc, EventStreaming.setSession] using h.bounded k
        · simpa [EventStreaming.setSvc, EventStreaming.setSession, hki] using h.bounded k
      · refine Nat.le_trans (filter_length_mono (fun k hk => ?_) (List.Sublist.refl _)) h.few
        by_cases hki : k = i
        · subst hki
          simp [hc, StreamingSvc.isStreaming]
        · rwa [setSvc_svc_of_ne _ hki] at hk
    · exact h
  | new | added | polling | taking | sending m | removing | stopped => simpa [EventStreaming.step, hc] using h

/-- The thread waits again only when it has found no message. -/
theorem Counted.getNumMessages (h : Counted s) (i : ι) : Counted (s.step reportable (.getNumMessages i)) := by
  cases hc : s.svc i with
  | polling =>
    have hcovers := h.covers i (by simp [hc, StreamingSvc.isListed]) (by simp [hc])
    simp only [hc, credit] at hcovers
    simp only [EventStreaming.step, hc]
    split
    · rename_i hempty
      refine h.setSvc (by simp [hc, StreamingSvc.isStreaming]) fun _ _ => ?_
      rw [List.isEmpty_iff.mp hempty]
      exact Nat.zero_le _
    · exact h.setSvc (by simp [hc, StreamingSvc.isStreaming]) fun _ _ => hcovers
  | new | added | waiting | taking | sending m | removing | stopped => simpa [EventStreaming.step, hc] using h

theorem Counted.getTapeMessage (h : Counted s) (i : ι) : Counted (s.step reportable (.getTapeMessage i)) := by
  cases hc : s.svc i with
  | taking =>
    have hcovers := h.covers i (by simp [hc, StreamingSvc.isListed]) (by simp [hc])
    have hbounded := h.bounded i
    simp only [hc, credit] at hcovers
    simp only [EventStreaming.step, hc, EventStreamingSession.getTapeMessage]
    cases hm : (s.session i).messages with
    | nil =>
      refine (h.setSession (i := i) (fun _ _ => ?_) hbounded).setSvc ?_ fun _ _ => ?_
      · rwa [hc]
      · simp [EventStreaming.setSession, hc, StreamingSvc.isStreaming]
      · simpa [EventStreaming.setSession, credit] using hcovers
    | cons message rest =>
      rw [hm, List.length_cons] at hcovers hbounded
      refine (h.setSession (i := i) (fun _ _ => ?_) ?_).setSvc ?_ fun _ _ => ?_
      · simp only [hc, credit]
        exact Nat.le_trans (Nat.le_succ _) hcovers
      · exact Nat.le_trans (Nat.le_succ _) hbounded
      · simp [EventStreaming.setSession, hc, StreamingSvc.isStreaming]
      · simp only [EventStreaming.setSession, Function.update_self, Option.elim_some, credit]
        exact Nat.le_trans (Nat.le_succ _) hcovers
  | new | added | waiting | polling | sending m | removing | stopped => simpa [EventStreaming.step, hc] using h

theorem Counted.send (h : Counted s) (i : ι) (ok : Bool) : Counted (s.step reportable (.send i ok)) := by
  cases hc : s.svc i with
  | sending message =>
    have hcovers := h.covers i (by simp [hc, StreamingSvc.isListed]) (by simp [hc])
    simp only [hc, credit] at hcovers
    cases ok with
    | false =>
      simp only [EventStreaming.step, hc, Bool.false_eq_true, if_false]
      exact h.setSvc (by simp [StreamingSvc.isStreaming]) (by simp)
    | true =>
      have hset : Counted (s.setSvc i .polling) :=
        h.setSvc (by simp [hc, StreamingSvc.isStreaming]) fun _ _ => hcovers
      simp only [EventStreaming.step, hc, if_true]
      exact ⟨hset.covers, hset.bounded, hset.few⟩
  | new | added | waiting | polling | taking | removing | stopped => simpa [EventStreaming.step, hc] using h

theorem Counted.removeSession (h : Counted s) (i : ι) : Counted (s.step reportable (.removeSession i)) := by
  by_cases hen : s.adding = none ∧ s.svc i = .removing
  · obtain ⟨ha, hc⟩ := hen
    have hset : Counted (s.setSvc i .stopped) :=
      h.setSvc (by simp [StreamingSvc.isStreaming]) (by simp [StreamingSvc.isListed])
    simp only [EventStreaming.step, ha, hc]
    refine ⟨hset.covers, hset.bounded, Nat.le_trans ?_ hset.few⟩
    exact filter_length_mono (fun _ => id) List.filter_sublist
  · have : s.step reportable (.removeSession i) = s := by
      simp only [EventStreaming.step]
      split
      · exact absurd ⟨by assumption, by assumption⟩ hen
      · rfl
    rwa [this]

theorem Counted.step (h : Counted s) (hinv : Inv reportable s) (a : StreamingAction ι μ) :
    Counted (s.step reportable a) := by
  cases a with
  | addMessage message =>
    simp only [EventStreaming.step]
    split
    · exact ⟨h.covers, h.bounded, h.few⟩
    · exact h
  | give => exact h.give
  | unlock =>
    simp only [EventStreaming.step]
    split
    · exact ⟨h.covers, h.bounded, h.few⟩
    · exact h
  | addSession i => exact h.addSession hinv i
  | getNumSessions i => exact h.getNumSessions i
  | waitForMessages i => exact h.waitForMessages i
  | getNumMessages i => exact h.getNumMessages i
  | getTapeMessage i => exact h.getTapeMessage i
  | send i ok => exact h.send i ok
  | removeSession i => exact h.removeSession i

/-- **No stream sleeps on a message**, and neither the sessions nor what they hold grow beyond their limits. -/
theorem responsive_run (reportable : μ → Bool) (l : List (StreamingAction ι μ)) :
    Responsive (l.foldl (EventStreaming.step reportable) ({} : EventStreaming ι μ)) :=
  have h : Inv reportable _ ∧ Counted _ :=
    Run.inv_foldl (P := fun s => Inv reportable s ∧ Counted s)
      (fun _ a h => ⟨h.1.step a, h.2.step h.1 a⟩) l ⟨inv_init, counted_init⟩
  h.2.responsive

end EventStreaming

end Oreka.Streaming
