import Oreka.Iax2.Iax2Session
import Oreka.Lib.KeyedMap
import Oreka.Lib.Run

/-!
# The tracking ids of IAX2 sessions

A session keeps the tracking id it is created with, and the start that it sends carries it. The ids are the
letters of a counter that goes round below 26^4, so that two sessions share one exactly if they are a multiple
of 26^4 sessions apart.
-/

open Std KeyedMap

namespace Oreka

namespace AlphaCounter

/-- The constructor without a start, at the time `hrtime`: its least two bytes choose one. (The `double` products
are exact.) -/
def new (hrtime : Int) : AlphaCounter := ⟨(hrtime % 65536).toNat * 456976 / 65536⟩

theorem new_counter_lt (hrtime : Int) : (new hrtime).counter < 456976 := by
  simp only [new]
  omega

/-- The letters tell the values of the counter apart. -/
theorem letters_injective {m n : Nat} (hm : m < 456976) (hn : n < 456976) (h : letters m = letters n) : m = n := by
  have hchar : ∀ a < 26, ∀ b < 26, Char.ofNat (a + 65) = Char.ofNat (b + 65) → a = b := by decide
  have hlist := congrArg String.toList h
  simp only [letters, String.toList_ofList, List.map_cons, List.map_nil, List.cons.injEq, and_true] at hlist
  obtain ⟨h1, h2, h3, h4⟩ := hlist
  have e1 := hchar _ (by omega) _ (by omega) h1
  have e2 := hchar _ (by omega) _ (by omega) h2
  have e3 := hchar _ (by omega) _ (by omega) h3
  have e4 := hchar _ (by omega) _ (by omega) h4
  omega

theorem getNext_eq {c : AlphaCounter} (h : c.counter < 456976) :
    c.getNext = (⟨(c.counter + 1) % 456976⟩, letters ((c.counter + 1) % 456976)) := by
  unfold getNext
  dsimp only
  split
  · rw [show c.counter + 1 = 456976 by omega]
  · rw [Nat.mod_eq_of_lt (by omega)]

example : (getNext ⟨456975⟩).2 = "AAAA" := by decide

end AlphaCounter

namespace Iax2

variable {cfg : Config}

namespace Iax2Session

variable {s s' : Iax2Session}

/-- What an operation makes of a session, and what it sends: the tracking id is kept, and a start carries it. -/
structure Tagged (s s' : Iax2Session) (out : List Output) : Prop where
  trackingId : s'.trackingId = s.trackingId
  starts : ∀ e port, .event e port ∈ out → e.type = .start → e.value = s.trackingId

theorem Tagged.silent (h : s'.trackingId = s.trackingId) : Tagged s s' [] := ⟨h, by simp⟩

/-- What has changed before is not the tracking id. -/
theorem Tagged.before {t : Iax2Session} {out : List Output} (h : Tagged t s' out)
    (ht : t.trackingId = s.trackingId) : Tagged s s' out :=
  ⟨h.trackingId.trans ht, fun e port he hs => (h.starts e port he hs).trans ht⟩

theorem Tagged.trans {s'' : Iax2Session} {out out' : List Output} (h : Tagged s s' out) (h' : Tagged s' s'' out') :
    Tagged s s'' (out ++ out') where
  trackingId := h'.trackingId.trans h.trackingId
  starts e port he ht := by
    rcases List.mem_append.mp he with he | he
    · exact h.starts e port he ht
    · exact (h'.starts e port he ht).trans h.trackingId

theorem tagged_stop (s : Iax2Session) : Tagged s s.stop.1 s.stop.2 := by
  unfold stop
  split
  · refine ⟨rfl, fun e port he ht => ?_⟩
    simp only [List.mem_singleton, Output.event.injEq] at he
    rw [he.1] at ht
    cases ht
  · exact .silent rfl

theorem tagged_start (s : Iax2Session) (cfg : Config) (now : Int) :
    Tagged s (s.start cfg now).1 (s.start cfg now).2 := by
  refine ⟨rfl, fun e port he _ => ?_⟩
  simp only [start, List.mem_singleton, Output.event.injEq] at he
  rw [he.1]

theorem tagged_reportMetadata (s : Iax2Session) : Tagged s s.reportMetadata.1 s.reportMetadata.2 := by
  refine ⟨?_, fun e port he ht => ?_⟩
  · unfold reportMetadata ensureLocalParty
    dsimp only
    split <;> rfl
  · simp only [reportMetadata, List.mem_map, Output.event.injEq] at he
    obtain ⟨e', he', rfl, -⟩ := he
    simp only [List.mem_append, List.mem_cons, List.not_mem_nil, or_false, List.mem_ite_nil_right, List.mem_map] at he'
    rcases he' with ((((rfl | rfl) | ⟨-, rfl⟩) | rfl | rfl | rfl | rfl | rfl) | ⟨t, -, rfl⟩) | rfl <;> cases ht

theorem side_trackingId {packets packets' : Ref → Iax2PacketInfo} {p : Ref} {channel : UInt8}
    (h : s.side cfg packets p = some (s', packets', channel)) : s'.trackingId = s.trackingId := by
  unfold side at h
  dsimp only at h
  repeat' split at h
  all_goals cases h
  all_goals rfl

theorem tagged_deliver (s : Iax2Session) (pkt : Iax2PacketInfo) (channel : UInt8) :
    Tagged s (s.deliver pkt channel).1 (s.deliver pkt channel).2 := by
  unfold deliver
  dsimp only
  split
  · exact ⟨rfl, by simp⟩
  · exact .silent rfl

theorem tagged_startAtFirst (s : Iax2Session) (cfg : Config) (now : Int) :
    Tagged s (s.startAtFirst cfg now).1 (s.startAtFirst cfg now).2 := by
  unfold startAtFirst
  split
  · exact (tagged_start s cfg now).trans (tagged_reportMetadata _)
  · exact .silent rfl

theorem advance_trackingId (s : Iax2Session) (channel : UInt8) : (s.advance channel).trackingId = s.trackingId := by
  unfold advance
  split <;> rfl

theorem tagged_acceptPacket (s : Iax2Session) (cfg : Config) (packets : Ref → Iax2PacketInfo) (p : Ref) (now : Int) :
    Tagged s (s.acceptPacket cfg packets p now).session (s.acceptPacket cfg packets p now).outputs := by
  unfold acceptPacket
  set s₀ := if (packets p).frameType = .full then
    { s with codec := (packets p).payloadType.toNat } else s with hs₀
  have h₀ : s₀.trackingId = s.trackingId := by
    rw [hs₀]
    split <;> rfl
  dsimp only
  cases hside : ({ s₀ with lastIax2Packet := some p }).side cfg packets p with
  | none => exact .silent h₀
  | some r =>
    obtain ⟨s₁, packets', channel⟩ := r
    have h₁ : s₁.trackingId = s.trackingId := (side_trackingId hside).trans h₀
    have hstart := tagged_startAtFirst { s₁ with numIax2Packets := s₁.numIax2Packets + 1 } cfg now
    exact (hstart.before h₁).trans ((tagged_deliver _ (packets' p) channel).before (advance_trackingId _ channel))

theorem tagged_addIax2Packet (s : Iax2Session) (cfg : Config) (packets : Ref → Iax2PacketInfo) (p : Ref) (now : Int) :
    Tagged s (s.addIax2Packet cfg packets p now).session (s.addIax2Packet cfg packets p now).outputs := by
  unfold addIax2Packet
  split
  · exact .silent rfl
  · split
    · split
      · exact .silent rfl
      · have h : (s.processMetadataIax2 cfg (packets p)).trackingId = s.trackingId := by
          unfold processMetadataIax2
          cases s.newInfo with
          | none => rfl
          | some n =>
            dsimp only
            repeat' split
            all_goals rfl
        exact (tagged_acceptPacket _ cfg packets p now).before h
    · exact tagged_acceptPacket s cfg packets p now

theorem newFor_trackingId (cfg : Config) (trackingId : String) (invite : Iax2NewInfo) (now : Int) :
    (newFor cfg trackingId invite now).trackingId = trackingId := by
  unfold newFor reportIax2New
  cases cfg.iax2TreatCallerIdNameAsXUniqueId <;> rfl

end Iax2Session

namespace Iax2Sessions

variable {σ : Iax2Sessions} {r : Ref}

/-- The constructor: the counter is reset where `m_debug` is set. -/
def new (debug : Bool) (hrtime : Int) : Iax2Sessions := { alphaCounter := if debug then ⟨0⟩ else .new hrtime }

/-- The letters that the `r`th session is created with, from the counter on. -/
def idOf (start : Nat) (r : Ref) : String := AlphaCounter.letters ((start + r + 1) % 456976)

/-- What all operations keep. -/
structure IdInv (start : Nat) (σ : Iax2Sessions) : Prop where
  counter : σ.alphaCounter.counter = (start + σ.created) % 456976
  ids : ∀ r < σ.created, (σ.sessions r).trackingId = idOf start r
  src : ∀ (k : String) r, σ.bySrcIpAndCallNo[k]? = some r → r < σ.created
  dest : ∀ (k : String) r, σ.byDestIpAndCallNo[k]? = some r → r < σ.created
  starts : ∀ e port, .event e port ∈ σ.outputs → e.type = .start → ∃ r < σ.created, e.value = idOf start r

variable {start : Nat}

theorem idInv_new (debug : Bool) (hrtime : Int) :
    IdInv (new debug hrtime).alphaCounter.counter (new debug hrtime) where
  counter := by
    refine (Nat.mod_eq_of_lt ?_).symm
    cases debug
    · exact AlphaCounter.new_counter_lt hrtime
    · exact Nat.zero_lt_succ _
  ids r hr := absurd hr (Nat.not_lt_zero r)
  src k r h := by simp [new] at h
  dest k r h := by simp [new] at h
  starts e port he := by simp [new] at he

/-- A session is replaced by what an operation makes of it, with what it sends; the maps hold no more than before. -/
theorem IdInv.change (hi : IdInv start σ) (hr : r < σ.created) {s : Iax2Session} {out : List Output}
    (h : (σ.sessions r).Tagged s out) {src dest : TreeMap String Ref}
    (hsrc : ∀ (k : String) x, src[k]? = some x → x = r ∨ σ.bySrcIpAndCallNo[k]? = some x)
    (hdest : ∀ (k : String) x, dest[k]? = some x → x = r ∨ σ.byDestIpAndCallNo[k]? = some x) :
    IdInv start { (σ.setSession r s).send out with bySrcIpAndCallNo := src, byDestIpAndCallNo := dest } where
  counter := hi.counter
  ids x hx := by
    by_cases hxr : x = r
    · subst hxr
      simp only [send, setSession, Function.update_self]
      exact h.trackingId.trans (hi.ids x hx)
    · simpa [send, setSession, hxr] using hi.ids x hx
  src k x hx := (hsrc k x hx).elim (fun e => e ▸ hr) (hi.src k x)
  dest k x hx := (hdest k x hx).elim (fun e => e ▸ hr) (hi.dest k x)
  starts e port he ht := by
    rcases List.mem_append.mp he with he | he
    · exact hi.starts e port he ht
    · exact ⟨r, hr, (h.starts e port he ht).trans (hi.ids r hr)⟩

theorem eraseKey_le {m : TreeMap String Ref} {key k : String} {x : Ref} (h : (eraseKey m key)[k]? = some x) :
    m[k]? = some x := by
  unfold eraseKey at h
  split at h
  · rw [getElem?_erase] at h
    split at h
    · cases h
    · exact h
  · exact h

theorem IdInv.stop (hi : IdInv start σ) (hr : r < σ.created) : IdInv start (σ.stop r) :=
  hi.change hr (Iax2Session.tagged_stop _) (fun _ _ h => Or.inr (eraseKey_le h)) fun _ _ h => Or.inr (eraseKey_le h)

theorem IdInv.stopFound (hi : IdInv start σ) {found : Option Ref} (h : ∀ r, found = some r → r < σ.created) :
    IdInv start (σ.stopFound found) := by
  cases found with
  | none => exact hi
  | some r => exact hi.stop (h r rfl)

theorem IdInv.stopEach (hi : IdInv start σ) {rs : List Ref} (h : ∀ r ∈ rs, r < σ.created) :
    IdInv start (σ.stopEach rs) ∧ (σ.stopEach rs).created = σ.created := by
  induction rs generalizing σ with
  | nil => exact ⟨hi, rfl⟩
  | cons r rs ih => exact ih (hi.stop (h r List.mem_cons_self)) fun x hx => h x (List.mem_cons_of_mem r hx)

theorem IdInv.create (hi : IdInv start σ) (invite : Iax2NewInfo) (now : Int) :
    IdInv start (σ.create cfg invite now) := by
  have hnext := AlphaCounter.getNext_eq (c := σ.alphaCounter) (by rw [hi.counter]; exact Nat.mod_lt _ (by decide))
  have hcount : (σ.alphaCounter.counter + 1) % 456976 = (start + σ.created + 1) % 456976 := by
    rw [hi.counter, Nat.mod_add_mod]
  unfold Iax2Sessions.create
  rw [hnext, hcount]
  refine ⟨rfl, fun r hr => ?_, fun k r hr => ?_, fun k r hr => Nat.lt_succ_of_lt (hi.dest k r hr), ?_⟩
  · by_cases he : r = σ.created
    · subst he
      simp only [setSession, Function.update_self, Iax2Session.newFor_trackingId, idOf]
    · simpa [setSession, he] using hi.ids r (Nat.lt_of_le_of_ne (Nat.le_of_lt_succ hr) he)
  · dsimp only at hr
    rw [getElem?_insertIfNew] at hr
    split at hr
    · rw [← Option.some.inj hr]
      exact Nat.lt_succ_self _
    · exact Nat.lt_succ_of_lt (hi.src k r hr)
  · intro e port he ht
    obtain ⟨r, hr, hv⟩ := hi.starts e port he ht
    exact ⟨r, Nat.lt_succ_of_lt hr, hv⟩

/-- The `r`th session gets a destination key and another state, and is found by the key from now on. -/
theorem IdInv.link (hi : IdInv start σ) (hr : r < σ.created) {s : Iax2Session}
    (hs : s.trackingId = (σ.sessions r).trackingId) (dest : String) :
    IdInv start { σ.setSession r s with byDestIpAndCallNo := σ.byDestIpAndCallNo.insertIfNew dest r } := by
  have hdest : ∀ (k : String) x, (σ.byDestIpAndCallNo.insertIfNew dest r)[k]? = some x →
      x = r ∨ σ.byDestIpAndCallNo[k]? = some x := by
    intro k x hx
    rw [getElem?_insertIfNew] at hx
    split at hx
    · exact Or.inl (Option.some.inj hx).symm
    · exact Or.inr hx
  have h := hi.change hr (.silent hs) (fun _ _ h => Or.inr h) hdest
  simpa [send, setSession] using h

theorem IdInv.reportIax2Accept (hi : IdInv start σ) (info : Iax2PeerInfo) : IdInv start (σ.reportIax2Accept info) := by
  unfold Iax2Sessions.reportIax2Accept
  dsimp only
  split
  · exact hi
  · rename_i r hr
    split
    · rename_i r' hr'
      have h := hi.change (hi.dest _ _ hr')
        (s := { σ.sessions r' with state := .linked }) (.silent rfl) (fun _ _ h => Or.inr h) fun _ _ h => Or.inr h
      simpa [send, setSession] using h
    · refine hi.link (hi.src _ _ hr) ?_ _
      rfl

theorem IdInv.reportIax2Authreq (hi : IdInv start σ) (info : Iax2PeerInfo) :
    IdInv start (σ.reportIax2Authreq info) := by
  unfold Iax2Sessions.reportIax2Authreq
  dsimp only
  split
  · exact hi
  · rename_i r hr
    refine hi.link (hi.src _ _ hr) ?_ _
    rfl

theorem IdInv.reportIax2New (hi : IdInv start σ) (invite : Iax2NewInfo) (now : Int) :
    IdInv start (σ.reportIax2New cfg invite now) := by
  unfold Iax2Sessions.reportIax2New
  split
  · exact hi.create invite now
  · rename_i r hr
    split
    · exact hi
    · exact (hi.stop (hi.src _ _ hr)).create invite now

theorem IdInv.reportIax2Hangup (hi : IdInv start σ) (bye : Iax2PeerInfo) : IdInv start (σ.reportIax2Hangup bye) := by
  have src : ∀ {σ : Iax2Sessions} (_ : IdInv start σ) (k : String), IdInv start (σ.stopFound σ.bySrcIpAndCallNo[k]?) :=
    fun h k => h.stopFound (h.src k)
  have dest : ∀ {σ : Iax2Sessions} (_ : IdInv start σ) (k : String),
      IdInv start (σ.stopFound σ.byDestIpAndCallNo[k]?) :=
    fun h k => h.stopFound (h.dest k)
  exact dest (dest (src (src hi _) _) _) _

theorem IdInv.givePacket (hi : IdInv start σ) (hr : r < σ.created) (p : Ref) (now : Int) :
    IdInv start (σ.givePacket cfg r p now).1 := by
  have hadd := Iax2Session.tagged_addIax2Packet (σ.sessions r) cfg σ.packets p now
  have h := hi.change hr hadd (fun _ _ h => Or.inr h) fun _ _ h => Or.inr h
  have h' : IdInv start { (σ.setSession r ((σ.sessions r).addIax2Packet cfg σ.packets p now).session).send
      ((σ.sessions r).addIax2Packet cfg σ.packets p now).outputs with
      packets := ((σ.sessions r).addIax2Packet cfg σ.packets p now).packets } := ⟨h.1, h.2, h.3, h.4, h.5⟩
  unfold Iax2Sessions.givePacket
  dsimp only
  split
  · exact h'
  · exact h'.stop hr

theorem IdInv.reportIax2Packet (hi : IdInv start σ) (p : Ref) (now : Int) :
    IdInv start (σ.reportIax2Packet cfg p now).1 := by
  unfold Iax2Sessions.reportIax2Packet
  dsimp only
  split
  · rename_i r hr
    exact hi.givePacket (hi.src _ _ hr) p now
  · split
    · rename_i r hr
      exact hi.givePacket (hi.dest _ _ hr) p now
    · exact hi

theorem IdInv.hoover (hi : IdInv start σ) (now : Int) : IdInv start (σ.hoover cfg now) := by
  have hsrc : ∀ r ∈ σ.toDismiss cfg σ.bySrcIpAndCallNo now, r < σ.created := by
    intro r hr
    obtain ⟨⟨k, x⟩, hk, rfl⟩ := List.mem_map.mp (List.mem_of_mem_filter hr)
    exact hi.src k x (TreeMap.mem_toList_iff_getElem?_eq_some.mp hk)
  have h := hi.stopEach hsrc
  refine (h.1.stopEach fun r hr => ?_).1
  obtain ⟨⟨k, x⟩, hk, rfl⟩ := List.mem_map.mp (List.mem_of_mem_filter hr)
  exact h.1.dest k x (TreeMap.mem_toList_iff_getElem?_eq_some.mp hk)

/-- Every operation keeps the ids. -/
theorem IdInv.step (hi : IdInv start σ) (op : Op) : IdInv start (σ.step cfg op) := by
  cases op with
  | new invite now => exact hi.reportIax2New invite now
  | authreq info => exact hi.reportIax2Authreq info
  | accept info => exact hi.reportIax2Accept info
  | hangup info => exact hi.reportIax2Hangup info
  | packet p iax2Packet now =>
    have h : IdInv start { σ with packets := Function.update σ.packets p iax2Packet } := ⟨hi.1, hi.2, hi.3, hi.4, hi.5⟩
    exact h.reportIax2Packet p now
  | hoover now => exact hi.hoover now
  | stopAll now => exact hi.hoover _

/-- Two numbers get the same id exactly if they differ by a multiple of 26^4. -/
theorem idOf_eq_iff {r r' : Nat} : idOf start r = idOf start r' ↔ r % 456976 = r' % 456976 := by
  constructor
  · intro h
    have := AlphaCounter.letters_injective (Nat.mod_lt _ (by decide)) (Nat.mod_lt _ (by decide)) h
    omega
  · intro h
    have hmod : (start + r + 1) % 456976 = (start + r' + 1) % 456976 := by omega
    rw [idOf, hmod, idOf]

/-- **The tracking ids of a run.** Of the sessions that a run creates only those have the same id that are a multiple
of 26^4 apart, and whatever start is handed to the recorder carries the id of one of them. -/
theorem trackingIds_run (cfg : Config) (debug : Bool) (hrtime : Int) (l : List Op) :
    let σ := l.foldl (step cfg) (new debug hrtime)
    (∀ r < σ.created, ∀ r' < σ.created,
      ((σ.sessions r).trackingId = (σ.sessions r').trackingId ↔ r % 456976 = r' % 456976)) ∧
    ∀ e port, .event e port ∈ σ.outputs → e.type = .start → ∃ r < σ.created, e.value = (σ.sessions r).trackingId := by
  intro σ
  have hi : IdInv _ σ := Run.inv_foldl (fun _ op h => h.step op) l (idInv_new debug hrtime)
  refine ⟨fun r hr r' hr' => ?_, fun e port he ht => ?_⟩
  · rw [hi.ids r hr, hi.ids r' hr']
    exact idOf_eq_iff
  · obtain ⟨r, hr, hv⟩ := hi.starts e port he ht
    exact ⟨r, hr, hv.trans (hi.ids r hr).symm⟩

end Iax2Sessions

end Iax2

end Oreka
