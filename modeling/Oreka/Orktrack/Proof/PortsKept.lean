import Oreka.Orktrack.PortManager

/-!
# One port for each name

The look-up of `getAndCreatePort` is outside of the lock, and `initialize` has none. Where no step puts a port in
the place of another one, nor asks a persisted face for the port that it has just lost (`Proper`), the
maps, the rows and what the calls have returned stay in agreement (`Inv`).
-/

open Std KeyedMap

namespace Oreka.Orktrack.PortManager

variable {τ : Type*} {s s' : PortManager τ} {name : String} {session portId port : Nat}

/-! ## The condition -/

/-- `createPort` finds neither a port that was made meanwhile nor a persisted face, and `portById.put` of
`initialize` no port. -/
def ProperCall (s : PortManager τ) : Call → Prop
  | .missed name session => s.portByName[name]? = none ∧ s.getFace session name = none
  | .newPort _ portId _ => s.portById[portId]? = none
  | _ => True

def Proper (s : PortManager τ) : PortAction τ → Prop
  | .next t => s.ProperCall (s.call t)
  | _ => True

instance decidableProperCall (s : PortManager τ) : ∀ call, Decidable (s.ProperCall call)
  | .missed name session =>
    inferInstanceAs (Decidable (s.portByName[name]? = none ∧ s.getFace session name = none))
  | .newPort _ portId _ => inferInstanceAs (Decidable (s.portById[portId]? = none))
  | .idle | .faces _ | .named .. => inferInstanceAs (Decidable True)

instance decidableProper (s : PortManager τ) : ∀ x, Decidable (s.Proper x)
  | .next t => inferInstanceAs (Decidable (s.ProperCall (s.call t)))
  | .getAndCreatePort .. | .initializePorts _ | .commit _ | .rollback _ => inferInstanceAs (Decidable True)

/-! ## What only grows -/

/-- Neither the maps nor the rows lose or change an entry. -/
structure Grows (s s' : PortManager τ) : Prop where
  byName : ∀ (name : String) (port : Nat), s.portByName[name]? = some port → s'.portByName[name]? = some port
  byId : ∀ portId port : Nat, s.portById[portId]? = some port → s'.portById[portId]? = some port
  faces : ∀ (name : String) (port : Option Nat), s.faces[name]? = some port → s'.faces[name]? = some port

theorem Grows.refl (s : PortManager τ) : s.Grows s := ⟨fun _ _ => id, fun _ _ => id, fun _ _ => id⟩

theorem Grows.trans {s'' : PortManager τ} (h : s.Grows s') (h' : s'.Grows s'') : s.Grows s'' :=
  ⟨fun a b hs => h'.byName a b (h.byName a b hs), fun a b hs => h'.byId a b (h.byId a b hs),
    fun a b hs => h'.faces a b (h.faces a b hs)⟩

/-! ## The invariant -/

/-- The faces in the list of `initialize` have been read from the rows. -/
def Read (s : PortManager τ) (rest : List (String × Option Nat)) : Prop :=
  ∀ p ∈ rest, s.faces[p.1]? = some p.2

/-- What a thread in `initialize` has found. -/
def CallOk (s : PortManager τ) : Call → Prop
  | .idle | .missed .. => True
  | .faces rest => s.Read rest
  | .newPort face portId rest => s.faces[face]? = some (some portId) ∧ s.Read rest
  | .named face port rest =>
    (∃ portId : Nat, s.faces[face]? = some (some portId) ∧ s.portById[portId]? = some port) ∧ s.Read rest

/-- Each port stands under its id, each persisted or saved face has the port that its name has, and the calls
have returned the ports that serve their names. -/
structure Inv (s : PortManager τ) : Prop where
  byName : ∀ (name : String) (port : Nat), s.portByName[name]? = some port →
    s.portById[(s.objects port).recPort]? = some port
  byId : ∀ portId port : Nat, s.portById[portId]? = some port →
    (s.objects port).recPort = portId ∧ portId < s.numIds ∧ port < s.numObjects
  faces : ∀ (name : String) (port : Option Nat), s.faces[name]? = some port → ∃ portId < s.numIds,
    port = some portId ∧ ∀ p : Nat, s.portByName[name]? = some p → (s.objects p).recPort = portId
  saved : ∀ (session : Nat) (name : String) (face : PortFace), (s.sessions session)[name]? = some face →
    ∃ port : Nat, s.portByName[name]? = some port ∧ face = ⟨true, some (s.objects port).recPort⟩
  call : ∀ t, s.CallOk (s.call t)
  returned : ∀ (name : String) (result : Option Nat), (name, result) ∈ s.returned →
    ∃ port : Nat, result = some port ∧ s.portByName[name]? = some port

theorem Read.mono {rest : List (String × Option Nat)} (h : s.Read rest) (hgrows : s.Grows s') :
    s'.Read rest := fun p hp => hgrows.faces _ _ (h p hp)

theorem CallOk.mono {call : Call} (h : s.CallOk call) (hgrows : s.Grows s') : s'.CallOk call := by
  cases call with
  | idle => trivial
  | missed => trivial
  | faces rest => exact Read.mono h hgrows
  | newPort face portId rest => exact ⟨hgrows.faces _ _ h.1, Read.mono h.2 hgrows⟩
  | named face port rest =>
    obtain ⟨⟨portId, hface, hport⟩, hrest⟩ := h
    exact ⟨⟨portId, hgrows.faces _ _ hface, hgrows.byId _ _ hport⟩, Read.mono hrest hgrows⟩

/-! ## Steps -/

theorem Inv.append {result : Option Nat} (h : s.Inv)
    (hresult : ∃ port : Nat, result = some port ∧ s.portByName[name]? = some port) :
    Inv { s with returned := s.returned ++ [(name, result)] } := by
  refine ⟨h.byName, h.byId, h.faces, h.saved, h.call, fun a r hmem => ?_⟩
  obtain hmem | hmem := List.mem_append.1 hmem
  · exact h.returned a r hmem
  · cases List.mem_singleton.1 hmem
    exact hresult

theorem Inv.lt_of_byName (h : s.Inv) (hport : s.portByName[name]? = some port) :
    (s.objects port).recPort < s.numIds ∧ port < s.numObjects :=
  (h.byId _ _ (h.byName _ _ hport)).2

theorem getFace_eq_none (h : s.getFace session name = none) :
    (s.sessions session)[name]? = none ∧ s.faces[name]? = none := by
  unfold getFace at h
  rw [Option.or_eq_none_iff, Option.map_eq_none_iff] at h
  exact h

theorem grows_createPort (h : s.Inv) (hname : s.portByName[name]? = none)
    (hface : s.getFace session name = none) : s.Grows (s.createPort name session).1 := by
  rw [createPort, hface]
  refine ⟨fun a p hp => ?_, fun id p hp => ?_, fun _ _ => id⟩
  · rw [getElem?_insert, if_neg]
    · exact hp
    · rintro rfl
      rw [hname] at hp
      cases hp
  · rw [getElem?_insert, if_neg]
    · exact hp
    · exact Nat.ne_of_gt (h.byId id p hp).2.1

/-- A port of a name that had none. -/
theorem Inv.createPort (h : s.Inv) (hname : s.portByName[name]? = none)
    (hface : s.getFace session name = none) : (s.createPort name session).1.Inv ∧
      ∃ port : Nat, (s.createPort name session).2 = some port ∧
        (s.createPort name session).1.portByName[name]? = some port := by
  have hgrows := grows_createPort h hname hface
  obtain ⟨-, hrow⟩ := getFace_eq_none hface
  rw [PortManager.createPort, hface] at hgrows ⊢
  have hold {p : Nat} (hp : p < s.numObjects) :
      Function.update s.objects s.numObjects ⟨s.numIds, [name]⟩ p = s.objects p :=
    Function.update_of_ne (Nat.ne_of_lt hp) _ _
  have hnew {a : String} {p : Nat} (ha : a ≠ name)
      (hp : (s.portByName.insert name s.numObjects)[a]? = some p) : s.portByName[a]? = some p := by
    rwa [getElem?_insert, if_neg (Ne.symm ha)] at hp
  refine ⟨⟨fun a p hp => ?_, fun id p hp => ?_, fun a p hp => ?_, fun k a f hf => ?_,
    fun t => (h.call t).mono hgrows, fun a r hr => ?_⟩, s.numObjects, rfl, ?_⟩
  · by_cases ha : a = name
    · subst ha
      rw [getElem?_insert, if_pos rfl] at hp
      cases hp
      simp
    · have hp' := hnew ha hp
      dsimp only
      rw [hold (h.lt_of_byName hp').2]
      exact hgrows.byId _ _ (h.byName a p hp')
  · dsimp only at hp ⊢
    rw [getElem?_insert] at hp
    split at hp
    · rename_i hid
      cases hp
      rw [Function.update_self]
      exact ⟨hid, hid ▸ Nat.lt_succ_self _, Nat.lt_succ_self _⟩
    · obtain ⟨hrec, hid, hlt⟩ := h.byId id p hp
      rw [hold hlt]
      exact ⟨hrec, Nat.lt_succ_of_lt hid, Nat.lt_succ_of_lt hlt⟩
  · obtain ⟨portId, hlt, rfl, hnamed⟩ := h.faces a p hp
    refine ⟨portId, Nat.lt_succ_of_lt hlt, rfl, fun q hq => ?_⟩
    have ha : a ≠ name := by
      rintro rfl
      rw [hrow] at hp
      cases hp
    have hq' := hnew ha hq
    dsimp only
    rw [hold (h.lt_of_byName hq').2]
    exact hnamed q hq'
  · dsimp only at hf ⊢
    have hsaved (hf : (s.sessions k)[a]? = some f) : ∃ port : Nat,
        (s.portByName.insert name s.numObjects)[a]? = some port ∧
        f = ⟨true, some (Function.update s.objects s.numObjects ⟨s.numIds, [name]⟩ port).recPort⟩ := by
      obtain ⟨q, hq, rfl⟩ := h.saved k a f hf
      exact ⟨q, hgrows.byName a q hq, by rw [hold (h.lt_of_byName hq).2]⟩
    by_cases hk : k = session
    · subst hk
      rw [Function.update_self, getElem?_insert] at hf
      split at hf
      · rename_i ha
        subst ha
        cases hf
        exact ⟨s.numObjects, by simp, by rw [Function.update_self]⟩
      · exact hsaved hf
    · rw [Function.update_of_ne hk] at hf
      exact hsaved hf
  · obtain ⟨q, rfl, hq⟩ := h.returned a r hr
    exact ⟨q, rfl, hgrows.byName a q hq⟩
  · simp

theorem grows_putById (hport : s.portById[portId]? = none) : s.Grows (s.putById portId) := by
  refine ⟨fun _ _ => id, fun id p hp => ?_, fun _ _ => id⟩
  rw [putById, getElem?_insert, if_neg]
  · exact hp
  · rintro rfl
    rw [hport] at hp
    cases hp

/-- A port under an id that had none. -/
theorem Inv.putById (h : s.Inv) (hport : s.portById[portId]? = none) (hid : portId < s.numIds) :
    (s.putById portId).Inv := by
  have hgrows := grows_putById hport
  have hold {p : Nat} (hp : p < s.numObjects) :
      Function.update s.objects s.numObjects ⟨portId, []⟩ p = s.objects p :=
    Function.update_of_ne (Nat.ne_of_lt hp) _ _
  refine ⟨fun a p hp => ?_, fun id p hp => ?_, fun a p hp => ?_, fun k a f hf => ?_,
    fun t => (h.call t).mono hgrows, fun a r hr => h.returned a r hr⟩
  · dsimp only [PortManager.putById] at hp ⊢
    rw [hold (h.lt_of_byName hp).2]
    exact hgrows.byId _ _ (h.byName a p hp)
  · dsimp only [PortManager.putById] at hp ⊢
    rw [getElem?_insert] at hp
    split at hp
    · rename_i he
      cases hp
      rw [Function.update_self]
      exact ⟨he, he ▸ hid, Nat.lt_succ_self _⟩
    · obtain ⟨hrec, hid', hlt⟩ := h.byId id p hp
      rw [hold hlt]
      exact ⟨hrec, hid', Nat.lt_succ_of_lt hlt⟩
  · obtain ⟨id, hlt, rfl, hnamed⟩ := h.faces a p hp
    refine ⟨id, hlt, rfl, fun q hq => ?_⟩
    dsimp only [PortManager.putById] at hq ⊢
    rw [hold (h.lt_of_byName hq).2]
    exact hnamed q hq
  · obtain ⟨q, hq, rfl⟩ := h.saved k a f hf
    refine ⟨q, hq, ?_⟩
    dsimp only [PortManager.putById]
    rw [hold (h.lt_of_byName hq).2]

/-- The port of a persisted face is the one of its name, if that has one. -/
theorem Inv.named (h : s.Inv) {face : String} (hface : s.faces[face]? = some (some portId))
    (hport : s.portById[portId]? = some port) {p : Nat} (hp : s.portByName[face]? = some p) : p = port := by
  obtain ⟨id, -, hid, hnamed⟩ := h.faces face _ hface
  cases hid
  have hbyId := h.byName face p hp
  rw [hnamed p hp, hport] at hbyId
  exact (Option.some.inj hbyId).symm

theorem grows_putByName (h : s.Inv) {face : String} (hface : s.faces[face]? = some (some portId))
    (hport : s.portById[portId]? = some port) : s.Grows (s.putByName face port) := by
  refine ⟨fun a p hp => ?_, fun _ _ => id, fun _ _ => id⟩
  rw [putByName, getElem?_insert]
  split
  · rename_i ha
    subst ha
    rw [h.named hface hport hp]
  · exact hp

theorem recPort_putByName (face : String) (port p : Nat) :
    ((s.putByName face port).objects p).recPort = (s.objects p).recPort := by
  simp only [putByName]
  by_cases hp : p = port
  · rw [hp, Function.update_self]
  · rw [Function.update_of_ne hp]

/-- The port of a persisted face serves its name. -/
theorem Inv.putByName (h : s.Inv) {face : String} (hface : s.faces[face]? = some (some portId))
    (hport : s.portById[portId]? = some port) : (s.putByName face port).Inv := by
  have hgrows := grows_putByName h hface hport
  have hput {a : String} {p : Nat} (hp : (s.putByName face port).portByName[a]? = some p) :
      (a = face ∧ p = port) ∨ s.portByName[a]? = some p := by
    rw [PortManager.putByName, getElem?_insert] at hp
    split at hp
    · rename_i ha
      cases hp
      exact .inl ⟨ha.symm, rfl⟩
    · exact .inr hp
  have hrec := (h.byId _ _ hport).1
  refine ⟨fun a p hp => ?_, fun id p hp => ?_, fun a p hp => ?_, fun k a f hf => ?_,
    fun t => (h.call t).mono hgrows, fun a r hr => ?_⟩
  · rw [recPort_putByName]
    obtain ⟨rfl, rfl⟩ | hp := hput hp
    · rw [hrec]
      exact hport
    · exact h.byName a p hp
  · rw [recPort_putByName]
    exact h.byId id p hp
  · obtain ⟨id, hlt, rfl, hnamed⟩ := h.faces a p hp
    refine ⟨id, hlt, rfl, fun q hq => ?_⟩
    rw [recPort_putByName]
    obtain ⟨rfl, rfl⟩ | hq := hput hq
    · have hid := hface.symm.trans hp
      cases hid
      exact hrec
    · exact hnamed q hq
  · obtain ⟨q, hq, rfl⟩ := h.saved k a f hf
    exact ⟨q, hgrows.byName a q hq, by rw [recPort_putByName]⟩
  · obtain ⟨q, rfl, hq⟩ := h.returned a r hr
    exact ⟨q, rfl, hgrows.byName a q hq⟩

/-- A session that is over. -/
theorem Inv.clear (h : s.Inv) (session : Nat) :
    Inv { s with sessions := Function.update s.sessions session ∅ } := by
  have hgrows : s.Grows { s with sessions := Function.update s.sessions session ∅ } :=
    ⟨fun _ _ => id, fun _ _ => id, fun _ _ => id⟩
  refine ⟨h.byName, h.byId, h.faces, fun k a f hf => ?_, fun t => (h.call t).mono hgrows, h.returned⟩
  dsimp only at hf
  by_cases hk : k = session
  · rw [hk, Function.update_self] at hf
    simp at hf
  · rw [Function.update_of_ne hk] at hf
    exact h.saved k a f hf

/-- What has been saved is new, and has the ports that serve the names. -/
theorem Inv.mem_saved (h : s.Inv) {p : String × PortFace} (hp : p ∈ (s.sessions session).toList) :
    ∃ port : Nat, s.portByName[p.1]? = some port ∧ p.2 = ⟨true, some (s.objects port).recPort⟩ :=
  h.saved session p.1 p.2 (TreeMap.mem_toList_iff_getElem?_eq_some.1 hp)

theorem mem_of_lookup {l : List (String × Option Nat)} {a : String} {r : Option Nat}
    (h : l.lookup a = some r) : (a, r) ∈ l := by
  obtain ⟨l₁, l₂, rfl, -⟩ := List.lookup_eq_some_iff.1 h
  simp

/-- A row after a commit: one of the saved ones, that was not there before if it is new, or as it was. -/
theorem faces_commit (s : PortManager τ) (session : Nat) (a : String) :
    (∃ face, (a, face) ∈ (s.sessions session).toList ∧ (face.isNew = true → s.faces[a]? = none) ∧
      (s.commit session).faces[a]? = some face.port) ∨ (s.commit session).faces[a]? = s.faces[a]? := by
  cases hnew : (s.sessions session).toList.any fun p => p.2.isNew && (s.faces[p.1]?).isSome with
  | true =>
    have hfaces : (s.commit session).faces = s.faces := by simp only [commit, hnew, if_true]
    exact .inr (by rw [hfaces])
  | false =>
    have hfaces : (s.commit session).faces = putAll s.faces
        ((s.sessions session).toList.map fun p => (p.1, p.2.port)) := by
      simp only [commit, hnew, Bool.false_eq_true, if_false]
    rw [hfaces, getElem?_putAll]
    cases hlookup : ((s.sessions session).toList.map fun p => (p.1, p.2.port)).reverse.lookup a with
    | none => exact .inr (by simp)
    | some r =>
      obtain ⟨q, hq, heq⟩ := List.mem_map.1 (List.mem_reverse.1 (mem_of_lookup hlookup))
      cases heq
      refine .inl ⟨q.2, hq, fun hisNew => ?_, rfl⟩
      have hnot := List.any_eq_false.1 hnew _ hq
      simpa [hisNew] using hnot

/-- Nothing but the rows changes, and the session. -/
theorem commit_frame (s : PortManager τ) (session : Nat) : s.commit session = { s with
    sessions := Function.update s.sessions session ∅
    faces := (s.commit session).faces
    ports := (s.commit session).ports } := by
  unfold commit
  dsimp only
  split <;> rfl

theorem grows_commit (h : s.Inv) (session : Nat) : s.Grows (s.commit session) := by
  refine ⟨fun a p hp => ?_, fun id p hp => ?_, fun a r hr => ?_⟩
  · rw [commit_frame]
    exact hp
  · rw [commit_frame]
    exact hp
  · obtain ⟨face, hface, hnone, -⟩ | heq := faces_commit s session a
    · obtain ⟨port, -, hport⟩ := h.mem_saved hface
      rw [hnone (congrArg PortFace.isNew hport)] at hr
      cases hr
    · rw [heq]
      exact hr

/-- The faces of a session become persistent. -/
theorem Inv.commit (h : s.Inv) (session : Nat) : (s.commit session).Inv := by
  have hgrows := grows_commit h session
  have hcall (t : τ) := (h.call t).mono hgrows
  have hfaces : ∀ (name : String) (port : Option Nat), (s.commit session).faces[name]? = some port →
      ∃ portId < s.numIds, port = some portId ∧
        ∀ p : Nat, s.portByName[name]? = some p → (s.objects p).recPort = portId := by
    intro a r hr
    obtain ⟨face, hface, -, hsaved⟩ | heq := faces_commit s session a
    · obtain ⟨port, hport, rfl⟩ := h.mem_saved hface
      rw [hr] at hsaved
      refine ⟨_, (h.lt_of_byName hport).1, Option.some.inj hsaved, fun p hp => ?_⟩
      rw [hport] at hp
      cases hp
      rfl
    · exact h.faces a r (heq ▸ hr)
  rw [commit_frame] at hcall ⊢
  exact ⟨h.byName, h.byId, hfaces, (h.clear session).saved, hcall, h.returned⟩

theorem callOk_findPort {face : String} {p : Option Nat} {rest : List (String × Option Nat)}
    (hrest : s.Read ((face, p) :: rest)) : s.CallOk (s.findPort face p rest) := by
  obtain ⟨hface, hrest'⟩ := List.forall_mem_cons.1 hrest
  unfold findPort
  split
  · trivial
  · split
    · rename_i hport
      exact ⟨⟨_, hface, hport⟩, hrest'⟩
    · split
      · exact ⟨hface, hrest'⟩
      · trivial

theorem createPort_returned (s : PortManager τ) (name : String) (session : Nat) :
    (s.createPort name session).1.returned = s.returned := by
  unfold createPort
  split <;> rfl

theorem Inv.setCall [DecidableEq τ] (h : s.Inv) (call : Call) (hcall : s.CallOk call) (t : τ) : (s.setCall t call).Inv := by
  have hgrows : s.Grows (s.setCall t call) := ⟨fun _ _ => id, fun _ _ => id, fun _ _ => id⟩
  refine ⟨h.byName, h.byId, h.faces, h.saved, fun u => ?_, h.returned⟩
  show (s.setCall t call).CallOk (Function.update s.call t call u)
  by_cases hu : u = t
  · rw [hu, Function.update_self]
    exact hcall.mono hgrows
  · rw [Function.update_of_ne hu]
    exact (h.call u).mono hgrows

/-! ## Runs -/

section
variable [DecidableEq τ] {t : τ}

theorem grows_setCall (s : PortManager τ) (t : τ) (call : Call) : s.Grows (s.setCall t call) :=
  ⟨fun _ _ => id, fun _ _ => id, fun _ _ => id⟩

theorem Inv.next (h : s.Inv) (hproper : s.Proper (.next t)) : (s.next t).Inv ∧ s.Grows (s.next t) := by
  have hcall := h.call t
  have hproper : s.ProperCall (s.call t) := hproper
  unfold PortManager.next
  cases ht : s.call t with
  | idle => exact ⟨h, Grows.refl s⟩
  | missed name session =>
    rw [ht] at hproper
    obtain ⟨hinv, hresult⟩ := h.createPort hproper.1 hproper.2
    have hgrows := grows_createPort h hproper.1 hproper.2
    have hidle : ((s.createPort name session).1.setCall t .idle).Inv := hinv.setCall .idle trivial t
    have hreturned : s.returned = ((s.createPort name session).1.setCall t .idle).returned :=
      (createPort_returned s name session).symm
    dsimp only
    rw [hreturned]
    exact ⟨hidle.append hresult, hgrows.byName, hgrows.byId, hgrows.faces⟩
  | faces rest =>
    rw [ht] at hcall
    cases rest with
    | nil => exact ⟨h.setCall .idle trivial t, grows_setCall s t _⟩
    | cons p rest => exact ⟨h.setCall _ (callOk_findPort hcall) t, grows_setCall s t _⟩
  | newPort face portId rest =>
    rw [ht] at hproper hcall
    have hproper : s.portById[portId]? = none := hproper
    obtain ⟨hface, hrest⟩ := hcall
    obtain ⟨id, hlt, hid, -⟩ := h.faces face _ hface
    cases hid
    have hgrows := grows_putById hproper
    have hport : (s.putById portId).portById[portId]? = some s.numObjects := by
      rw [PortManager.putById, getElem?_insert, if_pos rfl]
    have hcall : (s.putById portId).CallOk (.named face s.numObjects rest) :=
      ⟨⟨portId, hface, hport⟩, hrest.mono hgrows⟩
    exact ⟨(h.putById hproper hlt).setCall _ hcall t, hgrows.trans (grows_setCall _ t _)⟩
  | named face port rest =>
    rw [ht] at hcall
    obtain ⟨⟨portId, hface, hport⟩, hrest⟩ := hcall
    have hgrows := grows_putByName h hface hport
    have hcall : (s.putByName face port).CallOk (.faces rest) := hrest.mono hgrows
    exact ⟨(h.putByName hface hport).setCall _ hcall t, hgrows.trans (grows_setCall _ t _)⟩

/-- What a proper step keeps. -/
theorem Inv.step {x : PortAction τ} (h : s.Inv) (hproper : s.Proper x) : (s.step x).Inv ∧ s.Grows (s.step x) := by
  cases x with
  | getAndCreatePort t name session =>
    dsimp only [PortManager.step]
    split
    · split
      · rename_i port hport
        exact ⟨h.append ⟨port, rfl, hport⟩, fun _ _ => id, fun _ _ => id, fun _ _ => id⟩
      · exact ⟨h.setCall (.missed name session) trivial t, grows_setCall s t _⟩
    · exact ⟨h, Grows.refl s⟩
  | initializePorts t =>
    dsimp only [PortManager.step]
    split
    · have hread : s.Read s.faces.toList := fun p hp => TreeMap.mem_toList_iff_getElem?_eq_some.1 hp
      exact ⟨h.setCall (.faces s.faces.toList) hread t, grows_setCall s t _⟩
    · exact ⟨h, Grows.refl s⟩
  | next t => exact h.next hproper
  | commit session => exact ⟨h.commit session, grows_commit h session⟩
  | rollback session => exact ⟨h.clear session, fun _ _ => id, fun _ _ => id, fun _ _ => id⟩

theorem Inv.run {l : List (PortAction τ)} (h : s.Inv) (hl : Run.Meets PortManager.step Proper s l) :
    (l.foldl PortManager.step s).Inv ∧ s.Grows (l.foldl PortManager.step s) := by
  induction l generalizing s with
  | nil => exact ⟨h, Grows.refl s⟩
  | cons x l ih =>
    obtain ⟨hinv, hgrows⟩ := h.step hl.1
    obtain ⟨hinv', hgrows'⟩ := ih hinv hl.2
    exact ⟨hinv', hgrows.trans hgrows'⟩

end

/-! ## Faces keep their ports -/

/-- What a database holds: port faces with their ports. -/
structure Database where
  faces : TreeMap String Nat
  ports : List Nat
  numIds : Nat
  foreignKey : ∀ (name : String) (portId : Nat), faces[name]? = some portId → portId ∈ ports
  generated : ∀ portId ∈ ports, portId < numIds

/-- Before `initialize`. -/
def start (db : Database) : PortManager τ where
  faces := db.faces.map fun _ portId => some portId
  ports := db.ports
  numIds := db.numIds

theorem inv_start (db : Database) : (start db : PortManager τ).Inv := by
  refine ⟨by simp [start], by simp [start], fun name port hport => ?_, by simp [start], fun _ => trivial, nofun⟩
  simp only [start, TreeMap.getElem?_map, Option.map_eq_some_iff] at hport
  obtain ⟨portId, hface, rfl⟩ := hport
  exact ⟨portId, db.generated portId (db.foreignKey name portId hface), rfl, by simp [start]⟩

/-- From `s` on to `s'`: each call so far has returned the port that serves its name then and still does;
names whose faces have the same port share it; and persisted faces keep their ports. -/
structure KeepsPorts (s s' : PortManager τ) : Prop where
  served : ∀ (name : String) (result : Option Nat), (name, result) ∈ s.returned → ∃ port : Nat,
    result = some port ∧ s.portByName[name]? = some port ∧ s'.portByName[name]? = some port
  shared : ∀ (name name' : String) (portId port port' : Nat), s.faces[name]? = some (some portId) →
    s.faces[name']? = some (some portId) → s.portByName[name]? = some port →
    s.portByName[name']? = some port' → port = port'
  persisted : ∀ (name : String) (portId : Nat), s.faces[name]? = some (some portId) →
    s'.faces[name]? = some (some portId)

theorem Inv.keepsPorts (h : s.Inv) (hgrows : s.Grows s') : KeepsPorts s s' := by
  refine ⟨fun name result hresult => ?_, fun name name' portId port port' hface hface' hport hport' => ?_,
    fun name portId => hgrows.faces name (some portId)⟩
  · obtain ⟨port, rfl, hport⟩ := h.returned name result hresult
    exact ⟨port, rfl, hport, hgrows.byName name port hport⟩
  · obtain ⟨id, -, hid, hnamed⟩ := h.faces name _ hface
    cases hid
    have hbyId := h.byName name port hport
    rw [hnamed port hport] at hbyId
    exact (h.named hface' hbyId hport').symm

/-- **Port faces keep their ports** in every run whose steps are all proper: from any state of it on. -/
theorem keepsPorts_run [DecidableEq τ] (db : Database) (l l' : List (PortAction τ))
    (hl : Run.Meets step Proper (start db) (l ++ l')) :
    KeepsPorts (l.foldl step (start db)) ((l ++ l').foldl step (start db)) := by
  obtain ⟨hl, hl'⟩ := Run.meets_append.1 hl
  obtain ⟨hinv, -⟩ := (inv_start db).run hl
  obtain ⟨-, hgrows⟩ := hinv.run hl'
  rw [List.foldl_append]
  exact hinv.keepsPorts hgrows

/-- The two faces of a port. -/
def twoFaces : Database where
  faces := (TreeMap.empty.insert "recport" 0).insert "ctiport" 0
  ports := [0]
  numIds := 1
  foreignKey name portId h := by
    simp only [getElem?_insert, TreeMap.empty_eq_emptyc, TreeMap.getElem?_emptyc] at h
    split at h
    · simpa using h.symm
    · split at h
      · simpa using h.symm
      · cases h
  generated := by decide

/-- `initialize`, by the first of two threads. -/
def initializeFaces : List (PortAction Bool) :=
  [.initializePorts false, .next false, .next false, .next false, .next false, .next false, .next false]

/-- A new name meanwhile, whose face is committed; then both threads ask for it. -/
def newName : List (PortAction Bool) :=
  [.getAndCreatePort true "7012" 1, .next true, .commit 1, .getAndCreatePort false "7012" 2,
    .getAndCreatePort true "ctiport" 2]

theorem keepsPorts_newName : KeepsPorts ((initializeFaces ++ newName).foldl step (start twoFaces))
    ((initializeFaces ++ newName ++ initializeFaces).foldl step (start twoFaces)) :=
  keepsPorts_run twoFaces _ _ (by decide)

/-- Two threads that both find no port. -/
def race : List (PortAction Bool) :=
  [.getAndCreatePort false "7012" 1, .getAndCreatePort true "7012" 2, .next false, .next true]

/-- Two calls for a name return two ports, and a call for a persisted face an exception. -/
theorem not_keepsPorts :
    ¬ KeepsPorts (race.foldl step (start twoFaces)) (race.foldl step (start twoFaces)) ∧
    ¬ KeepsPorts ([PortAction.getAndCreatePort true "recport" 1, .next true].foldl step (start twoFaces))
      ([PortAction.getAndCreatePort true "recport" 1, .next true].foldl step (start twoFaces)) := by
  constructor
  · intro h
    obtain ⟨port, hfirst, -, hport⟩ := h.served "7012" (some 0) (by decide)
    obtain ⟨port', hsecond, -, hport'⟩ := h.served "7012" (some 1) (by decide)
    rw [hport] at hport'
    cases hport'
    rw [← hfirst] at hsecond
    cases hsecond
  · intro h
    obtain ⟨port, hnone, -⟩ := h.served "recport" none (by decide)
    cases hnone

end Oreka.Orktrack.PortManager
