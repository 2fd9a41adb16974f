import Oreka.Lib.Except
import Oreka.Sip.Proof.FieldPositions
import Oreka.Sip.Proof.KeyLines

/-!
# What key/values depend on

The extraction reads behind the payload: a field's line goes on there, since its length is counted from the
field on although the field's offset is in it already, and so does the search for the field's name, behind
which another length of the name is passed; and a key with a dot is compared with the byte behind the
payload. `confinesKeys_iff` says for which keys none of this has an effect.
-/

namespace Oreka.Sip

open Net (byte read_byte_append)

/-- Two memories with the payload in front give the same map, and each value that was not in it before is a
piece of the payload. -/
def ConfinesKeys (sipExtractKeyValues : List (List UInt8)) (fieldPosition : FieldPosition)
    (payload : List UInt8) : Prop :=
  ∀ (keyValueMapToFill : KeyValueMap) (behind behind' : List UInt8), ∃ m,
    extractKeyValuesData (payload ++ behind) payload.length sipExtractKeyValues fieldPosition
      keyValueMapToFill = .ok m ∧
    extractKeyValuesData (payload ++ behind') payload.length sipExtractKeyValues fieldPosition
      keyValueMapToFill = .ok m ∧
    ∀ x v, m x = some v → keyValueMapToFill x = some v ∨ v <:+: payload

/-- Wherever the field may be, the memory behind the payload has no effect on its line. -/
def SealedField (payload : List UInt8) (ptrFirstChar : Option Nat) (fieldName key : List UInt8) : Prop :=
  ∀ p, MayPointTo payload ptrFirstChar fieldName p →
    Sealed (payload.drop p) (p + payload.length - (payload.drop p).length) key

/-- The condition on a key: of a field, with a dot, any other. -/
def ConfinedKey (payload : List UInt8) (fieldPosition : FieldPosition) (x : List UInt8) : Prop :=
  (fieldOf x).elim
    (∀ dotPosition, x.idxOf? 0x2E = some dotPosition → ¬ EndsWithKey payload (x.take dotPosition))
    fun field => SealedField payload (fieldPosition field) field.fieldName (x.drop field.keyStart.length)

/-! ## A field -/

section
variable {payload name key : List UInt8} {ptr : Option Nat} {p : Nat}

/-- The value of a key of a field. -/
def fieldValue (mem : List UInt8) (payloadSize : Nat) (ptrFirstChar : Option Nat) (fieldName key : List UInt8) :
    List UInt8 :=
  (retrieveFieldPositionInPayload mem payloadSize ptrFirstChar fieldName).elim [] fun p =>
    extractKeyValueFromField mem p (p + payloadSize) key

theorem extract_eq (payload behind : List UInt8) (p : Nat) (key : List UInt8) :
    ∃ r : List UInt8, r.length = p + payload.length - (payload.drop p).length ∧
      extractKeyValueFromField (payload ++ behind) p (p + payload.length) key =
        valueInLine (payload.drop p ++ r) key := by
  have hle : (payload.drop p).length ≤ p + payload.length := by
    rw [List.length_drop]
    omega
  refine ⟨_, Memory.length_read (byte behind) (p - payload.length) _, ?_⟩
  unfold extractKeyValueFromField
  rw [read_byte_append hle]

theorem fieldValue_confined (hname : IsFieldName name) (h : SealedField payload ptr name key) :
    ∃ v, v <:+: payload ∧ ∀ behind, fieldValue (payload ++ behind) payload.length ptr name key = v := by
  have hconfined : ∀ p, MayPointTo payload ptr name p → ∃ v, v <:+: payload.drop p ∧
      ∀ behind, extractKeyValueFromField (payload ++ behind) p (p + payload.length) key = v := by
    intro p hp
    obtain ⟨v, hv, hvalue⟩ := confined_of_sealed (h p hp)
    refine ⟨v, hv, fun behind => ?_⟩
    obtain ⟨r, hr, heq⟩ := extract_eq payload behind p key
    rw [heq, hvalue r hr]
  cases halone : retrieveFieldPositionInPayload payload payload.length ptr name with
  | some p =>
    obtain ⟨v, hv, hvalue⟩ := hconfined p (.inl halone)
    refine ⟨v, hv.trans (List.drop_suffix p payload).isInfix, fun behind => ?_⟩
    unfold fieldValue
    rw [retrieve_append hname halone, Option.elim_some, hvalue behind]
  | none =>
    refine ⟨[], List.nil_infix, fun behind => ?_⟩
    unfold fieldValue
    cases hsome : retrieveFieldPositionInPayload (payload ++ behind) payload.length ptr name with
    | none => rfl
    | some p =>
      have hpoint := mayPointTo_of_retrieve hname hsome
      obtain ⟨v, hv, hvalue⟩ := hconfined p hpoint
      have hlate : payload.length ≤ p := by
        rcases hpoint with halone' | ⟨-, q, hcut, rfl⟩
        · rw [halone] at halone'
          cases halone'
        · have hout := hcut.1.2.1
          omega
      rw [List.drop_eq_nil_of_le hlate, List.infix_nil] at hv
      rw [Option.elim_some, hvalue behind, hv]

theorem fieldValue_leaks (hname : IsFieldName name) (h : ¬ SealedField payload ptr name key) :
    ∃ behind behind', fieldValue (payload ++ behind) payload.length ptr name key ≠
      fieldValue (payload ++ behind') payload.length ptr name key := by
  simp only [SealedField, not_forall] at h
  obtain ⟨p, hp, hsealed⟩ := h
  obtain ⟨r, r', hr, hr', hne⟩ := exists_ne_of_not_sealed hsealed
  obtain ⟨behind, hpoint, hread⟩ := exists_area hname hp hr
  obtain ⟨behind', hpoint', hread'⟩ := exists_area hname hp hr'
  refine ⟨behind, behind', ?_⟩
  unfold fieldValue extractKeyValueFromField
  rw [hpoint, hpoint', Option.elim_some, Option.elim_some, hread, hread']
  exact hne

end

/-! ## A key -/

section
variable {payload : List UInt8} {fieldPosition fieldPosition' : FieldPosition} {x : List UInt8}

/-- The value of a key, whichever keys were worked off before. -/
def keyValue (mem : List UInt8) (payloadSize : Nat) (fieldPosition : FieldPosition) (x : List UInt8) :
    Except Interrupted (List UInt8) :=
  (keyData mem payloadSize fieldPosition x).map Prod.snd

theorem keyValue_field {mem : List UInt8} {payloadSize : Nat} {field : SipField} (h : fieldOf x = some field) :
    keyValue mem payloadSize fieldPosition x =
      .ok (fieldValue mem payloadSize (fieldPosition field) field.fieldName
        (x.drop field.keyStart.length)) := by
  unfold keyValue keyData
  rw [h]
  rfl

theorem read_payload (payload behind : List UInt8) (p : Nat) :
    Memory.read (byte (payload ++ behind)) p (payload.length - p) = payload.drop p := by
  rw [read_byte_append (by rw [List.length_drop]), List.length_drop, Nat.sub_self, Memory.read_zero,
    List.append_nil]

theorem keyValue_other (payload behind : List UInt8) (h : fieldOf x = none) :
    keyValue (payload ++ behind) payload.length fieldPosition x =
      (locationInPayload (payload ++ behind) payload.length x).map (valueIn payload) := by
  unfold keyValue keyData
  rw [h]
  dsimp only
  cases locationInPayload (payload ++ behind) payload.length x with
  | error e => rfl
  | ok loc =>
    cases loc with
    | none => rfl
    | some p =>
      have hread := read_payload payload behind p
      unfold valueIn
      simp only [Except.ok_bind, Option.elim_some, hread]
      rfl

theorem isInfix_valueIn (payload : List UInt8) (loc : Option Nat) : valueIn payload loc <:+: payload := by
  cases loc with
  | none => exact List.nil_infix
  | some p => exact (isInfix_valueAt _).trans (List.drop_suffix p payload).isInfix

theorem read_whole (payload behind : List UInt8) :
    Memory.read (byte (payload ++ behind)) 0 payload.length = payload := read_payload payload behind 0

theorem location_dot (payload behind : List UInt8) {dotPosition : Nat}
    (hdot : x.idxOf? 0x2E = some dotPosition) :
    locationInPayload (payload ++ behind) payload.length x =
      lineLoop (payload ++ behind) (x.take dotPosition) (x.drop (dotPosition + 1))
        ((payload ++ behind).length + 1) 0 payload := by
  unfold locationInPayload
  rw [hdot, read_whole]

theorem location_plain (payload behind : List UInt8) (hdot : x.idxOf? 0x2E = none) :
    locationInPayload (payload ++ behind) payload.length x =
      .ok ((orkStringViewFind payload x).map (· + x.length)) := by
  unfold locationInPayload
  rw [hdot, read_whole]

/-- A search that does not throw has a result. -/
theorem location_ok {behind : List UInt8} {dotPosition : Nat} (hdot : x.idxOf? 0x2E = some dotPosition)
    (h : ¬ (EndsWithKey payload (x.take dotPosition) ∧ byte behind 0 = 0x3A)) :
    ∃ loc, locationInPayload (payload ++ behind) payload.length x = .ok loc := by
  rw [location_dot payload behind hdot]
  cases hloop : lineLoop (payload ++ behind) (x.take dotPosition) (x.drop (dotPosition + 1))
      ((payload ++ behind).length + 1) 0 payload with
  | ok loc => exact ⟨loc, rfl⟩
  | error e =>
    cases e with
    | outOfRange => exact absurd ((lineLoop_outOfRange ..).1 hloop) h
    | outOfRounds =>
      refine absurd hloop (lineLoop_ne_outOfRounds ?_ (by omega))
      rw [List.length_append]
      omega

/-- Two memories with the payload in front lead to the same value. -/
theorem location_agrees {behind behind' : List UInt8} {dotPosition : Nat} {loc loc' : Option Nat}
    (hdot : x.idxOf? 0x2E = some dotPosition)
    (h : locationInPayload (payload ++ behind) payload.length x = .ok loc)
    (h' : locationInPayload (payload ++ behind') payload.length x = .ok loc') :
    valueIn payload loc = valueIn payload loc' := by
  have hwhole : payload = payload.drop 0 := rfl
  have hbegins : ∀ behind : List UInt8, payload ++ [] <+: (payload ++ behind).drop 0 := by
    intro behind
    rw [List.append_nil]
    exact List.prefix_append payload behind
  have hloop : ∀ {behind loc}, locationInPayload (payload ++ behind) payload.length x = .ok loc →
      lineLoop (payload ++ behind) (x.take dotPosition) (x.drop (dotPosition + 1))
        ((payload ++ behind).length + 1) 0 (payload ++ []) = .ok loc := by
    intro behind loc h
    rwa [List.append_nil, ← location_dot payload behind hdot]
  exact lineLoop_agrees (Nat.zero_le _) (List.prefix_refl payload) (.inl hwhole) (.inl hwhole) (hbegins behind)
    (hbegins behind') (hloop h) (hloop h')

/-- A confined key has the same value, a piece of the payload, over all memories. -/
theorem keyValue_confined (h : ConfinedKey payload fieldPosition x) :
    ∃ v, v <:+: payload ∧ ∀ behind, keyValue (payload ++ behind) payload.length fieldPosition x = .ok v := by
  unfold ConfinedKey at h
  cases hfield : fieldOf x with
  | some field =>
    rw [hfield] at h
    obtain ⟨v, hv, hvalue⟩ := fieldValue_confined field.isFieldName h
    refine ⟨v, hv, fun behind => ?_⟩
    rw [keyValue_field hfield, hvalue behind]
  | none =>
    rw [hfield] at h
    cases hdot : x.idxOf? 0x2E with
    | none =>
      refine ⟨valueIn payload ((orkStringViewFind payload x).map (· + x.length)), isInfix_valueIn _ _,
        fun behind => ?_⟩
      rw [keyValue_other payload behind hfield, location_plain payload behind hdot]
      rfl
    | some dotPosition =>
      have hends := h dotPosition hdot
      have hloc : ∀ behind, ∃ loc, locationInPayload (payload ++ behind) payload.length x = .ok loc :=
        fun behind => location_ok hdot fun hthrow => hends hthrow.1
      obtain ⟨loc, hloc₀⟩ := hloc []
      refine ⟨valueIn payload loc, isInfix_valueIn _ _, fun behind => ?_⟩
      obtain ⟨loc', hloc'⟩ := hloc behind
      rw [keyValue_other payload behind hfield, hloc']
      exact congrArg Except.ok (location_agrees hdot hloc' hloc₀)

/-- For a key that is not confined the search throws over some memory, or the value is not the same over
two. -/
theorem keyValue_leaks (h : ¬ ConfinedKey payload fieldPosition x) :
    (∃ behind e, keyValue (payload ++ behind) payload.length fieldPosition x = .error e) ∨
      ∃ behind behind' v v', keyValue (payload ++ behind) payload.length fieldPosition x = .ok v ∧
        keyValue (payload ++ behind') payload.length fieldPosition x = .ok v' ∧ v ≠ v' := by
  unfold ConfinedKey at h
  cases hfield : fieldOf x with
  | some field =>
    rw [hfield] at h
    obtain ⟨behind, behind', hne⟩ := fieldValue_leaks field.isFieldName h
    exact .inr ⟨behind, behind', _, _, keyValue_field hfield, keyValue_field hfield, hne⟩
  | none =>
    rw [hfield, Option.elim_none] at h
    simp only [not_forall, not_not] at h
    obtain ⟨dotPosition, hdot, hends⟩ := h
    refine .inl ⟨[0x3A], .outOfRange, ?_⟩
    have hthrow := (lineLoop_outOfRange payload [0x3A] (x.take dotPosition) (x.drop (dotPosition + 1))
      (payload ++ [0x3A]).length).2 ⟨hends, rfl⟩
    rw [keyValue_other payload [0x3A] hfield, location_dot payload [0x3A] hdot, hthrow]
    rfl

end

/-! ## All keys -/

section
variable {mem : List UInt8} {payloadSize : Nat} {fieldPosition fieldPosition' : FieldPosition}
  {m m' : KeyValueMap} {x v : List UInt8}

/-- A value is entered, if there is one. -/
def KeyValueMap.enter (m : KeyValueMap) (x v : List UInt8) : KeyValueMap := if v ≠ [] then m.emplace x v else m

/-- The entry of a key, with its value if it has none yet. -/
def entryOf (old : Option (List UInt8)) (v : List UInt8) : Option (List UInt8) :=
  old.or (if v = [] then none else some v)

theorem enter_self (m : KeyValueMap) (x v : List UInt8) : m.enter x v x = entryOf (m x) v := by
  unfold KeyValueMap.enter KeyValueMap.emplace entryOf
  cases hx : m x with
  | none =>
    by_cases hv : v = []
    · simp [hv, hx]
    · simp [hv]
  | some w => simp [hx]

theorem enter_other {y : List UInt8} (h : y ≠ x) : m.enter x v y = m y := by
  unfold KeyValueMap.enter KeyValueMap.emplace
  split
  · split
    · exact Function.update_of_ne h _ m
    · rfl
  · rfl

theorem entryOf_entryOf (old : Option (List UInt8)) (v : List UInt8) :
    entryOf (entryOf old v) v = entryOf old v := by
  unfold entryOf
  rw [Option.or_assoc, Option.or_self]

theorem entryOf_eq_some {old : Option (List UInt8)} {w : List UInt8} (h : entryOf old w = some v) :
    old = some v ∨ w = v := by
  unfold entryOf at h
  cases old with
  | some u => exact .inl h
  | none =>
    rw [Option.none_or] at h
    split at h
    · cases h
    · exact .inr (Option.some.inj h)

theorem entryOf_none_inj {w : List UInt8} (h : entryOf none v = entryOf none w) : v = w := by
  unfold entryOf at h
  simp only [Option.none_or] at h
  split at h
  · rename_i hv
    split at h
    · rename_i hw
      rw [hv, hw]
    · cases h
  · split at h
    · cases h
    · exact Option.some.inj h

/-- The positions found so far are the ones that the search finds again. -/
def Cached (mem : List UInt8) (payloadSize : Nat) (fieldPosition fieldPosition' : FieldPosition) : Prop :=
  ∀ field : SipField, retrieveFieldPositionInPayload mem payloadSize (fieldPosition' field) field.fieldName =
    retrieveFieldPositionInPayload mem payloadSize (fieldPosition field) field.fieldName

theorem retrieve_retrieve (mem : List UInt8) (payloadSize : Nat) (ptr : Option Nat) (name : List UInt8) :
    retrieveFieldPositionInPayload mem payloadSize
        (retrieveFieldPositionInPayload mem payloadSize ptr name) name =
      retrieveFieldPositionInPayload mem payloadSize ptr name := by
  unfold retrieveFieldPositionInPayload
  rw [Option.or_assoc, Option.or_self]

/-- A key is worked off: its value is entered, and the positions found stay right. -/
theorem extractKeyValue_eq (h : Cached mem payloadSize fieldPosition fieldPosition') :
    ∃ fieldPosition'', Cached mem payloadSize fieldPosition fieldPosition'' ∧
      extractKeyValue mem payloadSize (fieldPosition', m) x =
        (keyValue mem payloadSize fieldPosition x).map fun v => (fieldPosition'', m.enter x v) := by
  unfold extractKeyValue keyValue keyData
  cases hfield : fieldOf x with
  | some field =>
    refine ⟨Function.update fieldPosition' field
      (retrieveFieldPositionInPayload mem payloadSize (fieldPosition' field) field.fieldName),
      fun field' => ?_, ?_⟩
    · by_cases heq : field' = field
      · subst heq
        rw [Function.update_self, retrieve_retrieve, h field']
      · rw [Function.update_of_ne heq, h field']
    · dsimp only
      rw [h field]
      rfl
  | none =>
    refine ⟨fieldPosition', h, ?_⟩
    dsimp only
    cases locationInPayload mem payloadSize x with
    | error e => rfl
    | ok loc => rfl

/-- All keys are worked off with the positions that were given. -/
theorem extractKeyValuesData_eq (mem : List UInt8) (payloadSize : Nat) (keys : List (List UInt8))
    (fieldPosition : FieldPosition) (m : KeyValueMap) :
    extractKeyValuesData mem payloadSize keys fieldPosition m =
      keys.foldlM (fun m x => (keyValue mem payloadSize fieldPosition x).map (m.enter x)) m := by
  have hfold : ∀ (keys : List (List UInt8)) (fieldPosition' : FieldPosition) (m : KeyValueMap),
      Cached mem payloadSize fieldPosition fieldPosition' →
      (keys.foldlM (extractKeyValue mem payloadSize) (fieldPosition', m)).map Prod.snd =
        keys.foldlM (fun m x => (keyValue mem payloadSize fieldPosition x).map (m.enter x)) m := by
    intro keys
    induction keys with
    | nil => exact fun _ _ _ => rfl
    | cons x keys ih =>
      intro fieldPosition' m h
      obtain ⟨fieldPosition'', hcached, hstep⟩ := extractKeyValue_eq h (m := m) (x := x)
      rw [List.foldlM_cons, List.foldlM_cons, hstep]
      cases keyValue mem payloadSize fieldPosition x with
      | error e => rfl
      | ok v => exact ih fieldPosition'' (m.enter x v) hcached
  exact hfold keys fieldPosition m fun _ => rfl

/-- The entry of a key afterwards. -/
theorem entry_of_foldlM {keys : List (List UInt8)}
    (h : keys.foldlM (fun m x => (keyValue mem payloadSize fieldPosition x).map (m.enter x)) m = .ok m') :
    (∀ y ∉ keys, m' y = m y) ∧
      ∀ y ∈ keys, ∃ v, keyValue mem payloadSize fieldPosition y = .ok v ∧ m' y = entryOf (m y) v := by
  induction keys generalizing m with
  | nil =>
    cases h
    exact ⟨fun _ _ => rfl, fun y hy => by cases hy⟩
  | cons x keys ih =>
    obtain ⟨m₁, hstep, hrest⟩ := Except.bind_eq_ok.1 (List.foldlM_cons.symm.trans h)
    cases hv : keyValue mem payloadSize fieldPosition x with
    | error e =>
      rw [hv] at hstep
      cases hstep
    | ok v =>
      rw [hv] at hstep
      obtain rfl : m.enter x v = m₁ := Except.ok.inj hstep
      obtain ⟨hother, hkeys⟩ := ih hrest
      refine ⟨fun y hy => ?_, fun y hy => ?_⟩
      · rw [List.mem_cons, not_or] at hy
        rw [hother y hy.2, enter_other hy.1]
      · by_cases hyx : y = x
        · subst hyx
          refine ⟨v, hv, ?_⟩
          by_cases hlater : y ∈ keys
          · obtain ⟨v', hv', hentry⟩ := hkeys y hlater
            obtain rfl : v = v' := Except.ok.inj (hv.symm.trans hv')
            rw [hentry, enter_self, entryOf_entryOf]
          · rw [hother y hlater, enter_self]
        · obtain ⟨v', hv', hentry⟩ := hkeys y ((List.mem_cons.1 hy).resolve_left hyx)
          refine ⟨v', hv', ?_⟩
          rw [hentry, enter_other hyx]

/-- Keys that all have a value leave a map. -/
theorem foldlM_of_ok {keys : List (List UInt8)} {value : List UInt8 → List UInt8}
    (h : ∀ x ∈ keys, keyValue mem payloadSize fieldPosition x = .ok (value x)) :
    keys.foldlM (fun m x => (keyValue mem payloadSize fieldPosition x).map (m.enter x)) m =
      .ok (keys.foldl (fun m x => m.enter x (value x)) m) := by
  induction keys generalizing m with
  | nil => rfl
  | cons x keys ih =>
    rw [List.foldlM_cons, h x (List.mem_cons_self ..)]
    exact ih fun y hy => h y (List.mem_cons_of_mem x hy)

end

/-- **The extraction is confined to the payload** exactly if each key is. -/
theorem confinesKeys_iff (sipExtractKeyValues : List (List UInt8)) (fieldPosition : FieldPosition)
    (payload : List UInt8) : ConfinesKeys sipExtractKeyValues fieldPosition payload ↔
      ∀ x ∈ sipExtractKeyValues, ConfinedKey payload fieldPosition x := by
  constructor
  · intro h x hx
    by_contra hnot
    have hvalue : ∀ behind behind', ∃ v, keyValue (payload ++ behind) payload.length fieldPosition x = .ok v ∧
        keyValue (payload ++ behind') payload.length fieldPosition x = .ok v := by
      intro behind behind'
      obtain ⟨m, hm, hm', -⟩ := h (fun _ => none) behind behind'
      rw [extractKeyValuesData_eq] at hm hm'
      obtain ⟨v, hv, hentry⟩ := (entry_of_foldlM hm).2 x hx
      obtain ⟨v', hv', hentry'⟩ := (entry_of_foldlM hm').2 x hx
      have heq : v = v' := entryOf_none_inj (hentry.symm.trans hentry')
      exact ⟨v, hv, heq ▸ hv'⟩
    rcases keyValue_leaks hnot with ⟨behind, e, he⟩ | ⟨behind, behind', v, v', hv, hv', hne⟩
    · obtain ⟨v, hv, -⟩ := hvalue behind []
      rw [he] at hv
      cases hv
    · obtain ⟨w, hw, hw'⟩ := hvalue behind behind'
      apply hne
      rw [Except.ok.inj (hv.symm.trans hw), Except.ok.inj (hv'.symm.trans hw')]
  · intro h m behind behind'
    have hkeys : ∀ x, ∃ v, x ∈ sipExtractKeyValues → v <:+: payload ∧
        ∀ behind, keyValue (payload ++ behind) payload.length fieldPosition x = .ok v := by
      intro x
      by_cases hx : x ∈ sipExtractKeyValues
      · obtain ⟨v, hv⟩ := keyValue_confined (h x hx)
        exact ⟨v, fun _ => hv⟩
      · exact ⟨[], fun hx' => absurd hx' hx⟩
    choose value hvalue using hkeys
    have hfold : ∀ behind,
        extractKeyValuesData (payload ++ behind) payload.length sipExtractKeyValues fieldPosition m =
          .ok (sipExtractKeyValues.foldl (fun m x => m.enter x (value x)) m) := by
      intro behind
      rw [extractKeyValuesData_eq]
      exact foldlM_of_ok fun x hx => (hvalue x hx).2 behind
    refine ⟨_, hfold behind, hfold behind', fun x v hv => ?_⟩
    have hrun := hfold []
    rw [extractKeyValuesData_eq] at hrun
    obtain ⟨hother, hentries⟩ := entry_of_foldlM hrun
    by_cases hx : x ∈ sipExtractKeyValues
    · obtain ⟨w, hw, hentry⟩ := hentries x hx
      rw [(hvalue x hx).2 []] at hw
      obtain rfl : value x = w := Except.ok.inj hw
      rw [hentry] at hv
      rcases entryOf_eq_some hv with hold | rfl
      · exact .inl hold
      · exact .inr (hvalue x hx).1
    · rw [hother x hx] at hv
      exact .inl hv

/-- An INVITE that ends with the line of its From field. -/
def cutInvite : List UInt8 := ascii "INVITE sip:b@c SIP/2.0\r\nFrom: a;tag=12"

/-- The tag goes on with what is behind the payload. -/
theorem not_confinesKeys :
    ¬ ∀ sipExtractKeyValues fieldPosition payload, ConfinesKeys sipExtractKeyValues fieldPosition payload := by
  intro h
  obtain ⟨m, hm, hm', -⟩ := h [ascii "from.tag"]
    (fun field => if field = .fieldFrom then some 29 else none) cutInvite (fun _ => none) [] (ascii "34")
  have hvalue : ∀ r : Except Interrupted KeyValueMap, r = .ok m → r.toOption.map (· (ascii "from.tag")) =
      some (m (ascii "from.tag")) := by
    rintro r rfl
    rfl
  have heq := (hvalue _ hm).trans (hvalue _ hm').symm
  revert heq
  decide

end Oreka.Sip
