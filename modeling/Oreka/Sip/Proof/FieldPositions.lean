import Oreka.Sip.Proof.LineValues
import Oreka.Sip.Proof.Occurrences

/-!
# Where fields are taken to be

A field's position is the one given, or it is searched in the payload. The search finds what it finds in
the payload alone (`retrieve_append`), or else a name that the end of the payload cuts, where the rest of it
is behind the payload (`mayPointTo_of_retrieve`). From either, the bytes that are read may be any
(`exists_area`).
-/

namespace Oreka.Sip

open Net (byte byte_append byte_of_length_le read_byte read_byte_append)

/-- What the names of the fields have in common: the colon ends them, and no NUL is in them. -/
structure IsFieldName (name : List UInt8) : Prop where
  pos : 0 < name.length
  colon : byte name (name.length - 1) = 0x3A
  no_colon : ∀ i < name.length - 1, toLower (byte name i) ≠ 0x3A
  no_nul : ∀ i < name.length, toLower (byte name i) ≠ 0

theorem SipField.isFieldName (field : SipField) : IsFieldName field.fieldName := by
  cases field
  · exact ⟨by decide, by decide, by decide, by decide⟩
  · exact ⟨by decide, by decide, by decide, by decide⟩
  · exact ⟨by decide, by decide, by decide, by decide⟩
  · exact ⟨by decide, by decide, by decide, by decide⟩

/-- The end of the payload cuts the name, at a place where the search compares. -/
def CutName (name payload : List UInt8) (q : Nat) : Prop :=
  CutAt name payload q ∧ (q = 0 ∨ byte payload q = byte name 0)

/-- A position that the field can have: the one it has in the payload alone, or else one behind a name that
is cut. -/
def MayPointTo (payload : List UInt8) (ptrFirstChar : Option Nat) (fieldName : List UInt8) (p : Nat) : Prop :=
  retrieveFieldPositionInPayload payload payload.length ptrFirstChar fieldName = some p ∨
    retrieveFieldPositionInPayload payload payload.length ptrFirstChar fieldName = none ∧
      ∃ q, CutName fieldName payload q ∧ p = q + fieldName.length + fieldName.length

/-! ## The search -/

section
variable {name payload behind : List UInt8} {e p q : Nat}

theorem hits_inside (behind : List UInt8) (hp : p + name.length ≤ payload.length) (hpos : 0 < name.length) :
    Search.Hits (SameByte name (payload ++ behind)) (matchesAt name (payload ++ behind)) payload.length 0 p ↔
      (p = 0 ∨ byte payload p = byte name 0) ∧ Occurs name payload p := by
  have hlt : p < payload.length := by omega
  unfold Search.Hits SameByte
  rw [matchesAt_inside hlt hp, byte_append hlt]
  constructor
  · rintro ⟨-, -, hcandidate, hoccurs⟩
    exact ⟨hcandidate, hoccurs⟩
  · rintro ⟨hcandidate, hoccurs⟩
    exact ⟨Nat.zero_le p, hlt, hcandidate, hoccurs⟩

/-- A hit is a place of the name, or the name is cut there. -/
theorem hits_cases (hname : IsFieldName name)
    (h : Search.Hits (SameByte name (payload ++ behind)) (matchesAt name (payload ++ behind))
      payload.length 0 p) :
    (p + name.length ≤ payload.length ∧ (p = 0 ∨ byte payload p = byte name 0) ∧ Occurs name payload p) ∨
      (payload.length < p + name.length ∧ CutName name payload p) := by
  rcases Nat.lt_or_ge payload.length (p + name.length) with hout | hin
  · obtain ⟨-, hlt, hcandidate, hmatch⟩ := h
    refine .inr ⟨hout, cutAt_of_matchesAt hlt hout hmatch, hcandidate.imp_right fun hsame => ?_⟩
    unfold SameByte at hsame
    rwa [byte_append hlt] at hsame
  · exact .inl ⟨hin, (hits_inside behind hin hname.pos).1 h⟩

/-- Nothing is taken for a name that is cut where nothing is behind the payload. -/
theorem not_hits_cut (hname : IsFieldName name) (hout : payload.length < p + name.length) :
    ¬ Search.Hits (SameByte name payload) (matchesAt name payload) payload.length 0 p := by
  rintro ⟨-, hlt, -, hmatch⟩
  have hlast := matchesAt_iff.1 hmatch (name.length - 1) (by have := hname.pos; omega)
  rw [byte_of_length_le (by omega)] at hlast
  exact hname.no_nul _ (by have := hname.pos; omega) hlast.symm

/-- What is found in the payload is found with whatever behind it. -/
theorem memFindAfter_append (hname : IsFieldName name)
    (h : MemUtils.memFindAfter name payload payload.length = some e) :
    MemUtils.memFindAfter name (payload ++ behind) payload.length = some e := by
  obtain ⟨p, ⟨hhit, hfirst⟩, rfl⟩ := memUtils_memFindAfter_eq_some.1 h
  have hin : p + name.length ≤ payload.length := by
    by_contra hout
    exact not_hits_cut hname (by omega) hhit
  have hiff : ∀ r ≤ p, Search.Hits (SameByte name (payload ++ behind)) (matchesAt name (payload ++ behind))
      payload.length 0 r ↔ Search.Hits (SameByte name payload) (matchesAt name payload) payload.length 0 r := by
    intro r hr
    have hr' : r + name.length ≤ payload.length := by omega
    have halone := hits_inside [] hr' hname.pos
    rw [List.append_nil] at halone
    rw [halone]
    exact hits_inside behind hr' hname.pos
  exact memUtils_memFindAfter_eq_some.2
    ⟨p, ⟨(hiff p le_rfl).2 hhit, fun r hr h => hfirst r hr ((hiff r (by omega)).1 h)⟩, rfl⟩

/-- A place of the name at which the search compares is found. -/
theorem memFindAfter_ne_none (hp : p = 0 ∨ byte payload p = byte name 0) (h : Occurs name payload p)
    (hpos : 0 < name.length) :
    MemUtils.memFindAfter name payload payload.length ≠ none := by
  have hhit := (hits_inside [] h.2.1 hpos).2 ⟨hp, h⟩
  rw [List.append_nil] at hhit
  obtain ⟨q, hq⟩ := exists_firstHit hhit
  intro hnone
  have hsome := memUtils_memFindAfter_eq_some.2 ⟨q, hq, rfl⟩
  rw [hnone] at hsome
  cases hsome

/-- What is found only with what is behind the payload is a name that is cut. -/
theorem cutName_of_memFindAfter (hname : IsFieldName name)
    (hnone : MemUtils.memFindAfter name payload payload.length = none)
    (h : MemUtils.memFindAfter name (payload ++ behind) payload.length = some e) :
    ∃ q, CutName name payload q ∧ e = q + name.length := by
  obtain ⟨q, ⟨hhit, -⟩, rfl⟩ := memUtils_memFindAfter_eq_some.1 h
  rcases hits_cases hname hhit with ⟨-, hcandidate, hoccurs⟩ | ⟨-, hcut⟩
  · exact absurd hnone (memFindAfter_ne_none hcandidate hoccurs hname.pos)
  · exact ⟨q, hcut, rfl⟩

/-- Two names do not overlap: the colon of the first would be in the second. -/
theorem not_matchesAt_before (hname : IsFieldName name) {mem : List UInt8} {r : Nat}
    (hq : matchesAt name mem q = true) (hr : matchesAt name mem r = true) (hrq : r < q) :
    r + name.length ≤ q := by
  by_contra hover
  have hpos := hname.pos
  have hcolon := matchesAt_iff.1 hr (name.length - 1) (by omega)
  have hinside := matchesAt_iff.1 hq (r + (name.length - 1) - q) (by omega)
  rw [Nat.add_sub_cancel' (by omega), hcolon, hname.colon] at hinside
  exact hname.no_colon _ (by omega) hinside.symm

/-- A name that is cut is found where the rest of it is behind the payload. -/
theorem memFindAfter_completed (hname : IsFieldName name)
    (hnone : MemUtils.memFindAfter name payload payload.length = none) (hcut : CutName name payload q) :
    MemUtils.memFindAfter name (payload ++ (name.drop (payload.length - q) ++ behind)) payload.length =
      some (q + name.length) := by
  have hlt := hcut.1.1
  have hmatch : matchesAt name (payload ++ (name.drop (payload.length - q) ++ behind)) q = true := by
    have hrest := matchesAt_of_cutAt hcut.1
    rw [matchesAt_iff] at hrest ⊢
    intro i hi
    rw [← hrest i hi, ← List.append_assoc, byte_append]
    rw [List.length_append, List.length_drop]
    omega
  have hcandidate : q = 0 ∨ SameByte name (payload ++ (name.drop (payload.length - q) ++ behind)) q := by
    refine hcut.2.imp_right fun hsame => ?_
    unfold SameByte
    rwa [byte_append hlt]
  refine memUtils_memFindAfter_eq_some.2
    ⟨q, ⟨⟨Nat.zero_le q, hlt, hcandidate, hmatch⟩, fun r hr hhit => ?_⟩, rfl⟩
  rcases hits_cases hname hhit with ⟨-, hcandidate, hoccurs⟩ | ⟨hout, -⟩
  · exact memFindAfter_ne_none hcandidate hoccurs hname.pos hnone
  · have hle := not_matchesAt_before hname hmatch hhit.2.2.2 hr
    omega

end

/-! ## Positions and what is read from there -/

section
variable {payload behind name r : List UInt8} {ptr : Option Nat} {p n : Nat}

theorem retrieve_append (hname : IsFieldName name)
    (h : retrieveFieldPositionInPayload payload payload.length ptr name = some p) :
    retrieveFieldPositionInPayload (payload ++ behind) payload.length ptr name = some p := by
  unfold retrieveFieldPositionInPayload at h ⊢
  cases ptr with
  | some q => exact h
  | none =>
    obtain ⟨e, he, rfl⟩ := Option.map_eq_some_iff.1 (Option.none_or.symm.trans h)
    rw [memFindAfter_append hname he]
    rfl

theorem mayPointTo_of_retrieve (hname : IsFieldName name)
    (h : retrieveFieldPositionInPayload (payload ++ behind) payload.length ptr name = some p) :
    MayPointTo payload ptr name p := by
  cases halone : retrieveFieldPositionInPayload payload payload.length ptr name with
  | some q =>
    obtain rfl : q = p := Option.some.inj ((retrieve_append hname halone).symm.trans h)
    exact .inl halone
  | none =>
    refine .inr ⟨halone, ?_⟩
    unfold retrieveFieldPositionInPayload at h halone
    cases ptr with
    | some q => cases halone
    | none =>
      obtain ⟨e, he, rfl⟩ := Option.map_eq_some_iff.1 (Option.none_or.symm.trans h)
      have hnone := Option.map_eq_none_iff.1 (Option.none_or.symm.trans halone)
      obtain ⟨q, hq, rfl⟩ := cutName_of_memFindAfter hname hnone he
      exact ⟨q, hq, rfl⟩

/-- **Any bytes can be behind the payload** where a field is read that may be at a position. -/
theorem exists_area (hname : IsFieldName name) (h : MayPointTo payload ptr name p)
    (hr : r.length = p + payload.length - (payload.drop p).length) :
    ∃ behind, retrieveFieldPositionInPayload (payload ++ behind) payload.length ptr name = some p ∧
      Memory.read (byte (payload ++ behind)) p (p + payload.length) = payload.drop p ++ r := by
  have hread : ∀ x : List UInt8, x.length = p - payload.length →
      Memory.read (byte (payload ++ (x ++ r))) p (p + payload.length) = payload.drop p ++ r := by
    intro x hx
    have hle : (payload.drop p).length ≤ p + payload.length := by
      rw [List.length_drop]
      omega
    have hbehind := read_byte (x ++ r) x.length
    rw [List.length_append, Nat.add_sub_cancel_left, List.drop_left] at hbehind
    rw [read_byte_append hle, ← hr, ← hx, hbehind]
  rcases h with halone | ⟨hnone, q, hcut, rfl⟩
  · exact ⟨List.replicate (p - payload.length) 0 ++ r, retrieve_append hname halone,
      hread _ List.length_replicate⟩
  · refine ⟨name.drop (payload.length - q) ++ List.replicate name.length 0 ++ r, ?_, hread _ ?_⟩
    · unfold retrieveFieldPositionInPayload at hnone ⊢
      cases ptr with
      | some p => cases hnone
      | none =>
        have hsearch := Option.map_eq_none_iff.1 (Option.none_or.symm.trans hnone)
        rw [List.append_assoc, memFindAfter_completed hname hsearch hcut]
        rfl
    · have hlt := hcut.1.1
      have hout := hcut.1.2.1
      rw [List.length_append, List.length_drop, List.length_replicate]
      omega

end

end Oreka.Sip
