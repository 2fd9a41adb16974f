import Mathlib.Data.Finset.Card
import Oreka.Orktrack.Proof.PortReports

/-!
# The tape of a segment and the order of arrival

The tape a segment ends with is the same for every order of arrival, and one that is together with the segment
where there is any, in exactly the sets of tapes and segments that are `Matched` (`orderIndependent_iff`): no
segment is together with two tapes, and a tape is together with one segment at most or with all of them.

Where they are matched, every walk joins all that is together with what has arrived (`complete_joins`). Where a
segment is together with two tapes, it goes with the one that comes last; where a tape is together with two
segments and not with a third that is completed between them, its walk does not get to the older of the two.
-/

namespace Oreka.Orktrack

variable {μ : Type*}

/-- No segment is together with two tapes, and a tape is together with one segment at most or with all. -/
structure Matched (tapes : Finset (TapePair μ)) (segs : Finset (MetadataPair μ)) : Prop where
  oneTape : ∀ s ∈ segs, ∀ t ∈ tapes, ∀ t' ∈ tapes, Together t s → Together t' s → t = t'
  oneOrAll : ∀ t ∈ tapes, ∀ s ∈ segs, ∀ s' ∈ segs, Together t s → Together t s' →
    s = s' ∨ ∀ s'' ∈ segs, Together t s''

/-- The tapes and segments of the two sets, each once. -/
def Arrive (tapes : Finset (TapePair μ)) (segs : Finset (MetadataPair μ))
    (es : List (TapePair μ ⊕ MetadataPair μ)) : Prop :=
  es.Nodup ∧ ∀ e, e ∈ es ↔ e ∈ tapes.disjSum segs

def tapesOf (es : List (TapePair μ ⊕ MetadataPair μ)) : List (TapePair μ) :=
  es.filterMap Sum.getLeft?

section

-- What the active programs retain.
variable (filterSegmentAgainstAllPrograms : OrkSegment μ → Bool)

def segmentsOf (es : List (TapePair μ ⊕ MetadataPair μ)) : List (MetadataPair μ) :=
  (es.filterMap Sum.getRight?).filter (Kept filterSegmentAgainstAllPrograms ·)

/-- The tape of the segment that `s` makes, once `es` have been completed. -/
def finalTape [DecidableEq μ] (c : PortCache μ) (es : List (TapePair μ ⊕ MetadataPair μ)) (s : MetadataPair μ) :
    Option (TapePair μ) :=
  (c.tape ((segmentsOf filterSegmentAgainstAllPrograms es).idxOf s)).bind fun tape => (tapesOf es)[tape.id]?

/-- Which tape a segment ends with is the same for every order in which the tapes and segments are completed, and
every interleaving of their messages; it is together with the segment if any of the tapes is. -/
def OrderIndependent [DecidableEq μ] (port : Port) (tapes : Finset (TapePair μ))
    (segs : Finset (MetadataPair μ)) : Prop :=
  ∃ final : MetadataPair μ → Option (TapePair μ), ∀ l es, Reports none none l es → Arrive tapes segs es →
    ∀ s ∈ segs, Kept filterSegmentAgainstAllPrograms s →
      finalTape filterSegmentAgainstAllPrograms
        (TrackPort.run filterSegmentAgainstAllPrograms { toPort := port } l).cache es s = final s ∧
      ((∃ t ∈ tapes, Together t s) → ∃ t ∈ tapes, final s = some t ∧ Together t s)

end

/-! ## What a cache holds -/

variable {f : OrkSegment μ → Bool} {es : List (TapePair μ ⊕ MetadataPair μ)} {c : PortCache μ}

theorem tapesOf_inl (t : TapePair μ) : tapesOf (es ++ [.inl t]) = tapesOf es ++ [t] := by
  simp [tapesOf]

theorem tapesOf_inr (s : MetadataPair μ) : tapesOf (es ++ [.inr s]) = tapesOf es := by
  simp [tapesOf]

theorem segmentsOf_inl (t : TapePair μ) : segmentsOf f (es ++ [.inl t]) = segmentsOf f es := by
  simp [segmentsOf]

theorem segmentsOf_inr {s : MetadataPair μ} (h : Kept f s) :
    segmentsOf f (es ++ [.inr s]) = segmentsOf f es ++ [s] := by
  simp [segmentsOf, h]

theorem segmentsOf_inr_not {s : MetadataPair μ} (h : ¬Kept f s) :
    segmentsOf f (es ++ [.inr s]) = segmentsOf f es := by
  simp [segmentsOf, h]

theorem mem_tapesOf {t : TapePair μ} : t ∈ tapesOf es ↔ .inl t ∈ es := by
  simp [tapesOf]

theorem mem_segmentsOf {s : MetadataPair μ} : s ∈ segmentsOf f es ↔ .inr s ∈ es ∧ Kept f s := by
  simp [segmentsOf]

theorem nodup_tapesOf (h : es.Nodup) : (tapesOf es).Nodup :=
  h.filterMap fun e e' t he he' => by
    cases e <;> cases e' <;> simp_all

theorem nodup_segmentsOf (h : es.Nodup) : (segmentsOf f es).Nodup :=
  (h.filterMap fun e e' t he he' => by cases e <;> cases e' <;> simp_all).filter _

/-- The caches hold what has been completed, and what is associated is together. -/
structure Holds (f : OrkSegment μ → Bool) (es : List (TapePair μ ⊕ MetadataPair μ)) (c : PortCache μ) :
    Prop where
  numTapes : c.numTapes = (tapesOf es).length
  numSegments : c.numSegments = (segmentsOf f es).length
  recTapes : c.recTapes = ((tapesOf es).mapIdx fun j (t : TapePair μ) => t.tape j).reverse
  recSegments : c.recSegments = ((segmentsOf f es).mapIdx fun k (s : MetadataPair μ) => (k, s.segment)).reverse
  sound : ∀ k tape, c.tape k = some tape → ∃ s, (segmentsOf f es)[k]? = some s ∧
    ∃ (j : Nat) (t : TapePair μ), (tapesOf es)[j]? = some t ∧ tape = t.tape j ∧ Together t s

theorem Holds.mem_recTapes (h : Holds f es c) {tape : OrkTape μ} :
    tape ∈ c.recTapes ↔ ∃ (j : Nat) (t : TapePair μ), (tapesOf es)[j]? = some t ∧ tape = t.tape j := by
  rw [h.recTapes, List.mem_reverse, List.mem_mapIdx]
  constructor
  · rintro ⟨j, hj, rfl⟩
    exact ⟨j, _, List.getElem?_eq_getElem hj, rfl⟩
  · rintro ⟨j, t, ht, rfl⟩
    obtain ⟨hj, rfl⟩ := List.getElem?_eq_some_iff.mp ht
    exact ⟨j, hj, rfl⟩

theorem Holds.mem_recSegments (h : Holds f es c) {k : Nat} {seg : OrkSegment μ} :
    (k, seg) ∈ c.recSegments ↔ ∃ s, (segmentsOf f es)[k]? = some s ∧ seg = s.segment := by
  rw [h.recSegments, List.mem_reverse, List.mem_mapIdx]
  constructor
  · rintro ⟨k', hk, e⟩
    obtain ⟨rfl, rfl⟩ := Prod.mk.injEq .. ▸ e
    exact ⟨_, List.getElem?_eq_getElem hk, rfl⟩
  · rintro ⟨s, hs, rfl⟩
    obtain ⟨hk, rfl⟩ := List.getElem?_eq_some_iff.mp hs
    exact ⟨k, hk, rfl⟩

theorem holds_nil : Holds f [] ({} : PortCache μ) where
  numTapes := rfl
  numSegments := rfl
  recTapes := rfl
  recSegments := rfl
  sound := by simp

theorem getElem?_snoc_eq_some {α : Type*} {l : List α} {k : Nat} {x y : α} :
    (l ++ [y])[k]? = some x ↔ l[k]? = some x ∨ k = l.length ∧ y = x := by
  rw [List.getElem?_append, List.getElem?_singleton]
  grind

theorem getElem?_snoc_of_some {α : Type*} {l : List α} {k : Nat} {x y : α} (h : l[k]? = some x) :
    (l ++ [y])[k]? = some x :=
  getElem?_snoc_eq_some.mpr (.inl h)

theorem index_eq {α : Type*} {l : List α} {i j : Nat} {x : α} (hl : l.Nodup) (hi : l[i]? = some x)
    (hj : l[j]? = some x) : i = j :=
  (List.getElem?_inj (List.getElem?_eq_some_iff.mp hi).1 hl).mp (hi.trans hj.symm)

theorem Holds.firstRun_tape (h : Holds f es c) {s : MetadataPair μ} {tape : OrkTape μ}
    (ht : tape ∈ c.recTapes.firstRun (areTogether · s.segment)) :
    ∃ (j : Nat) (t : TapePair μ), (tapesOf es)[j]? = some t ∧ tape = t.tape j ∧ Together t s := by
  obtain ⟨j, t, hj, rfl⟩ := h.mem_recTapes.mp (List.mem_of_mem_firstRun ht)
  have htog : areTogether (t.tape j) s.segment = true := areTogether_of_mem_tapes ht
  exact ⟨j, t, hj, rfl, htog⟩

theorem Holds.firstRun_segment (h : Holds f es c) {t : TapePair μ} {j k : Nat} {seg : OrkSegment μ}
    (hs : (k, seg) ∈ c.recSegments.firstRun (areTogether (t.tape j) ·.2)) :
    ∃ s, (segmentsOf f es)[k]? = some s ∧ seg = s.segment ∧ Together t s := by
  obtain ⟨s, hk, rfl⟩ := h.mem_recSegments.mp (List.mem_of_mem_firstRun hs)
  have htog : areTogether (t.tape j) s.segment = true := areTogether_of_mem_segments hs
  exact ⟨s, hk, rfl, htog⟩

theorem Holds.completeTape (h : Holds f es c) (ht : (tapesOf es).length < 50) (t : TapePair μ) :
    Holds f (es ++ [.inl t]) (c.complete f (.inl t)) where
  numTapes := by
    simp [PortCache.complete, PortCache.addTape_numTapes, tapesOf_inl, h.numTapes]
  numSegments := by
    rw [PortCache.complete, PortCache.addTape_numSegments, segmentsOf_inl, h.numSegments]
  recTapes := by
    rw [PortCache.complete, PortCache.addTape_recTapes, tapesOf_inl, h.recTapes, h.numTapes]
    · simp [List.mapIdx_append]
    · simpa [h.recTapes] using ht
  recSegments := by
    rw [PortCache.complete, PortCache.addTape_recSegments, segmentsOf_inl, h.recSegments]
  sound := by
    intro k tape hk
    rw [PortCache.complete, PortCache.addTape_tape] at hk
    rw [tapesOf_inl, segmentsOf_inl]
    split at hk
    case isTrue hjoin =>
      obtain ⟨seg, hseg⟩ := hjoin
      obtain ⟨s, hs, -, htog⟩ := h.firstRun_segment hseg
      rw [h.numTapes] at hk
      exact ⟨s, hs, _, t, List.getElem?_concat_length, (Option.some.inj hk).symm, htog⟩
    case isFalse =>
      obtain ⟨s, hs, j, t', hj, htape, htog⟩ := h.sound k tape hk
      exact ⟨s, hs, j, t', getElem?_snoc_of_some hj, htape, htog⟩

theorem Holds.addSegment (h : Holds f es c) (hs : (segmentsOf f es).length < 50) {s : MetadataPair μ}
    (hkept : Kept f s) : Holds f (es ++ [.inr s]) (c.addSegment s.segment) where
  numTapes := by
    rw [PortCache.addSegment_numTapes, tapesOf_inr, h.numTapes]
  numSegments := by
    simp [PortCache.addSegment_numSegments, segmentsOf_inr hkept, h.numSegments]
  recTapes := by
    rw [PortCache.addSegment_recTapes, tapesOf_inr, h.recTapes]
  recSegments := by
    rw [PortCache.addSegment_recSegments, segmentsOf_inr hkept, h.recSegments, h.numSegments]
    · simp [List.mapIdx_append]
    · simpa [h.recSegments] using hs
  sound := by
    intro k tape hk
    rw [PortCache.addSegment_tape] at hk
    rw [tapesOf_inr, segmentsOf_inr hkept]
    by_cases hnew : k = c.numSegments
    · subst hnew
      rw [Function.update_self] at hk
      rcases Option.or_eq_some_iff.mp hk with hlast | ⟨-, hold⟩
      · obtain ⟨j, t, hj, htape, htog⟩ := h.firstRun_tape (List.mem_of_getLast? hlast)
        exact ⟨s, by rw [h.numSegments, List.getElem?_concat_length], j, t, hj, htape, htog⟩
      · obtain ⟨s', hs', -⟩ := h.sound _ tape hold
        rw [h.numSegments, List.getElem?_eq_none le_rfl] at hs'
        cases hs'
    · rw [Function.update_of_ne hnew] at hk
      obtain ⟨s', hs', hj⟩ := h.sound k tape hk
      exact ⟨s', getElem?_snoc_of_some hs', hj⟩

/-- What is not kept leaves nothing. -/
theorem Holds.congr {es' : List (TapePair μ ⊕ MetadataPair μ)} (h : Holds f es c)
    (ht : tapesOf es' = tapesOf es) (hs : segmentsOf f es' = segmentsOf f es) : Holds f es' c where
  numTapes := ht ▸ h.numTapes
  numSegments := hs ▸ h.numSegments
  recTapes := ht ▸ h.recTapes
  recSegments := hs ▸ h.recSegments
  sound := ht ▸ hs ▸ h.sound

theorem Holds.completeSegment (h : Holds f es c) (hs : (segmentsOf f es).length < 50) (s : MetadataPair μ) :
    Holds f (es ++ [.inr s]) (c.complete f (.inr s)) := by
  by_cases hkept : Kept f s
  · rw [PortCache.complete, if_pos hkept]
    exact h.addSegment hs hkept
  · rw [PortCache.complete, if_neg hkept]
    exact h.congr (tapesOf_inr s) (segmentsOf_inr_not hkept)

theorem tapesOf_append_length_le (es es' : List (TapePair μ ⊕ MetadataPair μ)) :
    (tapesOf es).length ≤ (tapesOf (es ++ es')).length := by
  simp [tapesOf]

theorem segmentsOf_append_length_le (es es' : List (TapePair μ ⊕ MetadataPair μ)) :
    (segmentsOf f es).length ≤ (segmentsOf f (es ++ es')).length := by
  simp [segmentsOf]

theorem Holds.complete (h : Holds f es c) (ht : (tapesOf es).length < 50) (hs : (segmentsOf f es).length < 50) :
    ∀ e, Holds f (es ++ [e]) (c.complete f e)
  | .inl t => h.completeTape ht t
  | .inr s => h.completeSegment hs s

theorem holds_foldl (ht : (tapesOf es).length < 50) (hs : (segmentsOf f es).length < 50) :
    Holds f es (es.foldl (PortCache.complete f) {}) := by
  induction es using List.reverseRecOn with
  | nil => exact holds_nil
  | append_singleton es e ih =>
    have ht' := (tapesOf_append_length_le es [e]).trans_lt ht
    have hs' := (segmentsOf_append_length_le es [e]).trans_lt hs
    rw [List.foldl_append]
    exact (ih ht' hs').complete ht' hs' e

/-! ## Matched tapes and segments -/

section Matched

variable {tapes : Finset (TapePair μ)} {segs : Finset (MetadataPair μ)}

/-- All that is together has been joined. -/
def Joined (f : OrkSegment μ → Bool) (es : List (TapePair μ ⊕ MetadataPair μ)) (c : PortCache μ) : Prop :=
  ∀ (k j : Nat) (s : MetadataPair μ) (t : TapePair μ), (segmentsOf f es)[k]? = some s →
    (tapesOf es)[j]? = some t → Together t s → c.tape k = some (t.tape j)

theorem Holds.joined_completeTape (h : Holds f es c) (hj : Joined f es c) (hm : Matched tapes segs)
    (hS : ∀ s ∈ segmentsOf f es, s ∈ segs) {t : TapePair μ} (hT : ∀ t' ∈ tapesOf (es ++ [.inl t]), t' ∈ tapes)
    (hnd : (tapesOf (es ++ [.inl t])).Nodup) (hndS : (segmentsOf f es).Nodup) :
    Joined f (es ++ [.inl t]) (c.complete f (.inl t)) := by
  intro k j s t' hk hj' htog
  rw [segmentsOf_inl] at hk
  rw [tapesOf_inl] at hj' hT hnd
  have hs := hS s (List.mem_of_getElem? hk)
  have ht : t ∈ tapes := hT t (by simp)
  rw [PortCache.complete, PortCache.addTape_tape, h.numTapes]
  by_cases hnew : t' = t
  · -- The walk over the cached segments gets to `s`.
    subst hnew
    have hpos : j = (tapesOf es).length := index_eq hnd hj' List.getElem?_concat_length
    have hmem : (k, s.segment) ∈ c.recSegments := h.mem_recSegments.mpr ⟨s, hk, rfl⟩
    rw [if_pos, hpos]
    refine ⟨s.segment, ?_⟩
    by_cases hall : ∀ s' ∈ segs, Together t' s'
    · rw [List.firstRun_of_forall]
      · exact hmem
      · rintro ⟨k', seg⟩ hseg
        obtain ⟨s', hs', rfl⟩ := h.mem_recSegments.mp hseg
        exact hall s' (hS s' (List.mem_of_getElem? hs'))
    · refine List.mem_firstRun_of_unique hmem htog ?_
      rintro ⟨k', seg⟩ hseg htog'
      obtain ⟨s', hs', rfl⟩ := h.mem_recSegments.mp hseg
      obtain rfl := (hm.oneOrAll t' ht s' (hS s' (List.mem_of_getElem? hs')) s hs htog' htog).resolve_right hall
      rw [index_eq hndS hs' hk]
  · have hold : (tapesOf es)[j]? = some t' := by
      rcases getElem?_snoc_eq_some.mp hj' with h' | ⟨-, rfl⟩
      · exact h'
      · exact absurd rfl hnew
    rw [if_neg, hj k j s t' hk hold htog]
    rintro ⟨seg, hseg⟩
    obtain ⟨s', hs', -, htog'⟩ := h.firstRun_segment hseg
    obtain rfl : s = s' := Option.some.inj (hk.symm.trans hs')
    exact hnew (hm.oneTape s hs t' (hT t' (List.mem_of_getElem? hj')) t ht htog htog')

theorem Holds.joined_addSegment (h : Holds f es c) (hj : Joined f es c) (hm : Matched tapes segs)
    {s : MetadataPair μ} (hkept : Kept f s) (hs : s ∈ segs) (hT : ∀ t ∈ tapesOf es, t ∈ tapes)
    (hnd : (tapesOf es).Nodup) : Joined f (es ++ [.inr s]) (c.addSegment s.segment) := by
  intro k j s' t hk hj' htog
  rw [segmentsOf_inr hkept] at hk
  rw [tapesOf_inr] at hj'
  have ht := hT t (List.mem_of_getElem? hj')
  rw [PortCache.addSegment_tape, h.numSegments]
  rcases getElem?_snoc_eq_some.mp hk with hold | ⟨rfl, rfl⟩
  · rw [Function.update_of_ne, hj k j s' t hold hj' htog]
    exact (List.getElem?_eq_some_iff.mp hold).1.ne
  · -- All tapes that the walk over the cached tapes joins are `t`.
    have hone : ∀ tape ∈ c.recTapes, areTogether tape s.segment = true → tape = t.tape j := by
      intro tape htape htog'
      obtain ⟨j', t', hj'', rfl⟩ := h.mem_recTapes.mp htape
      obtain rfl := hm.oneTape s hs t' (hT t' (List.mem_of_getElem? hj'')) t ht htog' htog
      rw [index_eq hnd hj'' hj']
    have hmem : t.tape j ∈ c.recTapes.firstRun (areTogether · s.segment) :=
      List.mem_firstRun_of_unique (h.mem_recTapes.mpr ⟨j, t, hj', rfl⟩) htog hone
    rw [Function.update_self]
    cases hlast : (c.recTapes.firstRun (areTogether · s.segment)).getLast? with
    | none =>
      rw [List.getLast?_eq_none_iff.mp hlast] at hmem
      exact absurd hmem List.not_mem_nil
    | some tape =>
      have hin := List.mem_of_getLast? hlast
      rw [Option.some_or, hone tape (List.mem_of_mem_firstRun hin)
        (List.pred_of_mem_firstRun (p := fun tape => areTogether tape s.segment) hin)]

theorem joined_nil : Joined f [] ({} : PortCache μ) := by
  intro k j s t hk
  simp [segmentsOf] at hk

theorem joined_foldl (hm : Matched tapes segs) (hnd : es.Nodup) (hT : ∀ t ∈ tapesOf es, t ∈ tapes)
    (hS : ∀ s ∈ segmentsOf f es, s ∈ segs) (ht : (tapesOf es).length < 50)
    (hs : (segmentsOf f es).length < 50) : Joined f es (es.foldl (PortCache.complete f) {}) := by
  induction es using List.reverseRecOn with
  | nil => exact joined_nil
  | append_singleton es e ih =>
    have ht' := (tapesOf_append_length_le es [e]).trans_lt ht
    have hs' := (segmentsOf_append_length_le es [e]).trans_lt hs
    have hT' : ∀ t ∈ tapesOf es, t ∈ tapes := fun t h => hT t (by simp [tapesOf] at h ⊢; simp [h])
    have hS' : ∀ s ∈ segmentsOf f es, s ∈ segs := fun s h => hS s (by simp [segmentsOf] at h ⊢; simp [h])
    have hnd' : es.Nodup := hnd.of_append_left
    have hold := holds_foldl ht' hs'
    have hj := ih hnd' hT' hS' ht' hs'
    rw [List.foldl_append, List.foldl_cons, List.foldl_nil]
    cases e with
    | inl t => exact hold.joined_completeTape hj hm hS' hT (nodup_tapesOf hnd) (nodup_segmentsOf hnd')
    | inr s =>
      by_cases hkept : Kept f s
      · rw [PortCache.complete, if_pos hkept]
        exact hold.joined_addSegment hj hm hkept (hS s (mem_segmentsOf.mpr ⟨by simp, hkept⟩)) hT'
          (nodup_tapesOf hnd')
      · rw [PortCache.complete, if_neg hkept]
        intro k j s' t hk hj'
        rw [segmentsOf_inr_not hkept] at hk
        rw [tapesOf_inr] at hj'
        exact hj k j s' t hk hj'

end Matched

/-! ## Which tape a segment ends with -/

section Final

variable {tapes : Finset (TapePair μ)} {segs : Finset (MetadataPair μ)}

theorem Arrive.mem_tapesOf (h : Arrive tapes segs es) {t : TapePair μ} : t ∈ tapesOf es ↔ t ∈ tapes := by
  rw [Orktrack.mem_tapesOf, h.2, Finset.inl_mem_disjSum]

theorem Arrive.mem_segmentsOf (h : Arrive tapes segs es) {s : MetadataPair μ} :
    s ∈ segmentsOf f es ↔ s ∈ segs.filter (Kept f ·) := by
  rw [Orktrack.mem_segmentsOf, h.2, Finset.inr_mem_disjSum, Finset.mem_filter]

theorem Arrive.tapesOf_length (h : Arrive tapes segs es) : (tapesOf es).length ≤ tapes.card := by
  rw [← tapes.length_toList]
  exact ((nodup_tapesOf h.1).subperm fun t ht => Finset.mem_toList.mpr (h.mem_tapesOf.mp ht)).length_le

theorem Arrive.segmentsOf_length (h : Arrive tapes segs es) : (segmentsOf f es).length ≤ segs.card := by
  rw [← segs.length_toList]
  refine ((nodup_segmentsOf h.1).subperm fun s hs => Finset.mem_toList.mpr ?_).length_le
  exact (Finset.mem_filter.mp (h.mem_segmentsOf.mp hs)).1

open Classical in
/-- An order that ends in `l`. -/
theorem exists_arrive_append {l : List (TapePair μ ⊕ MetadataPair μ)} (hl : l.Nodup)
    (hsub : ∀ e ∈ l, e ∈ tapes.disjSum segs) : ∃ os, Arrive tapes segs (os ++ l) := by
  refine ⟨(tapes.disjSum segs).toList.filter (· ∉ l), ?_, ?_⟩
  · refine List.nodup_append.mpr ⟨(Finset.nodup_toList _).filter _, hl, ?_⟩
    rintro e he _ he' rfl
    simp [he'] at he
  · intro e
    by_cases he : e ∈ l
    · simp [he, hsub e he]
    · simp [he]

variable [DecidableEq μ]

theorem finalTape_eq {k : Nat} {s : MetadataPair μ} (hnd : es.Nodup) (hk : (segmentsOf f es)[k]? = some s) :
    finalTape f c es s = (c.tape k).bind fun tape => (tapesOf es)[tape.id]? := by
  obtain ⟨hlt, rfl⟩ := List.getElem?_eq_some_iff.mp hk
  rw [finalTape, (nodup_segmentsOf hnd).idxOf_getElem k hlt]

theorem finalTape_eq_some {k j : Nat} {s : MetadataPair μ} {t : TapePair μ} (hnd : es.Nodup)
    (hk : (segmentsOf f es)[k]? = some s) (hj : (tapesOf es)[j]? = some t) (h : c.tape k = some (t.tape j)) :
    finalTape f c es s = some t := by
  rw [finalTape_eq hnd hk, h]
  exact hj

theorem finalTape_eq_none {k : Nat} {s : MetadataPair μ} (hnd : es.Nodup)
    (hk : (segmentsOf f es)[k]? = some s) (h : c.tape k = none) : finalTape f c es s = none := by
  rw [finalTape_eq hnd hk, h]
  rfl

/-! ## Sets for which the order does not matter -/

variable {port : Port}

theorem orderIndependent_of_matched (hport : port.portFaces.length ≠ 1)
    (htapes : ∀ t ∈ tapes, t.service.recordMaster = false) (ht : tapes.card < 50) (hs : segs.card < 50)
    (hm : Matched tapes (segs.filter (Kept f ·))) : OrderIndependent f port tapes segs := by
  classical
  refine ⟨fun s => if h : ∃ t ∈ tapes, Together t s then some h.choose else none, ?_⟩
  intro l es hl hes s hseg hkept
  rw [hl.run_cache hport (fun t h => htapes t (hes.mem_tapesOf.mp (mem_tapesOf.mpr h))) (by simp) (by simp)]
  have hlt := hes.tapesOf_length.trans_lt ht
  have hls := hes.segmentsOf_length (f := f).trans_lt hs
  have hmem : s ∈ segs.filter (Kept f ·) := Finset.mem_filter.mpr ⟨hseg, hkept⟩
  obtain ⟨k, hk⟩ := List.getElem?_of_mem (hes.mem_segmentsOf.mpr hmem)
  by_cases h : ∃ t ∈ tapes, Together t s
  · obtain ⟨hin, htog⟩ := h.choose_spec
    obtain ⟨j, hj⟩ := List.getElem?_of_mem (hes.mem_tapesOf.mpr hin)
    have hjoin := joined_foldl hm hes.1 (fun t => hes.mem_tapesOf.mp) (fun s => hes.mem_segmentsOf.mp) hlt hls
    simp only [dif_pos h]
    exact ⟨finalTape_eq_some hes.1 hk hj (hjoin k j s _ hk hj htog), fun _ => ⟨_, hin, rfl, htog⟩⟩
  · simp only [dif_neg h]
    refine ⟨finalTape_eq_none hes.1 hk (Option.eq_none_iff_forall_ne_some.mpr ?_), fun h' => absurd h' h⟩
    intro tape htape
    obtain ⟨s', hs', j, t, hj, -, htog⟩ := (holds_foldl hlt hls).sound k tape htape
    obtain rfl : s = s' := Option.some.inj (hk.symm.trans hs')
    exact h ⟨t, hes.mem_tapesOf.mp (List.mem_of_getElem? hj), htog⟩

/-- With `s` completed before the last two tapes, and the last of them together with it, that is its tape. -/
theorem finalTape_last {s : MetadataPair μ} {t t' : TapePair μ} {os : List (TapePair μ ⊕ MetadataPair μ)}
    (hes : Arrive tapes segs (os ++ [Sum.inr s, Sum.inl t] ++ [Sum.inl t'])) (ht : tapes.card < 50)
    (hs : segs.card < 50) (hkept : Kept f s) (htog : Together t' s) :
    finalTape f ((os ++ [Sum.inr s, Sum.inl t] ++ [Sum.inl t']).foldl (PortCache.complete f) {})
      (os ++ [Sum.inr s, Sum.inl t] ++ [Sum.inl t']) s = some t' := by
  have hsegs : segmentsOf f (os ++ [Sum.inr s, Sum.inl t]) = segmentsOf f os ++ [s] := by
    simp [segmentsOf, hkept]
  have hlt := hes.tapesOf_length.trans_lt ht
  have hls := (hes.segmentsOf_length (f := f)).trans_lt hs
  have hold : Holds f (os ++ [Sum.inr s, Sum.inl t]) _ :=
    holds_foldl ((tapesOf_append_length_le _ [.inl t']).trans_lt hlt)
      ((segmentsOf_append_length_le _ [.inl t']).trans_lt hls)
  refine finalTape_eq_some hes.1 (k := (segmentsOf f os).length) ?_ ?_ ?_
    (j := (tapesOf (os ++ [Sum.inr s, Sum.inl t])).length)
  · rw [segmentsOf_inl, hsegs, List.getElem?_concat_length]
  · rw [tapesOf_inl, List.getElem?_concat_length]
  · rw [List.foldl_append, List.foldl_cons, List.foldl_nil, PortCache.complete, PortCache.addTape_tape,
      if_pos, hold.numTapes]
    refine ⟨s.segment, ?_⟩
    have hrec := hold.recSegments
    simp only [hsegs, List.mapIdx_append, List.mapIdx_singleton, Nat.zero_add, List.reverse_append,
      List.reverse_singleton, List.singleton_append] at hrec
    rw [hrec]
    exact List.mem_firstRun_cons_self htog

theorem OrderIndependent.oneTape (h : OrderIndependent f port tapes segs) (hport : port.portFaces.length ≠ 1)
    (htapes : ∀ t ∈ tapes, t.service.recordMaster = false) (ht : tapes.card < 50) (hs : segs.card < 50)
    {s : MetadataPair μ} (hseg : s ∈ segs) (hkept : Kept f s) {t t' : TapePair μ} (htin : t ∈ tapes)
    (htin' : t' ∈ tapes) (htog : Together t s) (htog' : Together t' s) : t = t' := by
  obtain ⟨final, hfinal⟩ := h
  by_contra hne
  have key : ∀ {t t' : TapePair μ}, t ∈ tapes → t' ∈ tapes → Together t' s → t ≠ t' → final s = some t' := by
    intro t t' htin htin' htog' hne
    obtain ⟨os, hes⟩ : ∃ os, Arrive tapes segs (os ++ [Sum.inr s, Sum.inl t, Sum.inl t']) :=
      exists_arrive_append (by simp [hne]) (by simp [hseg, htin, htin'])
    rw [show [Sum.inr s, Sum.inl t, Sum.inl t'] = [Sum.inr s, Sum.inl t] ++ [Sum.inl t'] from rfl,
      ← List.append_assoc] at hes
    rw [← (hfinal _ _ (reports_messages _) hes s hseg hkept).1,
      (reports_messages _).run_cache hport
        (fun t h => htapes t (hes.mem_tapesOf.mp (mem_tapesOf.mpr h))) (by simp) (by simp)]
    exact finalTape_last hes ht hs hkept htog'
  have h1 := key htin htin' htog' hne
  have h2 := key htin' htin htog (Ne.symm hne)
  exact hne (Option.some.inj (h2.symm.trans h1))

/-- The walk of `t` ends at `s''`, and `s'` is left without a tape. -/
theorem finalTape_gap {s s' s'' : MetadataPair μ} {t : TapePair μ} {os : List (TapePair μ ⊕ MetadataPair μ)}
    (hes : Arrive tapes segs (os ++ [Sum.inr s', Sum.inr s'', Sum.inr s] ++ [Sum.inl t])) (ht : tapes.card < 50)
    (hs : segs.card < 50) (hkept : Kept f s) (hkept' : Kept f s') (hkept'' : Kept f s'') (htog : Together t s)
    (htog'' : ¬Together t s'') (hone : ∀ t' ∈ tapes, Together t' s' → t = t') :
    finalTape f ((os ++ [Sum.inr s', Sum.inr s'', Sum.inr s] ++ [Sum.inl t]).foldl (PortCache.complete f) {})
      (os ++ [Sum.inr s', Sum.inr s'', Sum.inr s] ++ [Sum.inl t]) s' = none := by
  have hsegs : segmentsOf f (os ++ [Sum.inr s', Sum.inr s'', Sum.inr s]) = segmentsOf f os ++ [s', s'', s] := by
    simp [segmentsOf, hkept, hkept', hkept'']
  have hlt := hes.tapesOf_length.trans_lt ht
  have hls := (hes.segmentsOf_length (f := f)).trans_lt hs
  have hold : Holds f (os ++ [Sum.inr s', Sum.inr s'', Sum.inr s]) _ :=
    holds_foldl ((tapesOf_append_length_le _ [.inl t]).trans_lt hlt)
      ((segmentsOf_append_length_le _ [.inl t]).trans_lt hls)
  have hk : (segmentsOf f (os ++ [Sum.inr s', Sum.inr s'', Sum.inr s]))[(segmentsOf f os).length]? = some s' := by
    simp [hsegs]
  refine finalTape_eq_none hes.1 (k := (segmentsOf f os).length) (by rw [segmentsOf_inl, hk]) ?_
  rw [List.foldl_append, List.foldl_cons, List.foldl_nil, PortCache.complete, PortCache.addTape_tape, if_neg]
  · -- Before the last tape no tape that is together with `s'` has come.
    refine Option.eq_none_iff_forall_ne_some.mpr fun tape htape => ?_
    obtain ⟨s₁, hs₁, j, t', hj, -, htog'⟩ := hold.sound _ tape htape
    obtain rfl : s' = s₁ := Option.some.inj (hk.symm.trans hs₁)
    have hin := List.mem_of_getElem? hj
    have hnd := nodup_tapesOf hes.1
    rw [tapesOf_inl] at hnd
    obtain rfl := hone t' (hes.mem_tapesOf.mp (by rw [tapesOf_inl]; exact List.mem_append_left _ hin)) htog'
    exact List.disjoint_of_nodup_append hnd hin List.mem_cons_self
  · rintro ⟨seg, hseg⟩
    have hrec := hold.recSegments
    simp only [hsegs, List.mapIdx_append, List.mapIdx_cons, List.mapIdx_nil, List.reverse_append,
      List.reverse_cons, List.reverse_nil, List.nil_append, List.cons_append] at hrec
    rw [hrec, List.firstRun_cons_cons_of_neg] at hseg
    · simp at hseg
    · exact htog
    · exact Bool.eq_false_iff.mpr htog''

theorem OrderIndependent.oneOrAll (h : OrderIndependent f port tapes segs) (hport : port.portFaces.length ≠ 1)
    (htapes : ∀ t ∈ tapes, t.service.recordMaster = false) (ht : tapes.card < 50) (hs : segs.card < 50)
    {s s' s'' : MetadataPair μ} (hseg : s ∈ segs) (hseg' : s' ∈ segs) (hseg'' : s'' ∈ segs) (hkept : Kept f s)
    (hkept' : Kept f s') (hkept'' : Kept f s'') {t : TapePair μ} (htin : t ∈ tapes) (htog : Together t s)
    (htog' : Together t s') (hne : s ≠ s') : Together t s'' := by
  by_contra htog''
  have hone : ∀ t' ∈ tapes, Together t' s' → t = t' := fun t' htin' =>
    h.oneTape hport htapes ht hs hseg' hkept' htin htin' htog'
  obtain ⟨final, hfinal⟩ := h
  have hne' : s' ≠ s'' := fun e => htog'' (e ▸ htog')
  have hne'' : s'' ≠ s := fun e => htog'' (e ▸ htog)
  obtain ⟨os, hes⟩ : ∃ os, Arrive tapes segs (os ++ [Sum.inr s', Sum.inr s'', Sum.inr s, Sum.inl t]) :=
    exists_arrive_append (by simp [hne', hne'', hne.symm]) (by simp [hseg, hseg', hseg'', htin])
  rw [show [Sum.inr s', Sum.inr s'', Sum.inr s, Sum.inl t] =
    [Sum.inr s', Sum.inr s'', Sum.inr s] ++ [Sum.inl t] from rfl, ← List.append_assoc] at hes
  obtain ⟨hfin, htape⟩ := hfinal _ _ (reports_messages _) hes s' hseg' hkept'
  obtain ⟨t', -, ht', -⟩ := htape ⟨t, htin, htog'⟩
  rw [(reports_messages _).run_cache hport
    (fun t h => htapes t (hes.mem_tapesOf.mp (mem_tapesOf.mpr h))) (by simp) (by simp),
    finalTape_gap hes ht hs hkept hkept' hkept'' htog htog'' hone, ht'] at hfin
  cases hfin

/-- Segments are made from metadata messages only, and neither cache overflows. -/
theorem orderIndependent_iff (f : OrkSegment μ → Bool) (port : Port) (hport : port.portFaces.length ≠ 1)
    (tapes : Finset (TapePair μ)) (htapes : ∀ t ∈ tapes, t.service.recordMaster = false) (ht : tapes.card < 50)
    (segs : Finset (MetadataPair μ)) (hs : segs.card < 50) :
    OrderIndependent f port tapes segs ↔ Matched tapes (segs.filter (Kept f ·)) := by
  constructor
  · intro h
    constructor
    · intro s hseg t htin t' htin' htog htog'
      obtain ⟨hseg, hkept⟩ := Finset.mem_filter.mp hseg
      exact h.oneTape hport htapes ht hs hseg hkept htin htin' htog htog'
    · intro t htin s hseg s' hseg' htog htog'
      obtain ⟨hseg, hkept⟩ := Finset.mem_filter.mp hseg
      obtain ⟨hseg', hkept'⟩ := Finset.mem_filter.mp hseg'
      refine or_iff_not_imp_left.mpr fun hne s'' hseg'' => ?_
      obtain ⟨hseg'', hkept''⟩ := Finset.mem_filter.mp hseg''
      exact h.oneOrAll hport htapes ht hs hseg hseg' hseg'' hkept hkept' hkept'' htin htog htog' hne
  · exact orderIndependent_of_matched hport htapes ht hs

/-- One tape and one segment within it. -/
theorem orderIndependent_one :
    OrderIndependent (μ := Unit) (fun _ => true) ⟨1, ["recport", "ctiport"]⟩
      {⟨⟨.START, 1000, 0, ()⟩, ⟨.STOP, 1010, 10000, ()⟩, ⟨"recservice", false⟩, rfl, rfl⟩}
      {⟨⟨.START, 1003, 0, ()⟩, ⟨.STOP, 1005, 0, ()⟩, ⟨"ctiservice", true⟩, rfl, rfl⟩} := by
  refine (orderIndependent_iff _ _ (by decide) _ (by simp) (by decide) _ (by decide)).mpr ?_
  constructor <;> simp +contextual

/-- A segment that begins where one tape ends and the next begins: reported before them it goes with the second,
reported after them with the first. -/
theorem not_orderIndependent :
    ¬OrderIndependent (μ := Unit) (fun _ => true) ⟨1, ["recport", "ctiport"]⟩
      {⟨⟨.START, 1000, 0, ()⟩, ⟨.STOP, 1002, 2000, ()⟩, ⟨"recservice", false⟩, rfl, rfl⟩,
        ⟨⟨.START, 1002, 0, ()⟩, ⟨.STOP, 1004, 2000, ()⟩, ⟨"recservice", false⟩, rfl, rfl⟩}
      {⟨⟨.START, 1002, 0, ()⟩, ⟨.STOP, 1003, 0, ()⟩, ⟨"ctiservice", true⟩, rfl, rfl⟩} := by
  rintro ⟨final, h⟩
  let s : MetadataPair Unit := ⟨⟨.START, 1002, 0, ()⟩, ⟨.STOP, 1003, 0, ()⟩, ⟨"ctiservice", true⟩, rfl, rfl⟩
  let t : TapePair Unit := ⟨⟨.START, 1000, 0, ()⟩, ⟨.STOP, 1002, 2000, ()⟩, ⟨"recservice", false⟩, rfl, rfl⟩
  let t' : TapePair Unit := ⟨⟨.START, 1002, 0, ()⟩, ⟨.STOP, 1004, 2000, ()⟩, ⟨"recservice", false⟩, rfl, rfl⟩
  have h1 := (h _ _ (reports_messages [.inr s, .inl t, .inl t']) ⟨by decide, by simp [s, t, t']⟩ s
    (by simp [s]) (by decide)).1
  have h2 := (h _ _ (reports_messages [.inl t, .inl t', .inr s]) ⟨by decide, by simp [s, t, t']⟩ s
    (by simp [s]) (by decide)).1
  have e1 : finalTape (fun _ => true) (TrackPort.run (fun _ => true) { toPort := ⟨1, ["recport", "ctiport"]⟩ }
      (messages [.inr s, .inl t, .inl t'])).cache [.inr s, .inl t, .inl t'] s = some t' := by decide
  have e2 : finalTape (fun _ => true) (TrackPort.run (fun _ => true) { toPort := ⟨1, ["recport", "ctiport"]⟩ }
      (messages [.inl t, .inl t', .inr s])).cache [.inl t, .inl t', .inr s] s = some t := by decide
  have hne : some t' = some t := (e1.symm.trans h1).trans (h2.symm.trans e2)
  exact absurd hne (by decide)

end Final

end Oreka.Orktrack
