import Oreka.Lib.Run
import Oreka.Orktrack.Proof.TapeRecords

/-!
# The tape that a segment finds

A port stores the seconds that a STOP reports as the duration of the tape, and compares them with milliseconds:
a segment within the time of a tape finds it only if it ends less than 3 s and as many milliseconds after the
start of the tape (`segmentFindsTape_iff`). The caches do what they are for: of a segment and its tape, the one
that is completed first is still cached when the other is (`TapeCached`, `SegmentCached`), and the segment keeps
the tape it has (`Tracks`).
-/

namespace Oreka.Orktrack

open BoundedCache

variable {μ : Type*}

/-- The segment lies in the time of the tape, extended by less than 3 s at each end; the tape lasts the seconds
that its STOP reports. -/
def Within (t : OrkTape μ) (seg : OrkSegment μ) : Prop :=
  t.timestamp - 3000 < seg.timestamp ∧
    seg.timestamp + seg.duration < t.timestamp + max t.duration 0 * 1000 + 3000
  deriving Decidable

/-- A tape and a segment whose STOPs are reported to a port: with the messages before the first of them, between
the two and after the second. Their STARTs are among these. -/
structure Notification (μ : Type*) where
  tape : TapePair μ
  segment : MetadataPair μ
  tapeFirst : Bool
  before : List (PortMessage μ)
  between : List (PortMessage μ)
  after : List (PortMessage μ)

namespace Notification

variable (n : Notification μ)

def tapeStop : PortMessage μ := .tape n.tape.stop n.tape.service

def segmentStop : PortMessage μ := .metadata n.segment.stop n.segment.service

def first : PortMessage μ := if n.tapeFirst then n.tapeStop else n.segmentStop

def second : PortMessage μ := if n.tapeFirst then n.segmentStop else n.tapeStop

def untilSecond : List (PortMessage μ) := n.before ++ n.first :: n.between

def messages : List (PortMessage μ) := n.untilSecond ++ n.second :: n.after

/-- What is reported before the STOP of the tape. -/
def beforeTape : List (PortMessage μ) := if n.tapeFirst then n.before else n.untilSecond

/-- What is reported before the STOP of the segment. -/
def beforeSegment : List (PortMessage μ) := if n.tapeFirst then n.untilSecond else n.before

end Notification

section

-- What the active programs retain.
variable (filterSegmentAgainstAllPrograms : OrkSegment μ → Bool)

/-- The message completes no tape in whose time the segment lies. -/
def NoTapeOf (seg : OrkSegment μ) (p : TrackPort μ) (m : PortMessage μ) : Prop :=
  ∀ t, p.newTape m = some t → ¬Within t seg

/-- The message completes no segment that lies in the time of the tape. -/
def NoSegmentOf (t : OrkTape μ) (p : TrackPort μ) (m : PortMessage μ) : Prop :=
  ∀ seg, p.newSegment filterSegmentAgainstAllPrograms m = some seg → ¬Within t seg

/-- The segment lies in the time of the tape and is kept; the START of each is the last of its kind before its
STOP. No other tape has the segment in its time and no segment between the two STOPs is in that of the tape;
fewer than 50 tapes and 50 segments are completed between them. -/
structure Notification.Separate (port : Port) (n : Notification μ) : Prop where
  kept : Kept filterSegmentAgainstAllPrograms n.segment
  within : Within (n.tape.tape 0) n.segment.segment
  tapeStarted :
    (portAfter filterSegmentAgainstAllPrograms port n.beforeTape).lastTapeMessage = some n.tape.start
  segmentStarted :
    (portAfter filterSegmentAgainstAllPrograms port n.beforeSegment).lastMetadataMessage = some n.segment.start
  before : Run.Meets (TrackPort.notify filterSegmentAgainstAllPrograms) (NoTapeOf n.segment.segment)
    { toPort := port } n.before
  between : Run.Meets (TrackPort.notify filterSegmentAgainstAllPrograms)
    (fun p m => NoTapeOf n.segment.segment p m ∧
      NoSegmentOf filterSegmentAgainstAllPrograms (n.tape.tape 0) p m)
    (portAfter filterSegmentAgainstAllPrograms port (n.before ++ [n.first])) n.between
  after : Run.Meets (TrackPort.notify filterSegmentAgainstAllPrograms) (NoTapeOf n.segment.segment)
    (portAfter filterSegmentAgainstAllPrograms port (n.untilSecond ++ [n.second])) n.after
  fewTapes : (portAfter filterSegmentAgainstAllPrograms port n.untilSecond).cache.numTapes <
    (portAfter filterSegmentAgainstAllPrograms port (n.before ++ [n.first])).cache.numTapes + 50
  fewSegments : (portAfter filterSegmentAgainstAllPrograms port n.untilSecond).cache.numSegments <
    (portAfter filterSegmentAgainstAllPrograms port (n.before ++ [n.first])).cache.numSegments + 50

/-- In the end the segment has the tape, at the offset of its start in milliseconds. -/
def Notification.Found (port : Port) (n : Notification μ) : Prop :=
  let tape := n.tape.tape (portAfter filterSegmentAgainstAllPrograms port n.beforeTape).cache.numTapes
  let seg := (portAfter filterSegmentAgainstAllPrograms port n.beforeSegment).cache.numSegments
  let c := (portAfter filterSegmentAgainstAllPrograms port n.messages).cache
  c.tape seg = some tape ∧
    c.tapeOffset seg = (n.segment.start.timestamp.toInt - n.tape.start.timestamp.toInt) * 1000

end

/-! ## The window -/

variable {f : OrkSegment μ → Bool} {t : OrkTape μ} {seg : OrkSegment μ} {c : PortCache μ} {k : Nat}

theorem areTogether_iff : areTogether t seg = true ↔ t.timestamp - 3000 < seg.timestamp ∧
    seg.timestamp + seg.duration < t.timestamp + t.duration + 3000 := by
  simp only [areTogether, Bool.and_eq_true, Bool.or_eq_true, decide_eq_true_eq]
  omega

theorem within_of_areTogether (h : areTogether t seg = true) : Within t seg := by
  obtain ⟨hstart, hstop⟩ := areTogether_iff.mp h
  exact ⟨hstart, by omega⟩

theorem areTogether_eq_false (h : ¬Within t seg) : areTogether t seg = false :=
  Bool.eq_false_iff.mpr (mt within_of_areTogether h)

/-! ## The caches -/

namespace PortCache

theorem addTapeWithSegment_recTapes (c : PortCache μ) (t : OrkTape μ) (retained : Bool) :
    (c.addTapeWithSegment t retained).recTapes = c.recTapes := by
  cases retained <;> rfl

theorem addTapeWithSegment_recSegments (c : PortCache μ) (t : OrkTape μ) (retained : Bool) :
    (c.addTapeWithSegment t retained).recSegments = c.recSegments := by
  cases retained <;> rfl

theorem addTapeWithSegment_numTapes (c : PortCache μ) (t : OrkTape μ) (retained : Bool) :
    (c.addTapeWithSegment t retained).numTapes = c.numTapes + 1 := by
  cases retained <;> rfl

theorem addTapeWithSegment_numSegments (c : PortCache μ) (t : OrkTape μ) (retained : Bool) :
    c.numSegments ≤ (c.addTapeWithSegment t retained).numSegments := by
  cases retained
  · exact le_rfl
  · exact Nat.le_succ _

/-- A tape with a segment of its own has nothing to do with the other segments. -/
theorem addTapeWithSegment_of_ne (c : PortCache μ) (t : OrkTape μ) (retained : Bool)
    (h : k < c.numSegments ∨ (c.addTapeWithSegment t retained).numSegments ≤ k) :
    (c.addTapeWithSegment t retained).tape k = c.tape k ∧
      (c.addTapeWithSegment t retained).tapeOffset k = c.tapeOffset k := by
  cases retained
  · exact ⟨rfl, rfl⟩
  · have hne : k ≠ c.numSegments := by
      rcases h with h | h
      · exact h.ne
      · exact (Nat.lt_of_succ_le h).ne'
    exact ⟨Function.update_of_ne hne _ _, Function.update_of_ne hne _ _⟩

theorem foldl_tapes_tapeOffset (segment : Nat × OrkSegment μ) (h : k ≠ segment.1) :
    ∀ (l : List (OrkTape μ)) (c : PortCache μ),
      (l.foldl (fun c tape => c.joinTogether tape segment) c).tapeOffset k = c.tapeOffset k
  | [], _ => rfl
  | tape :: l, c => by
    rw [List.foldl_cons, foldl_tapes_tapeOffset segment h l]
    exact Function.update_of_ne h _ _

theorem addSegment_of_ne (c : PortCache μ) (seg : OrkSegment μ) (h : k ≠ c.numSegments) :
    (c.addSegment seg).tape k = c.tape k ∧ (c.addSegment seg).tapeOffset k = c.tapeOffset k := by
  constructor
  · rw [addSegment_tape, Function.update_of_ne h]
  · simp only [addSegment, findAndAssociateTape, associate_false]
    exact foldl_tapes_tapeOffset _ h _ _

/-- One tape only is together with the segment that is completed. -/
theorem addSegment_found (c : PortCache μ) (h : c.recTapes.firstRun (areTogether · seg) = [t]) :
    (c.addSegment seg).tape c.numSegments = some t ∧
      (c.addSegment seg).tapeOffset c.numSegments = seg.timestamp - t.timestamp := by
  have h' : ({ c with numSegments := c.numSegments + 1 }.addSegmentToLocalCache
      (c.numSegments, seg)).recTapes.firstRun (areTogether · seg) = [t] := h
  simp only [addSegment, findAndAssociateTape, associate_false, h', List.foldl_cons, List.foldl_nil,
    joinTogether, Function.update_self, and_self]

theorem foldl_segments_of_notMem (tape : OrkTape μ) : ∀ {l : List (Nat × OrkSegment μ)} {c : PortCache μ},
    (∀ seg', (k, seg') ∉ l) →
      (l.foldl (fun c segment => c.joinTogether tape segment) c).tapeOffset k = c.tapeOffset k
  | [], _, _ => rfl
  | segment :: l, c, h => by
    have hne : k ≠ segment.1 := by
      rintro rfl
      exact h segment.2 List.mem_cons_self
    rw [List.foldl_cons, foldl_segments_of_notMem tape fun seg' hseg' => h seg' (List.mem_cons_of_mem _ hseg')]
    exact Function.update_of_ne hne _ _

theorem foldl_segments_of_mem (tape : OrkTape μ) : ∀ {l : List (Nat × OrkSegment μ)} {c : PortCache μ},
    (∀ seg', (k, seg') ∈ l → seg' = seg) → (k, seg) ∈ l →
      (l.foldl (fun c segment => c.joinTogether tape segment) c).tapeOffset k = seg.timestamp - tape.timestamp
  | segment :: l, c, hunique, hmem => by
    rw [List.foldl_cons]
    by_cases hl : (k, seg) ∈ l
    · exact foldl_segments_of_mem tape (fun seg' hseg' => hunique seg' (List.mem_cons_of_mem _ hseg')) hl
    · obtain rfl : segment = (k, seg) := ((List.mem_cons.mp hmem).resolve_right hl).symm
      rw [foldl_segments_of_notMem tape]
      · exact Function.update_self ..
      · intro seg' hseg'
        obtain rfl := hunique seg' (List.mem_cons_of_mem _ hseg')
        exact hl hseg'

/-- The walk of the tape comes to the segment. -/
theorem addTape_found (c : PortCache μ) (hunique : ∀ seg', (k, seg') ∈ c.recSegments → seg' = seg)
    (h : (k, seg) ∈ c.recSegments.firstRun (areTogether t ·.2)) :
    (c.addTape t).tape k = some t ∧ (c.addTape t).tapeOffset k = seg.timestamp - t.timestamp := by
  constructor
  · rw [addTape_tape, if_pos ⟨seg, h⟩]
  · simp only [addTape, findAndAssociateSegment, associate_false]
    exact foldl_segments_of_mem t (fun seg' hseg' => hunique seg' (List.mem_of_mem_firstRun hseg')) h

/-- A tape that is not together with the segment leaves it alone. -/
theorem addTape_of_not_together (c : PortCache μ) (hunique : ∀ seg', (k, seg') ∈ c.recSegments → seg' = seg)
    (h : areTogether t seg = false) :
    (c.addTape t).tape k = c.tape k ∧ (c.addTape t).tapeOffset k = c.tapeOffset k := by
  have hnot : ∀ seg', (k, seg') ∉ c.recSegments.firstRun (areTogether t ·.2) := by
    intro seg' hseg'
    obtain rfl := hunique seg' (List.mem_of_mem_firstRun hseg')
    have htog := areTogether_of_mem_segments hseg'
    rw [h] at htog
    cases htog
  constructor
  · rw [addTape_tape, if_neg (by simpa using hnot)]
  · simp only [addTape, findAndAssociateSegment, associate_false]
    exact foldl_segments_of_notMem t hnot

end PortCache

/-! ## What a message can do -/

namespace TrackPort.CacheStep

variable {p : TrackPort μ} {m : PortMessage μ}

theorem numSegments_le (h : CacheStep f p m c) : p.cache.numSegments ≤ c.numSegments := by
  cases h with
  | nothing => exact le_rfl
  | segment seg => rw [PortCache.addSegment_numSegments]; exact Nat.le_succ _
  | tape t => rw [PortCache.addTape_numSegments]
  | tapeWithSegment t => exact PortCache.addTapeWithSegment_numSegments ..

theorem numTapes_le (h : CacheStep f p m c) : p.cache.numTapes ≤ c.numTapes := by
  rw [h.numTapes]
  exact Nat.le_add_right ..

theorem mem_recTapes (h : CacheStep f p m c) (ht : t ∈ c.recTapes) : t ∈ p.cache.recTapes ∨
    p.newTape m = some t ∧ p.portFaces.length ≠ 1 ∧ t.service.recordMaster = false := by
  cases h with
  | nothing => exact .inl ht
  | segment seg => exact .inl (PortCache.addSegment_recTapes _ seg ▸ ht)
  | tape t' hnew hfaces hmaster =>
    rw [PortCache.addTape_recTapes_push] at ht
    rcases mem_of_mem_push ht with rfl | ht
    · exact .inr ⟨hnew, hfaces, hmaster⟩
    · exact .inl ht
  | tapeWithSegment t' => exact .inl (PortCache.addTapeWithSegment_recTapes _ t' _ ▸ ht)

theorem mem_recSegments {x : Nat × OrkSegment μ} (h : CacheStep f p m c) (hx : x ∈ c.recSegments) :
    x ∈ p.cache.recSegments ∨ x.1 = p.cache.numSegments ∧ p.newSegment f m = some x.2 ∧
      p.cache.numSegments < c.numSegments := by
  cases h with
  | nothing => exact .inl hx
  | segment seg _ hnew =>
    rw [PortCache.addSegment_recSegments_push] at hx
    rcases mem_of_mem_push hx with rfl | hx
    · exact .inr ⟨rfl, hnew, by rw [PortCache.addSegment_numSegments]; exact Nat.lt_succ_self _⟩
    · exact .inl hx
  | tape t => exact .inl (PortCache.addTape_recSegments _ t ▸ hx)
  | tapeWithSegment t => exact .inl (PortCache.addTapeWithSegment_recSegments _ t _ ▸ hx)

/-- An older segment that gets another tape is cached, and together with the tape, which is cached too. -/
theorem tape_cases (h : CacheStep f p m c) (hk : k < p.cache.numSegments ∨ c.numSegments ≤ k) :
    c.tape k = p.cache.tape k ∨ ∃ t seg, c.tape k = some t ∧ (k, seg) ∈ p.cache.recSegments ∧
      areTogether t seg = true ∧ p.portFaces.length ≠ 1 ∧ t.service.recordMaster = false := by
  cases h with
  | nothing => exact .inl rfl
  | segment seg =>
    rw [PortCache.addSegment_numSegments] at hk
    exact .inl (PortCache.addSegment_of_ne _ seg (by omega)).1
  | tape t _ hfaces hmaster =>
    rw [PortCache.addTape_tape]
    split
    case isTrue hex =>
      obtain ⟨seg, hseg⟩ := hex
      exact .inr ⟨t, seg, rfl, List.mem_of_mem_firstRun hseg, areTogether_of_mem_segments hseg, hfaces, hmaster⟩
    case isFalse => exact .inl rfl
  | tapeWithSegment t =>
    exact .inl (PortCache.addTapeWithSegment_of_ne _ t _ hk).1

/-- A segment keeps what it has where no tape is completed that is together with it. -/
theorem keeps (h : CacheStep f p m c) (hk : k < p.cache.numSegments)
    (hunique : ∀ seg', (k, seg') ∈ p.cache.recSegments → seg' = seg) (hm : NoTapeOf seg p m) :
    c.tape k = p.cache.tape k ∧ c.tapeOffset k = p.cache.tapeOffset k := by
  cases h with
  | nothing => exact ⟨rfl, rfl⟩
  | segment seg' => exact PortCache.addSegment_of_ne _ seg' hk.ne
  | tape t hnew => exact PortCache.addTape_of_not_together _ hunique (areTogether_eq_false (hm t hnew))
  | tapeWithSegment t => exact PortCache.addTapeWithSegment_of_ne _ t _ (.inl hk)

end TrackPort.CacheStep

/-! ## What is known of a segment -/

/-- Segments have the numbers below `numSegments`, and only tapes whose segments come from metadata messages are
cached. -/
structure Numbered (p : TrackPort μ) : Prop where
  recSegments : ∀ x ∈ p.cache.recSegments, x.1 < p.cache.numSegments
  tape : ∀ k, p.cache.numSegments ≤ k → p.cache.tape k = none
  recTapes : ∀ t ∈ p.cache.recTapes, p.portFaces.length ≠ 1 ∧ t.service.recordMaster = false

/-- The segment number `k` is `seg`. If it has a tape, they are together, and its segments come from metadata
messages. -/
structure Tracks (k : Nat) (seg : OrkSegment μ) (p : TrackPort μ) : Prop where
  lt : k < p.cache.numSegments
  unique : ∀ seg', (k, seg') ∈ p.cache.recSegments → seg' = seg
  tape : ∀ t, p.cache.tape k = some t →
    areTogether t seg = true ∧ p.portFaces.length ≠ 1 ∧ t.service.recordMaster = false

variable {p : TrackPort μ} {m : PortMessage μ}

theorem numbered_start (port : Port) : Numbered (μ := μ) { toPort := port } where
  recSegments := by simp
  tape _ _ := rfl
  recTapes := by simp

theorem Numbered.notify (h : Numbered p) (m : PortMessage μ) : Numbered (p.notify f m) := by
  have hstep := p.notify_cacheStep f m
  constructor
  · intro x hx
    rcases hstep.mem_recSegments hx with hx | ⟨hnum, -, hlt⟩
    · exact (h.recSegments x hx).trans_le hstep.numSegments_le
    · rwa [hnum]
  · intro k hk
    have hk' := hstep.numSegments_le.trans hk
    rcases hstep.tape_cases (.inr hk) with hsame | ⟨t, seg, -, hmem, -⟩
    · rw [hsame, h.tape k hk']
    · exact absurd (h.recSegments _ hmem) (Nat.not_lt.mpr hk')
  · intro t ht
    rw [TrackPort.notify_toPort]
    rcases hstep.mem_recTapes ht with ht | ⟨-, ht⟩
    · exact h.recTapes t ht
    · exact ht

theorem numbered_portAfter (f : OrkSegment μ → Bool) (port : Port) (l : List (PortMessage μ)) :
    Numbered (portAfter f port l) :=
  Run.inv_foldl (fun _ m h => h.notify m) l (numbered_start port)

theorem Tracks.notify (h : Tracks k seg p) (m : PortMessage μ) : Tracks k seg (p.notify f m) := by
  have hstep := p.notify_cacheStep f m
  constructor
  · exact h.lt.trans_le hstep.numSegments_le
  · intro seg' hseg'
    rcases hstep.mem_recSegments hseg' with hseg' | ⟨hnum, -⟩
    · exact h.unique seg' hseg'
    · exact absurd hnum h.lt.ne
  · intro t ht
    rw [TrackPort.notify_toPort]
    rcases hstep.tape_cases (.inl h.lt) with hsame | ⟨t', seg', ht', hmem, htog, hown⟩
    · exact h.tape t (hsame ▸ ht)
    · obtain rfl := h.unique seg' hmem
      obtain rfl := Option.some.inj (ht.symm.trans ht')
      exact ⟨htog, hown⟩

/-- From its completion on. -/
theorem Numbered.tracks (h : Numbered p) (hnew : p.newSegment f m = some seg) :
    Tracks p.cache.numSegments seg (p.notify f m) := by
  have hcache := TrackPort.notify_of_newSegment hnew
  constructor
  · rw [hcache, PortCache.addSegment_numSegments]
    exact Nat.lt_succ_self _
  · intro seg' hseg'
    rw [hcache, PortCache.addSegment_recSegments_push] at hseg'
    rcases mem_of_mem_push hseg' with heq | hseg'
    · exact (Prod.mk.inj heq).2
    · exact absurd (h.recSegments _ hseg') (Nat.lt_irrefl _)
  · intro t ht
    rw [hcache, PortCache.addSegment_tape, Function.update_self, h.tape _ le_rfl, Option.or_none] at ht
    have hmem := List.mem_of_getLast? ht
    rw [TrackPort.notify_toPort]
    exact ⟨areTogether_of_mem_tapes hmem, h.recTapes t (List.mem_of_mem_firstRun hmem)⟩

theorem Tracks.foldl (h : Tracks k seg p) (l : List (PortMessage μ)) :
    Tracks k seg (l.foldl (TrackPort.notify f) p) :=
  Run.inv_foldl (fun _ m h => h.notify m) l h

/-- What a segment has it keeps. -/
theorem Tracks.keeps {o : Int} (h : Tracks k seg p) (ht : p.cache.tape k = some t)
    (ho : p.cache.tapeOffset k = o) {l : List (PortMessage μ)}
    (hl : Run.Meets (TrackPort.notify f) (NoTapeOf seg) p l) :
    (l.foldl (TrackPort.notify f) p).cache.tape k = some t ∧
      (l.foldl (TrackPort.notify f) p).cache.tapeOffset k = o := by
  have hall : Run.Always (TrackPort.notify f)
      (fun p => Tracks k seg p ∧ p.cache.tape k = some t ∧ p.cache.tapeOffset k = o) p l := by
    refine Run.always_of_inv ?_ ⟨h, ht, ho⟩ hl
    intro p m hp hm
    obtain ⟨h, ht, ho⟩ := hp
    obtain ⟨hsame, hoffset⟩ := (p.notify_cacheStep f m).keeps h.lt h.unique hm
    exact ⟨h.notify m, hsame.trans ht, hoffset.trans ho⟩
  exact hall.last.2

/-! ## Until the other is completed -/

/-- The tape `t` with the id `j` is cached, until 50 more tapes have been completed. No other tape in the cache
is together with the segment. -/
def TapeCached (j : Nat) (t : OrkTape μ) (seg : OrkSegment μ) (p : TrackPort μ) : Prop :=
  j < p.cache.numTapes ∧ (p.cache.numTapes ≤ j + 50 →
    Cached (areTogether · seg = false) (areTogether · seg = false) t (p.cache.numTapes - (j + 1))
      p.cache.recTapes)

/-- The segment number `k` is cached, until 50 more segments have been completed. None that is more recent is
together with the tape. -/
def SegmentCached (k : Nat) (seg : OrkSegment μ) (t : OrkTape μ) (p : TrackPort μ) : Prop :=
  k < p.cache.numSegments ∧ (p.cache.numSegments ≤ k + 50 →
    Cached (areTogether t ·.2 = false) (fun _ => True) (k, seg) (p.cache.numSegments - (k + 1))
      p.cache.recSegments)

theorem TapeCached.notify {j : Nat} (h : TapeCached j t seg p) (hm : NoTapeOf seg p m) :
    TapeCached j t seg (p.notify f m) := by
  obtain ⟨hlt, hcached⟩ := h
  have hstep := p.notify_cacheStep f m
  refine ⟨hlt.trans_le hstep.numTapes_le, fun hle => ?_⟩
  have hc := hcached (hstep.numTapes_le.trans hle)
  generalize (p.notify f m).cache = c at hstep hle ⊢
  cases hstep with
  | nothing => exact hc
  | segment seg' => rwa [PortCache.addSegment_recTapes, PortCache.addSegment_numTapes]
  | tape t' hnew =>
    rw [PortCache.addTape_numTapes] at hle ⊢
    rw [PortCache.addTape_recTapes_push]
    exact (hc.push (areTogether_eq_false (hm t' hnew)) (by omega)).mono (by omega)
  | tapeWithSegment t' =>
    rw [PortCache.addTapeWithSegment_recTapes, PortCache.addTapeWithSegment_numTapes]
    exact hc.mono (by omega)

theorem SegmentCached.notify (h : SegmentCached k seg t p) (hm : NoSegmentOf f t p m) :
    SegmentCached k seg t (p.notify f m) := by
  obtain ⟨hlt, hcached⟩ := h
  have hstep := p.notify_cacheStep f m
  refine ⟨hlt.trans_le hstep.numSegments_le, fun hle => ?_⟩
  have hnum := hstep.numSegments_le
  have hc := hcached (hnum.trans hle)
  generalize (p.notify f m).cache = c at hstep hle hnum ⊢
  cases hstep with
  | nothing => exact hc
  | segment seg' _ hnew =>
    rw [PortCache.addSegment_numSegments] at hle ⊢
    rw [PortCache.addSegment_recSegments_push]
    exact (hc.push (areTogether_eq_false (hm seg' hnew)) (by omega)).mono (by omega)
  | tape t' => rwa [PortCache.addTape_recSegments, PortCache.addTape_numSegments]
  | tapeWithSegment t' =>
    rw [PortCache.addTapeWithSegment_recSegments]
    exact hc.mono (by omega)

theorem TapeCached.foldl {j : Nat} (h : TapeCached j t seg p) {l : List (PortMessage μ)}
    (hl : Run.Meets (TrackPort.notify f) (NoTapeOf seg) p l) :
    TapeCached j t seg (l.foldl (TrackPort.notify f) p) :=
  (Run.always_of_inv (fun _ _ h hm => TapeCached.notify h hm) h hl).last

theorem SegmentCached.foldl (h : SegmentCached k seg t p) {l : List (PortMessage μ)}
    (hl : Run.Meets (TrackPort.notify f) (NoSegmentOf f t) p l) :
    SegmentCached k seg t (l.foldl (TrackPort.notify f) p) :=
  (Run.always_of_inv (fun _ _ h hm => SegmentCached.notify h hm) h hl).last

/-- Before the tape is completed, no tape in the cache is together with the segment. -/
theorem not_together_of_noTapeOf {l : List (PortMessage μ)}
    (hl : Run.Meets (TrackPort.notify f) (NoTapeOf seg) p l)
    (hp : ∀ t ∈ p.cache.recTapes, areTogether t seg = false) :
    ∀ t ∈ (l.foldl (TrackPort.notify f) p).cache.recTapes, areTogether t seg = false := by
  refine (Run.always_of_inv (P := fun p : TrackPort μ => ∀ t ∈ p.cache.recTapes, areTogether t seg = false)
    ?_ hp hl).last
  intro p m hp hm t ht
  rcases (p.notify_cacheStep f m).mem_recTapes ht with ht | ⟨hnew, -⟩
  · exact hp t ht
  · exact areTogether_eq_false (hm t hnew)

theorem tapeCached_notify (hnew : p.newTape m = some t) (hfaces : p.portFaces.length ≠ 1)
    (hmaster : t.service.recordMaster = false) (hp : ∀ t ∈ p.cache.recTapes, areTogether t seg = false) :
    TapeCached p.cache.numTapes t seg (p.notify f m) := by
  rw [TapeCached, TrackPort.notify_of_newTape hnew hfaces hmaster, PortCache.addTape_numTapes,
    PortCache.addTape_recTapes_push]
  exact ⟨Nat.lt_succ_self _, fun _ => (cached_push hp).mono (Nat.zero_le _)⟩

theorem segmentCached_notify (hnew : p.newSegment f m = some seg) (t : OrkTape μ) :
    SegmentCached p.cache.numSegments seg t (p.notify f m) := by
  rw [SegmentCached, TrackPort.notify_of_newSegment hnew, PortCache.addSegment_numSegments,
    PortCache.addSegment_recSegments_push]
  exact ⟨Nat.lt_succ_self _, fun _ => (cached_push fun _ _ => trivial).mono (Nat.zero_le _)⟩

/-- The walk over the cached tapes finds the tape and nothing else. -/
theorem TapeCached.firstRun_eq {j : Nat} (h : TapeCached j t seg p) (hle : p.cache.numTapes ≤ j + 50)
    (htog : areTogether t seg = true) : p.cache.recTapes.firstRun (areTogether · seg) = [t] := by
  obtain ⟨newer, older, hrec, -, hnewer, holder⟩ := h.2 hle
  rw [hrec, List.firstRun_append_of_neg hnewer]
  exact List.firstRun_cons_of_rest_neg (p := (areTogether · seg)) htog holder

/-- The walk over the cached segments comes to the segment. -/
theorem SegmentCached.mem_firstRun (h : SegmentCached k seg t p) (hle : p.cache.numSegments ≤ k + 50)
    (htog : areTogether t seg = true) : (k, seg) ∈ p.cache.recSegments.firstRun (areTogether t ·.2) := by
  obtain ⟨newer, older, hrec, -, hnewer, -⟩ := h.2 hle
  rw [hrec, List.firstRun_append_of_neg hnewer]
  exact List.mem_firstRun_cons_self htog

/-! ## The tape of the segment -/

variable {port : Port}

theorem portAfter_append (l l' : List (PortMessage μ)) :
    portAfter f port (l ++ l') = l'.foldl (TrackPort.notify f) (portAfter f port l) := by
  simp [portAfter, TrackPort.run]

theorem portAfter_append_cons (l l' : List (PortMessage μ)) (m : PortMessage μ) :
    portAfter f port (l ++ m :: l') = l'.foldl (TrackPort.notify f) ((portAfter f port l).notify f m) := by
  simp [portAfter, TrackPort.run]

theorem portAfter_portFaces (l : List (PortMessage μ)) :
    (portAfter f port l).portFaces = port.portFaces :=
  congrArg Port.portFaces (Run.inv_foldl (P := fun p : TrackPort μ => p.toPort = port)
    (fun p m h => (p.notify_toPort f m).trans h) l rfl)

namespace Notification

variable {n : Notification μ}

theorem Separate.newTape (h : n.Separate f port) : (portAfter f port n.beforeTape).newTape n.tapeStop =
    some (n.tape.tape (portAfter f port n.beforeTape).cache.numTapes) :=
  TrackPort.newTape_eq_some.mpr ⟨n.tape.start, n.tape.stop, n.tape.service, h.tapeStarted, rfl,
    n.tape.start_stage, n.tape.stop_stage, rfl⟩

theorem Separate.newSegment (h : n.Separate f port) :
    (portAfter f port n.beforeSegment).newSegment f n.segmentStop = some n.segment.segment := by
  have hkept : (n.segment.service.recordMaster && f n.segment.segment) = true := Bool.and_eq_true_iff.mpr h.kept
  simp only [TrackPort.newSegment, segmentStop, TrackPort.segmentTimes, n.segment.stop_stage, h.segmentStarted,
    Option.map_some, Option.bind_some]
  exact if_pos hkept

/-- Once it is completed, the segment is tracked. -/
theorem Separate.tracks (h : n.Separate f port) {l : List (PortMessage μ)} :
    Tracks (portAfter f port n.beforeSegment).cache.numSegments n.segment.segment
      (portAfter f port (n.beforeSegment ++ n.segmentStop :: l)) := by
  rw [portAfter_append_cons]
  exact ((numbered_portAfter f port n.beforeSegment).tracks h.newSegment).foldl l

/-- The seconds of the tape count as milliseconds. -/
theorem Separate.together_iff (h : n.Separate f port) (j : Nat) :
    areTogether (n.tape.tape j) n.segment.segment = true ↔
      (n.segment.stop.timestamp.toInt - n.tape.start.timestamp.toInt) * 1000 <
        n.tape.stop.duration.toInt + 3000 := by
  have hstart := h.within.1
  simp only [TapePair.tape, MetadataPair.segment] at hstart
  simp only [areTogether_iff, TapePair.tape, MetadataPair.segment]
  omega

theorem portAfter_untilSecond : portAfter f port n.untilSecond =
    n.between.foldl (TrackPort.notify f) ((portAfter f port n.before).notify f n.first) :=
  portAfter_append_cons _ _ _

theorem Separate.between_tape (h : n.Separate f port) : Run.Meets (TrackPort.notify f)
    (NoTapeOf n.segment.segment) ((portAfter f port n.before).notify f n.first) n.between :=
  portAfter_snoc (f := f) n.first ▸ h.between.mono fun _ _ hm => hm.1

theorem Separate.between_segment (h : n.Separate f port) : Run.Meets (TrackPort.notify f)
    (NoSegmentOf f (n.tape.tape 0)) ((portAfter f port n.before).notify f n.first) n.between :=
  portAfter_snoc (f := f) n.first ▸ h.between.mono fun _ _ hm => hm.2

/-- What the segment has after the second STOP it has in the end. -/
theorem Separate.found_of_second (h : n.Separate f port) {j k : Nat}
    (htracks : Tracks k n.segment.segment (portAfter f port (n.untilSecond ++ [n.second])))
    (hfound : (portAfter f port (n.untilSecond ++ [n.second])).cache.tape k = some (n.tape.tape j) ∧
      (portAfter f port (n.untilSecond ++ [n.second])).cache.tapeOffset k =
        n.segment.segment.timestamp - (n.tape.tape j).timestamp) :
    (portAfter f port n.messages).cache.tape k = some (n.tape.tape j) ∧
      (portAfter f port n.messages).cache.tapeOffset k =
        (n.segment.start.timestamp.toInt - n.tape.start.timestamp.toInt) * 1000 := by
  have hmessages : portAfter f port n.messages =
      n.after.foldl (TrackPort.notify f) (portAfter f port (n.untilSecond ++ [n.second])) := by
    rw [portAfter_snoc]
    exact portAfter_append_cons _ _ _
  have hoffset : n.segment.segment.timestamp - (n.tape.tape j).timestamp =
      (n.segment.start.timestamp.toInt - n.tape.start.timestamp.toInt) * 1000 := by
    simp only [MetadataPair.segment, TapePair.tape]
    omega
  rw [hmessages, ← hoffset]
  exact htracks.keeps hfound.1 hfound.2 h.after

/-- The tape is still cached when the segment is completed. -/
theorem Separate.tapeCached (h : n.Separate f port) (hfirst : n.tapeFirst = true)
    (hfaces : port.portFaces.length ≠ 1) (hmaster : n.tape.service.recordMaster = false) :
    TapeCached (portAfter f port n.before).cache.numTapes
        (n.tape.tape (portAfter f port n.before).cache.numTapes) n.segment.segment
        (portAfter f port n.untilSecond) ∧
      (portAfter f port n.untilSecond).cache.numTapes ≤ (portAfter f port n.before).cache.numTapes + 50 := by
  have hnew := h.newTape
  have hbetween := h.between_tape
  have hfew := h.fewTapes
  have hfaces' : (portAfter f port n.before).portFaces.length ≠ 1 := by rwa [portAfter_portFaces]
  simp only [beforeTape, first, hfirst, if_true] at hnew hbetween hfew
  rw [portAfter_snoc, TrackPort.notify_of_newTape hnew hfaces' hmaster, PortCache.addTape_numTapes] at hfew
  refine ⟨?_, by omega⟩
  rw [portAfter_untilSecond, first, hfirst, if_pos rfl]
  exact (tapeCached_notify hnew hfaces' hmaster (not_together_of_noTapeOf h.before (by simp))).foldl hbetween

theorem Separate.found_of_tapeFirst (h : n.Separate f port) (hfirst : n.tapeFirst = true)
    (hfaces : port.portFaces.length ≠ 1) (hmaster : n.tape.service.recordMaster = false)
    (htog : ∀ j, areTogether (n.tape.tape j) n.segment.segment = true) : n.Found f port := by
  obtain ⟨hcached, hle⟩ := h.tapeCached hfirst hfaces hmaster
  have hnew := h.newSegment
  simp only [beforeSegment, hfirst, if_true] at hnew
  have hcache : (portAfter f port (n.untilSecond ++ [n.second])).cache =
      (portAfter f port n.untilSecond).cache.addSegment n.segment.segment := by
    rw [portAfter_snoc, second, hfirst, if_pos rfl, TrackPort.notify_of_newSegment hnew]
  have htracks := (numbered_portAfter f port n.untilSecond).tracks hnew
  have hfound := PortCache.addSegment_found _ (hcached.firstRun_eq hle (htog _))
  rw [← hcache] at hfound
  simp only [Found, beforeTape, beforeSegment, hfirst, if_true]
  apply h.found_of_second _ hfound
  rwa [portAfter_snoc, second, hfirst, if_pos rfl]

/-- The segment is still cached when the tape is completed. -/
theorem Separate.segmentCached (h : n.Separate f port) (hfirst : n.tapeFirst = false) :
    SegmentCached (portAfter f port n.before).cache.numSegments n.segment.segment (n.tape.tape 0)
        (portAfter f port n.untilSecond) ∧
      (portAfter f port n.untilSecond).cache.numSegments ≤
        (portAfter f port n.before).cache.numSegments + 50 := by
  have hnew := h.newSegment
  have hbetween := h.between_segment
  have hfew := h.fewSegments
  simp only [beforeSegment, first, hfirst, Bool.false_eq_true, if_false] at hnew hbetween hfew
  rw [portAfter_snoc, TrackPort.notify_of_newSegment hnew, PortCache.addSegment_numSegments] at hfew
  refine ⟨?_, by omega⟩
  rw [portAfter_untilSecond, first, hfirst, if_neg Bool.false_ne_true]
  exact (segmentCached_notify hnew _).foldl hbetween

theorem Separate.found_of_segmentFirst (h : n.Separate f port) (hfirst : n.tapeFirst = false)
    (hfaces : port.portFaces.length ≠ 1) (hmaster : n.tape.service.recordMaster = false)
    (htog : ∀ j, areTogether (n.tape.tape j) n.segment.segment = true) : n.Found f port := by
  obtain ⟨hcached, hle⟩ := h.segmentCached hfirst
  have hnew := h.newTape
  have htracks := h.tracks (l := n.between)
  simp only [beforeTape, beforeSegment, hfirst, Bool.false_eq_true, if_false] at hnew htracks
  have huntil : n.untilSecond = n.before ++ n.segmentStop :: n.between := by
    rw [untilSecond, first, hfirst, if_neg Bool.false_ne_true]
  rw [← huntil] at htracks
  have hfaces' : (portAfter f port n.untilSecond).portFaces.length ≠ 1 := by rwa [portAfter_portFaces]
  have hcache : (portAfter f port (n.untilSecond ++ [n.second])).cache =
      (portAfter f port n.untilSecond).cache.addTape
        (n.tape.tape (portAfter f port n.untilSecond).cache.numTapes) := by
    rw [portAfter_snoc, second, hfirst, if_neg Bool.false_ne_true,
      TrackPort.notify_of_newTape hnew hfaces' hmaster]
  have hfound := PortCache.addTape_found _ htracks.unique
    (t := n.tape.tape (portAfter f port n.untilSecond).cache.numTapes) (hcached.mem_firstRun hle (htog 0))
  rw [← hcache] at hfound
  simp only [Found, beforeTape, beforeSegment, hfirst, Bool.false_eq_true, if_false]
  apply h.found_of_second _ hfound
  rw [portAfter_snoc]
  exact htracks.notify _

/-- **The tape that a segment finds.** -/
theorem segmentFindsTape_iff (f : OrkSegment μ → Bool) (port : Port) (n : Notification μ)
    (h : n.Separate f port) : n.Found f port ↔
      port.portFaces.length ≠ 1 ∧ n.tape.service.recordMaster = false ∧
        (n.segment.stop.timestamp.toInt - n.tape.start.timestamp.toInt) * 1000 <
          n.tape.stop.duration.toInt + 3000 := by
  constructor
  · rintro ⟨htape, -⟩
    obtain ⟨l, hl⟩ : ∃ l, n.messages = n.beforeSegment ++ n.segmentStop :: l := by
      cases hfirst : n.tapeFirst <;> simp [messages, untilSecond, beforeSegment, first, second, hfirst]
    rw [hl] at htape
    obtain ⟨htog, hfaces, hmaster⟩ := h.tracks.tape _ htape
    rw [portAfter_portFaces] at hfaces
    exact ⟨hfaces, hmaster, (h.together_iff _).mp htog⟩
  · rintro ⟨hfaces, hmaster, hless⟩
    have htog (j : Nat) := (h.together_iff j).mpr hless
    cases hfirst : n.tapeFirst with
    | true => exact h.found_of_tapeFirst hfirst hfaces hmaster htog
    | false => exact h.found_of_segmentFirst hfirst hfaces hmaster htog

/-- A tape of ten seconds and a segment that starts with it. -/
def tenSeconds (stop : Int32) : Notification Unit where
  tape := ⟨⟨.START, 1000, 0, ()⟩, ⟨.STOP, 1010, 10, ()⟩, ⟨"recservice", false⟩, rfl, rfl⟩
  segment := ⟨⟨.START, 1000, 0, ()⟩, ⟨.STOP, stop, 0, ()⟩, ⟨"ctiservice", true⟩, rfl, rfl⟩
  tapeFirst := true
  before := [.tape ⟨.START, 1000, 0, ()⟩ ⟨"recservice", false⟩,
    .metadata ⟨.START, 1000, 0, ()⟩ ⟨"ctiservice", true⟩]
  between := []
  after := []

theorem separate_tenSeconds {stop : Int32}
    (h : Within ((tenSeconds stop).tape.tape 0) (tenSeconds stop).segment.segment) :
    (tenSeconds stop).Separate (fun _ => true) ⟨1, ["recport", "ctiport"]⟩ where
  kept := ⟨rfl, rfl⟩
  within := h
  tapeStarted := rfl
  segmentStarted := rfl
  before := ⟨nofun, nofun, trivial⟩
  between := trivial
  after := trivial
  fewTapes := Nat.lt_add_of_pos_right (by decide)
  fewSegments := Nat.lt_add_of_pos_right (by decide)

theorem found_tenSeconds : (tenSeconds 1002).Found (fun _ => true) ⟨1, ["recport", "ctiport"]⟩ :=
  (segmentFindsTape_iff _ _ _ (separate_tenSeconds (by decide))).mpr ⟨by decide, rfl, by decide⟩

/-- A segment as long as its tape. -/
theorem not_found_tenSeconds :
    (tenSeconds 1010).Separate (fun _ => true) ⟨1, ["recport", "ctiport"]⟩ ∧
      ¬(tenSeconds 1010).Found (fun _ => true) ⟨1, ["recport", "ctiport"]⟩ :=
  ⟨separate_tenSeconds (by decide), fun h => absurd h.1 (by decide)⟩

end Notification

end Oreka.Orktrack
