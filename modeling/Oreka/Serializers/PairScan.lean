import Oreka.Lib.Reading
import Oreka.Serializers.UrlSerializer

/-!
# Which pairs the parser stores

The loop of `PairParser.run` from outside: the pairs it stores, one after the other, and whether
`unEscape` threw (`scan`). What it stored before an exception stays stored. `unEscapeUrlAt` is `UnEscapeUrl`
with its index, which moves past the loop's bound.
-/

namespace Oreka.Serializers

abbrev Pair := List UInt8 × List UInt8

/-- The pairs that were stored, and whether an exception ended the loop. -/
structure Scanned where
  pairs : List Pair := []
  thrown : Bool := false
  deriving DecidableEq, Repr

namespace Scanned

def cons (p : Pair) (s : Scanned) : Scanned := { s with pairs := p :: s.pairs }

@[simp] theorem cons_pairs (p : Pair) (s : Scanned) : (s.cons p).pairs = p :: s.pairs := rfl

@[simp] theorem cons_thrown (p : Pair) (s : Scanned) : (s.cons p).thrown = s.thrown := rfl

end Scanned

namespace PairParser

open KeyedMap

variable (separator : UInt8) (unEscape : List UInt8 → Option (List UInt8))

/-- The loop over the input. -/
def scan (s : PairParser) : List UInt8 → Scanned
  | [] => {}
  | character :: rest =>
    if s.state = .error then {}
    else
      let s := s.switchState separator character
      if (s.state = .start ∨ rest.isEmpty) ∧ s.key ≠ [] then
        (unEscape s.value).elim { thrown := true } fun unescapedValue =>
          (scan { s with key := [], value := [] } rest).cons (s.key, unescapedValue)
      else s.scan rest

variable {separator unEscape}

theorem switchState_map (s : PairParser) (m : PairMap) (c : UInt8) :
    switchState separator { s with map := m } c = { switchState separator s c with map := m } := by
  obtain ⟨state, key, value, map⟩ := s
  unfold switchState
  cases state with
  | start =>
    dsimp only
    split
    · rfl
    · split <;> rfl
  | key =>
    dsimp only
    split
    · rfl
    · split <;> rfl
  | value =>
    dsimp only
    split
    · rfl
    · split <;> rfl
  | error => rfl

theorem map_switchState (s : PairParser) (c : UInt8) : (switchState separator s c).map = s.map := by
  have h := congrArg PairParser.map (@switchState_map separator s s.map c)
  exact h

/-- What is stored does not depend on the map. -/
theorem scan_map (s : PairParser) (m : PairMap) (input : List UInt8) :
    scan separator unEscape { s with map := m } input = scan separator unEscape s input := by
  induction input generalizing s with
  | nil => rfl
  | cons c rest ih =>
    simp only [scan, switchState_map]
    split
    · rfl
    · split
      · cases unEscape (switchState separator s c).value with
        | none => rfl
        | some v => exact congrArg (Scanned.cons _) (ih { switchState separator s c with key := [], value := [] })
      · exact ih (switchState separator s c)

/-! ## One character -/

section
variable {s t : PairParser} {c : UInt8} {rest v : List UInt8}

theorem scan_error (h : s.state = .error) (input : List UInt8) : scan separator unEscape s input = {} := by
  cases input with
  | nil => rfl
  | cons c rest => rw [scan, if_pos h]

/-- A character behind which no pair is stored. -/
theorem scan_pass (hs : s.state ≠ .error) (ht : switchState separator s c = t)
    (h : ¬ ((t.state = .start ∨ rest.isEmpty) ∧ t.key ≠ [])) :
    scan separator unEscape s (c :: rest) = scan separator unEscape t rest := by
  subst ht
  rw [scan, if_neg hs]
  exact if_neg h

/-- A character behind which a pair is stored, or its value throws. -/
theorem scan_store (hs : s.state ≠ .error) (ht : switchState separator s c = t)
    (h : (t.state = .start ∨ rest.isEmpty) ∧ t.key ≠ []) :
    scan separator unEscape s (c :: rest) = (unEscape t.value).elim { thrown := true } fun v =>
      (scan separator unEscape ⟨t.state, [], [], t.map⟩ rest).cons (t.key, v) := by
  subst ht
  rw [scan, if_neg hs]
  exact if_pos h

theorem store_pass {last : Bool} (h : ¬ ((s.state = .start ∨ last) ∧ s.key ≠ [])) :
    s.store unEscape last = some s := by
  unfold store
  split
  · rename_i hlast
    exact if_neg fun hkey => h ⟨hlast, hkey⟩
  · rfl

theorem store_pair {last : Bool} (h : (s.state = .start ∨ last) ∧ s.key ≠ []) :
    s.store unEscape last =
      (unEscape s.value).map fun v => ⟨s.state, [], [], s.map.insertIfNew s.key v⟩ := by
  unfold store
  rw [if_pos h.1, if_pos h.2, Option.map_eq_bind]
  rfl

end

/-- **The map is that of the pairs**, where nothing throws: of a key the first one stays. -/
theorem run_map (s : PairParser) (input : List UInt8) :
    (run separator unEscape s input).map (·.map) = if (scan separator unEscape s input).thrown then none
      else some (insertAll s.map (scan separator unEscape s input).pairs) := by
  induction input generalizing s with
  | nil => rfl
  | cons c rest ih =>
    by_cases herror : s.state = .error
    · rw [scan_error herror, run, if_pos herror]
      rfl
    · obtain ⟨t, ht⟩ : ∃ t, switchState separator s c = t := ⟨_, rfl⟩
      have hmap : t.map = s.map := by rw [← ht, map_switchState]
      rw [run, if_neg herror, ht, ← hmap]
      by_cases h : (t.state = .start ∨ rest.isEmpty) ∧ t.key ≠ []
      · rw [store_pair h, scan_store herror ht h]
        cases unEscape t.value with
        | none => rfl
        | some v =>
          have hscan := @scan_map separator unEscape ⟨t.state, [], [], t.map⟩ (t.map.insertIfNew t.key v) rest
          refine (ih ⟨t.state, [], [], t.map.insertIfNew t.key v⟩).trans ?_
          rw [hscan]
          rfl
      · rw [store_pass h, scan_pass herror ht h]
        exact ih t

end PairParser

namespace UrlSerializer

/-- What `DeSerialize` stores. -/
def stored (input : List UInt8) : Scanned := PairParser.scan '&'.toUInt8 unEscapeUrl {} (trim input)

/-- The map that `DeSerialize` leaves, from what it stores. -/
theorem deSerialize_eq (input : List UInt8) : deSerialize input =
    if (stored input).thrown then none else some (KeyedMap.insertAll ∅ (stored input).pairs) :=
  PairParser.run_map {} (trim input)

/-- `in.GetAt(i)`: behind the end `at` throws, and nothing is read. -/
def getAt (s : List UInt8) (i : Nat) : Reading (Option UInt8) :=
  if i < s.length then .look i 1 s[i]? else pure none

/-- What comes after a value, if there is one; else the exception goes on. -/
def orThrow {α β : Type} (x : Reading (Option α)) (f : α → Reading (Option β)) : Reading (Option β) := do
  let a ← x
  a.elim (return none) f

/-- `UnEscapeUrl` from `i` on. Every round moves the index on, so as many rounds as there are characters
are enough. -/
def unEscapeFrom (s : List UInt8) : Nat → Nat → Reading (Option (List UInt8))
  | 0, _ => return some []
  | rounds + 1, i =>
    let put (c : UInt8) (next : Nat) := orThrow (unEscapeFrom s rounds next) fun out => return some (c :: out)
    if i < s.length then
      orThrow (getAt s i) fun character =>
        if character = '+'.toUInt8 then put ' '.toUInt8 (i + 1)
        else if character = '%'.toUInt8 then
          orThrow (getAt s (i + 1)) fun high =>
            if high = '%'.toUInt8 then put '%'.toUInt8 (i + 2)
            else orThrow (getAt s (i + 2)) fun low => put (strtol [high, low]) (i + 3)
        else put character (i + 1)
    else return some []

def unEscapeUrlAt (s : List UInt8) : Reading (Option (List UInt8)) := unEscapeFrom s s.length 0

@[simp] theorem getAt_value (s : List UInt8) (i : Nat) : (getAt s i).value = s[i]? := by
  unfold getAt
  split
  · rfl
  · rename_i h
    rw [List.getElem?_eq_none (not_lt.1 h), Reading.pure_value]

@[simp] theorem within_getAt (s : List UInt8) (i : Nat) : (getAt s i).Within s.length := by
  unfold getAt
  split
  · rename_i h
    exact (Reading.within_look (by decide)).2 h
  · exact Reading.within_pure _ _

theorem orThrow_value {α β : Type} (x : Reading (Option α)) (f : α → Reading (Option β)) :
    (orThrow x f).value = x.value.bind fun a => (f a).value := by
  unfold orThrow
  rw [Reading.bind_value]
  cases x.value <;> rfl

theorem within_orThrow {α β : Type} {n : Nat} {x : Reading (Option α)} {f : α → Reading (Option β)}
    (hx : x.Within n) (hf : ∀ a, (f a).Within n) : (orThrow x f).Within n := by
  unfold orThrow
  refine Reading.within_bind.2 ⟨hx, ?_⟩
  cases x.value with
  | none => exact Reading.within_pure _ _
  | some a => exact hf a

/-- Nothing behind the string is read, whatever escapes it ends with. -/
theorem within_unEscapeFrom (s : List UInt8) : ∀ rounds i, (unEscapeFrom s rounds i).Within s.length
  | 0, _ => Reading.within_pure _ _
  | rounds + 1, i => by
    have hput (c : UInt8) (next : Nat) :
        (orThrow (unEscapeFrom s rounds next) fun out => return some (c :: out)).Within s.length :=
      within_orThrow (within_unEscapeFrom s rounds next) fun _ => Reading.within_pure _ _
    unfold unEscapeFrom
    refine Reading.within_ite.2 ⟨fun _ => within_orThrow (within_getAt s i) fun c => ?_,
      fun _ => Reading.within_pure _ _⟩
    refine Reading.within_ite.2 ⟨fun _ => hput _ _, fun _ => Reading.within_ite.2 ⟨fun _ => ?_, fun _ => hput _ _⟩⟩
    refine within_orThrow (within_getAt s (i + 1)) fun high => ?_
    refine Reading.within_ite.2 ⟨fun _ => hput _ _, fun _ => ?_⟩
    exact within_orThrow (within_getAt s (i + 2)) fun low => hput _ _

/-- Behind the index, the string is unescaped as a whole. -/
theorem unEscapeFrom_value (s : List UInt8) : ∀ rounds i, s.length - i ≤ rounds →
    (unEscapeFrom s rounds i).value = unEscapeUrl (s.drop i)
  | 0, i, h => by
    rw [List.drop_of_length_le (by omega)]
    rfl
  | rounds + 1, i, h => by
    have hput (c : UInt8) {next : Nat} (hnext : i < next) :
        (orThrow (unEscapeFrom s rounds next) fun out => return some (c :: out)).value =
          (unEscapeUrl (s.drop next)).map (c :: ·) := by
      rw [orThrow_value, unEscapeFrom_value s rounds next (by omega), Option.map_eq_bind]
      rfl
    unfold unEscapeFrom
    dsimp only
    split
    case isFalse hend =>
      rw [List.drop_of_length_le (not_lt.1 hend)]
      rfl
    case isTrue hlt =>
      rw [orThrow_value, getAt_value, List.getElem?_eq_getElem hlt, Option.bind_some,
        List.drop_eq_getElem_cons hlt, unEscapeUrl.eq_def]
      dsimp only
      split
      · exact hput _ (by omega)
      · split
        · rw [orThrow_value, getAt_value]
          rcases Nat.lt_or_ge (i + 1) s.length with hlt' | hge'
          · rw [List.getElem?_eq_getElem hlt', Option.bind_some, List.drop_eq_getElem_cons hlt']
            dsimp only
            split
            · exact hput _ (by omega)
            · rw [orThrow_value, getAt_value]
              rcases Nat.lt_or_ge (i + 2) s.length with hlt'' | hge''
              · rw [List.getElem?_eq_getElem hlt'', Option.bind_some, List.drop_eq_getElem_cons hlt'']
                exact hput _ (by omega)
              · rw [List.getElem?_eq_none hge'', List.drop_of_length_le hge'']
                rfl
          · rw [List.getElem?_eq_none hge', List.drop_of_length_le hge']
            rfl
        · exact hput _ (by omega)

theorem unEscapeUrlAt_value (s : List UInt8) : (unEscapeUrlAt s).value = unEscapeUrl s :=
  unEscapeFrom_value s _ 0 (by omega)

theorem within_unEscapeUrlAt (s : List UInt8) : (unEscapeUrlAt s).Within s.length := within_unEscapeFrom s _ 0

end UrlSerializer

end Oreka.Serializers
