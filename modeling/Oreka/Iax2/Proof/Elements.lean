import Mathlib.Data.List.Lemmas
import Oreka.Iax2.InformationElements
import Oreka.Lib.Memory

/-!
# What is found among the information elements

Bytes that are a list of elements are parsed, and no others (`loop_elements`, `elements_of_loop`); each
string is the value of the last element of its type, with a NUL behind it. The NUL behind the last
element is written in any case: of elements that fill the buffer, behind it (`parsesIes_iff`).
-/

namespace Oreka.Iax2

open IesWalk

/-- An element as sent. -/
structure Element where
  type : UInt8
  value : List UInt8
  fits : value.length < 256

def Element.bytes (e : Element) : List UInt8 := e.type :: UInt8.ofNat e.value.length :: e.value

/-- Elements one behind the other. -/
def encode (es : List Element) : List UInt8 := es.flatMap Element.bytes

/-- The value of the last element of a type. -/
def lastValue (type : UInt8) (es : List Element) : Option (List UInt8) :=
  ((es.filter fun e => e.type = type).getLast?).map (·.value)

/-- The strings among the elements. -/
inductive StringField
  | callingName | callee | caller | username | challenge

namespace StringField

def type : StringField → UInt8
  | callingName => IAX2_IE_CALLING_NAME
  | callee => IAX2_IE_CALLED_NUMBER
  | caller => IAX2_IE_CALLING_NUMBER
  | username => IAX2_IE_USERNAME
  | challenge => IAX2_IE_CHALLENGE

def pointer : StringField → Iax2Ies → Option Nat
  | callingName, ies => ies.callingName
  | callee, ies => ies.callee
  | caller, ies => ies.caller
  | username, ies => ies.username
  | challenge, ies => ies.challenge

end StringField

@[simp] theorem Element.length_bytes (e : Element) : e.bytes.length = e.value.length + 2 := rfl

@[simp] theorem encode_cons (e : Element) (es : List Element) : encode (e :: es) = e.bytes ++ encode es := rfl

theorem lastValue_cons (t : UInt8) (e : Element) (es : List Element) :
    lastValue t (e :: es) = (lastValue t es).or (if e.type = t then some e.value else none) := by
  unfold lastValue
  by_cases h : e.type = t
  · rw [List.filter_cons_of_pos (by simpa using h), List.getLast?_cons, if_pos h]
    cases (es.filter fun e => e.type = t).getLast? <;> rfl
  · rw [List.filter_cons_of_neg (by simpa using h), if_neg h, Option.or_none]

/-! ## One element -/

section
variable {w : IesWalk} {ie : UInt8} {len data : Nat}

theorem store_mem (w : IesWalk) (ie : UInt8) (len data : Nat) : (w.store ie len data).mem = w.mem := by
  unfold store
  dsimp only
  repeat' split
  all_goals rfl

/-- A string is found where its element is, and stays when another is found. -/
theorem pointer_store (f : StringField) (w : IesWalk) (ie : UInt8) (len data : Nat) :
    f.pointer (w.store ie len data).ies = if ie = f.type then some (data + 2) else f.pointer w.ies := by
  unfold store
  dsimp only
  cases f
  all_goals
    unfold StringField.type StringField.pointer
    dsimp only
    grind

theorem touched_store {n : Nat} (hw : ∀ s ∈ w.touched, s.stop ≤ n) (hn : data + (len + 2) ≤ n) :
    ∀ s ∈ (w.store ie len data).touched, s.stop ≤ n := by
  have hread : ∀ s ∈ w.touched ++ (w.readNumber len (data + 2)).2, s.stop ≤ n := by
    refine List.forall_mem_append.2 ⟨hw, ?_⟩
    unfold readNumber
    split
    · refine List.forall_mem_singleton.2 ?_
      show data + 2 + 4 ≤ n
      omega
    · simp
  unfold store
  dsimp only
  repeat' split
  all_goals first | exact hw | exact hread

theorem round_mem (w : IesWalk) (data : Nat) : (w.round data).mem = Function.update w.mem data 0 := by
  unfold IesWalk.round clear
  rw [store_mem]

theorem pointer_round (f : StringField) (w : IesWalk) (data : Nat) :
    f.pointer (w.round data).ies = if w.mem data = f.type then some (data + 2) else f.pointer w.ies :=
  pointer_store ..

theorem touched_clear {n : Nat} (hw : ∀ s ∈ w.touched, s.stop ≤ n) (hn : data + 1 ≤ n) :
    ∀ s ∈ (w.clear data).touched, s.stop ≤ n :=
  List.forall_mem_append.2 ⟨hw, List.forall_mem_singleton.2 hn⟩

end

/-- The element whose type is at `p`. -/
def elementAt (m : Nat → UInt8) (p : Nat) : Element where
  type := m p
  value := Memory.read m (p + 2) (m (p + 1)).toNat
  fits := by simpa using (m (p + 1)).toNat_lt

theorem read_elementAt (m : Nat → UInt8) (p : Nat) :
    Memory.read m p ((m (p + 1)).toNat + 2) = (elementAt m p).bytes := by
  rw [Nat.add_comm, Memory.read_add, Element.bytes, elementAt, Memory.length_read, UInt8.ofNat_toNat]
  rfl

/-- Where an element is read, its header is. -/
theorem header_of_read {m : Nat → UInt8} {p : Nat} {e : Element}
    (h : Memory.read m p e.bytes.length = e.bytes) :
    m p = e.type ∧ (m (p + 1)).toNat = e.value.length ∧ Memory.read m (p + 2) e.value.length = e.value := by
  rw [Element.length_bytes, Nat.add_comm, Memory.read_add] at h
  obtain ⟨htype, h⟩ := List.cons.inj h
  obtain ⟨hlen, hvalue⟩ := List.cons.inj h
  refine ⟨htype, ?_, hvalue⟩
  have hlen : m (p + 1) = UInt8.ofNat e.value.length := hlen
  rw [hlen]
  exact UInt8.toNat_ofNat_of_lt' e.fits

/-! ## The loop -/

/-- What the loop reads and writes. -/
theorem loop_touched {n : Nat} : ∀ (rounds : Nat) {w : IesWalk} {data datalen : Nat},
    (∀ s ∈ w.touched, s.stop ≤ n) → data + datalen ≤ n →
    ∀ s ∈ (loop rounds w data datalen).1.touched, s.stop ≤ n
  | 0, _, _, _, hw, _ => hw
  | rounds + 1, w, data, datalen, hw, hn => by
    unfold loop
    split
    · rename_i htwo
      have hheader : ∀ s ∈ w.touched ++ [⟨data, data + 2⟩], s.stop ≤ n :=
        List.forall_mem_append.2 ⟨hw, List.forall_mem_singleton.2 (show data + 2 ≤ n by omega)⟩
      dsimp only
      split
      · exact hheader
      · rename_i hlen
        have hend : data + ((w.mem (data + 1)).toNat + 2) ≤ n := by omega
        exact loop_touched rounds (touched_clear (touched_store hheader hend) (by omega)) (by omega)
    · exact hw

/-- Where the loop ends. -/
theorem loop_end : ∀ (rounds : Nat) {w w' : IesWalk} {data datalen d left : Nat},
    loop rounds w data datalen = (w', some (d, left)) → d + left = data + datalen
  | 0, w, w', data, datalen, d, left, h => by
    cases h
    rfl
  | rounds + 1, w, w', data, datalen, d, left, h => by
    unfold loop at h
    split at h
    · dsimp only at h
      split at h
      · cases h
      · have hend := loop_end rounds h
        omega
    · cases h
      rfl

/-- **What is parsed is a list of elements.** -/
theorem elements_of_loop : ∀ (rounds : Nat) {w w' : IesWalk} {data datalen d : Nat}, datalen ≤ rounds →
    loop rounds w data datalen = (w', some (d, 0)) → ∃ es, Memory.read w.mem data datalen = encode es
  | 0, w, w', data, datalen, d, hr, h => by
    cases h
    exact ⟨[], rfl⟩
  | rounds + 1, w, w', data, datalen, d, hr, h => by
    unfold loop at h
    split at h
    · rename_i htwo
      dsimp only at h
      split at h
      · cases h
      · rename_i hlen
        obtain ⟨es, hes⟩ := elements_of_loop rounds (by omega) h
        rw [round_mem] at hes
        refine ⟨elementAt w.mem data :: es, ?_⟩
        have hsplit : datalen = (w.mem (data + 1)).toNat + 2 + (datalen - ((w.mem (data + 1)).toNat + 2)) := by
          omega
        rw [encode_cons, ← hes, ← read_elementAt]
        conv_lhs => rw [hsplit, Memory.read_add]
        refine congrArg _ (Memory.read_congr fun i _ => (Function.update_of_ne ?_ _ _).symm)
        omega
    · cases h
      exact ⟨[], rfl⟩

/-- What is left of elements that were parsed, with the loop's end behind them. -/
structure Parsed (w w' : IesWalk) (base : Nat) (es : List Element) : Prop where
  /-- Nothing else has changed. -/
  other : ∀ i, i < base ∨ base + (encode es).length ≤ i → w'.mem i = w.mem i
  /-- The first type is gone. -/
  first : es ≠ [] → w'.mem base = 0
  missing : ∀ f : StringField, lastValue f.type es = none → f.pointer w'.ies = f.pointer w.ies
  found : ∀ (f : StringField) v, lastValue f.type es = some v → ∃ p, f.pointer w'.ies = some p ∧
    p + v.length ≤ base + (encode es).length ∧ Memory.read w'.mem p v.length = v ∧
      (p + v.length < base + (encode es).length → w'.mem (p + v.length) = 0)

/-- **A list of elements is parsed** to its end. -/
theorem loop_elements (es : List Element) : ∀ (rounds : Nat) {w : IesWalk} {base : Nat},
    (encode es).length ≤ rounds → Memory.read w.mem base (encode es).length = encode es →
    ∃ w', loop rounds w base (encode es).length = (w', some (base + (encode es).length, 0)) ∧
      Parsed w w' base es := by
  induction es with
  | nil =>
    intro rounds w base _ _
    have hend : loop rounds w base 0 = (w, some (base, 0)) := by
      cases rounds <;> rfl
    exact ⟨w, hend, fun _ _ => rfl, fun h => absurd rfl h, fun _ _ => rfl, fun _ _ h => by cases h⟩
  | cons e es ih =>
    intro rounds w base hr hread
    obtain ⟨rounds, rfl⟩ : ∃ n, rounds = n + 1 := Nat.exists_eq_succ_of_ne_zero (by
      have h := hr
      simp at h
      omega)
    have hlength : (encode (e :: es)).length = e.value.length + 2 + (encode es).length := by simp
    rw [encode_cons, List.length_append, Memory.read_add] at hread
    obtain ⟨helement, hrest⟩ := List.append_inj hread (by simp)
    obtain ⟨htype, hlen, hvalue⟩ := header_of_read helement
    rw [Element.length_bytes] at hrest
    -- the round of the first element
    obtain ⟨w₁, hw₁⟩ : ∃ w₁, w₁ = IesWalk.round { w with touched := w.touched ++ [⟨base, base + 2⟩] } base :=
      ⟨_, rfl⟩
    have hmem₁ : w₁.mem = Function.update w.mem base 0 := by rw [hw₁, round_mem]
    have hpointer₁ (f : StringField) :
        f.pointer w₁.ies = if e.type = f.type then some (base + 2) else f.pointer w.ies := by
      rw [hw₁, pointer_round, ← htype]
    have hread₁ : Memory.read w₁.mem (base + (e.value.length + 2)) (encode es).length = encode es := by
      refine (Memory.read_congr fun i _ => ?_).trans hrest
      rw [hmem₁, Function.update_of_ne (by omega)]
    obtain ⟨w', hloop, hparsed⟩ := ih rounds (by omega) hread₁
    refine ⟨w', ?_, ?_⟩
    · unfold loop
      rw [if_pos (by omega)]
      dsimp only
      rw [hlen, if_neg (by omega), ← hw₁, hlength, Nat.add_sub_cancel_left, hloop, Nat.add_assoc base]
    · have hbase : w'.mem base = 0 := by
        rw [hparsed.other base (.inl (by omega)), hmem₁, Function.update_self]
      refine ⟨fun i hi => ?_, fun _ => hbase, fun f hf => ?_, fun f v hf => ?_⟩
      · rw [hparsed.other i (by omega), hmem₁, Function.update_of_ne (by omega)]
      · rw [lastValue_cons] at hf
        obtain ⟨hlater, hhere⟩ := Option.or_eq_none_iff.1 hf
        rw [hparsed.missing f hlater, hpointer₁, if_neg]
        intro hte
        rw [if_pos hte] at hhere
        cases hhere
      · rw [lastValue_cons] at hf
        cases hlater : lastValue f.type es with
        | some v' =>
          rw [hlater] at hf
          obtain rfl : v' = v := Option.some.inj hf
          obtain ⟨p, hp, hend, hv, hnul⟩ := hparsed.found f v' hlater
          exact ⟨p, hp, by omega, hv, fun h => hnul (by omega)⟩
        | none =>
          rw [hlater, Option.none_or] at hf
          by_cases hte : e.type = f.type
          · rw [if_pos hte, Option.some.injEq] at hf
            subst hf
            refine ⟨base + 2, ?_, by omega, ?_, fun h => ?_⟩
            · rw [hparsed.missing f hlater, hpointer₁, if_pos hte]
            · have hkept : Memory.read w'.mem (base + 2) e.value.length =
                  Memory.read w.mem (base + 2) e.value.length := by
                refine Memory.read_congr fun i hi => ?_
                rw [hparsed.other _ (.inl (by omega)), hmem₁, Function.update_of_ne (by omega)]
              exact hkept.trans hvalue
            · have hnext : es ≠ [] := by
                rintro rfl
                have hnil : (encode []).length = 0 := rfl
                omega
              have hfirst := hparsed.first hnext
              rw [← hfirst]
              congr 1
              omega
          · rw [if_neg hte] at hf
            cases hf

/-! ## The parser -/

/-- What is asked of the parser for the bytes that were staged: it stays in the buffer, takes elements
and nothing else, and finds the last value of each type. -/
structure ParsesIes (bytes : List UInt8) : Prop where
  within : ∀ mem, Memory.read mem 0 bytes.length = bytes →
    ∀ s ∈ (parseIax2Ies mem bytes.length).1.touched, s.stop ≤ MAX_IES_LENGTH
  success : ∀ mem, Memory.read mem 0 bytes.length = bytes →
    ((parseIax2Ies mem bytes.length).2 = true ↔ ∃ es, bytes = encode es)
  strings : ∀ mem, Memory.read mem 0 bytes.length = bytes → ∀ es, bytes = encode es → ∀ f : StringField,
    Option.Rel (fun p v => Memory.IsCString (parseIax2Ies mem bytes.length).1.mem p (v.takeWhile (· ≠ 0)))
      (f.pointer (parseIax2Ies mem bytes.length).1.ies) (lastValue f.type es)

theorem parse_success {bytes : List UInt8} {mem : Nat → UInt8} (hmem : Memory.read mem 0 bytes.length = bytes) :
    (parseIax2Ies mem bytes.length).2 = true ↔ ∃ es, bytes = encode es := by
  constructor
  · intro h
    unfold parseIax2Ies at h
    split at h
    · cases h
    · rename_i w data left hloop
      obtain rfl : left = 0 := by simpa using h
      obtain ⟨es, hes⟩ := elements_of_loop _ (Nat.le_refl _) hloop
      exact ⟨es, hmem.symm.trans hes⟩
  · rintro ⟨es, rfl⟩
    obtain ⟨w', hloop, -⟩ := loop_elements es (encode es).length (w := { mem }) (Nat.le_refl _) hmem
    unfold parseIax2Ies
    rw [hloop]
    rfl

/-- The last NUL is behind the bytes only if they were taken to their end. -/
theorem parse_touched {mem : Nat → UInt8} {datalen n : Nat} (hn : datalen ≤ n)
    (hfull : ¬ (datalen = n ∧ ∃ es, Memory.read mem 0 datalen = encode es)) :
    ∀ s ∈ (parseIax2Ies mem datalen).1.touched, s.stop ≤ n := by
  have hstart : ∀ s ∈ ({ mem } : IesWalk).touched, s.stop ≤ n := fun s hs => by cases hs
  have htouched := loop_touched datalen hstart (show 0 + datalen ≤ n by omega)
  unfold parseIax2Ies
  split
  · rename_i w hloop
    rwa [hloop] at htouched
  · rename_i w data left hloop
    rw [hloop] at htouched
    have hend := loop_end _ hloop
    refine touched_clear htouched (Nat.lt_of_not_le fun hle => hfull ⟨by omega, ?_⟩)
    obtain rfl : left = 0 := by omega
    exact elements_of_loop _ (Nat.le_refl _) hloop

theorem parse_strings {mem : Nat → UInt8} {es : List Element}
    (hmem : Memory.read mem 0 (encode es).length = encode es) (f : StringField) :
    Option.Rel (fun p v => Memory.IsCString (parseIax2Ies mem (encode es).length).1.mem p (v.takeWhile (· ≠ 0)))
      (f.pointer (parseIax2Ies mem (encode es).length).1.ies) (lastValue f.type es) := by
  obtain ⟨w', hloop, hparsed⟩ := loop_elements es (encode es).length (w := { mem }) (Nat.le_refl _) hmem
  have hparse : (parseIax2Ies mem (encode es).length).1 = w'.clear (0 + (encode es).length) := by
    unfold parseIax2Ies
    rw [hloop]
  have hpointer : f.pointer (w'.clear (0 + (encode es).length)).ies = f.pointer w'.ies := rfl
  rw [hparse, hpointer]
  cases hlast : lastValue f.type es with
  | none =>
    rw [hparsed.missing f hlast]
    have hnew : f.pointer ({ mem } : IesWalk).ies = none := by cases f <;> rfl
    rw [hnew]
    exact .none
  | some v =>
    obtain ⟨p, hp, hend, hv, hnul⟩ := hparsed.found f v hlast
    rw [hp]
    refine .some (Memory.isCString_takeWhile ?_ ?_)
    -- the last NUL is behind the value
    · refine (Memory.read_congr fun i hi => ?_).trans hv
      exact Function.update_of_ne (by omega) _ _
    · rcases Nat.lt_or_eq_of_le hend with hlt | heq
      · exact (Function.update_of_ne (by omega) _ _).trans (hnul hlt)
      · rw [heq]
        exact Function.update_self ..

/-- Elements that fill the buffer: the last NUL is behind it. -/
theorem touched_full {mem : Nat → UInt8} {es : List Element}
    (hmem : Memory.read mem 0 (encode es).length = encode es) :
    ⟨(encode es).length, (encode es).length + 1⟩ ∈ (parseIax2Ies mem (encode es).length).1.touched := by
  obtain ⟨w', hloop, -⟩ := loop_elements es (encode es).length (w := { mem }) (Nat.le_refl _) hmem
  unfold parseIax2Ies
  rw [hloop, Nat.zero_add]
  exact List.mem_append_right _ (List.mem_singleton_self _)

/-- **The parser does what is asked of it** unless elements fill the staging buffer to its last byte. -/
theorem parsesIes_iff {bytes : List UInt8} (h : bytes.length ≤ MAX_IES_LENGTH) :
    ParsesIes bytes ↔ ¬ (bytes.length = MAX_IES_LENGTH ∧ ∃ es, bytes = encode es) := by
  constructor
  · intro hparses hfull
    obtain ⟨hlength, es, rfl⟩ := hfull
    have hmem : Memory.read (Memory.put (fun _ => 0) 0 (encode es)) 0 (encode es).length = encode es :=
      Memory.read_put ..
    have hstop := hparses.within _ hmem _ (touched_full hmem)
    dsimp only at hstop
    omega
  · intro hfull
    refine ⟨fun mem hmem => parse_touched h ?_, fun mem hmem => parse_success hmem, fun mem hmem es hes f => ?_⟩
    · rwa [hmem]
    · subst hes
      exact parse_strings hmem f

/-- A called number, an element without a value, and the called number again. -/
def sampleElements : List Element :=
  [⟨IAX2_IE_CALLED_NUMBER, [49, 50], by decide⟩, ⟨IAX2_IE_USERNAME, [], by decide⟩,
    ⟨IAX2_IE_CALLED_NUMBER, [51], by decide⟩]

theorem parsesIes_sampleElements :
    (encode sampleElements).length ≤ MAX_IES_LENGTH ∧ ParsesIes (encode sampleElements) :=
  ⟨by decide, (parsesIes_iff (by decide)).2 fun h => absurd h.1 (by decide)⟩

theorem length_encode_replicate (n : Nat) (e : Element) :
    (encode (List.replicate n e)).length = n * (e.value.length + 2) := by
  induction n with
  | zero => rw [List.replicate_zero, Nat.zero_mul]; rfl
  | succ n ih =>
    rw [List.replicate_succ, encode_cons, List.length_append, ih, Element.length_bytes, Nat.succ_mul,
      Nat.add_comm]

/-- 512 elements without a value fill the buffer. -/
def fullBuffer : List Element := List.replicate 512 ⟨IAX2_IE_USERNAME, [], by decide⟩

theorem not_parsesIes : (encode fullBuffer).length = MAX_IES_LENGTH ∧ ¬ ParsesIes (encode fullBuffer) := by
  have hlength : (encode fullBuffer).length = MAX_IES_LENGTH := length_encode_replicate 512 _
  refine ⟨hlength, fun hparses => ?_⟩
  have hmem : Memory.read (Memory.put (fun _ => 0) 0 (encode fullBuffer)) 0 (encode fullBuffer).length =
      encode fullBuffer := Memory.read_put ..
  have hstop := hparses.within _ hmem _ (touched_full hmem)
  dsimp only at hstop
  omega

end Oreka.Iax2
