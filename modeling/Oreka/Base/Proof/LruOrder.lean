import Oreka.Base.OrkLruMap
import Oreka.Lib.Recency
import Oreka.Lib.Run

/-!
# The list and the map of an `OrekaLruMap`

`OrekaLruMap.Inv`: the nodes of the list and the entries of the map are the same, in the order of the
last insertions, and no more than the capacity. Each operation removes entries (`Inv.erase`) or adds
a new one behind the others (`Inv.pushBack`). An insertion of a present key evicts the oldest entry
all the same where the map is full, exactly unless that entry is its own.
-/

open Std

namespace Oreka.OrekaLruMap

open Recency

variable {K V : Type*} [Ord K]

/-- The keys of the list, oldest first. -/
def keys (s : OrekaLruMap K V) : List K := s.list.map (·.key)

/-- The keys that a run inserted, in the order it did. -/
def insertions (ops : List (LruOp K V)) : List K :=
  ops.filterMap fun
    | .insertPair key _ _ => some key
    | _ => none

/-- What the map is to be after `ops`. -/
structure Represents [DecidableEq K] (ops : List (LruOp K V)) (s : OrekaLruMap K V) : Prop where
  sameKeys : ∀ k, k ∈ s.map ↔ k ∈ s.keys
  once : s.keys.Nodup
  iterators : ∀ k v it, s.find k = some (v, it) → ∃ node ∈ s.list, node.id = it ∧ node.key = k
  ids : (s.list.map (·.id)).Nodup
  bounded : s.map.size ≤ s.size
  order : s.keys.Sublist (recency (insertions ops))

/-- Inserting a present key keeps all keys. -/
def EvictsNoOther (s : OrekaLruMap K V) : LruOp K V → Prop
  | .insertPair key val now => key ∈ s.map → ∀ k ∈ s.map, k ∈ (s.insertPair key val now).map
  | _ => True

/-- The condition on an insertion: a present key finds room, or is the oldest itself. -/
def FindsRoom (s : OrekaLruMap K V) : LruOp K V → Prop
  | .insertPair key _ _ => key ∈ s.map → s.map.size < s.size ∨ s.keys.head? = some key
  | _ => True

/-- The claim on a run: each state represents the operations before it, and no insertion of a present
key evicts another. -/
def Represented [DecidableEq K] (size : Nat) (ops : List (LruOp K V)) : Prop :=
  (∀ l, l <+: ops → Represents l (l.foldl step (new size))) ∧
    Run.Meets step EvictsNoOther (new size) ops

/-! ## The invariant -/

/-- The invariant after a history of insertions. -/
structure Inv [DecidableEq K] (hist : List K) (s : OrekaLruMap K V) : Prop where
  order : s.keys.Sublist (recency hist)
  ids : s.list.Pairwise fun a b => a.id < b.id
  fresh : ∀ node ∈ s.list, node.id < s.nextNode
  entries : ∀ k it, (∃ v, s.map[k]? = some (v, it)) ↔ ∃ node ∈ s.list, node.key = k ∧ node.id = it
  count : s.map.size = s.list.length
  bounded : s.map.size ≤ s.size
  positive : 1 ≤ s.size

variable [TransOrd K] [LawfulEqOrd K] [DecidableEq K] {hist : List K} {s : OrekaLruMap K V}

omit [LawfulEqOrd K] in
theorem inv_new {size : Nat} (hsize : 1 ≤ size) : Inv [] (new size : OrekaLruMap K V) where
  order := List.nil_sublist _
  ids := List.Pairwise.nil
  fresh := by simp [new]
  entries := by simp [new]
  count := by simp [new]
  bounded := by simp [new]
  positive := hsize

omit [TransOrd K] [LawfulEqOrd K] in
theorem Inv.nodup_keys (h : Inv hist s) : s.keys.Nodup := h.order.nodup (nodup_recency hist)

omit [TransOrd K] [LawfulEqOrd K] in
theorem Inv.nodup_ids (h : Inv hist s) : (s.list.map (·.id)).Nodup := by
  rw [List.Nodup, List.pairwise_map]
  exact h.ids.imp Nat.ne_of_lt

omit [LawfulEqOrd K] in
theorem Inv.mem_map (h : Inv hist s) (k : K) : k ∈ s.map ↔ k ∈ s.keys := by
  rw [TreeMap.mem_iff_isSome_getElem?, Option.isSome_iff_exists, keys, List.mem_map]
  constructor
  · rintro ⟨⟨v, it⟩, hv⟩
    obtain ⟨node, hnode, hkey, -⟩ := (h.entries k it).1 ⟨v, hv⟩
    exact ⟨node, hnode, hkey⟩
  · rintro ⟨node, hnode, hkey⟩
    obtain ⟨v, hv⟩ := (h.entries k node.id).2 ⟨node, hnode, hkey, rfl⟩
    exact ⟨(v, node.id), hv⟩

omit [LawfulEqOrd K] in
theorem Inv.represents {ops : List (LruOp K V)} (h : Inv (insertions ops) s) : Represents ops s where
  sameKeys := h.mem_map
  once := h.nodup_keys
  iterators k v it hv := by
    obtain ⟨node, hnode, hkey, hid⟩ := (h.entries k it).1 ⟨v, hv⟩
    exact ⟨node, hnode, hid, hkey⟩
  ids := h.nodup_ids
  bounded := h.bounded
  order := h.order

omit [TransOrd K] [LawfulEqOrd K] in
/-- Nodes of one key are one. -/
theorem Inv.node_eq (h : Inv hist s) {a b : LruNode K} (ha : a ∈ s.list) (hb : b ∈ s.list)
    (hkey : a.key = b.key) : a = b :=
  List.inj_on_of_nodup_map h.nodup_keys ha hb hkey

omit [TransOrd K] [LawfulEqOrd K] in
/-- An iterator points at one node. -/
theorem Inv.node_eq_of_id (h : Inv hist s) {a b : LruNode K} (ha : a ∈ s.list) (hb : b ∈ s.list)
    (hid : a.id = b.id) : a = b :=
  List.inj_on_of_nodup_map h.nodup_ids ha hb hid

/-! ## The operations -/

omit [Ord K] [TransOrd K] [LawfulEqOrd K] [DecidableEq K] in
/-- Erasing at an iterator takes one node out. -/
theorem eraseNode_append {l₁ l₂ : List (LruNode K)} {node : LruNode K}
    (h : (l₁ ++ node :: l₂).Pairwise fun a b => a.id < b.id) :
    eraseNode (l₁ ++ node :: l₂) node.id = l₁ ++ l₂ := by
  obtain ⟨-, h₂, h₁⟩ := List.pairwise_append.1 h
  have hl₁ : l₁.filter (fun x => x.id ≠ node.id) = l₁ := by
    rw [List.filter_eq_self]
    intro x hx
    have := h₁ x hx node List.mem_cons_self
    simp only [ne_eq, decide_eq_true_eq]
    omega
  have hl₂ : l₂.filter (fun x => x.id ≠ node.id) = l₂ := by
    rw [List.filter_eq_self]
    intro x hx
    have := (List.pairwise_cons.1 h₂).1 x hx
    simp only [ne_eq, decide_eq_true_eq]
    omega
  simp only [eraseNode, List.filter_append, List.filter_cons, hl₁, hl₂, ne_eq, not_true_eq_false,
    decide_false, Bool.false_eq_true, if_false]

/-- An entry goes from the list and from the map. -/
theorem Inv.erase (h : Inv hist s) {node : LruNode K} (hnode : node ∈ s.list) :
    Inv hist (s.eraseEntry node.key node.id) := by
  obtain ⟨l₁, l₂, hl⟩ := List.append_of_mem hnode
  have hids := h.ids
  rw [hl] at hids
  have hlist : eraseNode s.list node.id = l₁ ++ l₂ := by rw [hl, eraseNode_append hids]
  have hsub : (l₁ ++ l₂).Sublist s.list := by
    rw [hl]
    exact (List.sublist_cons_self node l₂).append_left l₁
  have hmem : node.key ∈ s.map := (h.mem_map _).2 (List.mem_map_of_mem hnode)
  have hcount := h.count
  rw [hl] at hcount
  simp only [List.length_append, List.length_cons] at hcount
  have hsize : (s.map.erase node.key).size = (l₁ ++ l₂).length := by
    rw [TreeMap.size_erase, if_pos (TreeMap.contains_iff_mem.2 hmem), List.length_append]
    omega
  refine ⟨?_, ?_, ?_, ?_, ?_, ?_, h.positive⟩
  · show ((eraseNode s.list node.id).map (·.key)).Sublist _
    rw [hlist]
    exact (hsub.map _).trans h.order
  · show (eraseNode s.list node.id).Pairwise _
    rw [hlist]
    exact h.ids.sublist hsub
  · show ∀ x ∈ eraseNode s.list node.id, _
    rw [hlist]
    exact fun x hx => h.fresh x (hsub.subset hx)
  · intro k it
    show (∃ v, (s.map.erase node.key)[k]? = some (v, it)) ↔
      ∃ x ∈ eraseNode s.list node.id, x.key = k ∧ x.id = it
    by_cases hk : node.key = k
    · subst hk
      simp only [KeyedMap.getElem?_erase, if_true, reduceCtorEq, exists_false, false_iff]
      rintro ⟨x, hx, hkey, -⟩
      obtain ⟨hx, hid⟩ := List.mem_filter.1 hx
      obtain rfl := h.node_eq hx hnode hkey
      simp at hid
    · simp only [KeyedMap.getElem?_erase, hk, if_false, h.entries k it, eraseNode, List.mem_filter]
      constructor
      · rintro ⟨x, hx, hkey, hid⟩
        refine ⟨x, ⟨hx, ?_⟩, hkey, hid⟩
        have hne : x.id ≠ node.id := by
          intro he
          obtain rfl := h.node_eq_of_id hx hnode he
          exact hk hkey
        simp [hne]
      · rintro ⟨x, ⟨hx, -⟩, hkey, hid⟩
        exact ⟨x, hx, hkey, hid⟩
  · show (s.map.erase node.key).size = (eraseNode s.list node.id).length
    rw [hlist, hsize]
  · show (s.map.erase node.key).size ≤ s.size
    have := h.bounded
    have := h.count
    have := hsub.length_le
    omega

/-- A new entry behind the others. -/
theorem Inv.pushBack (h : Inv hist s) {key : K} (hkey : key ∉ s.keys) (hroom : s.map.size < s.size)
    (val : V) (now : Nat) : Inv (hist ++ [key]) (s.pushBack key val now) := by
  let node : LruNode K := ⟨s.nextNode, key, now⟩
  have hnone : s.map[key]? = none := by
    rw [← Option.not_isSome_iff_eq_none, ← TreeMap.mem_iff_isSome_getElem?, h.mem_map]
    exact hkey
  have hnot : key ∉ s.map := fun hk => hkey ((h.mem_map key).1 hk)
  have hsize : (s.map.insertIfNew key (val, s.nextNode)).size = s.map.size + 1 := by
    rw [TreeMap.size_insertIfNew, if_neg hnot]
  refine ⟨?_, ?_, ?_, ?_, ?_, ?_, h.positive⟩
  · show ((s.list ++ [node]).map (·.key)).Sublist (recency (hist ++ [key]))
    rw [List.map_append, recency_concat]
    exact concat_sublist_touch h.order hkey
  · show (s.list ++ [node]).Pairwise _
    rw [List.pairwise_append]
    refine ⟨h.ids, List.pairwise_singleton _ _, fun a ha b hb => ?_⟩
    obtain rfl := List.mem_singleton.1 hb
    exact h.fresh a ha
  · intro node hnode
    show node.id < s.nextNode + 1
    obtain hold | hnew := List.mem_append.1 hnode
    · have := h.fresh node hold
      omega
    · obtain rfl := List.mem_singleton.1 hnew
      exact Nat.lt_succ_self _
  · intro k it
    show (∃ v, (s.map.insertIfNew key (val, s.nextNode))[k]? = some (v, it)) ↔
      ∃ x ∈ s.list ++ [node], x.key = k ∧ x.id = it
    simp only [KeyedMap.getElem?_insertIfNew, List.mem_append, List.mem_singleton]
    by_cases hk : key = k
    · subst hk
      have hold : ∀ x ∈ s.list, x.key ≠ key := fun x hx he => hkey (List.mem_map.2 ⟨x, hx, he⟩)
      simp only [hnone, and_self, if_true, Option.some.injEq, Prod.mk.injEq]
      constructor
      · rintro ⟨v, -, rfl⟩
        exact ⟨_, .inr rfl, rfl, rfl⟩
      · rintro ⟨x, hx | rfl, hkx, rfl⟩
        · exact absurd hkx (hold x hx)
        · exact ⟨val, rfl, rfl⟩
    · simp only [hk, false_and, if_false, h.entries k it]
      constructor
      · rintro ⟨x, hx, hkx⟩
        exact ⟨x, .inl hx, hkx⟩
      · rintro ⟨x, hx | rfl, hkx, hid⟩
        · exact ⟨x, hx, hkx, hid⟩
        · exact absurd hkx hk
  · show (s.map.insertIfNew key (val, s.nextNode)).size = (s.list ++ [node]).length
    rw [hsize, h.count, List.length_append]
    rfl
  · show (s.map.insertIfNew key (val, s.nextNode)).size ≤ s.size
    omega

theorem Inv.popFront (h : Inv hist s) : Inv hist s.popFront := by
  cases hl : s.list with
  | nil => simpa [OrekaLruMap.popFront, hl] using h
  | cons front rest =>
    have hids := h.ids
    rw [hl] at hids
    have herase : eraseNode s.list front.id = rest := by
      rw [hl]
      exact @eraseNode_append K [] rest front hids
    have he := h.erase (show front ∈ s.list by simp [hl])
    rw [eraseEntry, herase] at he
    simpa only [OrekaLruMap.popFront, hl] using he

/-- Taking an entry out makes room. -/
theorem Inv.popFront_size (h : Inv hist s) : s.popFront.map.size < s.popFront.size := by
  have hbounded := h.bounded
  have hpos := h.positive
  have hcount := h.popFront.count
  cases hl : s.list with
  | nil =>
    have := h.count
    simp [OrekaLruMap.popFront, hl] at this ⊢
    omega
  | cons front rest =>
    have := h.count
    simp [OrekaLruMap.popFront, hl] at hcount this ⊢
    omega

omit [TransOrd K] [LawfulEqOrd K] [DecidableEq K] in
/-- Looking the key up before a new node is added does what `Remove` does. -/
theorem insertPair_eq (s : OrekaLruMap K V) (key : K) (val : V) (now : Nat) :
    s.insertPair key val now =
      (((if s.map.size ≥ s.size then s.popFront else s).remove key).1).pushBack key val now := by
  simp only [insertPair, remove]
  cases (if s.map.size ≥ s.size then s.popFront else s).find key <;> rfl

theorem Inv.remove (h : Inv hist s) (key : K) : Inv hist (s.remove key).1 := by
  cases hf : s.find key with
  | none => simpa only [OrekaLruMap.remove, hf] using h
  | some e =>
    obtain ⟨node, hnode, rfl, hid⟩ := (h.entries key e.2).1 ⟨e.1, hf⟩
    simpa only [OrekaLruMap.remove, hf, ← hid] using h.erase hnode

omit [DecidableEq K] in
theorem mem_remove (s : OrekaLruMap K V) (key k : K) :
    k ∈ (s.remove key).1.map ↔ k ≠ key ∧ k ∈ s.map := by
  cases hf : s.find key with
  | none =>
    have hnot : key ∉ s.map := by
      rw [TreeMap.mem_iff_isSome_getElem?, Option.not_isSome_iff_eq_none]
      exact hf
    simp only [remove, hf]
    constructor
    · intro hk
      refine ⟨?_, hk⟩
      rintro rfl
      exact hnot hk
    · exact And.right
  | some e =>
    simp only [remove, hf, eraseEntry, TreeMap.mem_erase, ne_eq, Std.compare_eq_iff_eq, @eq_comm K key]

omit [LawfulEqOrd K] [DecidableEq K] in
theorem size_remove_le (s : OrekaLruMap K V) (key : K) : (s.remove key).1.map.size ≤ s.map.size := by
  cases hf : s.find key with
  | none => simp only [remove, hf, Nat.le_refl]
  | some e =>
    simp only [remove, hf, eraseEntry]
    exact TreeMap.size_erase_le

omit [TransOrd K] [LawfulEqOrd K] [DecidableEq K] in
@[simp] theorem size_remove (s : OrekaLruMap K V) (key : K) : (s.remove key).1.size = s.size := by
  cases hf : s.find key <;> simp only [remove, hf, eraseEntry]

theorem Inv.insertPair (h : Inv hist s) (key : K) (val : V) (now : Nat) :
    Inv (hist ++ [key]) (s.insertPair key val now) := by
  rw [insertPair_eq]
  obtain ⟨s', hs', hroom⟩ : ∃ s' : OrekaLruMap K V, (Inv hist s' ∧ s'.map.size < s'.size) ∧
      (if s.map.size ≥ s.size then s.popFront else s) = s' := by
    refine ⟨_, ?_, rfl⟩
    split
    · exact ⟨h.popFront, h.popFront_size⟩
    · exact ⟨h, by omega⟩
  rw [hroom]
  have hinv := hs'.1.remove key
  refine hinv.pushBack ?_ ?_ val now
  · rw [← hinv.mem_map, mem_remove]
    simp
  · have := size_remove_le s' key
    rw [size_remove]
    omega

omit [LawfulEqOrd K] in
theorem Inv.clear (h : Inv hist s) : Inv hist s.clear where
  order := List.nil_sublist _
  ids := List.Pairwise.nil
  fresh := by simp [OrekaLruMap.clear]
  entries := by simp [OrekaLruMap.clear]
  count := by simp [OrekaLruMap.clear]
  bounded := by simp [OrekaLruMap.clear]
  positive := h.positive

omit [TransOrd K] [LawfulEqOrd K] in
theorem Inv.setSize (h : Inv hist s) (size : Nat) : Inv hist (s.setSize size) := by
  by_cases hsize : size ≥ s.size
  · simp only [OrekaLruMap.setSize, hsize, if_true]
    exact { h with
      bounded := Nat.le_trans h.bounded hsize
      positive := Nat.le_trans h.positive hsize }
  · simpa only [OrekaLruMap.setSize, hsize, if_false] using h

theorem Inv.step (h : Inv hist s) (op : LruOp K V) : Inv (hist ++ insertions [op]) (s.step op) := by
  cases op with
  | insertPair key val now => exact h.insertPair key val now
  | find key => simpa [insertions, OrekaLruMap.step] using h
  | remove key => simpa [insertions, OrekaLruMap.step] using h.remove key
  | removeOldest =>
    have hpop : Inv hist s.removeOldest := by
      by_cases hl : s.list.length > 0
      · simpa only [removeOldest, hl, if_true] using h.popFront
      · simpa only [removeOldest, hl, if_false] using h
    simpa [insertions, OrekaLruMap.step] using hpop
  | clear => simpa [insertions, OrekaLruMap.step] using h.clear
  | setSize size => simpa [insertions, OrekaLruMap.step] using h.setSize size

/-- Every run keeps the invariant. -/
theorem Inv.foldl (h : Inv hist s) (ops : List (LruOp K V)) :
    Inv (hist ++ insertions ops) (ops.foldl OrekaLruMap.step s) := by
  induction ops generalizing hist s with
  | nil => simpa [insertions] using h
  | cons op ops ih =>
    have hcons : insertions (op :: ops) = insertions [op] ++ insertions ops := by
      rw [insertions, insertions, insertions, ← List.filterMap_append]
      rfl
    rw [hcons, ← List.append_assoc]
    exact ih (h.step op)

/-! ## Insertions of present keys -/

omit [DecidableEq K] in
theorem mem_insertPair (s : OrekaLruMap K V) (key k : K) (val : V) (now : Nat) :
    k ∈ (s.insertPair key val now).map ↔
      k = key ∨ k ∈ (if s.map.size ≥ s.size then s.popFront else s).map := by
  rw [insertPair_eq]
  simp only [OrekaLruMap.pushBack, TreeMap.mem_insertIfNew, Std.compare_eq_iff_eq, mem_remove,
    @eq_comm K key]
  by_cases hk : k = key <;> simp [hk]

omit [DecidableEq K] in
theorem mem_popFront {front : LruNode K} {rest : List (LruNode K)} (hl : s.list = front :: rest)
    (k : K) : k ∈ s.popFront.map ↔ k ≠ front.key ∧ k ∈ s.map := by
  simp only [OrekaLruMap.popFront, hl, TreeMap.mem_erase, ne_eq, Std.compare_eq_iff_eq, @eq_comm K k]

/-- An insertion evicts another key exactly where the map is full and another key is the oldest. -/
theorem Inv.evictsNoOther_iff (h : Inv hist s) (op : LruOp K V) :
    s.EvictsNoOther op ↔ s.FindsRoom op := by
  cases op with
  | insertPair key val now =>
    simp only [EvictsNoOther, FindsRoom, mem_insertPair]
    by_cases hfull : s.map.size ≥ s.size
    · obtain ⟨front, rest, hl⟩ : ∃ front rest, s.list = front :: rest := by
        apply List.exists_cons_of_length_pos
        have := h.count
        have := h.positive
        omega
      have hfront : front.key ∈ s.map := (h.mem_map _).2 (by simp [keys, hl])
      simp only [hfull, if_true, mem_popFront hl, keys, hl, List.map_cons, List.head?_cons,
        Option.some.injEq, Nat.not_lt.2 hfull, false_or]
      constructor
      · intro hkeep hkey
        obtain he | ⟨hne, -⟩ := hkeep hkey front.key hfront
        · exact he
        · exact absurd rfl hne
      · rintro hold hkey k hk
        rw [← hold hkey]
        by_cases hkf : k = front.key
        · exact .inl hkf
        · exact .inr ⟨hkf, hk⟩
    · simp only [hfull, if_false]
      exact ⟨fun _ _ => .inl (by omega), fun _ _ k hk => .inr hk⟩
  | find | remove | removeOldest | clear | setSize => rfl

/-- **The list and the map stay in step in every run**, and an insertion of a present key evicts no
other exactly where it finds room or is the oldest. -/
theorem represented_iff {size : Nat} (hsize : 1 ≤ size) (ops : List (LruOp K V)) :
    Represented size ops ↔ Run.Meets step FindsRoom (new size) ops := by
  have hiff := Run.meets_congr_of_inv (I := fun s : OrekaLruMap K V => ∃ hist, Inv hist s)
    (fun _ op ⟨_, h⟩ => ⟨_, h.step op⟩) (fun _ op ⟨_, h⟩ => h.evictsNoOther_iff op)
    (l := ops) ⟨[], inv_new hsize⟩
  rw [Represented, hiff]
  refine ⟨And.right, fun h => ⟨fun l _ => ?_, h⟩⟩
  have hl := (inv_new (V := V) hsize).foldl l
  exact hl.represents

instance (s : OrekaLruMap K V) (op : LruOp K V) : Decidable (s.FindsRoom op) :=
  match op with
  | .insertPair _ _ _ => inferInstanceAs (Decidable (_ → _ ∨ _))
  | .find _ | .remove _ | .removeOldest | .clear | .setSize _ => isTrue trivial

/-- A full map: its oldest key is inserted again, then a new one. -/
theorem represented_two : Represented 2 [.insertPair 1 'a' 0, .insertPair 2 'b' 1,
    .insertPair 1 'c' 2, .insertPair 3 'd' 3, .remove 1, .setSize 5, .removeOldest] :=
  (represented_iff (by decide) _).2 (by decide)

/-- The newest key of a full map is inserted again: the other one goes. -/
theorem not_represented :
    ¬ Represented 2 [.insertPair 1 'a' 0, .insertPair 2 'b' 1, .insertPair 2 'c' 2] := by
  rintro ⟨-, -, -, hkeep, -⟩
  have hgone := hkeep (by decide) 1 (by decide)
  revert hgone
  decide

end Oreka.OrekaLruMap
