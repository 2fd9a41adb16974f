import Oreka.Lib.KeyedMap

/-!
# The least recently inserted map

`OrkLruMap.h`: `OrekaLruMap` keeps a `std::list` of keys, oldest first, beside a `std::map` from each
key to its value and to the iterator of its list node. A node has an identity here, the number of its
allocation, and an iterator is the identity of the node it points at.
-/

open Std

namespace Oreka

/-- A node of `m_list`. -/
structure LruNode (K : Type*) where
  id : Nat
  key : K
  ts : Nat
  deriving DecidableEq, Repr

structure OrekaLruMap (K V : Type*) [Ord K] where
  size : Nat
  list : List (LruNode K)
  /-- The value, and the iterator. -/
  map : TreeMap K (V × Nat)
  /-- The next node to be allocated. -/
  nextNode : Nat

namespace OrekaLruMap

variable {K V : Type*} [Ord K]

def new (size : Nat) : OrekaLruMap K V := { size, list := [], map := ∅, nextNode := 0 }

/-- `m_list.erase(it)`. -/
def eraseNode (list : List (LruNode K)) (it : Nat) : List (LruNode K) :=
  list.filter fun node => node.id ≠ it

def find (s : OrekaLruMap K V) (key : K) : Option (V × Nat) := s.map[key]?

/-- `m_map.erase(m_list.front().first)` and `m_list.pop_front()`. -/
def popFront (s : OrekaLruMap K V) : OrekaLruMap K V :=
  match s.list with
  | [] => s
  | front :: rest => { s with map := s.map.erase front.key, list := rest }

/-- The entry of `it2`, the iterator that the key's pair holds, goes from both. -/
def eraseEntry (s : OrekaLruMap K V) (key : K) (it2 : Nat) : OrekaLruMap K V :=
  { s with list := eraseNode s.list it2, map := s.map.erase key }

/-- The key goes to the end of the list, at the time `now`. -/
def pushBack (s : OrekaLruMap K V) (key : K) (val : V) (now : Nat) : OrekaLruMap K V :=
  { s with
    list := s.list ++ [⟨s.nextNode, key, now⟩]
    map := s.map.insertIfNew key (val, s.nextNode)
    nextNode := s.nextNode + 1 }

/-- `InsertPair`: the oldest entry makes room before the key is looked up. -/
def insertPair (s : OrekaLruMap K V) (key : K) (val : V) (now : Nat) : OrekaLruMap K V :=
  let s := if s.map.size ≥ s.size then s.popFront else s
  -- check if key exist
  let s := match s.find key with
    | some (_, it2) => s.eraseEntry key it2
    | none => s
  s.pushBack key val now

def removeOldest (s : OrekaLruMap K V) : OrekaLruMap K V :=
  if s.list.length > 0 then s.popFront else s

def remove (s : OrekaLruMap K V) (key : K) : OrekaLruMap K V × Bool :=
  match s.find key with
  | some (_, it2) => (s.eraseEntry key it2, true)
  | none => (s, false)

def clear (s : OrekaLruMap K V) : OrekaLruMap K V := { s with map := ∅, list := [] }

/-- `SetSize`: the capacity only grows. -/
def setSize (s : OrekaLruMap K V) (size : Nat) : OrekaLruMap K V :=
  if size ≥ s.size then { s with size } else s

end OrekaLruMap

inductive LruOp (K V : Type*)
  | insertPair (key : K) (val : V) (now : Nat)
  | find (key : K)
  | remove (key : K)
  | removeOldest
  | clear
  | setSize (size : Nat)

namespace OrekaLruMap

variable {K V : Type*} [Ord K]

def step (s : OrekaLruMap K V) : LruOp K V → OrekaLruMap K V
  | .insertPair key val now => s.insertPair key val now
  | .find _ => s
  | .remove key => (s.remove key).1
  | .removeOldest => s.removeOldest
  | .clear => s.clear
  | .setSize size => s.setSize size

end OrekaLruMap

end Oreka
