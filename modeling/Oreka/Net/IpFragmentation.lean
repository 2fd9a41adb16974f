import Oreka.Net.IpHeader
import Mathlib.Logic.Function.Basic

/-!
# IP reassembly

`voip/IpFragmentation.cpp`: `HandleIpFragment` keeps, for each identification number, the fragments
received so far, sorted by offset (`WaitAllAndSortAlgorithm`), and once their sizes add up to the end
of the last one, puts the packet together (`ForwardSequentialAlgorithm`). The clock is an input: the
time that `HandleIpFragment` reads, and the one that `addFragment` reads a moment later.
-/

namespace Oreka.Net

/-- What ends a call other than by a return. -/
inductive Failure
  /-- A `std::runtime_error`. -/
  | exception
  /-- A `memcpy` past the end of a buffer. -/
  | overrun
  /-- An entry of the fragment map erased twice. -/
  | erasedTwice
  deriving DecidableEq, Repr

/-- `catch (const std::exception&)`, with what is returned then. -/
def catchException {α : Type} (r : Except Failure α) (caught : α) : Except Failure α :=
  match r with
  | .error .exception => .ok caught
  | r => r

/-! ## Sized buffers -/

/-- `SizedBuffer`: what was written into it. -/
abbrev SizedBuffer := List UInt8

namespace SizedBuffer

/-- More than `realloc` ever gives. -/
abbrev maxAlloc : Nat := 9223372036854775808

/-- `SizedBuffer::get`, from the start. -/
def get (b : SizedBuffer) : Except Failure SizedBuffer :=
  if b = [] then .error .exception else .ok b

/-- `SizedBuffer::append`: a `write` at the end of the buffer, of `len` bytes of `buf` from `src` on.
The new size is computed in `size_t`. -/
def append (b : SizedBuffer) (buf : List UInt8) (src len : Nat) : Except Failure SizedBuffer :=
  let newSize := (b.length + len) % sizeT
  if newSize > b.length then
    if newSize ≥ maxAlloc then .error .exception else .ok (b ++ copy buf src len)
  else if len = 0 then .ok b
  else .error .overrun

/-- `new SizedBuffer(buf, len)`. -/
def new (buf : List UInt8) (len : Nat) : Except Failure SizedBuffer := append [] buf 0 len

end SizedBuffer

open IpHeader

/-! ## ForwardSequentialAlgorithm -/

structure ForwardSequential where
  drop : Bool := false
  packetData : Option SizedBuffer := none
  isComplete : Bool := false

namespace ForwardSequential

/-- The body of `addFragment`'s `try` block. -/
def tryAddFragment (a : ForwardSequential) (ipHeader : List UInt8) :
    Except Failure ForwardSequential :=
  match a.packetData with
  | none =>
    if offset ipHeader ≠ 0 then .ok { a with drop := true }
    else do
      let data ← SizedBuffer.new ipHeader (packetLen ipHeader)
      return { a with packetData := some data
                      isComplete := a.isComplete || isLastFragment ipHeader }
  | some packetData => do
    let original ← SizedBuffer.get packetData
    if payloadLen original ≠ offset ipHeader then return { a with drop := true }
    else
      let data ← SizedBuffer.append packetData ipHeader (headerLen ipHeader) (payloadLen ipHeader)
      let data := setPacketLen data
        ((headerLen data + payloadLen data + payloadLen ipHeader) % sizeT)
      return { a with packetData := some data
                      isComplete := a.isComplete || isLastFragment ipHeader }

/-- An exception drops the fragments. -/
def addFragment (a : ForwardSequential) (ipHeader : List UInt8) :
    Except Failure ForwardSequential :=
  catchException (a.tryAddFragment ipHeader) { a with drop := true }

end ForwardSequential

/-! ## WaitAllAndSortAlgorithm -/

structure WaitAllAndSort where
  orderedFragments : List SizedBuffer := []
  finalSize : Nat := 0
  lastUpdate : Int := 0
  currentSize : Nat := 0
  isComplete : Bool := false
  drop : Bool := false
  packetData : Option SizedBuffer := none
  deriving DecidableEq

namespace WaitAllAndSort

/-- The loop that finds "where the fragment belongs to", and the insertion; nothing for a
retransmission. -/
def insertFragment (ipHeader : List UInt8) :
    List SizedBuffer → Except Failure (Option (List SizedBuffer))
  | [] => do
    let b ← SizedBuffer.new ipHeader (packetLen ipHeader)
    return some [b]
  | f :: fs => do
    let header ← SizedBuffer.get f
    if offset header = offset ipHeader then return none
    else if offset header > offset ipHeader then
      let b ← SizedBuffer.new ipHeader (packetLen ipHeader)
      return some (b :: f :: fs)
    else
      let r ← insertFragment ipHeader fs
      return r.map (f :: ·)

/-- The loop that hands the fragments to a `ForwardSequentialAlgorithm`, up to one that it drops. -/
def assemble : List SizedBuffer → ForwardSequential → Except Failure ForwardSequential
  | [], simpleHandler => .ok simpleHandler
  | f :: fs, simpleHandler => do
    let ipHeader ← SizedBuffer.get f
    let simpleHandler ← simpleHandler.addFragment ipHeader
    if simpleHandler.drop then return simpleHandler else assemble fs simpleHandler

/-- What follows the insertion of a fragment. -/
def afterInsert (a : WaitAllAndSort) (time : Int) : Except Failure WaitAllAndSort :=
  -- possible overlap
  if a.finalSize ≠ 0 ∧ a.currentSize > a.finalSize then .ok { a with drop := true }
  else if a.currentSize = a.finalSize then do
    let simpleHandler ← assemble a.orderedFragments {}
    if simpleHandler.drop then return { a with drop := true }
    else
      return { a with packetData := simpleHandler.packetData, isComplete := true
                      lastUpdate := time }
  else .ok { a with lastUpdate := time }

/-- The insertion itself, into the list `fragments`. -/
def inserted (a : WaitAllAndSort) (ipHeader : List UInt8) (fragments : List SizedBuffer) :
    WaitAllAndSort :=
  { a with
    orderedFragments := fragments
    finalSize :=
      if isLastFragment ipHeader then (offset ipHeader + payloadLen ipHeader) % sizeT
      else a.finalSize
    currentSize := (a.currentSize + payloadLen ipHeader) % sizeT }

/-- The body of `addFragment`'s `try` block. -/
def tryAddFragment (a : WaitAllAndSort) (time : Int) (ipHeader : List UInt8) :
    Except Failure WaitAllAndSort := do
  match ← insertFragment ipHeader a.orderedFragments with
  | none => return a
  | some fragments => (a.inserted ipHeader fragments).afterInsert time

/-- An exception drops the fragments. -/
def addFragment (a : WaitAllAndSort) (time : Int) (ipHeader : List UInt8) :
    Except Failure WaitAllAndSort :=
  catchException (a.tryAddFragment time ipHeader) { a with drop := true }

end WaitAllAndSort

/-! ## HandleIpFragment -/

abbrev timeoutSec : Int := 60

/-- The static variables of `HandleIpFragment`. -/
structure FragmentTable where
  lastCheck : Int := 0
  fragmentMap : Nat → Option WaitAllAndSort := fun _ => none

/-- A fragment that arrives: the times at which `HandleIpFragment` and `addFragment` read the clock,
and the bytes from its IP header on. -/
structure Arrival where
  now : Int
  updated : Int
  ipHeader : List UInt8

namespace FragmentTable

/-- "Delete previous fragments older than timeoutSec". -/
def purge (s : FragmentTable) (now : Int) : FragmentTable :=
  if now - s.lastCheck ≥ timeoutSec then
    { lastCheck := now
      fragmentMap := fun id =>
        (s.fragmentMap id).filter fun a => decide (¬ now - a.lastUpdate ≥ timeoutSec) }
  else s

def erase (s : FragmentTable) (id : Nat) : FragmentTable :=
  { s with fragmentMap := Function.update s.fragmentMap id none }

def handleIpFragment (s : FragmentTable) (a : Arrival) :
    Except Failure (FragmentTable × Option SizedBuffer) := do
  let s := s.purge a.now
  let id := packetId a.ipHeader
  let algorithm ← ((s.fragmentMap id).getD {}).addFragment a.updated a.ipHeader
  let s := { s with fragmentMap := Function.update s.fragmentMap id (some algorithm) }
  if algorithm.drop then
    if algorithm.isComplete then throw .erasedTwice else return (s.erase id, none)
  else if algorithm.isComplete then
    return (s.erase id, algorithm.packetData)
  else return (s, none)

/-- One call after the other, with what each returns. -/
def handleAll (s : FragmentTable) : List Arrival →
    Except Failure (FragmentTable × List (Option SizedBuffer))
  | [] => .ok (s, [])
  | a :: as => do
    let (s, packet) ← s.handleIpFragment a
    let (s, packets) ← s.handleAll as
    return (s, packet :: packets)

end FragmentTable

end Oreka.Net
