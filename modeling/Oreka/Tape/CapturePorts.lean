import Mathlib.Logic.Function.Basic
import Oreka.Lib.KeyedMap
import Oreka.Lib.Run

/-!
# The capture ports

`CapturePorts` of `CapturePort.cpp`. A port is a reference, and `isExpired` is what `IsExpired` says of
it; what `Finalize` does to a port is in `Tape/CapturePort.lean`. `AddAndReturnPort` is two sections
under the mutex, the look-up of `GetPort` and the insertion, which any number of threads interleave.
-/

open Std

namespace Oreka

/-- The fields of `CapturePorts`; the ports that were ever made are numbered. -/
structure CapturePorts where
  ports : TreeMap String Nat := ∅
  lastHooveringTime : Int
  numPorts : Nat := 0
  made : ∀ (portId : String) (port : Nat), ports[portId]? = some port → port < numPorts := by simp

namespace CapturePorts

variable (isExpired : Nat → Int → Bool)

/-- Every 10 seconds. -/
def hooverDue (c : CapturePorts) (now : Int) : Bool := now - c.lastHooveringTime > 10

def hoover (c : CapturePorts) (now : Int) : CapturePorts :=
  if c.hooverDue now then
    { c with
      lastHooveringTime := now
      ports := c.ports.filter fun _ port => !isExpired port now
      made := fun portId port h => c.made portId port (by
        rw [TreeMap.getElem?_filter', Option.filter_eq_some_iff] at h
        exact h.1) }
  else c

/-- `GetPort`: what it leaves, and the port. -/
def getPort (c : CapturePorts) (now : Int) (portId : String) : CapturePorts × Option Nat :=
  (c.hoover isExpired now, (c.hoover isExpired now).ports[portId]?)

/-- The insertion of `AddAndReturnPort`: what it leaves, and the port that it has made. -/
def addPort (c : CapturePorts) (portId : String) : CapturePorts × Nat where
  fst :=
    { c with
      ports := c.ports.insertIfNew portId c.numPorts
      numPorts := c.numPorts + 1
      made := fun a port h => by
        rw [KeyedMap.getElem?_insertIfNew] at h
        split at h
        · cases h
          exact Nat.lt_succ_self _
        · exact Nat.lt_succ_of_lt (c.made a port h) }
  snd := c.numPorts

end CapturePorts

/-- Where a thread is in `AddAndReturnPort`: it has not called, or it has found no port. -/
inductive AddCall
  | idle
  | missed (portId : String)
  deriving DecidableEq, Repr

/-- The capture ports and their threads; what the calls have returned so far. -/
structure PortThreads (τ : Type*) where
  capturePorts : CapturePorts
  call : τ → AddCall
  returned : List (String × Nat) := []

/-- A section of `AddAndReturnPort`. -/
inductive PortSection
  | getPort (now : Int) (portId : String)
  | insert
  deriving DecidableEq, Repr

namespace PortThreads

variable {τ : Type*} [DecidableEq τ] (isExpired : Nat → Int → Bool)

/-- A section of thread `t`; one that it cannot enter where it stands changes nothing. -/
def step (s : PortThreads τ) : τ × PortSection → PortThreads τ
  | (t, .getPort now portId) =>
    match s.call t with
    | .idle =>
      match s.capturePorts.getPort isExpired now portId with
      | (capturePorts, some port) =>
        { s with capturePorts, returned := s.returned ++ [(portId, port)] }
      | (capturePorts, none) =>
        { s with capturePorts, call := Function.update s.call t (.missed portId) }
    | .missed _ => s
  | (t, .insert) =>
    match s.call t with
    | .idle => s
    | .missed portId =>
      { s with
        capturePorts := (s.capturePorts.addPort portId).1
        call := Function.update s.call t .idle
        returned := s.returned ++ [(portId, (s.capturePorts.addPort portId).2)] }

/-- No call is in progress. -/
def Idle (s : PortThreads τ) : Prop := ∀ t, s.call t = .idle

/-- Every call has returned the port that is registered for its id. -/
def OnePort (s : PortThreads τ) : Prop :=
  ∀ portId port, (portId, port) ∈ s.returned → s.capturePorts.ports[portId]? = some port

end PortThreads

end Oreka
