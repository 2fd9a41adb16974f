import Mathlib.Logic.Function.Basic
import Oreka.Lib.KeyedMap
import Oreka.Lib.Run

/-!
# The port manager

`PortManager.java` of orktrack, with the rows of `orkportface` and `orkport` and the Hibernate sessions that
write them. Any number of threads are in `getAndCreatePort` and `initialize`; a look-up or an entry in one of
the two maps is one step of a thread, and so is all of `createPort`, which is synchronized.
-/

open Std KeyedMap

namespace Oreka.Orktrack

/-- A `Port`: the id of its `recPort`, and the names of its `portFaces`. -/
structure Port where
  recPort : Nat
  portFaces : List String := []
  deriving DecidableEq, Repr

/-- A port face in a session: whether it is yet to be inserted, and the id of its port, unless that is null. -/
structure PortFace where
  isNew : Bool
  port : Option Nat
  deriving DecidableEq, Repr

/-- Where a thread is: not in a call; in `getAndCreatePort`, whose look-up gave null; in the loop of
`initialize` over the faces that are left, before the look-up for the first of them, before `portById.put` or
before `portByName.put`. -/
inductive Call
  | idle
  | missed (name : String) (session : Nat)
  | faces (rest : List (String × Option Nat))
  | newPort (face : String) (portId : Nat) (rest : List (String × Option Nat))
  | named (face : String) (port : Nat) (rest : List (String × Option Nat))
  deriving DecidableEq, Repr

/-- The two maps refer to `Port` objects by number. `faces` and `ports` are what has been committed, `sessions`
what has been saved; `returned` are the calls of `getAndCreatePort` that have ended, in a port or an exception. -/
structure PortManager (τ : Type*) where
  portById : TreeMap Nat Nat := ∅
  portByName : TreeMap String Nat := ∅
  objects : Nat → Port := fun _ => ⟨0, []⟩
  numObjects : Nat := 0
  faces : TreeMap String (Option Nat)
  ports : List Nat
  numIds : Nat
  sessions : Nat → TreeMap String PortFace := fun _ => ∅
  call : τ → Call := fun _ => .idle
  returned : List (String × Option Nat) := []

/-- What a thread does, or what becomes of a session. -/
inductive PortAction (τ : Type*)
  | getAndCreatePort (t : τ) (name : String) (session : Nat)
  | initializePorts (t : τ)
  | next (t : τ)
  | commit (session : Nat)
  | rollback (session : Nat)

namespace PortManager

variable {τ : Type*} [DecidableEq τ]

/-- `hbnSession.get(OrkPortFace.class, name)`. -/
def getFace (s : PortManager τ) (session : Nat) (name : String) : Option PortFace :=
  (s.sessions session)[name]?.or (s.faces[name]?.map (⟨false, ·⟩))

/-- `createPort`: a port, unless there is an exception. The face of a persisted name loses its port before it
is asked for it, and `save` does not take null. -/
def createPort (s : PortManager τ) (name : String) (session : Nat) : PortManager τ × Option Nat :=
  match s.getFace session name with
  | none =>
    ({ s with
      sessions := Function.update s.sessions session
        ((s.sessions session).insert name ⟨true, some s.numIds⟩)
      numIds := s.numIds + 1
      objects := Function.update s.objects s.numObjects ⟨s.numIds, [name]⟩
      numObjects := s.numObjects + 1
      portById := s.portById.insert s.numIds s.numObjects
      portByName := s.portByName.insert name s.numObjects }, some s.numObjects)
  | some face =>
    ({ s with
      sessions := Function.update s.sessions session
        ((s.sessions session).insert name ⟨face.isNew, none⟩) }, none)

/-- The look-up of `initialize` for a face, and the row of its port if it gave null. A port or a row that is
not there is an exception, which ends the call. -/
def findPort (s : PortManager τ) (face : String) (port : Option Nat) (rest : List (String × Option Nat)) :
    Call :=
  match port with
  | none => .idle
  | some portId =>
    match s.portById[portId]? with
    | some port => .named face port rest
    | none => if portId ∈ s.ports then .newPort face portId rest else .idle

/-- `portById.put` with a new port. -/
def putById (s : PortManager τ) (portId : Nat) : PortManager τ :=
  { s with
    objects := Function.update s.objects s.numObjects ⟨portId, []⟩
    numObjects := s.numObjects + 1
    portById := s.portById.insert portId s.numObjects }

/-- `port.portFaces.add` and `portByName.put`. -/
def putByName (s : PortManager τ) (face : String) (port : Nat) : PortManager τ :=
  { s with
    objects := Function.update s.objects port
      { s.objects port with portFaces := (s.objects port).portFaces ++ [face] }
    portByName := s.portByName.insert face port }

def setCall (s : PortManager τ) (t : τ) (call : Call) : PortManager τ :=
  { s with call := Function.update s.call t call }

/-- The next step of a thread in a call. -/
def next (s : PortManager τ) (t : τ) : PortManager τ :=
  match s.call t with
  | .idle => s
  | .missed name session =>
    { (s.createPort name session).1.setCall t .idle with
      returned := s.returned ++ [(name, (s.createPort name session).2)] }
  | .faces [] => s.setCall t .idle
  | .faces ((face, port) :: rest) => s.setCall t (s.findPort face port rest)
  | .newPort face portId rest => (s.putById portId).setCall t (.named face s.numObjects rest)
  | .named face port rest => (s.putByName face port).setCall t (.faces rest)

/-- What has been saved in a session becomes persistent; a face that is already there is not inserted, and
then nothing is. -/
def commit (s : PortManager τ) (session : Nat) : PortManager τ :=
  let saved := (s.sessions session).toList
  let s := { s with sessions := Function.update s.sessions session ∅ }
  if saved.any fun p => p.2.isNew && (s.faces[p.1]?).isSome then s
  else { s with
    faces := putAll s.faces (saved.map fun p => (p.1, p.2.port))
    ports := s.ports ++ saved.filterMap fun p => p.2.port }

/-- A thread that is in a call does not call. -/
def step (s : PortManager τ) : PortAction τ → PortManager τ
  | .getAndCreatePort t name session =>
    if s.call t = .idle then
      match s.portByName[name]? with
      | some port => { s with returned := s.returned ++ [(name, some port)] }
      | none => s.setCall t (.missed name session)
    else s
  | .initializePorts t => if s.call t = .idle then s.setCall t (.faces s.faces.toList) else s
  | .next t => s.next t
  | .commit session => s.commit session
  | .rollback session => { s with sessions := Function.update s.sessions session ∅ }

end PortManager

end Oreka.Orktrack
