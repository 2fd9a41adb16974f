import Oreka.Base.ThreadSafeQueue
import Oreka.Base.Utils

/-!
# The chain of tape processors

`TapeProcessor.cpp`, with the queues and threads of its processors (`AddAudioTape` and the loop of
`ThreadHandler` of `BatchProcessing`, `CommandProcessing`, `DirectionSelector` and `TapeFileNaming`, and
`AddAudioTape` of `Reporting`). What a processor makes of a tape is left to the actions: it passes it on, or
it does not. A passage is one call of `RunProcessingChain`, named by its number.
-/

namespace Oreka

/-- The processors are singletons, `π` their identities. -/
structure TapeProcessorRegistry (π : Type*) where
  /-- `m_TapeProcessors`. -/
  tapeProcessors : List π := []
  firstTapeProcessor : Option π := none
  /-- `m_nextProcessor` of each processor. -/
  nextProcessor : π → Option π := fun _ => none

inductive MediaType
  | unKnownType
  | audioType
  | videoType
  | instantMessageType
  deriving DecidableEq, Repr

/-- What the chain asks of a tape. -/
structure TapeKind where
  isExternal : Bool
  mediaType : MediaType
  deriving DecidableEq, Repr

namespace TapeProcessorRegistry

variable {π : Type*} [DecidableEq π]

def registerTapeProcessor (r : TapeProcessorRegistry π) (tapeProcessor : π) : TapeProcessorRegistry π :=
  { r with tapeProcessors := r.tapeProcessors ++ [tapeProcessor] }

def getNewTapeProcessor (getName : π → String) (r : TapeProcessorRegistry π) (tapeProcessorName : String) :
    Option π :=
  r.tapeProcessors.find? fun p => compareNoCase (getName p) tapeProcessorName

/-- One round of the loop of `CreateProcessingChain`, with `previousProcessor`. -/
def addToChain (getName : π → String) (s : TapeProcessorRegistry π × Option π) (tapeProcessorName : String) :
    TapeProcessorRegistry π × Option π :=
  match s.1.getNewTapeProcessor getName tapeProcessorName with
  | some processor =>
    ({ s.1 with
        firstTapeProcessor := s.1.firstTapeProcessor.or (some processor)
        nextProcessor := match s.2 with
          | some previousProcessor => Function.update s.1.nextProcessor previousProcessor (some processor)
          | none => s.1.nextProcessor }, some processor)
  | none => s

def createProcessingChain (getName : π → String) (r : TapeProcessorRegistry π) (names : List String) :
    TapeProcessorRegistry π :=
  (names.foldl (addToChain getName) (r, none)).1

/-- The condition of `RunNextProcessor`: `CommandProcessing` is for audio and video. -/
def skips (getName : π → String) (tape : TapeKind) (nextProcessor : π) : Bool :=
  tape.isExternal && tape.mediaType ≠ .audioType && tape.mediaType ≠ .videoType &&
    compareNoCase (getName nextProcessor) "CommandProcessing"

/-- `RunNextProcessor`: the processor whose `AddAudioTape` is called, if there is one; none for a call that
does not end within `n` calls of itself. -/
def runNextProcessor (getName : π → String) (r : TapeProcessorRegistry π) (tape : TapeKind) :
    Nat → π → Option (Option π)
  | 0, _ => none
  | n + 1, p =>
    match r.nextProcessor p with
    | some q => if skips getName tape q then runNextProcessor getName r tape n q else some (some q)
    | none => some none

/-- `RunProcessingChain`, likewise: a tape that is imported passes over `BatchProcessing`. -/
def runProcessingChain (getName : π → String) (r : TapeProcessorRegistry π) (n : Nat) (tape : TapeKind) :
    Option (Option π) :=
  match r.firstTapeProcessor with
  | some p =>
    if tape.isExternal = false then some (some p)
    else if compareNoCase (getName p) "BatchProcessing" then r.runNextProcessor getName tape n p
    else some none
  | none => some none

end TapeProcessorRegistry

/-- Where a passage is. -/
inductive TapePlace (π : Type*)
  | notStarted
  | queued (p : π)
  | working (p : π) (thread : Nat)
  /-- The queue was full. -/
  | rejected (p : π)
  /-- The processor has not passed it on. -/
  | failed (p : π)
  /-- `Reporting` has passed it to `AddMessage`. -/
  | reported
  /-- There is no next processor. -/
  | ended
  /-- `RunNextProcessor` does not return. -/
  | stuck
  deriving DecidableEq, Repr

/-- Where a thread is in `ThreadHandler`. -/
inductive ProcessorCall
  /-- In `pop`, before the semaphore is acquired. -/
  | waiting
  /-- In `pop`, behind it. -/
  | acquired
  | working (n : Nat)
  | stopped
  deriving DecidableEq, Repr

/-- The processors at work on the passages. -/
structure TapePipeline (π : Type*) where
  audioTapeQueue : π → ThreadSafeQueue Nat
  /-- The threads of each processor. -/
  call : π → Nat → ProcessorCall := fun _ _ => .waiting
  /-- The number of passages so far. -/
  started : Nat := 0
  place : Nat → TapePlace π := fun _ => .notStarted
  /-- The processors whose `AddAudioTape` has been called. No operation reads this. -/
  visited : Nat → List π := fun _ => []

inductive PipelineAction (π : Type*)
  /-- `RunProcessingChain`. -/
  | run
  | acquire (p : π) (thread : Nat)
  | pop (p : π) (thread : Nat) (isStopping : Bool)
  /-- The thread has done its work: it calls `RunNextProcessor`, or it does not. -/
  | finish (p : π) (thread : Nat) (passOn : Bool)
  deriving DecidableEq, Repr

/-- What a pipeline is made of: the chain, and the tape of each passage. -/
structure PipelineConfig (π : Type*) where
  getName : π → String
  registry : TapeProcessorRegistry π
  isReporting : π → Bool
  tape : Nat → TapeKind
  /-- The bound for the recursion of `RunNextProcessor`. -/
  calls : Nat

/-- The processors that are registered, and the chain of those that the configuration names. -/
def PipelineConfig.configured {π : Type*} [DecidableEq π] (getName : π → String) (isReporting : π → Bool)
    (tape : Nat → TapeKind) (tapeProcessors : List π) (names : List String) : PipelineConfig π where
  getName
  registry := TapeProcessorRegistry.createProcessingChain getName { tapeProcessors } names
  isReporting
  tape
  calls := names.length

namespace TapePipeline

variable {π : Type*} [DecidableEq π]

/-- The queues of the given sizes, and no passage. -/
def new (size : π → Int) : TapePipeline π where
  audioTapeQueue p := .new (size p)

/-- `AddAudioTape`. -/
def addAudioTape (cfg : PipelineConfig π) (s : TapePipeline π) (p : π) (n : Nat) : TapePipeline π :=
  let s := { s with visited := Function.update s.visited n (s.visited n ++ [p]) }
  if cfg.isReporting p then { s with place := Function.update s.place n .reported }
  else
    let q := (s.audioTapeQueue p).enqueue n
    { s with
      audioTapeQueue := Function.update s.audioTapeQueue p { q with count := q.count + 1 }
      place := Function.update s.place n (if (s.audioTapeQueue p).hasRoom then .queued p else .rejected p) }

/-- A passage goes where `RunNextProcessor` or `RunProcessingChain` sends it. -/
def send (cfg : PipelineConfig π) (s : TapePipeline π) (n : Nat) : Option (Option π) → TapePipeline π
  | some (some p) => s.addAudioTape cfg p n
  | some none => { s with place := Function.update s.place n .ended }
  | none => { s with place := Function.update s.place n .stuck }

def setCall (s : TapePipeline π) (p : π) (thread : Nat) (c : ProcessorCall) : TapePipeline π :=
  { s with call := Function.update s.call p (Function.update (s.call p) thread c) }

def step (cfg : PipelineConfig π) (s : TapePipeline π) : PipelineAction π → TapePipeline π
  | .run =>
    { s with started := s.started + 1 }.send cfg s.started
      (cfg.registry.runProcessingChain cfg.getName cfg.calls (cfg.tape s.started))
  | .acquire p thread =>
    let q := s.audioTapeQueue p
    if s.call p thread = .waiting ∧ q.count > 0 then
      { s.setCall p thread .acquired with
        audioTapeQueue := Function.update s.audioTapeQueue p { q with count := q.count - 1 } }
    else s
  | .pop p thread isStopping =>
    match s.call p thread, (s.audioTapeQueue p).dequeue with
    | .acquired, (_, none) => s.setCall p thread (if isStopping then .stopped else .waiting)
    | .acquired, (q, some n) =>
      { s.setCall p thread (.working n) with
        audioTapeQueue := Function.update s.audioTapeQueue p q
        place := Function.update s.place n (.working p thread) }
    | _, _ => s
  | .finish p thread passOn =>
    match s.call p thread with
    | .working n =>
      let s := s.setCall p thread .waiting
      if passOn then s.send cfg n (cfg.registry.runNextProcessor cfg.getName (cfg.tape n) cfg.calls p)
      else { s with place := Function.update s.place n (.failed p) }
    | _ => s

end TapePipeline

end Oreka
