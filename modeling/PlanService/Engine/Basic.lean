import PlanService.Task
import PlanService.WorkerState

/-! # Engines

An engine carries out plans.  It is asked to run a task, to pause and to resume; it answers
each call at once, with success or an `EngineError`, and tells about its progress by
`EngineEvent`s, during a call or on its own.
-/

namespace PlanService

/-- What an engine is doing, in its own words. -/
inductive EngineState where
  | idle
  | running
  | pausing
  | paused
  | halting
  | stopping
  | aborting
  | suspending
  | panicked
  deriving Repr, DecidableEq, Inhabited

namespace EngineState

def text : EngineState → String
  | idle => "idle"
  | running => "running"
  | pausing => "pausing"
  | paused => "paused"
  | halting => "halting"
  | stopping => "stopping"
  | aborting => "aborting"
  | suspending => "suspending"
  | panicked => "panicked"

instance : ToString EngineState := ⟨text⟩

def all : List EngineState :=
  [idle, running, pausing, paused, halting, stopping, aborting, suspending, panicked]

/-- The worker state that this one shows as.  On its way to another state an engine still
counts as running. -/
def workerState : EngineState → WorkerState
  | idle | panicked => .idle
  | paused => .paused
  | running | pausing | halting | stopping | aborting | suspending => .running

end EngineState

/-- The calls that an engine can decline because of its state. -/
inductive EngineOperation where
  | pause
  | resume
  deriving Repr, DecidableEq, Inhabited

def EngineOperation.text : EngineOperation → String
  | pause => "pause"
  | resume => "resume"

inductive EngineError where
  | unknownPlan (name : String)
  | invalidParams (reason : String)
  | busy
  | invalidState (operation : EngineOperation) (state : EngineState)
  | unavailable
  deriving Repr, DecidableEq, Inhabited

def EngineError.message : EngineError → String
  | unknownPlan name => s!"Unknown plan: {name}"
  | invalidParams reason => s!"Invalid parameters: {reason}"
  | busy => "Engine is busy running another plan"
  | invalidState operation state => s!"Cannot {operation.text} while engine is {state}"
  | unavailable => "Engine unavailable"

inductive EngineEvent where
  | stateChanged (state : EngineState)
  | error (message : String)
  deriving Repr, DecidableEq, Inhabited

inductive EngineCall where
  | run (id : TaskId) (task : Task)
  | pause (defer : Bool)
  | resume
  deriving Repr, BEq, Inhabited

/-- The answer to a call: the engine afterwards, the events it emitted before it answered,
and its error if it declined. -/
structure EngineReply (σ : Type) where
  engine : σ
  events : List EngineEvent := []
  error : Option EngineError := none
  deriving Repr

/-- An engine with memory `σ`: how it answers a call. -/
class Engine (σ : Type) where
  answer : σ → EngineCall → EngineReply σ

end PlanService
