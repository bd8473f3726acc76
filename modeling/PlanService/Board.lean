import PlanService.Bus
import PlanService.Engine.Basic
import PlanService.Registry

/-! # The board

What a worker shows to the world: the records of its tasks, its state, and the bus on which
completions are announced.  `Board.apply` is the one place where engine events change it.

An engine event counts for the active task only.  The task ends when the state falls back
to idle from another one; an idle event while idle already says nothing about a task that
is just being started.
-/

namespace PlanService

/-- The records, the state and the bus. -/
structure Board where
  registry : Registry := {}
  state : WorkerState := .idle
  bus : Bus
  deriving Repr

namespace Board

/-- Credits an error to a task that is not complete yet. -/
def addError (board : Board) (id : TaskId) (message : String) : Board :=
  { board with registry := board.registry.modify id (·.addError message) }

/-- Completes a task and announces it, unless it is complete already. -/
def complete (board : Board) (id : TaskId) : Board :=
  match board.registry.get? id with
  | none => board
  | some record =>
    if record.isComplete then board
    else
      { board with
        registry := board.registry.modify id TrackedTask.finish
        bus := board.bus.publish record.completion }

/-- Ends a task that could not be started, with the reason as its last error. -/
def fail (board : Board) (id : TaskId) (reason : String) : Board :=
  (board.addError id reason).complete id

/-- Takes note of one engine event while `active` is the active task. -/
def apply (board : Board) (event : EngineEvent) (active : Option TaskId) : Board :=
  match event with
  | .stateChanged engineState =>
    let next := engineState.workerState
    let ended := board.state != .idle && next == .idle
    let board := { board with state := next }
    match active with
    | some id =>
      if ended then
        (if engineState == .panicked then board.addError id "Engine panicked" else board).complete id
      else board
    | none => board
  | .error message =>
    match active with
    | some id => board.addError id message
    | none => board

def applyAll (board : Board) (events : List EngineEvent) (active : Option TaskId) : Board :=
  events.foldl (fun b e => b.apply e active) board

end Board

end PlanService
