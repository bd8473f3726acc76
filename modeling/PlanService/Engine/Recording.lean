import PlanService.Engine.Basic

/-! # The recording engine

An engine that carries nothing out: it keeps a list of the calls it got and reports the
state that was asked for.  A script can be laid down for the next call of a kind, with the
events to emit and the error to answer.
-/

namespace PlanService

namespace Recording

inductive Kind where
  | run
  | pause
  | resume
  deriving Repr, DecidableEq, Inhabited

structure Script where
  events : List EngineEvent := []
  error : Option EngineError := none
  deriving Repr, DecidableEq, Inhabited

end Recording

/-- A recording engine: its scripts, in order, and the calls it got. -/
structure Recording where
  scripts : List (Recording.Kind × Recording.Script) := []
  calls : List EngineCall := []
  deriving Repr

namespace Recording

def Kind.of : EngineCall → Kind
  | .run _ _ => run
  | .pause _ => pause
  | .resume => resume

/-- What a call does that has no script: the engine is at once where it was asked to be. -/
def Kind.usual : Kind → Script
  | run => { events := [.stateChanged .running] }
  | pause => { events := [.stateChanged .paused] }
  | resume => { events := [.stateChanged .running] }

/-- Lays down a script for the next call of a kind that has none yet. -/
def script (engine : Recording) (kind : Kind) (script : Script) : Recording :=
  { engine with scripts := engine.scripts ++ [(kind, script)] }

def answer (engine : Recording) (call : EngineCall) : EngineReply Recording :=
  let kind := Kind.of call
  let script := (engine.scripts.lookup kind).getD kind.usual
  { engine :=
      { scripts := engine.scripts.eraseP (·.1 == kind), calls := engine.calls ++ [call] }
    events := script.events
    error := script.error }

instance : Engine Recording where
  answer := answer

end Recording

end PlanService
