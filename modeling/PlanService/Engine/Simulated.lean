import PlanService.Duration
import PlanService.Engine.Basic
import PlanService.Json.Printer

/-! # The simulated engine

An engine that carries out plans as a number of steps of equal length on a clock.  A plan
takes `num` steps, or a default number, and fails after `fail_after` steps if that is given.
An immediate pause drops the step in flight, which is done again in full after resuming; a
deferred pause waits for the step's end.

The clock is part of the engine and moves only by `Simulated.advance`, which meets every
deadline up to the new time.
-/

namespace PlanService

namespace Simulated

structure Config where
  -- How long one step takes.
  step : Millis := 100
  -- How many steps a plan takes that does not say.
  defaultSteps : Nat := 10
  -- The plans that the engine knows.
  plans : List String := ["count", "sleep"]
  deriving Repr, DecidableEq, Inhabited

structure Run where
  id : TaskId
  -- Steps still to do.
  remaining : Nat
  -- Steps done.
  completed : Nat := 0
  failAfter : Option Nat := none
  -- When the step in flight ends; none while paused.
  deadline : Option Millis
  deriving Repr, DecidableEq, Inhabited

end Simulated

open Simulated (Config Run)

/-- A simulated engine: its settings, its clock and what it is doing. -/
structure Simulated where
  config : Simulated.Config := {}
  now : Millis := 0
  state : EngineState := .idle
  run : Option Simulated.Run := none
  deriving Repr, DecidableEq, Inhabited

namespace Simulated

def initialEvents : List EngineEvent := [.stateChanged .idle]

/-! ## Steps -/

def enter (engine : Simulated) (state : EngineState) : Simulated × List EngineEvent :=
  ({ engine with state }, [.stateChanged state])

def finish (engine : Simulated) : Simulated × List EngineEvent :=
  { engine with run := none }.enter .idle

/-- Ends the step in flight: the plan fails, is done, pauses as requested, or goes on with
the next step. -/
def finishStep (engine : Simulated) : Simulated × List EngineEvent :=
  match engine.run with
  | none => (engine, [])
  | some run =>
    let run := { run with remaining := run.remaining - 1, completed := run.completed + 1 }
    if run.failAfter.any (· ≤ run.completed) then
      let (engine, events) := engine.finish
      (engine, .error s!"plan failed after {run.completed} step(s)" :: events)
    else if run.remaining = 0 then engine.finish
    else if engine.state = .pausing then
      { engine with run := some { run with deadline := none } }.enter .paused
    else
      ({ engine with
          run := some { run with deadline := some (engine.now + engine.config.step) } }, [])

/-- The end of the step in flight, if that is not after `limit`. -/
def due? (engine : Simulated) (limit : Millis) : Option Millis :=
  (engine.run.bind (·.deadline)).filter (· ≤ limit)

/-- How many more steps can end: each one shortens the plan or ends it. -/
def stepsLeft (engine : Simulated) : Nat :=
  match engine.run with
  | none => 0
  | some run => run.remaining + 1

theorem stepsLeft_finish (engine : Simulated) : engine.finish.1.stepsLeft = 0 := rfl

theorem stepsLeft_finishStep_lt {engine : Simulated} (loaded : engine.run.isSome = true) :
    engine.finishStep.1.stepsLeft < engine.stepsLeft := by
  obtain ⟨run, h⟩ := Option.isSome_iff_exists.1 loaded
  have before : engine.stepsLeft = run.remaining + 1 := by simp [stepsLeft, h]
  simp only [finishStep, h, before]
  split
  · rw [stepsLeft_finish]; omega
  · split
    · rw [stepsLeft_finish]; omega
    · split <;> simp only [stepsLeft, enter] <;> omega

theorem isSome_run_of_due? {engine : Simulated} {limit time : Millis}
    (h : engine.due? limit = some time) : engine.run.isSome = true := by
  cases hr : engine.run with
  | none => simp [due?, hr] at h
  | some run => rfl

/-- Meets every deadline up to `limit`, each at its own time. -/
def settle (engine : Simulated) (limit : Millis) : Simulated × List EngineEvent :=
  match h : engine.due? limit with
  | none => (engine, [])
  | some time =>
    let ended := { engine with now := time }.finishStep
    let last := ended.1.settle limit
    (last.1, ended.2 ++ last.2)
termination_by engine.stepsLeft
decreasing_by
  exact @stepsLeft_finishStep_lt { engine with now := time } (isSome_run_of_due? h)

/-- Moves the clock on, meeting every deadline up to and including the new time. -/
def advance (engine : Simulated) (span : Millis) : Simulated × List EngineEvent :=
  let limit := engine.now + span
  let (engine, events) := engine.settle limit
  ({ engine with now := limit }, events)

/-! ## Calls -/

def positiveCount (name : String) (value : Json) : Except EngineError Nat :=
  match value.nat? with
  | some n =>
    if 0 < n then .ok n
    else .error (.invalidParams s!"'{name}' must be a positive integer, got {value.compact}")
  | none =>
    .error (.invalidParams s!"'{name}' must be a positive integer, got {value.compact}")

def plan (config : Config) (task : Task) : Except EngineError (Nat × Option Nat) := do
  if !config.plans.contains task.name then
    throw (.unknownPlan task.name)
  let steps ←
    match task.params.get? "num" with
    | some value => positiveCount "num" value
    | none => pure config.defaultSteps
  let failAfter ←
    match task.params.get? "fail_after" with
    | some value => some <$> positiveCount "fail_after" value
    | none => pure none
  return (steps, failAfter)

/-- Starts a plan.  One without steps is over at once. -/
def start (engine : Simulated) (id : TaskId) (task : Task) : EngineReply Simulated :=
  if engine.state ≠ .idle then { engine, error := some .busy }
  else
    match plan engine.config task with
    | .error error => { engine, error := some error }
    | .ok (steps, failAfter) =>
      let run : Run :=
        { id, remaining := steps, failAfter, deadline := some (engine.now + engine.config.step) }
      let (engine, events) := { engine with run := some run }.enter .running
      if steps = 0 then
        let (engine, more) := engine.finish
        { engine, events := events ++ more }
      else { engine, events }

def pause (engine : Simulated) (defer : Bool) : EngineReply Simulated :=
  if engine.state ≠ .running then
    { engine, error := some (.invalidState .pause engine.state) }
  else
    let (engine, events) := engine.enter .pausing
    if defer then { engine, events }
    else
      let run := engine.run.map fun run => { run with deadline := none }
      let (engine, more) := { engine with run }.enter .paused
      { engine, events := events ++ more }

/-- Goes on after a pause, with a full step. -/
def resume (engine : Simulated) : EngineReply Simulated :=
  if engine.state ≠ .paused then
    { engine, error := some (.invalidState .resume engine.state) }
  else
    let deadline := some (engine.now + engine.config.step)
    let run := engine.run.map fun run => { run with deadline }
    let (engine, events) := { engine with run }.enter .running
    { engine, events }

def perform (engine : Simulated) : EngineCall → EngineReply Simulated
  | .run id task => engine.start id task
  | .pause defer => engine.pause defer
  | .resume => engine.resume

/-- Does what it is asked to and meets the deadlines that are due at once: steps that take
no time are over before the answer. -/
def answer (engine : Simulated) (call : EngineCall) : EngineReply Simulated :=
  let reply := engine.perform call
  let (engine, more) := reply.engine.settle reply.engine.now
  { reply with engine, events := reply.events ++ more }

instance : Engine Simulated where
  answer := answer

end Simulated

end PlanService
