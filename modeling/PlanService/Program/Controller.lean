import PlanService.Program.Dialogue

/-! # The controller

What the program says to a running service for each of its commands, and what it prints.
-/

namespace PlanService

namespace Plan

def line (plan : Plan) : String :=
  match plan.description with
  | some description => s!"{plan.name}  {description}"
  | none => plan.name

end Plan

namespace Device

def line (device : Device) : String :=
  let protocols := String.intercalate ", " device.protocols
  s!"{device.name}  [{protocols}]"

end Device

namespace Outcome

def line (outcome : Outcome) : String :=
  if outcome.accepted then s!"accepted (now {outcome.state})"
  else s!"rejected (still {outcome.state})"

end Outcome

namespace Completion

def lines (completion : Completion) : List String :=
  s!"Task {completion.id} {completion.status.text}" :: completion.errors.map ("  " ++ ·)

end Completion

namespace Controller

open Script (act ask printLine printLines)

/-- The task of a plan with parameters, which have to be a JSON object. -/
def readTask (name parameters : String) : Script Task :=
  match Json.decode Json.Decoder.members parameters with
  | .ok params => pure { name, params }
  | .error _ => throw "Parameters must be a JSON object"

def reportEnd (id : TaskId) (limit : Option Millis) : Script Unit := do
  match ← act (.await limit) with
  | .interrupted => throw s!"Stopped waiting for task {id}; it keeps running on the server"
  | .told result =>
    let completion ← Script.ofResult result
    printLines completion.lines
    if completion.status = .failed then throw s!"Task {id} failed"

/-- Submits a task, begins it and waits for its end.  The stream is opened before the task
begins, so that its end cannot be missed. -/
def runTask (client : Client) (task : Task) (limit : Option Millis) : Script Unit := do
  let id ← ask client (Client.submit task)
  printLine s!"Submitted task {id}"
  Script.ofResult (← act (.watch client id))
  ask client (Client.begin id)
  let state ← ask client Client.state
  printLine s!"Worker is {state}"
  reportEnd id limit

/-- What a command does.  A time limit of its own goes before the configured one. -/
def script (client : Client) (settings : Config.Client) : Controller → Script Unit
  | plans none => do printLines ((← ask client Client.plans).map Plan.line)
  | plans (some name) => do printLine (← ask client (Client.plan name)).line
  | devices none => do printLines ((← ask client Client.devices).map Device.line)
  | devices (some name) => do printLine (← ask client (Client.device name)).line
  | run name parameters timeoutSecs => do
    let limit := (timeoutSecs.map (· * 1000)).or settings.completionTimeout
    runTask client (← readTask name parameters) limit
  | submit name parameters => do
    let id ← ask client (Client.submit (← readTask name parameters))
    printLine id.text
  | begin id => do
    ask client (Client.begin id)
    printLine (← ask client Client.state).text
  | task id => do printLine (← ask client (Client.task id)).toJson.pretty
  | active => do
    match ← ask client Client.active with
    | some id => printLine id.text
    | none => printLine "No active task"
  | state => do printLine (← ask client Client.state).text
  | pause defer => do printLine (← ask client (Client.pause defer)).line
  | resume => do printLine (← ask client Client.resume).line

end Controller

end PlanService
