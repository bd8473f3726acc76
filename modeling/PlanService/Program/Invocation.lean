import PlanService.CommandLine.Help
import PlanService.Task

/-! # Invocations

What the program is asked to do by its command line.
-/

namespace PlanService

open CommandLine (Command Grammar Level Opt Operand Stop)

/-- What a running service is asked from afar. -/
inductive Controller where
  | plans (name : Option String)
  | devices (name : Option String)
  -- Submit a task, begin it and wait for its end.
  | run (name parameters : String) (timeoutSecs : Option Nat)
  | submit (name parameters : String)
  | begin (id : TaskId)
  | task (id : TaskId)
  | active
  | state
  | pause (defer : Bool)
  | resume
  deriving Repr, DecidableEq, Inhabited

/-- What the program is to do. -/
inductive Order where
  | serve
  -- The old name of `serve`.
  | worker
  | controller (url : Option String) (command : Controller)
  deriving Repr, DecidableEq, Inhabited

structure Invocation where
  config : Option String
  logLevel : Option String
  order : Option Order
  deriving Repr, DecidableEq, Inhabited

namespace Invocation

/-! ## The grammar -/

def parameters : Opt :=
  ⟨"parameters", 'p', .value .text (some "\x7b\x7d"), "Plan parameters as a JSON object"⟩

def controllerCommands : List Command :=
  let planName : Operand := ⟨"name", true, "Plan name"⟩
  let taskId : Operand := ⟨"task_id", true, "Task id"⟩
  [{ name := "plans", about := "List available plans, or show one"
     operand := some { planName with needed := false } },
   { name := "devices", about := "List available devices, or show one"
     operand := some ⟨"name", false, "Device name"⟩ },
   { name := "run", about := "Submit a plan, run it and wait for it to finish"
     options := [parameters,
       ⟨"timeout", 't', .value .natural none, "Give up waiting after this many seconds"⟩]
     operand := some planName },
   { name := "submit", about := "Submit a plan without starting it"
     options := [parameters], operand := some planName },
   { name := "begin", about := "Begin a previously submitted task", operand := some taskId },
   { name := "task", about := "Show a task", operand := some taskId },
   { name := "active", about := "Show the active task id" },
   { name := "state", about := "Show the worker state" },
   { name := "pause", about := "Pause the running plan"
     options := [⟨"defer", 'd', .flag,
       "Pause at the next checkpoint instead of immediately"⟩] },
   { name := "resume", about := "Resume the paused plan" }]

def grammar : Grammar where
  version := "0.1.0"
  shared :=
    [⟨"config", 'c', .value .path none, "Path to config file"⟩,
     ⟨"log-level", 'l', .value .text none, "Log level (TRACE, DEBUG, INFO, WARN, ERROR)"⟩]
  program :=
    { name := "pw", about := "Run and control a single-active-task plan worker"
      commands :=
        [{ name := "serve", about := "Run the worker and its HTTP API" },
         { name := "worker", about := "(Deprecated) Alias of `serve`" },
         { name := "controller", about := "Talk to a running worker"
           options := [⟨"url", 'u', .value .text none,
             "Server URL (defaults to the configured api host and port)"⟩]
           commands := controllerCommands, commandNeeded := true }] }

/-! ## What it means -/

def controller? (level : Level) : Option Controller :=
  let name := level.text? "name"
  let parameters := (level.text? "parameters").getD ""
  let id : Option TaskId := (level.text? "task_id").map TaskId.mk
  match level.name with
  | "plans" => some (.plans name)
  | "devices" => some (.devices name)
  | "run" => name.map fun name => .run name parameters (level.natural? "timeout")
  | "submit" => name.map fun name => .submit name parameters
  | "begin" => id.map .begin
  | "task" => id.map .task
  | "active" => some .active
  | "state" => some .state
  | "pause" => some (.pause (level.has "defer"))
  | "resume" => some .resume
  | _ => none

def order? : List Level → Option Order
  | [level] =>
    match level.name with
    | "serve" => some .serve
    | "worker" => some .worker
    | _ => none
  | [outer, inner] => (controller? inner).map (.controller (outer.text? "url"))
  | _ => none

/-- What was given for an option that all commands understand: the innermost counts. -/
def innermost? (levels : List Level) (name : String) : Option String :=
  levels.reverse.findSome? (·.text? name)

def ofLevels (levels : List Level) : Invocation where
  config := innermost? levels "config"
  logLevel := innermost? levels "log-level"
  order := order? (levels.drop 1)

def read (words : List String) : Except Stop Invocation :=
  ofLevels <$> grammar.read words

end Invocation

end PlanService
