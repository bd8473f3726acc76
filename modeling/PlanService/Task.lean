import PlanService.Json.Basic

/-! # Tasks and their records

A task names a plan and gives its parameters.  Once submitted it has an id and a record,
which says whether it is complete and which errors it met; a completion is what is told
about a complete one.
-/

namespace PlanService

structure TaskId where
  text : String
  deriving Repr, DecidableEq, Inhabited

instance : ToString TaskId := ⟨TaskId.text⟩

/-- A plan with the parameters to run it with, in the order of their names. -/
structure Task where
  name : String
  params : Members := []
  deriving Repr, BEq, Inhabited

/-- The task with one more parameter; one of the same name is replaced. -/
def Task.withParam (task : Task) (key : String) (value : Json) : Task :=
  { task with params := task.params.insert key value }

inductive CompletionStatus where
  | complete
  | failed
  deriving Repr, DecidableEq, Inhabited

namespace CompletionStatus

/-- The status in words, the same everywhere. -/
def text : CompletionStatus → String
  | complete => "complete"
  | failed => "failed"

def ofErrors (errors : List String) : CompletionStatus :=
  if errors.isEmpty then complete else failed

end CompletionStatus

structure Completion where
  id : TaskId
  status : CompletionStatus
  errors : List String
  deriving Repr, DecidableEq, Inhabited

def Completion.ofErrors (id : TaskId) (errors : List String) : Completion :=
  ⟨id, .ofErrors errors, errors⟩

structure TrackedTask where
  id : TaskId
  task : Task
  isComplete : Bool := false
  errors : List String := []
  deriving Repr, BEq, Inhabited

namespace TrackedTask

def completion (record : TrackedTask) : Completion :=
  .ofErrors record.id record.errors

/-- The record with one more error; a complete one keeps its errors. -/
def addError (record : TrackedTask) (message : String) : TrackedTask :=
  if record.isComplete then record else { record with errors := record.errors ++ [message] }

def finish (record : TrackedTask) : TrackedTask :=
  { record with isComplete := true }

end TrackedTask

end PlanService
