import PlanService.Task

/-! # The registry

The records of all submitted tasks, in order of submission.  Records are never removed, and
ids count submissions, so a new id is always fresh.
-/

namespace PlanService

/-- The id of the `n`th task: the number with at least four digits. -/
def TaskId.ofNumber (n : Nat) : TaskId :=
  let digits := Nat.toDigits 10 n
  ⟨"task-" ++ String.ofList (List.replicate (4 - digits.length) '0' ++ digits)⟩

structure Registry where
  records : List TrackedTask := []
  deriving Repr, BEq, Inhabited

namespace Registry

def size (registry : Registry) : Nat := registry.records.length

def get? (registry : Registry) (id : TaskId) : Option TrackedTask :=
  registry.records.find? (·.id == id)

def nextId (registry : Registry) : TaskId :=
  .ofNumber (registry.size + 1)

/-- Adds the record of a new task under a fresh id. -/
def submit (registry : Registry) (task : Task) : Registry :=
  ⟨registry.records ++ [{ id := registry.nextId, task }]⟩

def modify (registry : Registry) (id : TaskId) (change : TrackedTask → TrackedTask) : Registry :=
  ⟨registry.records.map fun record => if record.id == id then change record else record⟩

end Registry

end PlanService
