import PlanService.Catalog
import PlanService.Json.Decoder
import PlanService.Task
import PlanService.WorkerState

/-! # The JSON forms of what crosses the wire

Each type that a request or an answer carries has a form as a JSON value (`toJson`) and a
reader of it (`decoder`).  Members are written in a fixed order.
-/

namespace PlanService

open Json (Decoder)
open Json.Decoder (Field)

namespace TaskId

def toJson (id : TaskId) : Json := .string id.text

def decoder : Decoder TaskId := fun depth v => TaskId.mk <$> Decoder.string depth v

end TaskId

namespace Task

def toJson (task : Task) : Json :=
  .object [("name", .string task.name), ("params", .object task.params)]

def decoder : Decoder Task :=
  Decoder.record
    [Field.needed "name" Decoder.string fun name t => { t with name },
     Field.defaulted "params" Decoder.members fun params t => { t with params }]
    ⟨"", []⟩

end Task

namespace TrackedTask

def toJson (record : TrackedTask) : Json :=
  .object
    [("task_id", record.id.toJson), ("task", record.task.toJson),
     ("is_complete", .bool record.isComplete), ("errors", Json.ofStrings record.errors)]

def decoder : Decoder TrackedTask :=
  Decoder.record
    [Field.needed "task_id" TaskId.decoder fun id t => { t with id },
     Field.needed "task" Task.decoder fun task t => { t with task },
     Field.needed "is_complete" Decoder.bool fun isComplete t => { t with isComplete },
     Field.needed "errors" (Decoder.list Decoder.string) fun errors t => { t with errors }]
    ⟨⟨""⟩, ⟨"", []⟩, false, []⟩

end TrackedTask

namespace CompletionStatus

def toJson (status : CompletionStatus) : Json := .string status.text

def decoder : Decoder CompletionStatus :=
  Decoder.oneOf ([complete, failed].map fun s => (s.text, s))

end CompletionStatus

namespace Completion

def toJson (completion : Completion) : Json :=
  .object
    [("task_id", completion.id.toJson), ("status", completion.status.toJson),
     ("errors", Json.ofStrings completion.errors)]

def decoder : Decoder Completion :=
  Decoder.record
    [Field.needed "task_id" TaskId.decoder fun id c => { c with id },
     Field.needed "status" CompletionStatus.decoder fun status c => { c with status },
     Field.needed "errors" (Decoder.list Decoder.string) fun errors c => { c with errors }]
    ⟨⟨""⟩, .complete, []⟩

end Completion

namespace WorkerState

def toJson (state : WorkerState) : Json := .string state.text

def decoder : Decoder WorkerState := Decoder.oneOf named

end WorkerState

namespace Outcome

def toJson (outcome : Outcome) : Json :=
  .object [("accepted", .bool outcome.accepted), ("state", outcome.state.toJson)]

def decoder : Decoder Outcome :=
  Decoder.record
    [Field.needed "accepted" Decoder.bool fun accepted o => { o with accepted },
     Field.needed "state" WorkerState.decoder fun state o => { o with state }]
    ⟨false, .idle⟩

end Outcome

namespace Plan

def toJson (plan : Plan) : Json :=
  .object (("name", .string plan.name) ::
    match plan.description with
    | some text => [("description", .string text)]
    | none => [])

def decoder : Decoder Plan :=
  Decoder.record
    [Field.needed "name" Decoder.string fun name p => { p with name },
     Field.defaulted "description" (Decoder.option Decoder.string)
       fun description p => { p with description }]
    ⟨"", none⟩

end Plan

namespace Device

def toJson (device : Device) : Json :=
  .object [("name", .string device.name), ("protocols", Json.ofStrings device.protocols)]

def decoder : Decoder Device :=
  Decoder.record
    [Field.needed "name" Decoder.string fun name d => { d with name },
     Field.defaulted "protocols" (Decoder.list Decoder.string)
       fun protocols d => { d with protocols }]
    ⟨"", []⟩

end Device

structure PlanList where
  plans : List Plan
  deriving Repr, DecidableEq, Inhabited

namespace PlanList

def toJson (body : PlanList) : Json := .object [("plans", .array (body.plans.map Plan.toJson))]

def decoder : Decoder PlanList :=
  Decoder.record
    [Field.needed "plans" (Decoder.list Plan.decoder) fun plans b => { b with plans }] ⟨[]⟩

end PlanList

structure DeviceList where
  devices : List Device
  deriving Repr, DecidableEq, Inhabited

namespace DeviceList

def toJson (body : DeviceList) : Json :=
  .object [("devices", .array (body.devices.map Device.toJson))]

def decoder : Decoder DeviceList :=
  Decoder.record
    [Field.needed "devices" (Decoder.list Device.decoder) fun devices b => { b with devices }]
    ⟨[]⟩

end DeviceList

namespace Catalog

def toJson (catalog : Catalog) : Json :=
  .object
    [("plans", .array (catalog.plans.map Plan.toJson)),
     ("devices", .array (catalog.devices.map Device.toJson))]

def decoder : Decoder Catalog :=
  Decoder.record
    [Field.defaulted "plans" (Decoder.list Plan.decoder) fun plans c => { c with plans },
     Field.defaulted "devices" (Decoder.list Device.decoder) fun devices c => { c with devices }]
    ⟨[], []⟩

end Catalog

structure Submitted where
  id : TaskId
  deriving Repr, DecidableEq, Inhabited

namespace Submitted

def toJson (body : Submitted) : Json := .object [("task_id", body.id.toJson)]

def decoder : Decoder Submitted :=
  Decoder.record [Field.needed "task_id" TaskId.decoder fun id b => { b with id }] ⟨⟨""⟩⟩

end Submitted

/-- The task that a worker is on, or is asked to begin. -/
structure ActiveTask where
  id : Option TaskId
  deriving Repr, DecidableEq, Inhabited

namespace ActiveTask

def toJson (body : ActiveTask) : Json :=
  .object
    [("task_id",
      match body.id with
      | some id => id.toJson
      | none => .null)]

def decoder : Decoder ActiveTask :=
  Decoder.record
    [Field.defaulted "task_id" (Decoder.option TaskId.decoder) fun id b => { b with id }] ⟨none⟩

end ActiveTask

structure StateRequest where
  target : WorkerState
  -- Whether a pause may wait for the next checkpoint.
  defer : Option Bool := none
  deriving Repr, DecidableEq, Inhabited

namespace StateRequest

def toJson (body : StateRequest) : Json :=
  .object (("new_state", body.target.toJson) ::
    match body.defer with
    | some defer => [("defer", .bool defer)]
    | none => [])

def decoder : Decoder StateRequest :=
  Decoder.record
    [Field.needed "new_state" WorkerState.decoder fun target b => { b with target },
     Field.defaulted "defer" (Decoder.option Decoder.bool) fun defer b => { b with defer }]
    ⟨.idle, none⟩

end StateRequest

end PlanService
