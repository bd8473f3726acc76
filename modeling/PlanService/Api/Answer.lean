import PlanService.Http.Message
import PlanService.Json.Printer
import PlanService.Wire.Bodies
import PlanService.Worker

/-! # Answers of the interface

The plain answers: JSON bodies with a status, and errors, which are JSON objects with one
member `detail`.  Requests that are not understood at all are answered in plain text.
Every answer carries the version of the interface.
-/

namespace PlanService.Api

open Http (Response)

def version : String := "0.0.3"

def versionHeader : String := "x-api-version"

/-- Why a request that was understood is refused. -/
inductive Refusal where
  | notFound (detail : String)
  | conflict (detail : String)
  | badRequest (detail : String)
  | internal (detail : String)
  deriving Repr, DecidableEq, Inhabited

namespace Refusal

def status : Refusal → Nat
  | notFound _ => 404
  | conflict _ => 409
  | badRequest _ => 400
  | internal _ => 500

def detail : Refusal → String
  | notFound detail | conflict detail | badRequest detail | internal detail => detail

def noSuchItem : Refusal := notFound "Item not found"

/-- The refusal that a worker's error amounts to. -/
def ofWorkerError : WorkerError → Refusal
  | .notFound _ => noSuchItem
  | .conflict reason => conflict reason
  | .unavailable => internal "Worker unavailable"

end Refusal

def json (status : Nat) (body : Json) : Response :=
  { status, headers := [("content-type", "application/json")], body := body.compact }

def Refusal.response (refusal : Refusal) : Response :=
  json refusal.status (.object [("detail", .string refusal.detail)])

def plain (status : Nat) (body : String) : Response :=
  { status, headers := [("content-type", "text/plain; charset=utf-8")], body }

def noRoute : Response := { status := 404 }

end PlanService.Api
