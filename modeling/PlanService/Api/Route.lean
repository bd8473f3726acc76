import PlanService.Http.Message
import PlanService.Text.Split

/-! # Routes

The paths of the interface.  A path is matched piece by piece as it is written, before
percent-decoding; names and ids are kept as written.
-/

namespace PlanService.Api

open Http (Method)

/-- The places that requests can go to. -/
inductive Route where
  | plans
  | plan (name : List Char)
  | devices
  | device (name : List Char)
  | tasks
  | task (id : List Char)
  | completion (id : List Char)
  | activeTask
  | state
  deriving Repr, DecidableEq

namespace Route

/-- The path of a request target: what comes before the query, and after the host if one
is named. -/
def path (target : String) : List Char :=
  let cs := target.toList.takeWhile fun c => c ≠ '?' ∧ c ≠ '#'
  match cs with
  | '/' :: _ => cs
  | _ =>
    match cs.dropWhile (· ≠ ':') with
    | ':' :: '/' :: '/' :: rest =>
      match rest.dropWhile (· ≠ '/') with
      | [] => ['/']
      | path => path
    | _ => cs

/-- The route of a path.  A last piece that is empty matches nothing, one in the middle is
an empty id. -/
def ofPath (path : List Char) : Option Route :=
  match (Text.split '/' path).map String.ofList with
  | ["", "plans"] => some plans
  | ["", "plans", name] => if name = "" then none else some (plan name.toList)
  | ["", "devices"] => some devices
  | ["", "devices", name] => if name = "" then none else some (device name.toList)
  | ["", "tasks"] => some tasks
  | ["", "tasks", id] => if id = "" then none else some (task id.toList)
  | ["", "tasks", id, "completion"] => some (completion id.toList)
  | ["", "worker", "task"] => some activeTask
  | ["", "worker", "state"] => some state
  | _ => none

def methods : Route → List Method
  | plans | plan _ | devices | device _ | task _ | completion _ => [.get, .head]
  | tasks => [.post]
  | activeTask | state => [.get, .head, .put]

def allow (route : Route) : String :=
  ",".intercalate (route.methods.map Method.text)

end Route

end PlanService.Api
