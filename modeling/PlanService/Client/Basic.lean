import PlanService.Duration
import PlanService.Http.Message
import PlanService.Http.Url
import PlanService.Json.Printer
import PlanService.Wire.Bodies

/-! # The client

What can be asked of a service from afar.  Each call is a value: the request it sends and
how it reads the response.  How requests travel is left to a `Network`.
-/

namespace PlanService

inductive ClientError where
  -- No response came from the server at this address.
  | transport (url : String)
  | notFound (detail : String)
  | conflict (detail : String)
  -- The server refused with another status.
  | status (code : Nat) (detail : String)
  | invalidResponse (reason : String)
  -- The event that should carry a completion does not.
  | invalidCompletion
  | stream (reason : String)
  | timeout (limit : Millis)
  deriving Repr, DecidableEq, Inhabited

namespace ClientError

def message : ClientError → String
  | transport url => s!"Failed to establish connection to server at {url}"
  | notFound detail => s!"Not found: {detail}"
  | conflict detail => s!"Conflict: {detail}"
  | status code detail => s!"Server returned {code}: {detail}"
  | invalidResponse reason => s!"Invalid response: {reason}"
  | invalidCompletion => "Invalid response"
  | stream reason => s!"Completion stream error: {reason}"
  | timeout limit => s!"Timed out after {limit.text} waiting for task to finish"

end ClientError

/-- A client of the server at an address, kept without slashes at its end. -/
structure Client where
  baseUrl : String
  deriving Repr, DecidableEq, Inhabited

namespace Client

open Http (Method Request Response)

def ofUrl (url : String) : Client :=
  ⟨String.ofList (url.toList.reverse.dropWhile (· = '/')).reverse⟩

/-! ## Calls -/

/-- A call: what is requested, and what the response means. -/
structure Call (α : Type) where
  method : Method
  -- The path below the client's address.
  path : String
  body : Option Json := none
  read : Response → Except ClientError α

def bodyText (response : Response) : String :=
  match response.body.toList with
  | '\uFEFF' :: r => String.ofList r
  | _ => response.body

/-- What a refusal says: the member `detail` of its body, or else all of it. -/
def refusalDetail (response : Response) : String :=
  let text := bodyText response
  match Json.decode Json.Decoder.value text with
  | .ok body => ((body.get? "detail").bind Json.string?).getD text
  | .error _ => text

def refusalError (response : Response) : ClientError :=
  let detail := refusalDetail response
  if response.status = 404 then .notFound detail
  else if response.status = 409 then .conflict detail
  else .status response.status detail

def check (response : Response) : Except ClientError Unit :=
  if response.isSuccess then .ok () else .error (refusalError response)

def readBody {α : Type} (decoder : Json.Decoder α) (response : Response) : Except ClientError α :=
  match Json.decode decoder response.body with
  | .ok a => .ok a
  | .error _ => .error (.invalidResponse "error decoding response body")

def readSuccess {α β : Type} (decoder : Json.Decoder α) (use : α → β) (response : Response) :
    Except ClientError β := do
  check response
  return use (← readBody decoder response)

def plans : Call (List Plan) where
  method := .get
  path := "/plans"
  read := readSuccess PlanList.decoder (·.plans)

/-- A plan of the catalog.  The name goes into the address as it is. -/
def plan (name : String) : Call Plan where
  method := .get
  path := s!"/plans/{name}"
  read := readSuccess Plan.decoder id

def devices : Call (List Device) where
  method := .get
  path := "/devices"
  read := readSuccess DeviceList.decoder (·.devices)

def device (name : String) : Call Device where
  method := .get
  path := s!"/devices/{name}"
  read := readSuccess Device.decoder id

def submit (task : Task) : Call TaskId where
  method := .post
  path := "/tasks"
  body := some task.toJson
  read := readSuccess Submitted.decoder (·.id)

def task (id : TaskId) : Call TrackedTask where
  method := .get
  path := s!"/tasks/{id}"
  read := readSuccess TrackedTask.decoder fun record => record

def begin (id : TaskId) : Call Unit where
  method := .put
  path := "/worker/task"
  body := some (ActiveTask.mk (some id)).toJson
  read := check

def active : Call (Option TaskId) where
  method := .get
  path := "/worker/task"
  read := readSuccess ActiveTask.decoder (·.id)

def state : Call WorkerState where
  method := .get
  path := "/worker/state"
  read := readSuccess WorkerState.decoder fun s => s

def readOutcome (response : Response) : Except ClientError Outcome := do
  let outcome (accepted : Bool) : Except ClientError Outcome := do
    return ⟨accepted, ← readBody WorkerState.decoder response⟩
  if response.status = 202 then outcome true
  else if response.status = 400 then outcome false
  else
    check response
    throw (.invalidResponse "unexpected status from /worker/state")

/-- Asks for a change of state; that it is not allowed is no error. -/
def request (target : WorkerState) (defer : Bool) : Call Outcome where
  method := .put
  path := "/worker/state"
  body := some (StateRequest.mk target (some defer)).toJson
  read := readOutcome

def pause (defer : Bool) : Call Outcome := request .paused defer

def resume : Call Outcome := request .running false

/-! ## Requests -/

/-- The address that a path stands for; none if the client's address is none. -/
def url? (client : Client) (path : String) : Option Http.Url :=
  Http.Url.parse (client.baseUrl ++ path)

def Call.request {α : Type} (call : Call α) (url : Http.Url) : Request where
  method := call.method
  target := url.target
  contentType := call.body.map fun _ => "application/json"
  body := (call.body.map Json.compact).getD ""

end Client

end PlanService
