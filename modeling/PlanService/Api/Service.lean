import PlanService.Api.Answer
import PlanService.Api.CompletionStream
import PlanService.Api.Route
import PlanService.Catalog
import PlanService.Http.MediaType
import PlanService.Http.PercentCoding
import PlanService.Text.Blank

/-! # The HTTP service

How requests become commands to a worker, and what is answered.  `serve` finds the route,
checks the method, reads the name or the body the route needs, and only then turns to the
worker; every answer gets the version header.
-/

namespace PlanService.Api

open Http (Method MediaType PercentCoding.decodeText Request Response)

/-- An answer: a response, or a stream that has begun. -/
inductive Answer where
  | response (response : Response)
  | stream (head : Response) (stream : CompletionStream)
  deriving Repr

namespace Answer

def head : Answer → Response
  | response r => r
  | stream h _ => h

def withHeader (answer : Answer) (name value : String) : Answer :=
  match answer with
  | response r => response (r.withHeader name value)
  | stream h s => stream (h.withHeader name value) s

def withoutBody : Answer → Answer
  | response r => response { r with body := "" }
  | stream h _ => response { h with body := "" }

end Answer

/-! ## Reading requests -/

/-- A name or an id in a path; `part` is what the error calls it. -/
def readName (part : String) (raw : List Char) : Except Response String :=
  match PercentCoding.decodeText raw with
  | some name => .ok name
  | none => .error (plain 400 s!"Invalid URL: Invalid UTF-8 in `{part}`")

/-- How many bytes of a body are read at most. -/
def bodyLimit : Nat := 2 * 1024 * 1024

def readBody {α : Type} (decoder : Json.Decoder α) (request : Request) : Except Response α :=
  if (request.contentType.bind MediaType.parse).any MediaType.isJson then
    if bodyLimit < request.body.utf8ByteSize then
      .error (plain 413 "Failed to buffer the request body: length limit exceeded")
    else
      match Json.decode decoder request.body with
      | .ok a => .ok a
      | .error fault =>
        match fault.kind with
        | .form => .error (plain 400 "Failed to parse the request body as JSON")
        | .content =>
          .error (plain 422 "Failed to deserialize the JSON body into the target type")
  else .error (plain 415 "Expected request with `Content-Type: application/json`")

/-! ## Routes -/

variable {σ : Type}

def answerWith {α : Type} (result : Except WorkerError α) (answer : α → Response) : Response :=
  match result with
  | .ok a => answer a
  | .error error => (Refusal.ofWorkerError error).response

def answerItem {α : Type} (toJson : α → Json) : Option α → Response
  | some a => json 200 (toJson a)
  | none => Refusal.noSuchItem.response

def submitTask (worker : Worker σ) (task : Task) : Response × Worker σ :=
  if Text.isBlank task.name then
    ((Refusal.badRequest "Task name must not be empty").response, worker)
  else
    let (result, worker) := worker.submit task
    (answerWith result fun id =>
      (json 201 (Submitted.mk id).toJson).withHeader "location" s!"/tasks/{id}", worker)

/-- Begins the task of the body.  A body without a task changes nothing, and is refused
while a task is active. -/
def setActiveTask [Engine σ] (worker : Worker σ) (body : ActiveTask) : Response × Worker σ :=
  match body.id with
  | some id =>
    let (result, worker) := worker.begin id
    (answerWith result fun _ => json 200 body.toJson, worker)
  | none =>
    let (result, worker) := worker.getActive
    (answerWith result fun record =>
      match record.filter (!·.isComplete) with
      | some active => (Refusal.ofWorkerError (.busyWith active.id)).response
      | none => json 200 body.toJson, worker)

/-- Asks for the state of the body: 202 if the change is allowed, 400 with the present state
if not. -/
def setState [Engine σ] (worker : Worker σ) (body : StateRequest) : Response × Worker σ :=
  let (result, worker) := worker.request body.target (body.defer.getD false)
  (answerWith result fun outcome =>
    json (if outcome.accepted then 202 else 400) outcome.state.toJson, worker)

/-- The head of a stream of events. -/
def streamHead : Response :=
  { status := 200, headers := [("content-type", "text/event-stream")] }

/-- Looks the task up for somebody who has subscribed to it; `now` is when they came. -/
def lookUp (worker : Worker σ) (subscription : Subscription) (now : Millis) : Answer :=
  match worker.get subscription.id with
  | .error error => .response (Refusal.ofWorkerError error).response
  | .ok none => .response Refusal.noSuchItem.response
  | .ok (some record) =>
    .stream streamHead
      { subscription
        known := if record.isComplete then some record.completion else none
        keepAlive := now + CompletionStream.silence }

def openStream (worker : Worker σ) (id : TaskId) (now : Millis) : Answer :=
  lookUp worker (worker.subscribe id) now

def whenRead {α : Type} (read : Except Response α) (worker : Worker σ)
    (answer : α → Answer × Worker σ) : Answer × Worker σ :=
  match read with
  | .ok a => answer a
  | .error response => (.response response, worker)

def respond (result : Response × Worker σ) : Answer × Worker σ :=
  (.response result.1, result.2)

/-- Answers a request whose method the route knows; `now` is when it came. -/
def answerRoute [Engine σ] (catalog : Catalog) (now : Millis) (worker : Worker σ)
    (request : Request) : Route → Answer × Worker σ
  | .plans => (.response (json 200 (PlanList.mk catalog.plans).toJson), worker)
  | .plan name => whenRead (readName "name" name) worker fun name =>
    (.response (answerItem Plan.toJson (catalog.plan? name)), worker)
  | .devices => (.response (json 200 (DeviceList.mk catalog.devices).toJson), worker)
  | .device name => whenRead (readName "name" name) worker fun name =>
    (.response (answerItem Device.toJson (catalog.device? name)), worker)
  | .tasks => whenRead (readBody Task.decoder request) worker fun task =>
    respond (submitTask worker task)
  | .task id => whenRead (readName "task_id" id) worker fun id =>
    (.response (answerWith (worker.get ⟨id⟩) (answerItem TrackedTask.toJson)), worker)
  | .completion id => whenRead (readName "task_id" id) worker fun id =>
    (openStream worker ⟨id⟩ now, worker)
  | .activeTask =>
    if request.method = .put then
      whenRead (readBody ActiveTask.decoder request) worker fun body =>
        respond (setActiveTask worker body)
    else
      let (result, worker) := worker.getActive
      (.response (answerWith result fun record =>
        json 200 (ActiveTask.mk (record.map (·.id))).toJson), worker)
  | .state =>
    if request.method = .put then
      whenRead (readBody StateRequest.decoder request) worker fun body =>
        respond (setState worker body)
    else (.response (json 200 worker.state.toJson), worker)

def serve [Engine σ] (catalog : Catalog) (now : Millis) (worker : Worker σ) (request : Request) :
    Answer × Worker σ :=
  let (answer, worker) : Answer × Worker σ :=
    match Route.ofPath (Route.path request.target) with
    | none => (.response noRoute, worker)
    | some route =>
      if route.methods.contains request.method then
        answerRoute catalog now worker request route
      else (.response { status := 405, headers := [("allow", route.allow)] }, worker)
  let answer := if request.method = .head then answer.withoutBody else answer
  (answer.withHeader versionHeader version, worker)

end PlanService.Api
