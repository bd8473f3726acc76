import PlanService.Api.Service
import PlanService.Proofs.Worker.Run

/-! # Requests as commands

What a request asks of a worker can be read off the request, whatever the worker is doing
(`command?`).  To serve it is to obey this one command, if there is one (`serve_worker`), so
that a worker in service goes through nothing but what a worker on its own can go through.

Seen from the other side, the status of the answer tells what was done (`serve_effect`).  The
reader of an answer learns of a change from three kinds of answers; behind every other one the
worker has at most taken up events that were delivered to it before.
-/

namespace PlanService

/-! ## What a refusal leaves -/

namespace Worker

variable {σ : Type}

theorem drain_of_gone {worker : Worker σ} (gone : worker.alive = false) : worker.drain = worker := by
  simp [drain, gone]

theorem getActive_worker (worker : Worker σ) : worker.getActive.2 = worker.drain := by
  unfold getActive
  split
  next => rfl
  next gone => rw [drain_of_gone (by simpa using gone)]

variable [Engine σ] {worker : Worker σ}

theorem begin_worker_of_error {id : TaskId} {error : WorkerError}
    (refused : (worker.begin id).1 = .error error) : (worker.begin id).2 = worker.drain := by
  cases alive : worker.alive with
  | false => simp [Worker.begin, alive, drain_of_gone alive]
  | true =>
    cases admitted : worker.drain.admission id with
    | error reason => rw [begin_of_error alive admitted]
    | ok task =>
      rw [begin_of_ok alive admitted] at refused
      cases refused

theorem request_worker_of_rejected {target : WorkerState} {defer : Bool}
    (rejected : ∀ shown, (worker.request target defer).1 ≠ .ok ⟨true, shown⟩) :
    (worker.request target defer).2 = worker.drain := by
  cases alive : worker.alive with
  | false => simp [request, alive, drain_of_gone alive]
  | true =>
    cases made : worker.callFor? (.request target defer) with
    | none => rw [request_of_no_call alive made]
    | some call => exact absurd (by rw [request_of_call alive made]) (rejected _)

end Worker

namespace Api

open Http (Method Request Response)

/-! ## Reading a command -/

/-- The route of a request, if the route knows its method. -/
def route? (request : Request) : Option Route :=
  (Route.ofPath (Route.path request.target)).filter (·.methods.contains request.method)

def commandAt? (request : Request) : Route → Option Worker.Command
  | .tasks =>
    ((readBody Task.decoder request).toOption.filter (!Text.isBlank ·.name)).map .submit
  | .task id | .completion id => (readName "task_id" id).toOption.map fun id => .get ⟨id⟩
  | .activeTask =>
    if request.method = .put then
      (readBody ActiveTask.decoder request).toOption.map fun body => body.id.elim .getActive .begin
    else some .getActive
  | .state =>
    if request.method = .put then
      (readBody StateRequest.decoder request).toOption.map fun body =>
        .request body.target (body.defer.getD false)
    else none
  | .plans | .plan _ | .devices | .device _ => none

/-- What a request asks of the worker. -/
def command? (request : Request) : Option Worker.Command :=
  (route? request).bind (commandAt? request)

variable {σ : Type}

theorem whenRead_worker {α : Type} (read : Except Response α) (worker : Worker σ)
    (answer : α → Answer × Worker σ) :
    (whenRead read worker answer).2 = read.toOption.elim worker fun a => (answer a).2 := by
  cases read <;> rfl

theorem submitTask_worker (worker : Worker σ) (task : Task) :
    (submitTask worker task).2 = if Text.isBlank task.name then worker else (worker.submit task).2 := by
  unfold submitTask
  split <;> rfl

variable [Engine σ]

theorem setActiveTask_worker (worker : Worker σ) (body : ActiveTask) :
    (setActiveTask worker body).2 = (worker.handle (body.id.elim .getActive .begin)).2 := by
  obtain ⟨id⟩ := body
  cases id <;> rfl

theorem answerRoute_worker (catalog : Catalog) (now : Millis) (worker : Worker σ) (request : Request)
    (route : Route) :
    (answerRoute catalog now worker request route).2 =
      (commandAt? request route).elim worker fun command => (worker.handle command).2 := by
  cases route with
  | plans => rfl
  | devices => rfl
  | plan name | device name =>
    rw [answerRoute, whenRead_worker]
    cases readName "name" name <;> rfl
  | task id | completion id =>
    rw [answerRoute, whenRead_worker, commandAt?]
    cases readName "task_id" id <;> rfl
  | tasks =>
    rw [answerRoute, whenRead_worker, commandAt?]
    cases readBody Task.decoder request with
    | error response => rfl
    | ok task =>
      simp only [Except.toOption, Option.elim_some, respond, submitTask_worker]
      cases blank : Text.isBlank task.name <;> simp [blank, Option.filter, Worker.handle]
  | activeTask =>
    rw [answerRoute, commandAt?]
    split
    next =>
      rw [whenRead_worker]
      cases readBody ActiveTask.decoder request with
      | error response => rfl
      | ok body => exact setActiveTask_worker worker body
    next => rfl
  | state =>
    rw [answerRoute, commandAt?]
    split
    next =>
      rw [whenRead_worker]
      cases readBody StateRequest.decoder request <;> rfl
    next => rfl

/-- To serve a request is to obey the command that it asks for. -/
theorem serve_worker (catalog : Catalog) (now : Millis) (worker : Worker σ) (request : Request) :
    (serve catalog now worker request).2 =
      (command? request).elim worker fun command => (worker.handle command).2 := by
  rw [serve, command?, route?]
  cases Route.ofPath (Route.path request.target) with
  | none => rfl
  | some route =>
    cases known : route.methods.contains request.method with
    | true =>
      simp only [known, if_true, Option.filter, Option.bind_some]
      exact answerRoute_worker catalog now worker request route
    | false =>
      simp only [known, Bool.false_eq_true, if_false, Option.filter, Option.bind_none, Option.elim_none]

/-! ## Reading an answer -/

@[simp] theorem Answer.status_withHeader (answer : Answer) (name value : String) :
    (answer.withHeader name value).head.status = answer.head.status := by
  cases answer <;> rfl

@[simp] theorem Answer.status_withoutBody (answer : Answer) :
    answer.withoutBody.head.status = answer.head.status := by
  cases answer <;> rfl

theorem status_of_readName_error {part : String} {raw : List Char} {response : Response}
    (refused : readName part raw = .error response) : response.status = 400 := by
  unfold readName at refused
  split at refused
  · cases refused
  · cases refused
    rfl

theorem status_of_readBody_error {α : Type} {decoder : Json.Decoder α} {request : Request}
    {response : Response} (refused : readBody decoder request = .error response) :
    400 ≤ response.status := by
  unfold readBody at refused
  split at refused
  · split at refused
    · cases refused
      decide
    · split at refused
      · cases refused
      · split at refused <;> cases refused <;> decide
  · cases refused
    decide

theorem Refusal.le_status_response (refusal : Refusal) : 400 ≤ refusal.response.status := by
  have same : refusal.response.status = refusal.status := rfl
  rw [same]
  cases refusal <;> simp [status]

/-- What a request did to a worker, as far as the status of the answer tells. -/
inductive Effect (worker : Worker σ) (request : Request) : Nat → Worker σ → Prop
  -- Nothing was done, but delivered events may have been taken up.
  | nothing {status : Nat} {later : Worker σ} (same : later = worker ∨ later = worker.drain)
      (created : status ≠ 201) (accepted : status ≠ 202)
      (begun : status = 200 → route? request = some .activeTask → request.method = .put →
        readBody ActiveTask.decoder request = .ok ⟨none⟩) :
      Effect worker request status later
  | submitted (task : Task) (goes : route? request = some .tasks)
      (read : readBody Task.decoder request = .ok task) (alive : worker.alive = true) :
      Effect worker request 201 (worker.submit task).2
  | begun (id : TaskId) (goes : route? request = some .activeTask) (puts : request.method = .put)
      (read : readBody ActiveTask.decoder request = .ok ⟨some id⟩)
      (done : (worker.begin id).1 = .ok ()) :
      Effect worker request 200 (worker.begin id).2
  | accepted (body : StateRequest) (shown : WorkerState) (goes : route? request = some .state)
      (puts : request.method = .put) (read : readBody StateRequest.decoder request = .ok body)
      (done : (worker.request body.target (body.defer.getD false)).1 = .ok ⟨true, shown⟩) :
      Effect worker request 202 (worker.request body.target (body.defer.getD false)).2

namespace Effect

variable {worker later : Worker σ} {request : Request} {status : Nat}

theorem of_refused (same : later = worker ∨ later = worker.drain) (refused : 400 ≤ status) :
    Effect worker request status later :=
  .nothing same (by omega) (by omega) (by omega)

/-- Where nothing can be begun, 200 means that nothing was. -/
theorem of_shown (elsewhere : route? request = some .activeTask → request.method ≠ .put)
    (same : later = worker ∨ later = worker.drain) (shown : status = 200 ∨ 400 ≤ status) :
    Effect worker request status later :=
  .nothing same (by omega) (by omega) fun _ goes puts => absurd puts (elsewhere goes)

theorem submitTask {task : Task} (goes : route? request = some .tasks)
    (read : readBody Task.decoder request = .ok task) :
    Effect worker request (submitTask worker task).1.status (submitTask worker task).2 := by
  unfold Api.submitTask
  split
  next => exact of_refused (.inl rfl) (Refusal.le_status_response _)
  next =>
    cases alive : worker.alive with
    | true =>
      have created : (worker.submit task).1 = .ok worker.board.registry.nextId := by
        simp [Worker.submit, alive]
      simp only [created]
      exact .submitted task goes read alive
    | false =>
      have refused : worker.submit task = (.error .unavailable, worker) := by
        simp [Worker.submit, alive]
      simp only [refused]
      exact of_refused (.inl rfl) (Refusal.le_status_response _)

theorem setActiveTask {body : ActiveTask} (goes : route? request = some .activeTask)
    (puts : request.method = .put) (read : readBody ActiveTask.decoder request = .ok body) :
    Effect worker request (setActiveTask worker body).1.status (setActiveTask worker body).2 := by
  obtain ⟨_ | id⟩ := body
  case none =>
    have same : worker.getActive.2 = worker ∨ worker.getActive.2 = worker.drain :=
      .inr worker.getActive_worker
    simp only [Api.setActiveTask]
    cases worker.getActive.1 with
    | error error => exact of_refused same (Refusal.le_status_response _)
    | ok record =>
      simp only [answerWith]
      split
      next => exact of_refused same (Refusal.le_status_response _)
      next => exact .nothing same (by decide) (by decide) fun _ _ _ => read
  case some =>
    simp only [Api.setActiveTask]
    cases done : (worker.begin id).1 with
    | error error => exact of_refused (.inr (Worker.begin_worker_of_error done)) (Refusal.le_status_response _)
    | ok _ => exact .begun id goes puts read done

theorem setState {body : StateRequest} (goes : route? request = some .state)
    (puts : request.method = .put) (read : readBody StateRequest.decoder request = .ok body) :
    Effect worker request (setState worker body).1.status (setState worker body).2 := by
  simp only [Api.setState]
  cases done : (worker.request body.target (body.defer.getD false)).1 with
  | error error =>
    exact of_refused (.inr (Worker.request_worker_of_rejected (by simp [done]))) (Refusal.le_status_response _)
  | ok outcome =>
    obtain ⟨_ | _, shown⟩ := outcome
    · exact of_refused (.inr (Worker.request_worker_of_rejected (by simp [done]))) (Nat.le_refl 400)
    · exact .accepted body shown goes puts read done

theorem whenRead {α : Type} {read : Except Response α} {answer : α → Answer × Worker σ}
    (refuses : ∀ response, read = .error response → 400 ≤ response.status)
    (answers : ∀ a, read = .ok a → Effect worker request (answer a).1.head.status (answer a).2) :
    Effect worker request (whenRead read worker answer).1.head.status
      (whenRead read worker answer).2 := by
  cases read with
  | error response => exact of_refused (.inl rfl) (refuses response rfl)
  | ok a => exact answers a rfl

end Effect

theorem status_answerItem {α : Type} (toJson : α → Json) (item : Option α) :
    (answerItem toJson item).status = 200 ∨ 400 ≤ (answerItem toJson item).status := by
  cases item with
  | none => exact .inr (Refusal.le_status_response _)
  | some a => exact .inl rfl

theorem answerRoute_effect (catalog : Catalog) (now : Millis) (worker : Worker σ) {request : Request}
    {route : Route} (goes : route? request = some route) :
    Effect worker request (answerRoute catalog now worker request route).1.head.status
      (answerRoute catalog now worker request route).2 := by
  have unread {part : String} {raw : List Char} (response : Response)
      (refused : readName part raw = .error response) : 400 ≤ response.status :=
    Nat.le_of_eq (status_of_readName_error refused).symm
  cases route with
  | plans | devices => exact .of_shown (by simp [goes]) (.inl rfl) (.inl rfl)
  | plan name | device name =>
    exact .whenRead unread fun _ _ => .of_shown (by simp [goes]) (.inl rfl) (status_answerItem _ _)
  | tasks => exact .whenRead (fun _ => status_of_readBody_error) fun _ read => .submitTask goes read
  | task id =>
    refine .whenRead unread fun id _ => .of_shown (by simp [goes]) (.inl rfl) ?_
    cases worker.get ⟨id⟩ with
    | error error => exact .inr (Refusal.le_status_response _)
    | ok record => exact status_answerItem _ record
  | completion id =>
    refine .whenRead unread fun id _ => .of_shown (by simp [goes]) (.inl rfl) ?_
    simp only [openStream, lookUp]
    split
    · exact .inr (Refusal.le_status_response _)
    · exact .inr (Refusal.le_status_response _)
    · exact .inl rfl
  | activeTask =>
    rw [answerRoute]
    split
    next puts =>
      exact .whenRead (fun _ => status_of_readBody_error) fun _ read => .setActiveTask goes puts read
    next shows =>
      refine .of_shown (fun _ => shows) (.inr worker.getActive_worker) ?_
      simp only
      cases worker.getActive.1 with
      | error error => exact .inr (Refusal.le_status_response _)
      | ok record => exact .inl rfl
  | state =>
    rw [answerRoute]
    split
    next puts =>
      exact .whenRead (fun _ => status_of_readBody_error) fun _ read => .setState goes puts read
    next => exact .of_shown (by simp [goes]) (.inl rfl) (.inl rfl)

/-- The status of an answer tells what the request did. -/
theorem serve_effect (catalog : Catalog) (now : Millis) (worker : Worker σ) (request : Request) :
    Effect worker request (serve catalog now worker request).1.head.status
      (serve catalog now worker request).2 := by
  have status (answer : Answer) :
      ((if request.method = .head then answer.withoutBody else answer).withHeader
        versionHeader version).head.status = answer.head.status := by
    split <;> simp
  rw [serve]
  simp only [status]
  cases found : Route.ofPath (Route.path request.target) with
  | none =>
    have refused : 400 ≤ noRoute.status := by decide
    exact .of_refused (.inl rfl) refused
  | some route =>
    simp only
    split
    next known =>
      have goes : route? request = some route := by rw [route?, found, Option.filter, if_pos known]
      exact answerRoute_effect catalog now worker goes
    next =>
      have refused : 400 ≤ 405 := by decide
      exact .of_refused (.inl rfl) refused

end Api

end PlanService
