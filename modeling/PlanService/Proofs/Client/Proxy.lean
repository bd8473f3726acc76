import PlanService.Client.Network
import PlanService.Proofs.Http.Address
import PlanService.Proofs.Wire.ReadBack

/-! # A client stands for the worker

A call of a client whose address leads to a session comes to the same as the command to the
session's worker: the same is done, and the same is told, in the client's words.  On the way the
arguments are written and read back (`readBody_asked`), an error becomes a status with a detail
and an error again (`check_refusal`), and the answer is written and read back
(`readSuccess_json`).
-/

namespace PlanService

open Http (Request Response)

/-- What a worker's error is to a client. -/
def ClientError.ofWorkerError : WorkerError → ClientError
  | .notFound _ => .notFound "Item not found"
  | .conflict reason => .conflict reason
  | .unavailable => .status 500 "Worker unavailable"

namespace Client

/-! ## Reading answers -/

/-- The text of an object does not begin with a byte order mark. -/
theorem bodyText_object {response : Response} {members : List (String × Json)}
    (written : response.body = (Json.object members).compact) : bodyText response = response.body := by
  have begins : ∃ more, response.body.toList = '\x7b' :: more := by
    rw [written, Json.compact, String.toList_ofList]
    cases members <;> exact ⟨_, rfl⟩
  obtain ⟨more, begins⟩ := begins
  rw [bodyText, begins]
  rfl

theorem refusalDetail_response (refusal : Api.Refusal) :
    refusalDetail refusal.response = refusal.detail := by
  have body : refusal.response.body = (Json.object [("detail", .string refusal.detail)]).compact := rfl
  have readable : (Json.object [("detail", .string refusal.detail)]).Readable 127 :=
    .object (List.pairwise_singleton ..) fun m member => by
      cases List.mem_singleton.mp member
      exact .string _
  rw [refusalDetail, bodyText_object body, body, Json.decode_compact _ readable.integral, Json.depthLimit,
    Json.value_draft readable]
  rfl

theorem refusalError_response (error : WorkerError) :
    refusalError (Api.Refusal.ofWorkerError error).response = .ofWorkerError error := by
  rw [refusalError, refusalDetail_response]
  cases error <;> rfl

theorem check_refusal (error : WorkerError) :
    check (Api.Refusal.ofWorkerError error).response = .error (.ofWorkerError error) := by
  have refused : (Api.Refusal.ofWorkerError error).response.isSuccess = false := by cases error <;> rfl
  simp only [check, refused, refusalError_response, Bool.false_eq_true, if_false]

theorem readSuccess_json {α β : Type} {decoder : Json.Decoder α} {use : α → β} {status : Nat} {body : Json}
    {a : α} (success : (Api.json status body).isSuccess = true) (integral : body.Integral)
    (read : decoder Json.depthLimit body.draft = .ok a) :
    readSuccess decoder use (Api.json status body) = .ok (use a) := by
  have decoded : Json.decode decoder (Api.json status body).body = .ok a :=
    (Json.decode_compact decoder integral).trans read
  simp only [readSuccess, check, success, if_true, readBody, decoded]
  rfl

theorem readSuccess_refusal {α β : Type} (decoder : Json.Decoder α) (use : α → β) (error : WorkerError) :
    readSuccess decoder use (Api.Refusal.ofWorkerError error).response = .error (.ofWorkerError error) := by
  rw [readSuccess, check_refusal]
  rfl

theorem readSuccess_withHeader {α β : Type} (decoder : Json.Decoder α) (use : α → β) (response : Response)
    (name value : String) :
    readSuccess decoder use (response.withHeader name value) = readSuccess decoder use response := rfl

theorem readOutcome_refusal (error : WorkerError) :
    readOutcome (Api.Refusal.ofWorkerError error).response = .error (.ofWorkerError error) := by
  have status : (Api.Refusal.ofWorkerError error).response.status ≠ 202 ∧
      (Api.Refusal.ofWorkerError error).response.status ≠ 400 := by
    cases error <;> exact ⟨nofun, nofun⟩
  rw [readOutcome, if_neg status.1, if_neg status.2, check_refusal]
  rfl

theorem readOutcome_json (outcome : Outcome) :
    readOutcome (Api.json (if outcome.accepted then 202 else 400) outcome.state.toJson) = .ok outcome := by
  obtain ⟨accepted, state⟩ := outcome
  have integral : state.toJson.Integral := .string state.text
  have decoded : Json.decode WorkerState.decoder state.toJson.compact = .ok state :=
    (Json.decode_compact _ integral).trans (WorkerState.decoder_draft state _)
  cases accepted <;> simp [readOutcome, Api.json, readBody, decoded, Functor.map, Except.map]

/-! ## The way there -/

/-- What a call sends when its path is asked for as it is. -/
def Call.asked {α : Type} (call : Call α) : Request where
  method := call.method
  target := call.path
  contentType := call.body.map fun _ => "application/json"
  body := (call.body.map Json.compact).getD ""

theorem json_isJson : ((some "application/json").bind Http.MediaType.parse).any Http.MediaType.isJson = true := by
  decide

/-- The body of a call is read as what was written. -/
theorem readBody_asked {α β : Type} {call : Call α} {decoder : Json.Decoder β} {body : Json} {b : β}
    (sent : call.body = some body) (integral : body.Integral)
    (small : body.compact.utf8ByteSize ≤ Api.bodyLimit) (read : decoder Json.depthLimit body.draft = .ok b) :
    Api.readBody decoder call.asked = .ok b := by
  have json : (call.asked.contentType.bind Http.MediaType.parse).any Http.MediaType.isJson = true := by
    rw [Call.asked, sent]
    exact json_isJson
  have text : call.asked.body = body.compact := by
    rw [Call.asked, sent]
    rfl
  rw [Api.readBody, if_pos json, text, if_neg (by omega), Json.decode_compact _ integral, read]

variable {σ : Type}

/-- The client's address is the one that the session listens at. -/
structure Reaches (client : Client) (hosted : Hosted σ) : Prop where
  up : hosted.up = true
  address : ∃ authority : List Char,
    client.baseUrl = String.ofList ("http://".toList ++ authority) ∧ Http.Url.IsAuthority authority ∧
      Http.Url.readAuthority authority = some (hosted.host, hosted.port)

end Client

/-- The stream that goes on after an answer. -/
def Api.Answer.stream? : Api.Answer → Option CompletionStream
  | response _ => none
  | stream _ rest => some rest

/-- The session with its worker replaced. -/
def Hosted.withWorker {σ : Type} (hosted : Hosted σ) (worker : Worker σ) : Hosted σ :=
  { hosted with session := { hosted.session with worker } }

namespace Client

variable {σ : Type}

theorem Reaches.withWorker {client : Client} {hosted : Hosted σ} (reaches : client.Reaches hosted)
    (worker : Worker σ) : client.Reaches (hosted.withWorker worker) :=
  ⟨reaches.up, reaches.address⟩

/-- A plain path below the client's address leads to the session. -/
theorem Reaches.url?_eq {client : Client} {hosted : Hosted σ} (reaches : client.Reaches hosted) {rest : List Char}
    (plain : Http.Url.IsPlainPath rest) :
    client.url? (String.ofList ('/' :: rest)) =
      some { host := hosted.host, port := hosted.port, pieces := Text.split '/' rest, query := none } := by
  obtain ⟨-, authority, address, isAuthority, server⟩ := reaches
  rw [url?, address, ← String.ofList_append]
  exact Http.Url.parse_plain isAuthority server plain

variable [Engine σ]

/-- A session answers what a call with a plain path asks by the route. -/
theorem request_route {α : Type} (session : Session σ) (call : Call α) {rest : List Char} {route : Api.Route}
    (path : call.path = String.ofList ('/' :: rest)) (plain : Http.Url.IsPlainPath rest)
    (goes : Api.Route.ofPath ('/' :: rest) = some route) (known : route.methods.contains call.method = true)
    (shown : call.method ≠ .head) :
    let served := Api.answerRoute session.catalog session.clock session.worker call.asked route
    session.request call.asked =
      (served.1.withHeader Api.versionHeader Api.version, { session with worker := served.2 }) := by
  intro served
  have target : Api.Route.path call.asked.target = '/' :: rest := by
    rw [Call.asked, path]
    exact Api.path_plain plain
  have method : call.asked.method = call.method := rfl
  rw [Session.request, Session.command, Api.serve, target, goes]
  simp only [method, known, if_true, if_neg shown]
  rfl

/-- A call with a plain path comes back with the answer of its route, and with its stream if there is
one. -/
theorem send_route {α : Type} {client : Client} {hosted : Hosted σ} (reaches : client.Reaches hosted)
    (call : Call α) {rest : List Char} {route : Api.Route} (path : call.path = String.ofList ('/' :: rest))
    (plain : Http.Url.IsPlainPath rest) (goes : Api.Route.ofPath ('/' :: rest) = some route)
    (known : route.methods.contains call.method = true) (shown : call.method ≠ .head) :
    let served := Api.answerRoute hosted.session.catalog hosted.session.clock hosted.session.worker call.asked route
    client.send call hosted =
      (.ok (served.1.head.withHeader Api.versionHeader Api.version, served.1.stream?),
        hosted.withWorker served.2) := by
  intro served
  have answered : hosted.session.request call.asked =
      (served.1.withHeader Api.versionHeader Api.version, { hosted.session with worker := served.2 }) :=
    request_route hosted.session call path plain goes known shown
  have up := reaches.up
  have url : client.url? call.path =
      some { host := hosted.host, port := hosted.port, pieces := Text.split '/' rest, query := none } := by
    rw [path]
    exact reaches.url?_eq plain
  have request : call.request
      { host := hosted.host, port := hosted.port, pieces := Text.split '/' rest, query := none } = call.asked := by
    rw [Call.request, Http.Url.target_plain, ← path]
    rfl
  rw [send, url]
  simp only [request, Network.send, up, and_self, if_true, answered]
  cases served.1 <;>
    simp [Api.Answer.withHeader, Api.Answer.head, Api.Answer.stream?, Hosted.withWorker, up]

/-- A call with a plain path is answered by its route. -/
theorem perform_route {α : Type} {client : Client} {hosted : Hosted σ} (reaches : client.Reaches hosted)
    (call : Call α) {rest : List Char} {route : Api.Route} (path : call.path = String.ofList ('/' :: rest))
    (plain : Http.Url.IsPlainPath rest) (goes : Api.Route.ofPath ('/' :: rest) = some route)
    (known : route.methods.contains call.method = true) (shown : call.method ≠ .head)
    (heedless : ∀ response,
      call.read (response.withHeader Api.versionHeader Api.version) = call.read response) :
    let served := Api.answerRoute hosted.session.catalog hosted.session.clock hosted.session.worker call.asked route
    client.perform call hosted = (call.read served.1.head, hosted.withWorker served.2) := by
  intro served
  rw [perform, send_route reaches call path plain goes known shown]
  simp only [Except.bind, heedless]
  rfl

/-! ## Each call -/

/-- What a client is told of a record that was looked up. -/
def found (result : Except WorkerError (Option TrackedTask)) : Except ClientError TrackedTask :=
  (result.mapError .ofWorkerError).bind fun record => record.elim (.error (.notFound "Item not found")) .ok

variable {client : Client} {hosted : Hosted σ}

/-- The server answers a submission with the command for the task that it reads. -/
theorem perform_submit_of_read (reaches : client.Reaches hosted) {task accepted : Task}
    (read : Api.readBody Task.decoder (submit task).asked = .ok accepted)
    (named : Text.isBlank accepted.name = false) :
    client.perform (submit task) hosted =
      ((hosted.session.worker.submit accepted).1.mapError .ofWorkerError,
        hosted.withWorker (hosted.session.worker.submit accepted).2) := by
  have goes : Api.Route.ofPath ('/' :: "tasks".toList) = some .tasks := by decide
  have served (worker : Worker σ) : Api.submitTask worker accepted =
      (Api.answerWith (worker.submit accepted).1 fun id =>
        (Api.json 201 (Submitted.mk id).toJson).withHeader "location" s!"/tasks/{id}", (worker.submit accepted).2) := by
    simp [Api.submitTask, named]
  rw [perform_route reaches (submit task) rfl (by decide) goes rfl nofun fun _ => rfl, Api.answerRoute, read,
    Api.whenRead, served, Api.respond]
  refine congrArg (·, hosted.withWorker (hosted.session.worker.submit accepted).2) ?_
  cases (hosted.session.worker.submit accepted).1 with
  | error error => exact readSuccess_refusal _ _ error
  | ok id =>
    have told : readSuccess Submitted.decoder (·.id) (Api.json 201 (Submitted.mk id).toJson) = .ok id :=
      readSuccess_json rfl (Submitted.integral_toJson ⟨id⟩) (Submitted.decoder_draft ⟨id⟩)
    exact (readSuccess_withHeader _ _ _ _ _).trans told

theorem perform_submit (reaches : client.Reaches hosted) {task : Task} (named : Text.isBlank task.name = false)
    (portable : task.Portable) (small : task.toJson.compact.utf8ByteSize ≤ Api.bodyLimit) :
    client.perform (submit task) hosted =
      ((hosted.session.worker.submit task).1.mapError .ofWorkerError,
        hosted.withWorker (hosted.session.worker.submit task).2) :=
  perform_submit_of_read reaches
    (readBody_asked rfl (Task.integral_toJson portable) small (Task.decoder_draft portable.succ)) named

/-- A client reads of a task what the server writes of its record. -/
theorem perform_task_eq (reaches : client.Reaches hosted) {id : TaskId} (named : id.text ≠ "")
    (plain : ∀ c ∈ id.text.toList, Http.isPlain c = true) :
    client.perform (task id) hosted =
      (readSuccess TrackedTask.decoder (fun record => record)
        (Api.answerWith (hosted.session.worker.get id) (Api.answerItem TrackedTask.toJson)), hosted) := by
  have path : (task id).path = String.ofList ('/' :: ("tasks/".toList ++ id.text.toList)) := by
    refine String.toList_inj.mp ?_
    rw [String.toList_ofList]
    exact String.toList_append
  have plainFront : Http.Url.IsPlainPath "tasks/".toList := by decide
  have plainPath : Http.Url.IsPlainPath ("tasks/".toList ++ id.text.toList) :=
    List.forall_mem_append.mpr ⟨plainFront, fun c member => .inl (plain c member)⟩
  have goes := Api.ofPath_task (fun none => named (String.toList_eq_nil_iff.mp none)) plain
  rw [perform_route reaches (task id) path plainPath goes rfl nofun fun _ => rfl, Api.answerRoute,
    Api.readName_plain plain, Api.whenRead, String.ofList_toList]
  rfl

theorem perform_task (reaches : client.Reaches hosted) {id : TaskId} (named : id.text ≠ "")
    (plain : ∀ c ∈ id.text.toList, Http.isPlain c = true)
    (portable : ∀ record, hosted.session.worker.get id = .ok (some record) → record.task.Portable) :
    client.perform (task id) hosted = (found (hosted.session.worker.get id), hosted) := by
  rw [perform_task_eq reaches named plain]
  refine congrArg (·, hosted) ?_
  cases looked : hosted.session.worker.get id with
  | error error => exact readSuccess_refusal _ _ error
  | ok record =>
    cases record with
    -- The answer is the one to a command that does not find the task.
    | none => exact readSuccess_refusal _ _ (.notFound id)
    | some record =>
      have portable := portable record looked
      exact readSuccess_json rfl (TrackedTask.integral_toJson portable) (TrackedTask.decoder_draft portable)

theorem perform_begin (reaches : client.Reaches hosted) {id : TaskId}
    (small : (ActiveTask.mk (some id)).toJson.compact.utf8ByteSize ≤ Api.bodyLimit) :
    client.perform (begin id) hosted =
      ((hosted.session.worker.begin id).1.mapError .ofWorkerError,
        hosted.withWorker (hosted.session.worker.begin id).2) := by
  have goes : Api.Route.ofPath ('/' :: "worker/task".toList) = some .activeTask := by decide
  have read : Api.readBody ActiveTask.decoder (begin id).asked = .ok ⟨some id⟩ :=
    readBody_asked rfl (ActiveTask.integral_toJson _) small (ActiveTask.decoder_draft _)
  have puts : (begin id).asked.method = .put := rfl
  have served (worker : Worker σ) : Api.setActiveTask worker ⟨some id⟩ =
      (Api.answerWith (worker.begin id).1 fun _ => Api.json 200 (ActiveTask.mk (some id)).toJson,
        (worker.begin id).2) := rfl
  rw [perform_route reaches (begin id) rfl (by decide) goes rfl nofun fun _ => rfl, Api.answerRoute, if_pos puts, read,
    Api.whenRead, served, Api.respond]
  refine congrArg (·, hosted.withWorker (hosted.session.worker.begin id).2) ?_
  cases (hosted.session.worker.begin id).1 with
  | error error => exact check_refusal error
  | ok _ => rfl

theorem perform_active (reaches : client.Reaches hosted) :
    client.perform active hosted =
      ((hosted.session.worker.getActive.1.map (Option.map (·.id))).mapError .ofWorkerError,
        hosted.withWorker hosted.session.worker.getActive.2) := by
  have goes : Api.Route.ofPath ('/' :: "worker/task".toList) = some .activeTask := by decide
  have gets : active.asked.method ≠ .put := nofun
  rw [perform_route reaches active rfl (by decide) goes rfl nofun fun _ => rfl, Api.answerRoute, if_neg gets]
  simp only
  refine congrArg (·, hosted.withWorker hosted.session.worker.getActive.2) ?_
  cases hosted.session.worker.getActive.1 with
  | error error => exact readSuccess_refusal _ _ error
  | ok record =>
    let body : ActiveTask := ⟨record.map (·.id)⟩
    have told : readSuccess ActiveTask.decoder (·.id) (Api.json 200 body.toJson) = .ok body.id :=
      readSuccess_json rfl body.integral_toJson body.decoder_draft
    exact told

theorem perform_state (reaches : client.Reaches hosted) :
    client.perform state hosted = (.ok hosted.session.worker.state, hosted) := by
  have goes : Api.Route.ofPath ('/' :: "worker/state".toList) = some .state := by decide
  have gets : state.asked.method ≠ .put := nofun
  rw [perform_route reaches state rfl (by decide) goes rfl nofun fun _ => rfl, Api.answerRoute, if_neg gets]
  exact congrArg (·, hosted) (readSuccess_json rfl (.string _) (WorkerState.decoder_draft _ _))

theorem small_stateRequest (target : WorkerState) (defer : Bool) :
    (StateRequest.mk target (some defer)).toJson.compact.utf8ByteSize ≤ Api.bodyLimit := by
  cases target <;> cases defer <;> decide

theorem perform_request (reaches : client.Reaches hosted) (target : WorkerState) (defer : Bool) :
    client.perform (request target defer) hosted =
      ((hosted.session.worker.request target defer).1.mapError .ofWorkerError,
        hosted.withWorker (hosted.session.worker.request target defer).2) := by
  have goes : Api.Route.ofPath ('/' :: "worker/state".toList) = some .state := by decide
  have read : Api.readBody StateRequest.decoder (request target defer).asked = .ok ⟨target, some defer⟩ :=
    readBody_asked rfl (StateRequest.integral_toJson _) (small_stateRequest target defer)
      (StateRequest.decoder_draft _)
  have puts : (request target defer).asked.method = .put := rfl
  have served (worker : Worker σ) : Api.setState worker ⟨target, some defer⟩ =
      (Api.answerWith (worker.request target defer).1 fun outcome =>
        Api.json (if outcome.accepted then 202 else 400) outcome.state.toJson,
        (worker.request target defer).2) := rfl
  rw [perform_route reaches (request target defer) rfl (by decide) goes rfl nofun fun _ => rfl, Api.answerRoute,
    if_pos puts, read, Api.whenRead, served, Api.respond]
  refine congrArg (·, hosted.withWorker (hosted.session.worker.request target defer).2) ?_
  cases (hosted.session.worker.request target defer).1 with
  | error error => exact readOutcome_refusal error
  | ok outcome => exact readOutcome_json outcome

/-! ## All calls -/

theorem ofNumber_plain (n : Nat) : ∀ c ∈ (TaskId.ofNumber n).text.toList, Http.isPlain c = true := by
  have padding : ∀ k, ∀ c ∈ List.replicate k '0', Http.isPlain c = true := fun k c member => by
    rw [List.eq_of_mem_replicate member]
    decide
  have digits : ∀ c ∈ Nat.toDigits 10 n, Http.isPlain c = true := fun c member => by
    have isDigit := Json.isDigit_of_mem_toDigits c member
    simp [Http.isPlain, Char.isAlphanum, isDigit]
  simp only [TaskId.ofNumber, String.toList_append, String.toList_ofList, List.forall_mem_append]
  exact ⟨List.all_eq_true.mp (by decide), padding _, digits⟩

theorem ofNumber_named (n : Nat) : (TaskId.ofNumber n).text ≠ "" := by
  intro none
  have letters := congrArg String.toList none
  simp [TaskId.ofNumber] at letters

/-- Whatever the engine, and whether the worker was shut down or not, a call has the result of
the command, with errors in the client's words, and leaves the worker as the command does.  The
bodies that a caller can make long are within the limit of what is read, and tasks are such that
they can be read back; an id is of the form that submitted tasks get where it stands in the
address, and any text where it stands in a body. -/
theorem stands_for_worker (client : Client) (hosted : Hosted σ) (reaches : client.Reaches hosted) :
    let worker := hosted.session.worker
    (∀ task : Task, Text.isBlank task.name = false → task.Portable →
      task.toJson.compact.utf8ByteSize ≤ Api.bodyLimit →
      client.perform (submit task) hosted =
        ((worker.submit task).1.mapError .ofWorkerError, hosted.withWorker (worker.submit task).2)) ∧
    (∀ n, (∀ record, worker.get (.ofNumber n) = .ok (some record) → record.task.Portable) →
      client.perform (task (.ofNumber n)) hosted = (found (worker.get (.ofNumber n)), hosted)) ∧
    (∀ id, (ActiveTask.mk (some id)).toJson.compact.utf8ByteSize ≤ Api.bodyLimit →
      client.perform (begin id) hosted =
        ((worker.begin id).1.mapError .ofWorkerError, hosted.withWorker (worker.begin id).2)) ∧
    client.perform active hosted =
      ((worker.getActive.1.map (Option.map (·.id))).mapError .ofWorkerError,
        hosted.withWorker worker.getActive.2) ∧
    client.perform state hosted = (.ok worker.state, hosted) ∧
    ∀ target defer, client.perform (request target defer) hosted =
      ((worker.request target defer).1.mapError .ofWorkerError,
        hosted.withWorker (worker.request target defer).2) :=
  ⟨fun _ named portable small => perform_submit reaches named portable small,
    fun n portable => perform_task reaches (ofNumber_named n) (ofNumber_plain n) portable,
    fun _ small => perform_begin reaches small, perform_active reaches, perform_state reaches,
    perform_request reaches⟩

/-- There is nothing to begin before a task is submitted, which is then shown, and nothing can be
asked for after a shutdown. -/
theorem stands_until_shutdown :
    let client := ofUrl "http://127.0.0.1:8000/"
    let hosted : Hosted Recording :=
      { host := "127.0.0.1", port := 8000, session := .start {} [] { capacity := 16 } .builtin }
    let count : Task := { name := "count", params := [("limit", .number (.integer 3))] }
    let submitted := hosted.withWorker (hosted.session.worker.submit count).2
    let stopped := submitted.withWorker submitted.session.worker.shutdown.2
    client.perform (begin (.ofNumber 1)) hosted = (.error (.notFound "Item not found"), hosted) ∧
    client.perform (submit count) hosted = (.ok (.ofNumber 1), submitted) ∧
    client.perform (task (.ofNumber 1)) submitted = (.ok { id := .ofNumber 1, task := count }, submitted) ∧
    client.perform (request .paused false) stopped = (.error (.status 500 "Worker unavailable"), stopped) := by
  intro client hosted count submitted stopped
  have reaches : client.Reaches hosted := ⟨rfl, "127.0.0.1:8000".toList, by decide, by decide, by decide⟩
  have portable : count.Portable :=
    .object (List.pairwise_singleton ..) fun m member => by
      cases List.mem_singleton.mp member
      exact .integer ⟨by decide, by decide⟩
  have looked : submitted.session.worker.get (.ofNumber 1) = .ok (some { id := .ofNumber 1, task := count }) :=
    congrArg Except.ok (List.find?_cons_of_pos (beq_self_eq_true _))
  obtain ⟨submits, -, begins, -⟩ := stands_for_worker client hosted reaches
  obtain ⟨-, shows, -⟩ := stands_for_worker client submitted (reaches.withWorker _)
  obtain ⟨-, -, -, -, -, requests⟩ :=
    stands_for_worker client stopped ((reaches.withWorker _).withWorker _)
  refine ⟨begins (.ofNumber 1) (by decide), submits count (by decide) portable (by decide), ?_,
    requests .paused false⟩
  refine (shows 1 fun record found => ?_).trans (congrArg (fun result => (found result, submitted)) looked)
  rw [looked] at found
  cases found
  exact portable

end Client

end PlanService
