import PlanService.Proofs.Client.Proxy
import PlanService.Proofs.Session.Effects
import PlanService.Proofs.Wire.RoundTrip

/-! # What was submitted is shown

A task that is not begun is shown as it was submitted, whatever else happens to the worker.  What a
client makes of it is decided by its parameters: the record puts one more object around the task
than the submission did, and both readers go equally deep.  So a task may be accepted whose record
its own client cannot read (`submission_shown`).
-/

namespace PlanService

open Json.Decoder (needed_read needed_error defaulted_error record_of_fails)

/-! ## Tasks that nest too deep -/

section

variable {task : Task} {depth : Nat}

theorem Task.decoder_of_deep (integral : (Json.object task.params).Integral) (keyed : task.Keyed)
    (deep : ¬ (Json.object task.params).nesting ≤ depth) :
    Task.decoder (depth + 1) task.toJson.draft = .error .tooDeep := by
  have unread : Json.Decoder.members depth (Json.object task.params).draft = .error .tooDeep := by
    rw [Json.members_eq integral keyed, if_neg deep]
  exact record_of_fails (by decide) <| .later (needed_read rfl _ _ _) <| .here (defaulted_error unread _ _ _)

theorem TrackedTask.decoder_of_deep {record : TrackedTask} (integral : (Json.object record.task.params).Integral)
    (keyed : record.task.Keyed) (deep : ¬ (Json.object record.task.params).nesting ≤ depth) :
    TrackedTask.decoder (depth + 2) record.toJson.draft = .error .tooDeep :=
  record_of_fails (by decide) <| .later (needed_read rfl _ _ _) <|
    .here (needed_error (Task.decoder_of_deep integral keyed deep) _ _ _)

theorem Task.integral_of_params (integral : (Json.object task.params).Integral) : task.toJson.Integral := by
  refine .object ?_
  simp only [List.forall_mem_cons]
  exact ⟨.string _, integral, nofun⟩

theorem TrackedTask.integral_of_params {record : TrackedTask} (integral : (Json.object record.task.params).Integral) :
    record.toJson.Integral := by
  refine .object ?_
  simp only [List.forall_mem_cons]
  exact ⟨.string _, Task.integral_of_params integral, .bool _, Json.integral_ofStrings _, nofun⟩

/-- The nesting of its parameters decides whether a record is read. -/
theorem TrackedTask.decode_toJson {record : TrackedTask} (integral : (Json.object record.task.params).Integral)
    (keyed : record.task.Keyed) :
    Json.decode TrackedTask.decoder record.toJson.compact =
      if (Json.object record.task.params).nesting ≤ 125 then .ok record else .error .tooDeep := by
  rw [Json.decode_compact _ (integral_of_params integral)]
  split
  next within => exact TrackedTask.decoder_draft (Json.readable_iff.mpr ⟨integral, keyed, within⟩)
  next deep => exact TrackedTask.decoder_of_deep integral keyed deep

end

/-! ## Tasks that are not begun -/

namespace Worker

variable {σ : Type} [Engine σ]

/-- A task that is submitted and not begun afterwards is as it was submitted, and is not the active
one. -/
theorem get?_of_not_begun {worker : Worker σ} {begun : List TaskId}
    (admission : Admission worker.board.registry worker.active begun)
    (numbered : worker.board.registry.Numbered) (alive : worker.alive = true) (task : Task)
    {later : List (Action σ)} (unbegun : worker.board.registry.nextId ∉ (worker.submit task).2.begun later) :
    ((worker.submit task).2.after later).board.registry.get? worker.board.registry.nextId =
        some { id := worker.board.registry.nextId, task } ∧
      ((worker.submit task).2.after later).active ≠ some worker.board.registry.nextId := by
  have submitted : (worker.submit task).2 = worker.next (.command (.submit task)) := rfl
  have new : (worker.submit task).2.board.registry.get? worker.board.registry.nextId =
      some { id := worker.board.registry.nextId, task } := by
    simp [Worker.submit, alive, Registry.get?_submit, numbered.get?_nextId]
  obtain ⟨record, found, advances⟩ := get?_after later new
  have fresh : worker.board.registry.nextId ∉ begun := by
    intro member
    obtain ⟨record, found⟩ := admission.registered _ member
    rw [numbered.get?_nextId] at found
    cases found
  have stands := (admission.next (.command (.submit task))).after later
  have notBegun : worker.board.registry.nextId ∉
      begun ++ worker.begunBy (.command (.submit task)) ++ (worker.next (.command (.submit task))).begun later := by
    simpa [begunBy, ← submitted] using ⟨fresh, unbegun⟩
  refine ⟨?_, fun isActive => notBegun (stands.mem_of_active isActive)⟩
  have untouched := stands.untouched _ notBegun record found
  have id := Registry.id_of_get? found
  rw [found]
  obtain ⟨_, _, _, _⟩ := record
  cases id
  cases advances.task
  cases untouched.1
  cases untouched.2
  rfl

end Worker

namespace Session

variable {σ : Type} [Engine σ]

/-- How the worker of a session that was started stands: which tasks it has begun so far. -/
theorem exists_admission (engine : σ) (events : List EngineEvent) (bus : Bus) (catalog : Catalog)
    (occurrences : List (Occurrence σ)) :
    let worker := ((start engine events bus catalog).after occurrences).worker
    ∃ begun, Admission worker.board.registry worker.active begun := by
  intro worker
  have same : worker = _ := worker_after _ _
  rw [same, worker_start, ← Worker.after_append]
  exact ⟨_, Admission.empty.after _⟩

/-- 201 answers a submission, and its body names the new task. -/
theorem request_of_created {session : Session σ} {request : Http.Request}
    (created : (session.request request).1.head.status = 201) :
    session.worker.alive = true ∧ ∃ task, Api.readBody Task.decoder request = .ok task ∧
      Text.isBlank task.name = false ∧ session.request request =
        ((Api.Answer.response ((Api.json 201 (Submitted.mk session.worker.board.registry.nextId).toJson).withHeader
            "location" s!"/tasks/{session.worker.board.registry.nextId}")).withHeader
            Api.versionHeader Api.version,
          { session with worker := (session.worker.submit task).2 }) := by
  have effect := Api.serve_effect session.catalog session.clock session.worker request
  have status : (Api.serve session.catalog session.clock session.worker request).1.head.status = 201 := created
  rw [status] at effect
  obtain ⟨⟨posts, goes⟩, alive, task, read, -⟩ := effect.of_created
  have known : Api.Route.tasks.methods.contains request.method = true := by
    rw [posts]
    rfl
  have shown : request.method ≠ .head := posts ▸ nofun
  have named : Text.isBlank task.name = false := by
    by_contra blank
    have refused : (session.request request).1.head.status = 400 := by
      simp only [Session.request, Session.command, Api.serve, goes, known, if_true, if_neg shown, Api.answerRoute,
        read, Api.whenRead, Api.respond, Api.submitTask, if_pos (eq_true_of_ne_false blank)]
      rfl
    rw [created] at refused
    cases refused
  refine ⟨alive, task, read, named, ?_⟩
  simp only [Session.request, Session.command, Api.serve, goes, known, if_true, if_neg shown, Api.answerRoute,
    read, Api.whenRead, Api.respond, Api.submitTask, named, Worker.submit, alive]
  rfl

end Session

theorem Api.decode_of_readBody {α : Type} {decoder : Json.Decoder α} {request : Http.Request} {a : α}
    (read : readBody decoder request = .ok a) : Json.decode decoder request.body = .ok a := by
  unfold readBody at read
  split at read
  · split at read
    · cases read
    · split at read
      next b decoded =>
        cases read
        exact decoded
      next => split at read <;> cases read
  · cases read

namespace Client

/-- What a client makes of the answer that shows a record. -/
theorem readSuccess_record (record : TrackedTask) (integral : (Json.object record.task.params).Integral)
    (keyed : record.task.Keyed) :
    readSuccess TrackedTask.decoder (fun record => record) (Api.json 200 record.toJson) =
      if (Json.object record.task.params).nesting ≤ 125 then .ok record
      else .error (.invalidResponse "error decoding response body") := by
  have decoded : Json.decode TrackedTask.decoder (Api.json 200 record.toJson).body = _ :=
    TrackedTask.decode_toJson integral keyed
  have success : (Api.json 200 record.toJson).isSuccess = true := rfl
  by_cases within : (Json.object record.task.params).nesting ≤ 125
  · rw [if_pos within] at decoded ⊢
    simp only [readSuccess, check, success, if_true, readBody, decoded]
    rfl
  · rw [if_neg within] at decoded ⊢
    simp only [readSuccess, check, success, if_true, readBody, decoded]
    rfl

/-- Whatever task was accepted, with numbers that are integers: as long as it is not begun, a client
that asks for it is answered with the task as the server has read it, neither complete nor with
errors, if its parameters nest at most 125 deep.  If they nest deeper the client cannot read the
answer. -/
theorem submission_shown {σ : Type} [Engine σ] (engine : σ) (events : List EngineEvent) (bus : Bus)
    (catalog : Catalog) (earlier later : List (Session.Occurrence σ)) (request : Http.Request)
    (client : Client) (host : String) (port : Nat) :
    let session := (Session.start engine events bus catalog).after earlier
    let answer := (session.request request).1
    let submitted := (session.request request).2
    let id := session.worker.board.registry.nextId
    let hosted : Hosted σ := { host, port, session := submitted.after later }
    answer.head.status = 201 → client.Reaches hosted → hosted.session.worker.alive = true →
    id ∉ submitted.worker.begun (later.flatMap (·.actions)) →
    ∃ task, Api.readBody Task.decoder request = .ok task ∧
      readSuccess Submitted.decoder (·.id) answer.head = .ok id ∧
      ((Json.object task.params).Integral →
        client.perform (Client.task id) hosted =
          (if (Json.object task.params).nesting ≤ 125 then .ok { id, task }
            else .error (.invalidResponse "error decoding response body"), hosted)) := by
  intro session answer submitted id hosted created reaches alive unbegun
  obtain ⟨wasAlive, task, read, -, answered⟩ := Session.request_of_created created
  have numbered : session.worker.board.registry.Numbered :=
    Session.numbered_start engine events bus catalog earlier
  obtain ⟨isAnswer, isSubmitted⟩ := Prod.ext_iff.mp answered
  have submits : submitted.worker = (session.worker.submit task).2 := congrArg Session.worker isSubmitted
  have told : readSuccess Submitted.decoder (·.id) (Api.json 201 (Submitted.mk id).toJson) = .ok id :=
    readSuccess_json rfl (Submitted.integral_toJson ⟨id⟩) (Submitted.decoder_draft ⟨id⟩)
  refine ⟨task, read, ?_, fun integral => ?_⟩
  · rw [show answer = _ from isAnswer]
    exact (readSuccess_withHeader _ _ _ _ _).trans ((readSuccess_withHeader _ _ _ _ _).trans told)
  have keyed : task.Keyed := by
    obtain ⟨said, readDraft⟩ := exists_of_decode_eq_ok (Api.decode_of_readBody read)
    exact (Task.shaped_of_decoder readDraft).keyed
  obtain ⟨begun, admission⟩ := Session.exists_admission engine events bus catalog earlier
  have looked : hosted.session.worker.get id = .ok (some { id, task }) := by
    rw [submits] at unbegun
    obtain ⟨found, -⟩ := Worker.get?_of_not_begun admission numbered wasAlive task unbegun
    rw [Worker.get, if_pos alive]
    rw [Session.worker_after, submits]
    exact congrArg Except.ok found
  have named : id.text ≠ "" := ofNumber_named _
  have plain : ∀ c ∈ id.text.toList, Http.isPlain c = true := ofNumber_plain _
  rw [perform_task_eq reaches named plain, looked]
  exact congrArg (·, hosted) (readSuccess_record { id, task } integral keyed)

/-! ## At the limit -/

theorem size_utf8Encode_le (cs : List Char) : cs.utf8Encode.size ≤ 4 * cs.length := by
  induction cs with
  | nil => exact Nat.le_refl 0
  | cons c cs ih =>
    have one : [c].utf8Encode.size ≤ 4 := by
      rw [List.utf8Encode_singleton]
      simp [Char.utf8Size_le_four]
    rw [List.utf8Encode_cons, ByteArray.size_append, List.length_cons]
    omega

theorem size_compact_le (v : Json) : v.compact.utf8ByteSize ≤ 4 * v.chars.length := size_utf8Encode_le v.chars

/-- A worker that is alive accepts whatever task its server can read. -/
theorem request_submit {σ : Type} [Engine σ] {session : Session σ} (alive : session.worker.alive = true) {task : Task}
    (readable : (Json.object task.params).Readable 126) (named : Text.isBlank task.name = false)
    (small : 4 * task.toJson.chars.length ≤ Api.bodyLimit) :
    Api.readBody Task.decoder (submit task).asked = .ok task ∧
      (session.request (submit task).asked).1.head.status = 201 ∧
      (session.request (submit task).asked).2 = { session with worker := (session.worker.submit task).2 } := by
  have read : Api.readBody Task.decoder (submit task).asked = .ok task :=
    readBody_asked rfl (Task.integral_of_params readable.integral) (Nat.le_trans (size_compact_le _) small)
      (Task.decoder_draft readable)
  have goes : Api.Route.ofPath ('/' :: "tasks".toList) = some .tasks := by decide
  have status : (session.request (submit task).asked).1.head.status = 201 := by
    rw [request_route session (submit task) rfl (by decide) goes rfl nofun, Api.answerRoute, read]
    simp only [Api.whenRead, Api.respond, Api.submitTask, named, Worker.submit, alive]
    rfl
  obtain ⟨-, same, readSame, -, answered⟩ := Session.request_of_created status
  cases readSame.symm.trans read
  exact ⟨read, status, congrArg (·.2) answered⟩

theorem reaches_local {σ : Type} (session : Session σ) :
    (ofUrl "http://127.0.0.1:8000/").Reaches { host := "127.0.0.1", port := 8000, session } := by
  have server : Http.Url.readAuthority "127.0.0.1:8000".toList = some ("127.0.0.1", 8000) := by decide
  exact ⟨rfl, "127.0.0.1:8000".toList, by decide, by decide, server⟩

/-- An array in an array, and so on. -/
def brackets : Nat → Json
  | 0 => .array []
  | n + 1 => .array [brackets n]

theorem readable_brackets (n : Nat) : (brackets n).Readable (n + 1) := by
  induction n with
  | zero => exact .array (List.forall_mem_nil _)
  | succ n ih =>
    refine .array fun v member => ?_
    cases List.mem_singleton.mp member
    exact ih

theorem readable_params (n : Nat) : (Json.object [("a", brackets n)]).Readable (n + 2) :=
  .object (List.pairwise_singleton ..) fun m member => by
    cases List.mem_singleton.mp member
    exact readable_brackets n

/-- Parameters that nest as deep as they may, and another task that is begun meanwhile. -/
theorem submission_shown_at_limit :
    let client := ofUrl "http://127.0.0.1:8000/"
    let session : Session Recording := .start {} [] { capacity := 16 } .builtin
    let task : Task := ⟨"count", [("a", brackets 123)]⟩
    let request := (submit task).asked
    let later : List (Session.Occurrence Recording) :=
      [.act (.command (.submit { name := "sleep" })), .act (.command (.begin (.ofNumber 2)))]
    let hosted : Hosted Recording :=
      { host := "127.0.0.1", port := 8000, session := (session.request request).2.after later }
    (session.request request).1.head.status = 201 ∧
      client.perform (Client.task (.ofNumber 1)) hosted = (.ok { id := .ofNumber 1, task }, hosted) := by
  intro client session task request later hosted
  have readable : (Json.object task.params).Readable 125 := readable_params 123
  have alive : session.worker.alive = true := rfl
  obtain ⟨read, created, next⟩ := request_submit alive readable.succ (by decide) (by decide +kernel)
  have stillAlive : ((session.request request).2.after later).worker.alive = true := by
    rw [next]
    decide +kernel
  have unbegun : TaskId.ofNumber 1 ∉ (session.request request).2.worker.begun (later.flatMap (·.actions)) := by
    rw [next]
    decide +kernel
  obtain ⟨same, readSame, -, shown⟩ :=
    submission_shown ({} : Recording) [] { capacity := 16 } .builtin [] later request client "127.0.0.1" 8000 created
      (reaches_local _) stillAlive unbegun
  cases readSame.symm.trans read
  rw [if_pos (Json.readable_iff.mp readable).2.nesting_le] at shown
  exact ⟨created, shown readable.integral⟩

/-- What nests deeper and is accepted is there, but the client is not shown it. -/
theorem not_shown_of_deep {task : Task} (readable : (Json.object task.params).Readable 126)
    (named : Text.isBlank task.name = false) (small : 4 * task.toJson.chars.length ≤ Api.bodyLimit)
    (deep : ¬ (Json.object task.params).nesting ≤ 125) :
    let client := ofUrl "http://127.0.0.1:8000/"
    let session : Session Recording := .start {} [] { capacity := 16 } .builtin
    let request := (submit task).asked
    let hosted : Hosted Recording := { host := "127.0.0.1", port := 8000, session := (session.request request).2 }
    (session.request request).1.head.status = 201 ∧ Api.readBody Task.decoder request = .ok task ∧
      task.toJson.Integral ∧ hosted.session.worker.alive = true ∧ hosted.session.worker.active = none ∧
      hosted.session.worker.get (.ofNumber 1) = .ok (some { id := .ofNumber 1, task }) ∧
      client.perform (Client.task (.ofNumber 1)) hosted =
        (.error (.invalidResponse "error decoding response body"), hosted) := by
  intro client session request hosted
  have wasAlive : session.worker.alive = true := rfl
  obtain ⟨read, created, next⟩ := request_submit wasAlive readable named small
  have worker : hosted.session.worker = (session.worker.submit task).2 := congrArg (·.worker) next
  have alive : hosted.session.worker.alive = true := congrArg (·.alive) worker
  have looked : hosted.session.worker.get (.ofNumber 1) = .ok (some { id := .ofNumber 1, task }) := by
    rw [worker]
    exact congrArg Except.ok (List.find?_cons_of_pos (beq_self_eq_true _))
  obtain ⟨integral, shaped⟩ := Json.readable_iff.mp readable
  have unread := readSuccess_record { id := .ofNumber 1, task } integral shaped.keyed
  rw [if_neg deep] at unread
  have shown := perform_task_eq (reaches_local (session.request request).2) (ofNumber_named 1) (ofNumber_plain 1)
  rw [looked] at shown
  exact ⟨created, read, Task.integral_of_params integral, alive, congrArg (·.active) worker, looked,
    shown.trans (congrArg (·, hosted) unread)⟩

/-- One level more than at the limit. -/
theorem submission_not_shown :
    let client := ofUrl "http://127.0.0.1:8000/"
    let session : Session Recording := .start {} [] { capacity := 16 } .builtin
    let task : Task := ⟨"count", [("a", brackets 124)]⟩
    let request := (submit task).asked
    let hosted : Hosted Recording := { host := "127.0.0.1", port := 8000, session := (session.request request).2 }
    (session.request request).1.head.status = 201 ∧ Api.readBody Task.decoder request = .ok task ∧
      task.toJson.Integral ∧ hosted.session.worker.alive = true ∧ hosted.session.worker.active = none ∧
      hosted.session.worker.get (.ofNumber 1) = .ok (some { id := .ofNumber 1, task }) ∧
      client.perform (Client.task (.ofNumber 1)) hosted =
        (.error (.invalidResponse "error decoding response body"), hosted) :=
  not_shown_of_deep (readable_params 124) (by decide) (by decide +kernel) (by decide +kernel)

end Client

end PlanService
