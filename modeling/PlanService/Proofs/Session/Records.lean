import PlanService.Proofs.Session.Run
import PlanService.Proofs.Worker.Admission
import PlanService.Proofs.Worker.Waiting

/-! # Records are permanent

Whatever happens in a session, a record that is there stays, and only goes forward
(`TrackedTask.Advances`).  New records come from submissions alone, one from each that is
answered with success, be it a command or a request: `Registry.tasks`, the submitted tasks in
order, grows by just these, and ids count the tasks.
-/

namespace PlanService

namespace Registry

/-- The tasks that were submitted, in order. -/
def tasks (registry : Registry) : List Task := registry.records.map (·.task)

@[simp] theorem length_tasks (registry : Registry) : registry.tasks.length = registry.size :=
  List.length_map ..

@[simp] theorem tasks_submit (registry : Registry) (task : Task) :
    (registry.submit task).tasks = registry.tasks ++ [task] := by
  simp [submit, tasks]

theorem tasks_modify {registry : Registry} {id : TaskId} {change : TrackedTask → TrackedTask}
    (keepsTask : ∀ record, (change record).task = record.task) :
    (registry.modify id change).tasks = registry.tasks := by
  simp only [tasks, modify, List.map_map, List.map_inj_left, Function.comp_apply]
  intro record _
  split <;> simp [keepsTask]

/-- Ids are only added: they are the first so many numbers. -/
theorem Numbered.ids_prefix {registry later : Registry} (numbered : registry.Numbered)
    (numberedLater : later.Numbered) (grown : registry.size ≤ later.size) :
    registry.ids <+: later.ids := by
  obtain ⟨more, same⟩ := Nat.exists_eq_add_of_le grown
  rw [numbered, numberedLater, same, List.range_add, List.map_append]
  exact List.prefix_append _ _

end Registry

namespace Board

/-- The task that a change submits. -/
def Change.task? : Change → Option Task
  | submit task => some task
  | apply _ _ | fail _ _ => none

theorem task?_of_credited {change : Change} {active : Option TaskId} (credited : change.CreditedTo active) :
    change.task? = none := by
  cases change with
  | submit task => exact credited.elim
  | _ => rfl

theorem filterMap_task?_of_credited {changes : List Change} {active : Option TaskId}
    (credited : ∀ change ∈ changes, change.CreditedTo active) : changes.filterMap (·.task?) = [] :=
  List.filterMap_eq_nil_iff.mpr fun change member => task?_of_credited (credited change member)

theorem tasks_perform (board : Board) (change : Change) :
    (board.perform change).registry.tasks = board.registry.tasks ++ change.task?.toList := by
  cases change with
  | submit task => exact Registry.tasks_submit _ task
  | _ =>
    refine Eq.trans ?_ (List.append_nil _).symm
    refine perform_induction (P := fun later => later.registry.tasks = board.registry.tasks)
      (fun _ _ same => same) (fun later id message _ same => ?_) (fun later id _ same => ?_) rfl rfl
    · exact (Registry.tasks_modify fun record => (record.advances_addError message).task).trans same
    · unfold complete
      split
      · exact same
      · split
        · exact same
        · exact (Registry.tasks_modify fun record => record.advances_finish.task).trans same

theorem tasks_performAll (board : Board) (changes : List Change) :
    (board.performAll changes).registry.tasks = board.registry.tasks ++ changes.filterMap (·.task?) := by
  induction changes generalizing board with
  | nil => exact (List.append_nil _).symm
  | cons change changes ih =>
    rw [performAll_cons, ih, tasks_perform, List.append_assoc]
    cases submits : change.task? <;> simp [submits]

end Board

namespace Worker

variable {σ : Type} [Engine σ]

/-- The task that an action submits: a command to submit it that is answered with success. -/
def submittedBy (worker : Worker σ) : Action σ → List Task
  | .command (.submit task) => if (worker.submit task).1.isOk then [task] else []
  | _ => []

theorem filterMap_task?_changes (worker : Worker σ) (action : Action σ) :
    (worker.changes action).filterMap (·.task?) = worker.submittedBy action := by
  have pending := Board.filterMap_task?_of_credited worker.credited_pending
  have calling (call : EngineCall) : (worker.changesOf call).filterMap (·.task?) = [] :=
    Board.filterMap_task?_of_credited (worker.credited_changesOf call)
  cases action with
  | engine act => rfl
  | publish completion => rfl
  | takeUp =>
    simp only [changes]
    split
    · exact Board.filterMap_task?_of_credited (Board.credited_apply _ worker.active)
    · rfl
  | command command =>
    simp only [changes]
    cases alive : worker.alive with
    | false => cases command <;> simp [changesFor, alive, submittedBy, submit, Except.isOk, Except.toBool]
    | true =>
      cases drains : command.drains with
      | true =>
        rw [changesFor_of_drains alive drains, List.filterMap_append, pending]
        cases worker.callFor? command with
        | none => cases command <;> first | rfl | cases drains
        | some call =>
          rw [Option.elim_some, calling]
          cases command <;> first | rfl | cases drains
      | false =>
        cases command with
        | submit task =>
          simp [changesFor, alive, submittedBy, submit, Except.isOk, Except.toBool, Board.Change.task?]
        | get id => simp [changesFor, submittedBy]
        | shutdown => simp [changesFor, submittedBy]
        | _ => cases drains

theorem tasks_next (worker : Worker σ) (action : Action σ) :
    (worker.next action).board.registry.tasks =
      worker.board.registry.tasks ++ worker.submittedBy action := by
  rw [registry_next, Board.tasks_performAll, filterMap_task?_changes]

theorem get?_after {worker : Worker σ} (actions : List (Action σ)) {id : TaskId} {record : TrackedTask}
    (found : worker.board.registry.get? id = some record) :
    ∃ later, (worker.after actions).board.registry.get? id = some later ∧ record.Advances later := by
  induction actions generalizing worker record with
  | nil => exact ⟨record, found, .refl record⟩
  | cons action actions ih =>
    obtain ⟨middle, found, advances⟩ := get?_next action found
    obtain ⟨last, found, more⟩ := ih found
    exact ⟨last, found, advances.trans more⟩

end Worker

/-- An answer with 201 tells that the task in the body of the request was submitted; no other
answer hides a submission. -/
theorem Api.Effect.tasks_eq {σ : Type} [Engine σ] {worker later : Worker σ} {request : Http.Request}
    {status : Nat} (effect : Effect worker request status later) :
    later.board.registry.tasks = worker.board.registry.tasks ++
      if status = 201 then (readBody Task.decoder request).toOption.toList else [] := by
  -- Whatever else was done is an action of the worker that submits nothing.
  have silent (action : Worker.Action σ) (none : worker.submittedBy action = []) :
      (worker.next action).board.registry.tasks = worker.board.registry.tasks ++ [] := by
    rw [Worker.tasks_next, none]
  cases effect with
  | nothing same created =>
    rw [if_neg created]
    rcases same with rfl | rfl
    · exact (List.append_nil _).symm
    · rw [← Worker.getActive_worker]
      exact silent (.command .getActive) rfl
  | submitted task goes read alive =>
    rw [if_pos rfl, read]
    simp [Worker.submit, alive, Except.toOption]
  | begun id => exact silent (.command (.begin id)) rfl
  | accepted body => exact silent (.command (.request body.target (body.defer.getD false))) rfl

namespace Session

variable {σ : Type} [Engine σ]

/-- The task that an occurrence submits with success: by a command, or by a request that is
answered with 201. -/
def submittedBy (session : Session σ) : Occurrence σ → List Task
  | .act action => session.worker.submittedBy action
  | .request request =>
    if (session.request request).1.head.status = 201 then
      (Api.readBody Task.decoder request).toOption.toList
    else []
  | .pass _ => []

def submitted (session : Session σ) : List (Occurrence σ) → List Task
  | [] => []
  | occurrence :: later =>
    session.submittedBy occurrence ++ (session.next occurrence).submitted later

theorem tasks_next (session : Session σ) (occurrence : Occurrence σ) :
    (session.next occurrence).worker.board.registry.tasks =
      session.worker.board.registry.tasks ++ session.submittedBy occurrence := by
  cases occurrence with
  | act action => exact session.worker.tasks_next action
  | pass span => exact (List.append_nil _).symm
  | request request =>
    exact (Api.serve_effect session.catalog session.clock session.worker request).tasks_eq

theorem tasks_after (session : Session σ) (occurrences : List (Occurrence σ)) :
    (session.after occurrences).worker.board.registry.tasks =
      session.worker.board.registry.tasks ++ session.submitted occurrences := by
  induction occurrences generalizing session with
  | nil => exact (List.append_nil _).symm
  | cons occurrence occurrences ih =>
    rw [after_cons, ih, tasks_next, List.append_assoc, submitted]

theorem numbered_start (engine : σ) (events : List EngineEvent) (bus : Bus) (catalog : Catalog)
    (occurrences : List (Occurrence σ)) :
    ((start engine events bus catalog).after occurrences).worker.board.registry.Numbered := by
  rw [worker_after, worker_start]
  exact Worker.numbered_after (Worker.numbered_after Registry.numbered_empty _) _

/-- Between any two points of a session, whatever its engine does and in whatever order
commands, requests and events come: a record that is there at the first is there at the second
under the same id, with the same task; it may have become complete, but not the reverse; errors
may have been added, but none once it was complete.  The registry has grown by one record for
each task that was submitted with success in between, in this order, and by nothing else; no
two records share an id. -/
theorem records_permanent (engine : σ) (events : List EngineEvent) (bus : Bus) (catalog : Catalog)
    (earlier later : List (Occurrence σ)) :
    let first := (start engine events bus catalog).after earlier
    let before := first.worker.board.registry
    let after := (first.after later).worker.board.registry
    (∀ id record, before.get? id = some record → record.id = id ∧
      ∃ last, after.get? id = some last ∧ last.id = id ∧ last.task = record.task ∧
        (record.isComplete = true → last.isComplete = true) ∧
        record.errors <+: last.errors ∧
        (record.isComplete = true → last.errors = record.errors)) ∧
    after.tasks = before.tasks ++ first.submitted later ∧
    after.size = before.size + (first.submitted later).length ∧
    before.ids <+: after.ids ∧ after.ids.Nodup := by
  intro first before after
  have tasks : after.tasks = before.tasks ++ first.submitted later := first.tasks_after later
  have size : after.size = before.size + (first.submitted later).length := by
    rw [← after.length_tasks, tasks, List.length_append, before.length_tasks]
  have numbered : before.Numbered := numbered_start engine events bus catalog earlier
  have numberedLater : after.Numbered := by
    have numbered := numbered_start engine events bus catalog (earlier ++ later)
    rwa [after_append] at numbered
  refine ⟨fun id record found => ⟨Registry.id_of_get? found, ?_⟩, tasks, size,
    numbered.ids_prefix numberedLater (by omega), numberedLater.nodup_ids⟩
  obtain ⟨last, foundLast, advances⟩ := Worker.get?_after (later.flatMap (·.actions)) found
  rw [← worker_after] at foundLast
  refine ⟨last, foundLast, Registry.id_of_get? foundLast, advances.task, fun complete => ?_,
    advances.errors, fun complete => ?_⟩
  · rw [advances.frozen complete, complete]
  · rw [advances.frozen complete]

end Session

end PlanService
