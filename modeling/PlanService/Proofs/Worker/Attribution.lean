import PlanService.Proofs.Engine.Logged
import PlanService.Proofs.Worker.History

/-! # Errors are credited to the task that they are about

The history of a run accounts for every error in the records.  What the engine reports counts
for the task that is active and not complete when the report is applied; a panic that ends the
task and a refusal to run it have the last word.  Nothing is added to any other record, and
nothing that was reported is lost on the way.
-/

namespace PlanService

/-- What a refused call to run a task says about the task. -/
def EngineCall.refusal? (call : EngineCall) (error : Option EngineError) : Option (TaskId × String) :=
  match call.task?, error with
  | some id, some error => some (id, error.message)
  | _, _ => none

/-- The runs that the engine refused, in order, with the texts of its errors. -/
def Logged.refusals {σ : Type} (logged : Logged σ) : List (TaskId × String) :=
  logged.calls.filterMap fun call => call.1.refusal? call.2

namespace Board

theorem filterMap_entries {α : Type} (f : Change → Option α) (board : Board) (changes : List Change) :
    (board.entries changes).filterMap (f ·.change) = changes.filterMap f := by
  induction changes generalizing board with
  | nil => rfl
  | cons change changes ih => simp [entries, List.filterMap_cons, ih]

/-- No event touches the record of a task that is not active. -/
theorem Entry.get?_later_of_other {entry : Entry} {event : EngineEvent} {active : Option TaskId}
    (applies : entry.change = .apply event active) {id : TaskId} (other : active ≠ some id) :
    entry.later.registry.get? id = entry.board.registry.get? id := by
  have credited : entry.change.CreditedTo active := applies ▸ rfl
  exact get?_perform_of_ne credited other

/-- An error that comes when no task is active, or when the active one is over, is passed over. -/
theorem Entry.get?_later_of_late {entry : Entry} {message : String} {active : Option TaskId}
    (applies : entry.change = .apply (.error message) active)
    (late : ∀ id, active = some id → entry.board.registry.isOpen id = false) (id : TaskId) :
    entry.later.registry.get? id = entry.board.registry.get? id := by
  by_cases isActive : active = some id
  · subst isActive
    have notOpen := late id rfl
    rw [later, applies, perform, apply, get?_addError_self]
    cases found : entry.board.registry.get? id with
    | none => rfl
    | some record =>
      rw [Registry.isOpen_of_get? found, Bool.not_eq_false'] at notOpen
      rw [Option.map_some, (record.advances_addError message).frozen notOpen]
  · exact get?_later_of_other applies isActive

end Board

namespace Worker

variable {σ : Type} [Engine σ]

/-- An action fails a task exactly when it makes the engine refuse it. -/
theorem refusals_changes (worker : Worker σ) (action : Action σ) :
    (worker.changes action).filterMap (·.refusal?) =
      ((worker.callOf? action).bind fun call =>
        call.refusal? (Engine.answer worker.engine call).error).toList := by
  have applied (events : List EngineEvent) (active : Option TaskId) :
      (events.map (Board.Change.apply · active)).filterMap (·.refusal?) = [] := by
    simp [List.filterMap_map, Board.Change.refusal?]
  cases made : worker.callOf? action with
  | none =>
    rcases changes_of_no_call made with ⟨task, submits⟩ | ⟨events, applies⟩
    · rw [submits]; rfl
    · rw [applies, applied]; rfl
  | some call =>
    rw [changes_of_call made, List.filterMap_append, pending, applied, changesOf, List.filterMap_append,
      applied, List.nil_append, List.nil_append, Option.bind_some]
    unfold EngineCall.refusal?
    cases call.task? with
    | none => rfl
    | some id => cases (Engine.answer worker.engine call).error <;> rfl

/-- The tasks that failed in a run are those that the engine refused to run. -/
theorem refusals_after (worker : Worker (Logged σ)) (actions : List (Action σ)) :
    (worker.after (actions.map .logged)).engine.refusals =
      worker.engine.refusals ++
        (worker.history (actions.map .logged)).filterMap (·.change.refusal?) := by
  induction actions generalizing worker with
  | nil => simp [history]
  | cons action actions ih =>
    have grown : (worker.next action.logged).engine.refusals =
        worker.engine.refusals ++ (worker.changes action.logged).filterMap (·.refusal?) := by
      rw [Logged.refusals, calls_next, List.filterMap_append, Logged.refusals, refusals_changes]
      cases made : worker.callOf? action.logged with
      | none => rfl
      | some call =>
        cases refused : call.refusal? (Engine.answer worker.engine call).error <;> simp [refused]
    rw [List.map_cons, after_cons, ih, history, List.filterMap_append, Board.filterMap_entries, grown,
      List.append_assoc]

/-- In every run of a worker, with an engine that emits and answers what it likes, the history
of the board accounts for the errors in the records.  The errors of a task are, in order, the
messages of the error events that were applied while it was active and not complete; then, if
a panic completed it, that the engine panicked, and if it was completed because the engine
refused to run it, the text of the engine's error.  The tasks that failed this way are those
that the engine refused, each with the error that it answered.  Every event that the engine
emitted was applied in its turn or is waiting.  No event touches the record of a task that is
not the active one, and an error that comes while no task is active, or while the active one
is over, touches none. -/
theorem errors_attributed (engine : σ) (bus : Bus) (actions : List (Action σ)) :
    let start : Worker (Logged σ) := .ofEngine { engine } bus
    let worker := start.after (actions.map .logged)
    let history := start.history (actions.map .logged)
    (∀ id record, worker.board.registry.get? id = some record →
      record.errors = history.filterMap (·.report? id) ++
        ((history.find? (·.completes id)).bind (·.change.lastWord?)).toList) ∧
    history.filterMap (·.change.refusal?) = worker.engine.refusals ∧
    (start.credits (actions.map .logged)).map (·.event) ++ worker.queue =
      start.emitted (actions.map .logged) ∧
    ∀ entry ∈ history, ∀ event active, entry.change = .apply event active →
      (∀ other, active ≠ some other →
        entry.later.registry.get? other = entry.board.registry.get? other) ∧
      ∀ message, event = .error message →
        (∀ id, active = some id → entry.board.registry.isOpen id = false) →
        ∀ other, entry.later.registry.get? other = entry.board.registry.get? other := by
  intro start worker history
  have leads : Board.Leads start.board history worker.board := start.leads_after (actions.map .logged)
  refine ⟨fun id record found => ?_, ?_, ?_, fun entry _ event active applies => ⟨fun other isOther => ?_, ?_⟩⟩
  · have errors := leads.errorsOf_eq id
    rw [Registry.errorsOf_of_get? found] at errors
    exact errors
  · exact (start.refusals_after actions).symm
  · exact start.credits_queue_after (actions.map .logged)
  · exact Board.Entry.get?_later_of_other applies isOther
  · rintro message rfl late other
    exact Board.Entry.get?_later_of_late applies late other

end Worker

end PlanService
