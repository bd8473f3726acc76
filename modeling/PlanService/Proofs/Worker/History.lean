import PlanService.Proofs.Board.History
import PlanService.Proofs.Worker.Run

/-! # What a run does to the board

The history of a run holds every change that the worker made, with the board that it was made
to; it leads to the board that the run ends with (`leads_after`).  Its events are those that
the engine emitted, in the same order and none of them lost (`credits_queue_after`): what is
not applied yet is in the queue.
-/

namespace PlanService

/-- An event with the task that it counts for, if any. -/
structure Attributed where
  event : EngineEvent
  task : Option TaskId

/-- An event that a change applies, with the task that it is credited to. -/
def Board.Change.credit? : Board.Change → Option Attributed
  | apply event active => some ⟨event, active⟩
  | submit _ | fail _ _ => none

namespace Worker

variable {σ : Type}

/-- The delivered events, each with the task that it would be credited to now. -/
def waiting (worker : Worker σ) : List Attributed :=
  worker.queue.map (⟨·, worker.active⟩)

variable [Engine σ]

/-! ## The board -/

def history (worker : Worker σ) : List (Action σ) → List Board.Entry
  | [] => []
  | action :: later =>
    worker.board.entries (worker.changes action) ++ (worker.next action).history later

theorem leads_next (worker : Worker σ) (action : Action σ) :
    Board.Leads worker.board (worker.board.entries (worker.changes action)) (worker.next action).board := by
  rw [board_next]
  cases action with
  | publish completion => exact .nil (worker.board.alike_publish completion)
  | _ => exact worker.board.leads_performAll _

theorem leads_after (worker : Worker σ) (actions : List (Action σ)) :
    Board.Leads worker.board (worker.history actions) (worker.after actions).board := by
  induction actions generalizing worker with
  | nil => exact .nil (.refl worker.board)
  | cons action actions ih => exact (worker.leads_next action).append (ih (worker.next action))

/-! ## Events -/

/-- The events that an action applies, each with the task that it is credited to. -/
def creditsOf (worker : Worker σ) (action : Action σ) : List Attributed :=
  (worker.changes action).filterMap (·.credit?)

def credits (worker : Worker σ) : List (Action σ) → List Attributed
  | [] => []
  | action :: later => worker.creditsOf action ++ (worker.next action).credits later

theorem credits_append (worker : Worker σ) (actions more : List (Action σ)) :
    worker.credits (actions ++ more) = worker.credits actions ++ (worker.after actions).credits more := by
  induction actions generalizing worker with
  | nil => rfl
  | cons action actions ih => simp [credits, ih]

@[simp] theorem creditsOf_engine (worker : Worker σ) (act : σ → σ × List EngineEvent) :
    worker.creditsOf (.engine act) = [] := rfl

@[simp] theorem creditsOf_publish (worker : Worker σ) (completion : Completion) :
    worker.creditsOf (.publish completion) = [] := rfl

omit [Engine σ] in
theorem filterMap_credit?_apply (events : List EngineEvent) (active : Option TaskId) :
    (events.map (Board.Change.apply · active)).filterMap (·.credit?) = events.map (⟨·, active⟩) := by
  rw [List.filterMap_map]
  exact List.filterMap_eq_map (f := fun event => (⟨event, active⟩ : Attributed)) ▸ rfl

omit [Engine σ] in
theorem filterMap_credit?_pending (worker : Worker σ) :
    worker.pending.filterMap (·.credit?) = worker.waiting :=
  filterMap_credit?_apply worker.queue worker.active

theorem filterMap_credit?_changesOf (worker : Worker σ) (call : EngineCall) :
    (worker.changesOf call).filterMap (·.credit?) =
      (Engine.answer worker.engine call).events.map (⟨·, call.task?.or worker.active⟩) := by
  rw [changesOf, List.filterMap_append, filterMap_credit?_apply, List.append_right_eq_self]
  split <;> rfl

/-- What the engine emits while an action lasts. -/
def emittedBy (worker : Worker σ) : Action σ → List EngineEvent
  | .command command =>
    (worker.callFor? command).elim [] fun call => (Engine.answer worker.engine call).events
  | .engine act => (act worker.engine).2
  | .takeUp | .publish _ => []

def emitted (worker : Worker σ) : List (Action σ) → List EngineEvent
  | [] => []
  | action :: later => worker.emittedBy action ++ (worker.next action).emitted later

/-- What is applied and what is left in the queue is what was in the queue and what the engine
emitted. -/
theorem credits_queue_next (worker : Worker σ) (action : Action σ) :
    (worker.creditsOf action).map (·.event) ++ (worker.next action).queue =
      worker.queue ++ worker.emittedBy action := by
  cases action with
  | engine act => rfl
  | publish completion => exact (List.append_nil worker.queue).symm
  | takeUp =>
    obtain ⟨engine, board, active, queue, alive⟩ := worker
    cases alive <;> cases queue <;> simp [creditsOf, changes, next, takeUp, emittedBy, Board.Change.credit?]
  | command command =>
    rw [next, handle_eq, creditsOf, changes, emittedBy]
    cases made : worker.callFor? command with
    | some call =>
      obtain ⟨alive, drains⟩ := drains_of_callFor? made
      rw [changesFor_of_drains alive drains, made, Option.elim_some, List.filterMap_append,
        filterMap_credit?_pending, filterMap_credit?_changesOf]
      simp [waiting, alive, drains, Function.comp_def]
    | none =>
      cases alive : worker.alive with
      | false => simp [changesFor, alive]
      | true =>
        cases drains : command.drains with
        | true =>
          rw [changesFor_of_drains alive drains, made, Option.elim_none, List.append_nil,
            filterMap_credit?_pending]
          simp [waiting, Function.comp_def]
        | false =>
          -- No event is applied by a command that does not depend on the engine's progress.
          cases command <;> simp_all [changesFor, Command.drains, Board.Change.credit?]

/-- No event is lost on the way: those that were applied, and then those in the queue, are
those that the engine emitted. -/
theorem credits_queue_after (worker : Worker σ) (actions : List (Action σ)) :
    (worker.credits actions).map (·.event) ++ (worker.after actions).queue =
      worker.queue ++ worker.emitted actions := by
  induction actions generalizing worker with
  | nil => simp [credits, emitted]
  | cons action actions ih =>
    rw [credits, emitted, after_cons, List.map_append, List.append_assoc, ih, ← List.append_assoc,
      credits_queue_next, List.append_assoc]

end Worker

end PlanService
