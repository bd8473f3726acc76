import PlanService.Proofs.Api.Command
import PlanService.Session

/-! # Runs of a session

What can happen to a worker in service: whatever can happen to it on its own, requests, and
the passing of time.  Commands, requests, events and the engine's own moves come in any order.
The worker of a session goes through a run of its own (`worker_after`), in which each request
stands as the command that it asks for.
-/

namespace PlanService.Session

/-- What can happen to a session. -/
inductive Occurrence (σ : Type) where
  | act (action : Worker.Action σ)
  | request (request : Http.Request)
  -- The clock goes on; what the engine does meanwhile is its own move.
  | pass (span : Millis)

variable {σ : Type}

/-- What an occurrence is to the worker. -/
def Occurrence.actions : Occurrence σ → List (Worker.Action σ)
  | act action => [action]
  | request asked => (Api.command? asked).toList.map .command
  | pass _ => []

variable [Engine σ]

def next (session : Session σ) : Occurrence σ → Session σ
  | .act action => { session with worker := session.worker.next action }
  | .request request => (session.request request).2
  | .pass span => { session with clock := session.clock + span }

def after (session : Session σ) (occurrences : List (Occurrence σ)) : Session σ :=
  occurrences.foldl next session

@[simp] theorem after_nil (session : Session σ) : session.after [] = session := rfl

@[simp] theorem after_cons (session : Session σ) (occurrence : Occurrence σ)
    (occurrences : List (Occurrence σ)) :
    session.after (occurrence :: occurrences) = (session.next occurrence).after occurrences := rfl

@[simp] theorem after_append (session : Session σ) (occurrences more : List (Occurrence σ)) :
    session.after (occurrences ++ more) = (session.after occurrences).after more :=
  List.foldl_append

theorem worker_next (session : Session σ) (occurrence : Occurrence σ) :
    (session.next occurrence).worker = session.worker.after occurrence.actions := by
  cases occurrence with
  | act action => rfl
  | pass span => rfl
  | request request =>
    have served : (session.request request).2.worker = _ :=
      Api.serve_worker session.catalog session.clock session.worker request
    rw [next, served, Occurrence.actions]
    cases Api.command? request <;> rfl

/-- The worker of a session goes through nothing but actions of a worker. -/
theorem worker_after (session : Session σ) (occurrences : List (Occurrence σ)) :
    (session.after occurrences).worker = session.worker.after (occurrences.flatMap (·.actions)) := by
  induction occurrences generalizing session with
  | nil => rfl
  | cons occurrence occurrences ih =>
    rw [after_cons, ih, worker_next, List.flatMap_cons, Worker.after_append]

/-- A session starts with what its engine emits on coming up, and with nothing in the queue. -/
theorem worker_start (engine : σ) (events : List EngineEvent) (bus : Bus) (catalog : Catalog) :
    (start engine events bus catalog).worker =
      (Worker.ofEngine engine bus).after [.engine fun engine => (engine, events), .command .getActive] := rfl

end PlanService.Session
