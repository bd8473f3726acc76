import PlanService.Proofs.Worker.Run

/-! # Engines that keep a log

Any engine can be watched: `Logged` keeps the calls that it got, each with its error if it
was declined, and otherwise acts as the engine that it wraps.  A worker does not notice
(`forget_after`), so what holds of the calls of every logged engine holds of the calls of
every engine.
-/

namespace PlanService

/-- An engine with the calls that it got and the errors that it answered. -/
structure Logged (σ : Type) where
  engine : σ
  calls : List (EngineCall × Option EngineError) := []

namespace Logged

variable {σ : Type}

/-- The tasks that the engine was called to run, in order. -/
def runs (logged : Logged σ) : List TaskId :=
  logged.calls.filterMap (·.1.task?)

instance [Engine σ] : Engine (Logged σ) where
  answer logged call :=
    let reply := Engine.answer logged.engine call
    { engine := { engine := reply.engine, calls := logged.calls ++ [(call, reply.error)] }
      events := reply.events
      error := reply.error }

/-- An engine's own move; the log keeps calls only. -/
def move (act : σ → σ × List EngineEvent) (logged : Logged σ) : Logged σ × List EngineEvent :=
  ({ logged with engine := (act logged.engine).1 }, (act logged.engine).2)

end Logged

namespace Worker

variable {σ : Type}

/-- The same action on a worker whose engine keeps a log. -/
def Action.logged : Action σ → Action (Logged σ)
  | .command asked => .command asked
  | .engine act => .engine (Logged.move act)
  | .takeUp => .takeUp
  | .publish completion => .publish completion

def forget (worker : Worker (Logged σ)) : Worker σ :=
  worker.mapEngine (·.engine)

variable [Engine σ]

/-- One action does the same whether the engine keeps a log or not. -/
theorem forget_next (worker : Worker (Logged σ)) (action : Action σ) :
    (worker.next action.logged).forget = worker.forget.next action := by
  cases action with
  | command command => exact (handle_mapEngine fun _ _ => rfl).symm
  | engine act => rfl
  | takeUp => exact (takeUp_mapEngine _ worker).symm
  | publish completion => rfl

theorem forget_after (worker : Worker (Logged σ)) (actions : List (Action σ)) :
    (worker.after (actions.map .logged)).forget = worker.forget.after actions := by
  induction actions generalizing worker with
  | nil => rfl
  | cons action actions ih => rw [List.map_cons, after_cons, ih, forget_next, after_cons]

/-- The log grows by the one call that an action leads to. -/
theorem calls_next (worker : Worker (Logged σ)) (action : Action σ) :
    (worker.next action.logged).engine.calls = worker.engine.calls ++
      ((worker.callOf? action.logged).map fun call =>
        (call, (Engine.answer worker.engine call).error)).toList := by
  cases action with
  | command command =>
    simp only [next, Action.logged, handle_eq, callOf?]
    cases worker.callFor? command with
    | none => exact (List.append_nil _).symm
    | some call => rfl
  | takeUp =>
    have same : worker.takeUp.engine.calls = worker.engine.calls := by rw [takeUp_eq]
    exact same.trans (List.append_nil _).symm
  | _ => exact (List.append_nil _).symm

theorem runs_next (worker : Worker (Logged σ)) (action : Action σ) :
    (worker.next action.logged).engine.runs =
      worker.engine.runs ++ ((worker.callOf? action.logged).bind (·.task?)).toList := by
  rw [Logged.runs, calls_next, List.filterMap_append, Logged.runs]
  cases worker.callOf? action.logged with
  | none => rfl
  | some call => cases runs : call.task? <;> simp [runs]

end Worker

end PlanService
