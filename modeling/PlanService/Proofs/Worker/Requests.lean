import PlanService.Proofs.Engine.Logged
import PlanService.Proofs.Worker.History

/-! # Requests to pause and to resume

A request for another state is decided by the state that the worker shows once it has applied
what is delivered.  One that is allowed is carried out by one call, whatever the engine answers
to it, and any other leaves the engine alone.  So over a run the engine was called to pause or
to resume exactly as often as a request was accepted, and what the worker shows is only ever
what the engine reported.
-/

namespace PlanService

theorem WorkerState.canRequest_iff {state target : WorkerState} :
    state.canRequest target = true ↔
      state = .running ∧ target = .paused ∨ state = .paused ∧ target = .running := by
  cases state <;> cases target <;> decide

/-- Whether the call is one to pause or to resume. -/
def EngineCall.isTransition : EngineCall → Bool
  | pause _ | resume => true
  | run _ _ => false

namespace Worker

/-- The answer to a request that was accepted. -/
def Answer.accepts : Answer → Bool
  | decided (.ok outcome) => outcome.accepted
  | _ => false

/-- The call that carries out an accepted request. -/
def transitionCall (target : WorkerState) (defer : Bool) : EngineCall :=
  if target = .paused then .pause defer else .resume

theorem isTransition_transitionCall (target : WorkerState) (defer : Bool) :
    (transitionCall target defer).isTransition = true := by
  unfold transitionCall
  split <;> rfl

theorem task?_transitionCall (target : WorkerState) (defer : Bool) :
    (transitionCall target defer).task? = none := by
  unfold transitionCall
  split <;> rfl

variable {σ : Type}

theorem callFor?_request {worker : Worker σ} (alive : worker.alive = true) (target : WorkerState)
    (defer : Bool) :
    worker.callFor? (.request target defer) =
      if worker.drain.state.canRequest target then some (transitionCall target defer) else none := by
  rw [callFor?, alive, Bool.true_and]
  split
  next allowed =>
    rcases WorkerState.canRequest_iff.mp allowed with ⟨-, rfl⟩ | ⟨-, rfl⟩ <;> rfl
  next => rfl

variable [Engine σ]

/-- What is asked for by an action is answered. -/
def answerTo? (worker : Worker σ) : Action σ → Option Answer
  | .command command => some (worker.handle command).1
  | .engine _ | .takeUp | .publish _ => none

def answers (worker : Worker σ) : List (Action σ) → List Answer
  | [] => []
  | action :: later => (worker.answerTo? action).toList ++ (worker.next action).answers later

theorem answers_append (worker : Worker σ) (actions more : List (Action σ)) :
    worker.answers (actions ++ more) = worker.answers actions ++ (worker.after actions).answers more := by
  induction actions generalizing worker with
  | nil => rfl
  | cons action actions ih => rw [List.cons_append, answers, ih, answers, List.append_assoc, after_cons]

/-- A request that is allowed is carried out by one call and reports what holds after it. -/
theorem request_of_allowed {worker : Worker σ} (alive : worker.alive = true) {target : WorkerState}
    (allowed : worker.drain.state.canRequest target = true) (defer : Bool) :
    let reply := Engine.answer worker.engine (transitionCall target defer)
    let board := worker.drain.board.applyAll reply.events worker.active
    worker.request target defer =
      (.ok ⟨true, board.state⟩, { worker with engine := reply.engine, board, queue := [] }) := by
  intro reply board
  have made := callFor?_request alive target defer
  rw [if_pos allowed] at made
  have changes : worker.drain.board.performAll (worker.changesOf (transitionCall target defer)) = board := by
    rw [changesOf, task?_transitionCall, List.append_nil, Option.none_or, ← Board.applyAll_eq_performAll]
  rw [request_of_call alive made, changes, alive]

/-- A request that is not allowed is turned down and changes nothing. -/
theorem request_of_not_allowed {worker : Worker σ} (alive : worker.alive = true) {target : WorkerState}
    (notAllowed : worker.drain.state.canRequest target = false) (defer : Bool) :
    worker.request target defer = (.ok ⟨false, worker.drain.state⟩, worker.drain) := by
  refine request_of_no_call alive ?_
  rw [callFor?_request alive, notAllowed]
  rfl

/-- An action is answered with acceptance exactly when it makes the engine pause or resume. -/
theorem accepts_answerTo? (worker : Worker σ) (action : Action σ) :
    (worker.answerTo? action).any Answer.accepts = (worker.callOf? action).any EngineCall.isTransition := by
  cases action with
  | command command =>
    cases command with
    | request target defer =>
      simp only [answerTo?, callOf?, handle, Option.any_some]
      cases alive : worker.alive with
      | false => simp [request, callFor?, alive, Answer.accepts]
      | true =>
        rw [callFor?_request alive]
        cases allowed : worker.drain.state.canRequest target with
        | false =>
          rw [request_of_not_allowed alive allowed]
          rfl
        | true =>
          rw [request_of_allowed alive allowed, if_pos rfl, Option.any_some, isTransition_transitionCall]
          rfl
    | begin id =>
      simp only [answerTo?, callOf?, handle, Option.any_some, Answer.accepts, callFor?]
      split
      · cases (worker.drain.admission id).toOption <;> rfl
      · rfl
    | _ => rfl
  | _ => rfl

/-- The engine is called to pause or to resume once for every request that is accepted. -/
theorem countP_calls_after (worker : Worker (Logged σ)) (actions : List (Action σ)) :
    (worker.after (actions.map .logged)).engine.calls.countP (·.1.isTransition) =
      worker.engine.calls.countP (·.1.isTransition) +
        (worker.answers (actions.map .logged)).countP Answer.accepts := by
  induction actions generalizing worker with
  | nil => rfl
  | cons action actions ih =>
    have once : (worker.next action.logged).engine.calls.countP (·.1.isTransition) =
        worker.engine.calls.countP (·.1.isTransition) +
          (worker.answerTo? action.logged).toList.countP Answer.accepts := by
      have accepts := worker.accepts_answerTo? action.logged
      rw [calls_next, List.countP_append]
      congr 1
      cases made : worker.callOf? action.logged <;> cases told : worker.answerTo? action.logged <;>
        simp_all
    rw [List.map_cons, after_cons, ih, once, answers, List.countP_append, Nat.add_assoc]

/-- In every run of a worker, with an engine that emits and answers what it likes, a request is
decided by the state that the worker shows once every delivered event is applied.  One that
asks a running engine to pause or a paused one to run is accepted: the engine gets exactly one
call for it, whether or not it then errs, and the state that is reported takes in what it
emitted before it returned.  Any other is turned down with the state as it is, and no call is
made.  So the engine was called to pause or resume once for each request that was accepted,
and what the worker shows is the last state that the engine told it of. -/
theorem requests_reach_engine_once (engine : σ) (bus : Bus) (actions : List (Action σ)) :
    let start : Worker (Logged σ) := .ofEngine { engine } bus
    let worker := start.after (actions.map .logged)
    (worker.alive = true → ∀ target defer,
      let settled := worker.board.applyAll worker.queue worker.active
      let call := transitionCall target defer
      let reply := Engine.answer worker.engine call
      let board := settled.applyAll reply.events worker.active
      let allowed := settled.state = .running ∧ target = .paused ∨
        settled.state = .paused ∧ target = .running
      let result := worker.request target defer
      (allowed →
        result = (.ok ⟨true, board.state⟩, { worker with engine := reply.engine, board, queue := [] }) ∧
        result.2.engine.calls = worker.engine.calls ++ [(call, reply.error)]) ∧
      (¬allowed → result = (.ok ⟨false, settled.state⟩, { worker with board := settled, queue := [] }))) ∧
    worker.engine.calls.countP (·.1.isTransition) =
      (start.answers (actions.map .logged)).countP Answer.accepts ∧
    worker.state =
      (((start.history (actions.map .logged)).filterMap (·.change.shown?)).getLast?).getD .idle := by
  intro start worker
  refine ⟨?_, ?_, ?_⟩
  · intro alive target defer settled call reply board allowed result
    have settles : worker.drain.board = settled := board_drain alive
    have decides : worker.drain.state.canRequest target = true ↔ allowed := by
      rw [WorkerState.canRequest_iff, state, settles]
    refine ⟨fun isAllowed => ?_, fun notAllowed => ?_⟩
    · have accepted : result = _ := request_of_allowed alive (decides.mpr isAllowed) defer
      rw [settles] at accepted
      exact ⟨accepted, by rw [accepted]; rfl⟩
    · have turnedDown : result = _ :=
        request_of_not_allowed alive (Bool.eq_false_iff.mpr (mt decides.mp notAllowed)) defer
      rw [turnedDown, state, settles, drain, if_pos alive]
  · have counted := start.countP_calls_after actions
    rwa [show start.engine.calls = [] from rfl, List.countP_nil, Nat.zero_add] at counted
  · exact (start.leads_after (actions.map .logged)).state_eq

end Worker

end PlanService
