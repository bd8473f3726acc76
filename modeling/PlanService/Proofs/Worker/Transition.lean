import PlanService.Proofs.Worker.Lockstep
import PlanService.Proofs.Worker.Requests

/-! # What becomes of an accepted request

Two checks decide whether a plan is paused or resumed: the worker's table, which knows three
states, and the guards of the simulated engine, which knows more.  A worker that is in step with
its engine reads a state that the engine's state shows as, so the two checks agree wherever that
state shows one engine state only.  Running shows two.  An engine that waits for the end of a
step to pause is pausing, and shows as running; whoever asks it to pause is accepted by the table
and declined by the guard.  This is the only request that is accepted and not carried out.

While no step ends nothing happens around a call but that time passes (`moveAll_of_quiet`).
-/

namespace PlanService

namespace Simulated

namespace Actor

variable {actor : Actor}

/-- While no step ends, because nobody looks or no step is in flight, only time passes. -/
theorem moveAll_of_quiet (up : actor.up = true) {moves : List Move}
    (quiet : .endStep ∉ moves ∨ actor.engine.run.bind (·.deadline) = none) :
    ∃ now, actor.moveAll moves = ({ actor with engine := { actor.engine with now } }, []) := by
  induction moves generalizing actor with
  | nil => exact ⟨actor.engine.now, rfl⟩
  | cons move moves ih =>
    have quietLater : .endStep ∉ moves ∨ actor.engine.run.bind (·.deadline) = none :=
      quiet.imp_left fun absent member => absent (List.mem_cons_of_mem _ member)
    cases move with
    | comeUp =>
      have stays : actor.move .comeUp = (actor, []) := by rw [move, if_pos up]
      rw [moveAll_cons, stays]
      exact ih up quietLater
    | time now =>
      have ticks : actor.move (.time now) = ({ actor with engine := { actor.engine with now } }, []) := rfl
      rw [moveAll_cons, ticks]
      exact ih up quietLater
    | endStep =>
      have none : actor.engine.run.bind (·.deadline) = none :=
        quiet.resolve_left fun absent => absent List.mem_cons_self
      have stays : actor.move .endStep = (actor, []) := by
        rw [move, due?, none]
        rfl
      rw [moveAll_cons, stays]
      exact ih up quietLater

/-- A call before which no step ends is carried out by the engine as it is, but for the time. -/
theorem exists_answer_of_quiet (up : actor.up = true) (quiet : .endStep ∉ actor.before) (call : EngineCall) :
    ∃ ready : Simulated, ready.state = actor.engine.state ∧
      (Engine.answer actor call).engine.answers = actor.answers ++ [(ready.perform call).error] ∧
      ((.endStep ∉ actor.later ∨ (ready.perform call).engine.run.bind (·.deadline) = none) →
        (Engine.answer actor call).engine.engine.state = (ready.perform call).engine.state) := by
  have quietComingUp : .endStep ∉ actor.before ++ [.comeUp] := by simpa using quiet
  obtain ⟨now, early⟩ := moveAll_of_quiet up (.inl quietComingUp)
  refine ⟨{ actor.engine with now }, rfl, ?_⟩
  dsimp only [Engine.answer, emit, answer]
  rw [early]
  refine ⟨rfl, fun quietLater => ?_⟩
  have stillUp : (({ actor with engine := { actor.engine with now } } : Actor).perform call).1.up = true := up
  obtain ⟨later, late⟩ := moveAll_of_quiet stillUp quietLater
  dsimp only [perform, turn] at late ⊢
  rw [late]

/-- A step that is not in flight does not end, so whoever pauses at once is paused. -/
theorem answer_pause_at_once (up : actor.up = true) (quiet : .endStep ∉ actor.before)
    (running : actor.engine.state = .running) :
    (Engine.answer actor (.pause false)).engine.answers = actor.answers ++ [none] ∧
      (Engine.answer actor (.pause false)).engine.engine.state = .paused := by
  obtain ⟨ready, same, answers, state⟩ := exists_answer_of_quiet up quiet (.pause false)
  rw [Simulated.perform, pause_at_once (same.trans running)] at answers state
  exact ⟨answers, state (.inr (by cases ready.run <;> rfl))⟩

theorem answer_pause_deferred (up : actor.up = true) (quiet : .endStep ∉ actor.before)
    (running : actor.engine.state = .running) :
    (Engine.answer actor (.pause true)).engine.answers = actor.answers ++ [none] ∧
      (.endStep ∉ actor.later → (Engine.answer actor (.pause true)).engine.engine.state = .pausing) := by
  obtain ⟨ready, same, answers, state⟩ := exists_answer_of_quiet up quiet (.pause true)
  rw [Simulated.perform, pause_deferred (same.trans running)] at answers state
  exact ⟨answers, fun quietLater => state (.inl quietLater)⟩

theorem answer_pause_declined (up : actor.up = true) (quiet : .endStep ∉ actor.before)
    (other : actor.engine.state ≠ .running) (defer : Bool) :
    (Engine.answer actor (.pause defer)).engine.answers =
        actor.answers ++ [some (.invalidState .pause actor.engine.state)] ∧
      (.endStep ∉ actor.later →
        (Engine.answer actor (.pause defer)).engine.engine.state = actor.engine.state) := by
  obtain ⟨ready, same, answers, state⟩ := exists_answer_of_quiet up quiet (.pause defer)
  rw [← same] at other ⊢
  rw [Simulated.perform, pause_of_not_running other] at answers state
  exact ⟨answers, fun quietLater => state (.inl quietLater)⟩

theorem answer_resume (up : actor.up = true) (quiet : .endStep ∉ actor.before)
    (paused : actor.engine.state = .paused) :
    (Engine.answer actor .resume).engine.answers = actor.answers ++ [none] ∧
      (.endStep ∉ actor.later → (Engine.answer actor .resume).engine.engine.state = .running) := by
  obtain ⟨ready, same, answers, state⟩ := exists_answer_of_quiet up quiet .resume
  rw [Simulated.perform, resume_of_paused (same.trans paused)] at answers state
  exact ⟨answers, fun quietLater => state (.inl quietLater)⟩

end Actor

end Simulated

namespace Worker

open Simulated (Actor Move Coupled)

/-- A request is accepted by a worker that is there, and that may go from the state it shows. -/
theorem allowed_of_accepted {σ : Type} [Engine σ] {worker : Worker σ} {target state : WorkerState} {defer : Bool}
    (accepted : (worker.request target defer).1 = .ok ⟨true, state⟩) :
    worker.alive = true ∧ worker.drain.state.canRequest target = true := by
  cases alive : worker.alive with
  | false => simp [request, alive] at accepted
  | true =>
    refine ⟨rfl, ?_⟩
    by_contra notAllowed
    rw [request_of_not_allowed alive (Bool.eq_false_iff.mpr notAllowed)] at accepted
    cases accepted

namespace InStep

variable {worker : Worker Actor} {credits : List Attributed} {target shown : WorkerState} {defer : Bool}

/-- The state that is reported is what the engine's state shows as when the worker answers. -/
theorem shown_eq_of_accepted (inStep : InStep worker credits) {begun : List TaskId}
    (admission : Admission worker.board.registry worker.active begun) {before later : List Move}
    (accepted : ((worker.pacing before later).request target defer).1 = .ok ⟨true, shown⟩) :
    shown =
      ((worker.pacing before later).request target defer).2.engine.engine.state.workerState := by
  have settled : ((worker.pacing before later).request target defer).2.settledView.state =
      ((worker.pacing before later).request target defer).2.engine.engine.state.workerState :=
    (inStep.turn admission (.command (.request target defer) before later)).coupled.state_eq
  obtain ⟨alive, allowed⟩ := allowed_of_accepted accepted
  rw [request_of_allowed alive allowed] at accepted settled ⊢
  cases accepted
  exact settled

/-- What is accepted is asked of an engine that has come up and is at work. -/
theorem state_cases_of_accepted (inStep : InStep worker credits) {before later : List Move}
    (accepted : ((worker.pacing before later).request target defer).1 = .ok ⟨true, shown⟩) :
    worker.engine.up = true ∧
      ((worker.engine.engine.state = .running ∨ worker.engine.engine.state = .pausing) ∧ target = .paused ∨
        worker.engine.engine.state = .paused ∧ target = .running) := by
  obtain ⟨alive, allowed⟩ := allowed_of_accepted accepted
  have coupled := (inStep.pacing before later).coupled
  have reads : (worker.pacing before later).drain.state = worker.engine.engine.state.workerState := by
    rw [state, board_drain alive]
    exact coupled.state_eq
  rw [reads, WorkerState.canRequest_iff] at allowed
  have engine : (worker.pacing before later).engine.engine = worker.engine.engine := rfl
  cases coupled with
  | resting idle empty shows =>
    rw [engine] at idle
    simp [idle, EngineState.workerState] at allowed
  | loaded run isLoaded busy shows isUp =>
    rw [engine] at busy
    refine ⟨isUp, ?_⟩
    rcases busy with state | state | state <;> simpa [state, EngineState.workerState] using allowed

end InStep

/-- In every state that a run of turns leads to, for every configuration: a request that is
accepted while no step ends between the worker's look at its state and the call is carried out
by the engine without an error, unless the engine is still pausing, as it does after a deferred
pause until the step is over.  Who pauses at once is told that the worker is paused; who pauses
later or resumes is told that it is running, unless a step ends before they are answered.  An
engine that is still pausing shows as running, so it can only be asked to pause; that is what
it declines, and the worker is still running then. -/
theorem accepted_transition_honoured (config : Simulated.Config) (now : Millis) (bus : Bus) (turns : List Turn)
    (target shown : WorkerState) (defer : Bool) (before later : List Move) (undisturbed : .endStep ∉ before) :
    let start : Worker Actor := .ofEngine { engine := { config, now } } bus
    let worker := start.after (turns.flatMap Turn.actions)
    let result := (worker.pacing before later).request target defer
    result.1 = .ok ⟨true, shown⟩ →
      (worker.engine.engine.state ≠ .pausing →
        result.2.engine.answers = worker.engine.answers ++ [none] ∧
        (target = .paused → defer = false → shown = .paused) ∧
        (target = .paused → defer = true → .endStep ∉ later → shown = .running) ∧
        (target = .running → .endStep ∉ later → shown = .running)) ∧
      (worker.engine.engine.state = .pausing →
        target = .paused ∧
        result.2.engine.answers = worker.engine.answers ++ [some (.invalidState .pause .pausing)] ∧
        (.endStep ∉ later → shown = .running)) := by
  intro start worker result accepted
  have inStep : InStep worker (start.credits (turns.flatMap Turn.actions)) :=
    (InStep.start config now bus).after .empty turns
  have shows : shown = result.2.engine.engine.state.workerState :=
    inStep.shown_eq_of_accepted (Admission.empty.after (turns.flatMap Turn.actions)) accepted
  obtain ⟨alive, allowed⟩ := allowed_of_accepted accepted
  obtain ⟨up, working⟩ := inStep.state_cases_of_accepted accepted
  have upThen : (worker.pacing before later).engine.up = true := up
  have undisturbed : .endStep ∉ (worker.pacing before later).engine.before := undisturbed
  have called : result.2.engine =
      (Engine.answer (worker.pacing before later).engine (transitionCall target defer)).engine :=
    congrArg (·.2.engine) (request_of_allowed alive allowed defer)
  rw [called] at shows ⊢
  rcases working with ⟨running | pausing, rfl⟩ | ⟨paused, rfl⟩
  · refine ⟨fun _ => ?_, fun pausing => by rw [running] at pausing; cases pausing⟩
    cases defer with
    | false =>
      obtain ⟨answers, state⟩ := Actor.answer_pause_at_once upThen undisturbed running
      refine ⟨answers, fun _ _ => ?_, nofun, nofun⟩
      rw [shows]
      exact congrArg EngineState.workerState state
    | true =>
      obtain ⟨answers, state⟩ := Actor.answer_pause_deferred upThen undisturbed running
      refine ⟨answers, nofun, fun _ _ quiet => ?_, nofun⟩
      rw [shows]
      exact congrArg EngineState.workerState (state quiet)
  · refine ⟨fun other => absurd pausing other, fun _ => ?_⟩
    have other : worker.engine.engine.state ≠ .running := by rw [pausing]; nofun
    obtain ⟨answers, state⟩ := Actor.answer_pause_declined upThen undisturbed other defer
    refine ⟨rfl, ?_, fun quiet => ?_⟩
    · rw [← pausing]
      exact answers
    · rw [shows]
      exact congrArg EngineState.workerState ((state quiet).trans pausing)
  · refine ⟨fun _ => ?_, fun pausing => by rw [paused] at pausing; cases pausing⟩
    obtain ⟨answers, state⟩ := Actor.answer_resume upThen undisturbed paused
    refine ⟨answers, nofun, nofun, fun _ quiet => ?_⟩
    rw [shows]
    exact congrArg EngineState.workerState (state quiet)

/-- A pause is honoured at once, also when the step that is dropped was about to end. -/
theorem pause_honoured_before_due_step :
    let turns : List Turn :=
      [.engine [.comeUp], .command (.submit { name := "count" }) [] [],
        .command (.begin (TaskId.ofNumber 1)) [] []]
    let worker := (ofEngine { engine := {} } { capacity := 1 } : Worker Actor).after (turns.flatMap Turn.actions)
    let result := (worker.pacing [.time 99] [.time 100, .endStep]).request .paused false
    result.1 = .ok ⟨true, .paused⟩ ∧ result.2.engine.answers = worker.engine.answers ++ [none] := by
  intro turns worker result
  have accepted : result.1 = .ok ⟨true, .paused⟩ := rfl
  obtain ⟨carriedOut, -⟩ := accepted_transition_honoured {} 0 { capacity := 1 } turns .paused .paused false
    [.time 99] [.time 100, .endStep] (by simp) accepted
  exact ⟨accepted, (carriedOut nofun).1⟩

/-- A plan that waits for the end of a step to pause does not pause at once when it is asked
to, although that is accepted.  And a plan whose last step ends before the request is answered
has been resumed and is over. -/
theorem accepted_transition_not_honoured :
    let id := TaskId.ofNumber 1
    let begun : List Turn :=
      [.engine [.comeUp], .command (.submit { name := "count" }) [] [], .command (.begin id) [] []]
    let worker := (ofEngine { engine := {} } { capacity := 1 } : Worker Actor).after
      ((begun ++ [Turn.command (.request .paused true) [] []]).flatMap Turn.actions)
    let declined := (worker.pacing [] []).request .paused false
    let other := (ofEngine { engine := { config := { defaultSteps := 1 } } } { capacity := 1 } : Worker Actor).after
      ((begun ++ [Turn.command (.request .paused false) [] []]).flatMap Turn.actions)
    let resumed := (other.pacing [] [.time 100, .endStep]).request .running false
    worker.queue = [] ∧ declined.1 = .ok ⟨true, .running⟩ ∧
      declined.2.engine.answers = worker.engine.answers ++ [some (.invalidState .pause .pausing)] ∧
      other.queue = [] ∧ resumed.1 = .ok ⟨true, .idle⟩ := by
  refine ⟨?_, ?_, ?_, ?_, ?_⟩ <;> rfl

end Worker

end PlanService
