import PlanService.Proofs.Engine.Course
import PlanService.Proofs.Worker.Lockstep

/-! # The schedule does not decide how a task ends

A worker and its simulated engine may be paused, resumed and kept waiting in any way between
the begin of a task and its end.  Whatever the schedule, a task that is complete has ended with
the verdict that its name, its parameters and the engine's settings had given from the start.

The invariant speaks about the board as it will be once what is delivered has been applied,
because the engine is ahead of its worker by the events in the queue.
-/

namespace PlanService

open Simulated (Actor Config Coupled Move OnCourse)

namespace Worker

section Settled

variable {σ : Type}

/-- The board as it will be when what is delivered has been applied. -/
def settled (worker : Worker σ) : Board :=
  worker.board.applyAll worker.queue worker.active

theorem settled_takeUp (worker : Worker σ) : worker.takeUp.settled = worker.settled := by
  obtain ⟨engine, board, active, queue, alive⟩ := worker
  cases alive <;> cases queue <;> rfl

theorem settled_letEngine (worker : Worker σ) (act : σ → σ × List EngineEvent) :
    (worker.letEngine act).settled = worker.settled.applyAll (act worker.engine).2 worker.active :=
  worker.board.applyAll_append worker.queue (act worker.engine).2 worker.active

variable [Engine σ] {worker : Worker σ} {asked : Command}

theorem settled_of_call {call : EngineCall} (made : worker.callFor? asked = some call) :
    (worker.next (.command asked)).settled = worker.settled.performAll (worker.changesOf call) := by
  obtain ⟨alive, drains⟩ := drains_of_callFor? made
  rw [next, handle_eq, changesFor_of_drains alive drains, made, alive, drains, settled, settled,
    Board.applyAll_eq_performAll worker.board, ← Board.performAll_append]
  rfl

/-- A command that calls no engine at most adds a task to what is to come. -/
theorem settled_of_no_call (silent : worker.callFor? asked = none)
    (old : worker.active ≠ some worker.board.registry.nextId) :
    (worker.next (.command asked)).settled = worker.settled ∨
      ∃ task, (worker.next (.command asked)).settled = worker.settled.perform (.submit task) := by
  rw [next, handle_eq, silent]
  cases alive : worker.alive with
  | false => exact .inl (by simp [settled, changesFor, alive])
  | true =>
    cases drains : asked.drains with
    | true =>
      refine .inl ?_
      rw [changesFor_of_drains alive drains, silent, settled, settled, Board.applyAll_eq_performAll worker.board]
      simp [pending]
      rfl
    | false =>
      cases asked with
      | submit task => 
        refine .inr ⟨task, ?_⟩
        rw [settled, settled, ← Board.applyAll_submit _ _ _ old]
        simp [changesFor, alive, Board.performAll]
      | get id => exact .inl (by simp [settled, changesFor])
      | shutdown => exact .inl (by simp [settled, changesFor])
      | _ => cases drains

end Settled

namespace InStep

variable {config : Config} {worker : Worker Actor} {credits : List Attributed}

/-- A task that is to be run is registered. -/
theorem registered_of_call {call : EngineCall} {asked : Command} (made : worker.callFor? asked = some call) :
    Simulated.Registered call worker.settled.registry := by
  rintro id task rfl
  obtain ⟨alive, ⟨_, _, -, admitted, same⟩ | ⟨_, _, -, -, -, runsNone⟩⟩ := callFor?_cases made
  · cases same
    obtain ⟨-, record, found, -, isTask⟩ := admission_eq_ok_iff.mp admitted
    rw [board_drain alive] at found
    exact ⟨record, found, isTask⟩
  · cases runsNone

theorem onCourse_call (inStep : InStep worker credits)
    (course : OnCourse config worker.engine.engine worker.settled.registry) {asked : Command}
    {call : EngineCall} (made : worker.callFor? asked = some call) :
    OnCourse config (Engine.answer worker.engine call).engine.engine
      (worker.settled.performAll (worker.changesOf call)).registry := by
  have coupled := inStep.called made
  rw [board_drain (drains_of_callFor? made).1] at coupled
  have registered := registered_of_call made
  obtain ⟨answered, verdict⟩ := course.answer coupled registered
  have after := (Simulated.Answers.answer coupled).follows.coupled
  rw [← Board.view_applyAll] at after
  rw [changesOf, Board.performAll_append, ← Board.applyAll_eq_performAll]
  cases call with
  | run id task =>
    cases refused : (Engine.answer worker.engine (.run id task)).error with
    | none => exact answered
    | some error =>
      have isError : (worker.engine.answer (.run id task)).2 = some error := refused
      rw [isError] at after
      -- The refused task is the active one and not complete, and it fails with its verdict.
      cases after with
      | loaded run isLoaded busy shows isUp free => cases free
      | resting idle empty shows =>
        obtain ⟨-, record, found, incomplete⟩ :=
          Board.unfinished_view_eq_some_iff.mp (congrArg View.unfinished shows : _ = some id)
        obtain ⟨same, isFound, isTask⟩ := registered.applyAll
          ((worker.engine.answer (.run id task)).1.2.map (·.event)) (some id) id task rfl
        have isRecord : same = record := Option.some.inj (isFound.symm.trans found)
        have credited : (Board.Change.fail id error.message).CreditedTo (some id) := rfl
        refine answered.ended found incomplete ?_ (fun other => Board.get?_perform_of_ne credited) rfl empty
        rw [← isRecord, isTask, verdict id task error rfl isError, isRecord]
        exact Board.get?_fail_of_open found incomplete error.message
  | _ => exact answered

theorem onCourse_command (inStep : InStep worker credits)
    (course : OnCourse config worker.engine.engine worker.settled.registry) (asked : Command)
    (old : worker.active ≠ some worker.board.registry.nextId) :
    OnCourse config (worker.next (.command asked)).engine.engine
      (worker.next (.command asked)).settled.registry := by
  have engine : (worker.next (.command asked)).engine =
      (worker.callFor? asked).elim worker.engine fun call => (Engine.answer worker.engine call).engine := by
    rw [next, handle_eq]
  rw [engine]
  cases made : worker.callFor? asked with
  | some call =>
    rw [settled_of_call made]
    exact inStep.onCourse_call course made
  | none =>
    rcases settled_of_no_call made old with same | ⟨task, submits⟩
    · exact same ▸ course
    · exact submits ▸ course.submit task

theorem onCourse_turn (inStep : InStep worker credits)
    (course : OnCourse config worker.engine.engine worker.settled.registry)
    (old : worker.active ≠ some worker.board.registry.nextId) (turn : Turn) :
    OnCourse config (worker.after turn.actions).engine.engine
      (worker.after turn.actions).settled.registry := by
  cases turn with
  | command asked before later =>
    have ready : OnCourse config (worker.pacing before later).engine.engine
        (worker.pacing before later).settled.registry := by
      rw [Worker.pacing, settled_letEngine]
      exact course
    exact (inStep.pacing before later).onCourse_command ready asked old
  | engine moves =>
    simp only [Turn.actions, after_cons, after_nil, next]
    rw [settled_letEngine]
    exact course.moveAll inStep.coupled moves
  | takeUp =>
    simp only [Turn.actions, after_cons, after_nil, next]
    rw [settled_takeUp, takeUp_eq]
    exact course
  | publish completion =>
    have alike : worker.settled.Alike (worker.letPublish completion).settled :=
      (worker.board.alike_publish completion).applyAll worker.queue worker.active
    simp only [Turn.actions, after_cons, after_nil, next]
    rw [alike.registry]
    exact course

theorem onCourse_after (inStep : InStep worker credits)
    (course : OnCourse config worker.engine.engine worker.settled.registry) {begun : List TaskId}
    (admission : Admission worker.board.registry worker.active begun)
    (numbered : worker.board.registry.Numbered) (turns : List Turn) :
    OnCourse config (worker.after (turns.flatMap Turn.actions)).engine.engine
      (worker.after (turns.flatMap Turn.actions)).settled.registry := by
  induction turns generalizing worker credits begun with
  | nil => exact course
  | cons turn turns ih =>
    have old : worker.active ≠ some worker.board.registry.nextId := by
      intro isActive
      obtain ⟨record, found⟩ := admission.registered _ (admission.mem_of_active isActive)
      rw [numbered.get?_nextId] at found
      cases found
    rw [List.flatMap_cons, after_append]
    exact ih (inStep.turn admission turn) (inStep.onCourse_turn course old turn)
      (admission.after turn.actions) (numbered_after numbered turn.actions)

end InStep

/-- The board that a run with an actor leads to. -/
def boardAfter (config : Config) (now : Millis) (bus : Bus) (turns : List Turn) : Board :=
  ((ofEngine { engine := { config, now } } bus : Worker Actor).after (turns.flatMap Turn.actions)).board

theorem errors_eq_verdict {config : Config} (now : Millis) (bus : Bus) (turns : List Turn) {id : TaskId}
    {record : TrackedTask} (found : (boardAfter config now bus turns).registry.get? id = some record)
    (complete : record.isComplete = true) : record.errors = config.verdict record.task := by
  let start : Worker Actor := ofEngine { engine := { config, now } } bus
  let worker := start.after (turns.flatMap Turn.actions)
  have course : OnCourse config worker.engine.engine worker.settled.registry :=
    (InStep.start config now bus).onCourse_after (.start config now) .empty
      Registry.numbered_empty turns
  -- What is in the queue does not touch a task that is over.
  obtain ⟨later, settled, advances⟩ := Board.get?_performAll worker.pending found
  rw [advances.frozen complete, pending, ← Board.applyAll_eq_performAll] at settled
  have judged := course.judged id record settled
  rwa [complete, if_pos rfl] at judged

/-- For every configuration of the simulated engine, whenever it comes up and whatever it, the
worker and its callers do in which order: a task that is complete has the errors of its verdict.
So two runs that complete the same task under one id, however they were paused and resumed, tell
the same completion.  An engine that keeps to its clock, as it is called and time passes, is no
exception. -/
theorem ends_with_verdict (config : Config) :
    (∀ now bus turns id record, (boardAfter config now bus turns).registry.get? id = some record →
      record.isComplete = true → record.errors = config.verdict record.task) ∧
    (∀ now bus turns now' bus' turns' id record record',
      (boardAfter config now bus turns).registry.get? id = some record → record.isComplete = true →
      (boardAfter config now' bus' turns').registry.get? id = some record' → record'.isComplete = true →
      record'.task = record.task → record'.completion = record.completion) ∧
    ∀ now bus (moments : List Moment) id record,
      (((ofEngine { config, now } bus : Worker Simulated).deliver Simulated.initialEvents).after
        (moments.map Moment.action)).board.registry.get? id = some record →
      record.isComplete = true → record.errors = config.verdict record.task := by
  refine ⟨fun now bus turns id record => errors_eq_verdict now bus turns, ?_, ?_⟩
  · intro now bus turns now' bus' turns' id record record' found complete found' complete' sameTask
    have sameErrors : record'.errors = record.errors := by
      rw [errors_eq_verdict now bus turns found complete,
        errors_eq_verdict now' bus' turns' found' complete', sameTask]
    rw [TrackedTask.completion, TrackedTask.completion, sameErrors, Registry.id_of_get? found,
      Registry.id_of_get? found']
  · intro now bus moments id record found
    obtain ⟨turns, same⟩ := exists_turns config now bus moments
    rw [← same] at found
    exact errors_eq_verdict now bus turns found

/-- A pause that cuts the first step short and one that waits for it to end do not keep the second
step, which is the last one, from failing. -/
theorem fails_on_last_step_despite_pauses :
    let config : Config := {}
    let task : Task := { name := "count", params := [("fail_after", .ofNat 2), ("num", .ofNat 2)] }
    let id := TaskId.ofNumber 1
    let moments : List Moment :=
      [.takeUp, .command (.submit task), .command (.begin id), .elapse 50,
        .command (.request .paused false), .command (.request .running false), .elapse 60,
        .command (.request .paused true), .elapse 60, .takeUp, .command (.request .running false),
        .elapse 200, .takeUp, .takeUp]
    let worker : Worker Simulated := .ofEngine { config, now := 0 } { capacity := 1 }
    let ended := (worker.deliver Simulated.initialEvents).after (moments.map Moment.action)
    ∃ record, ended.board.registry.get? id = some record ∧ record.isComplete = true ∧
      record.errors = ["plan failed after 2 step(s)"] := by
  intro config task id moments worker ended
  have isOver : (ended.board.registry.get? id).any (fun record => record.isComplete &&
      decide (config.verdict record.task = ["plan failed after 2 step(s)"])) = true := by
    decide +kernel
  cases found : ended.board.registry.get? id with
  | none => simp [found] at isOver
  | some record =>
    rw [found, Option.any_some, Bool.and_eq_true, decide_eq_true_eq] at isOver
    obtain ⟨complete, verdict⟩ := isOver
    have errors := (ends_with_verdict config).2.2 0 _ moments id record found complete
    exact ⟨record, rfl, complete, errors.trans verdict⟩

end Worker

end PlanService
