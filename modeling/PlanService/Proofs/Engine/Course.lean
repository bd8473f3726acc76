import PlanService.Proofs.Board.Ending
import PlanService.Proofs.Engine.Verdict

/-! # Tasks end as they have to

`OnCourse` relates the simulated engine to the records of somebody who has applied everything
that it emitted: the tasks that are over have ended with their verdicts, the others have no
errors, and the loaded run fits its task.  Every move of an actor keeps this, and so does a
call; a call that refuses a task refuses it with the verdict.
-/

namespace PlanService

namespace Simulated

/-- The records are where the engine and the settings have them. -/
structure OnCourse (config : Config) (engine : Simulated) (registry : Registry) : Prop where
  config_eq : engine.config = config
  judged : ∀ id record, registry.get? id = some record →
    record.errors = if record.isComplete then config.verdict record.task else []
  fits : ∀ run, engine.run = some run →
    ∃ record, registry.get? run.id = some record ∧ run.Fits config record.task

theorem Coupled.open_of_loaded {asked active : Option TaskId} {up : Bool} {engine : Simulated}
    {board : Board} {run : Run} (coupled : Coupled asked up engine (board.view active))
    (isLoaded : engine.run = some run) :
    board.state ≠ .idle ∧ active = some run.id ∧
      ∃ record, board.registry.get? run.id = some record ∧ record.isComplete = false := by
  cases coupled with
  | resting idle empty shows =>
    rw [isLoaded] at empty
    cases empty
  | loaded other isOther busy shows =>
    rw [isLoaded] at isOther
    cases isOther
    have state : board.state = engine.state.workerState := congrArg View.state shows
    refine ⟨?_, Board.unfinished_view_eq_some_iff.mp (congrArg View.unfinished shows)⟩
    rw [state]
    rcases busy with state | state | state <;> simp [state, EngineState.workerState]

/-- A call to run a task is about one that is registered. -/
def Registered (call : EngineCall) (registry : Registry) : Prop :=
  ∀ id task, call = .run id task → ∃ record, registry.get? id = some record ∧ record.task = task

theorem Registered.applyAll {call : EngineCall} {board : Board} (asks : Registered call board.registry)
    (events : List EngineEvent) (active : Option TaskId) :
    Registered call (board.applyAll events active).registry := by
  intro id task isRun
  obtain ⟨record, found, isTask⟩ := asks id task isRun
  rw [Board.applyAll_eq_performAll]
  obtain ⟨later, found, advances⟩ := Board.get?_performAll (events.map (.apply · active)) found
  exact ⟨later, found, advances.task.trans isTask⟩

namespace OnCourse

variable {config : Config} {engine later : Simulated} {registry : Registry}

theorem start (config : Config) (now : Millis) : OnCourse config { config, now } {} :=
  ⟨rfl, nofun, nofun⟩

/-- An engine that goes on without any news keeps the records on course. -/
theorem goOn (course : OnCourse config engine registry) (same : later.config = engine.config)
    (continues : Continues config engine.run later.run) : OnCourse config later registry where
  config_eq := same.trans course.config_eq
  judged := course.judged
  fits run isLoaded := by
    obtain ⟨old, isOld, sameTask, goesOn⟩ := continues run isLoaded
    obtain ⟨record, found, fits⟩ := course.fits old isOld
    exact ⟨record, sameTask ▸ found, goesOn _ fits⟩

/-- A task that ends with its verdict ends as it has to. -/
theorem ended (course : OnCourse config engine registry) {after : Registry} {id : TaskId}
    {record : TrackedTask} (found : registry.get? id = some record) (incomplete : record.isComplete = false)
    (ends : after.get? id = some (record.ended (config.verdict record.task)))
    (others : ∀ other, some id ≠ some other → after.get? other = registry.get? other)
    (same : later.config = engine.config) (unloaded : later.run = none) : OnCourse config later after where
  config_eq := same.trans course.config_eq
  judged other current isCurrent := by
    by_cases isEnded : other = id
    · subst isEnded
      rw [ends] at isCurrent
      cases isCurrent
      have clean := course.judged other record found
      simp only [incomplete, Bool.false_eq_true, if_false] at clean
      simp [TrackedTask.ended, clean]
    · rw [others other fun same => isEnded (Option.some.inj same).symm] at isCurrent
      exact course.judged other current isCurrent
  fits run isLoaded := by
    rw [unloaded] at isLoaded
    cases isLoaded

/-- A new task has no errors, and is none that is loaded. -/
theorem submit (course : OnCourse config engine registry) (task : Task) :
    OnCourse config engine (registry.submit task) where
  config_eq := course.config_eq
  judged id record found := by
    rcases Registry.eq_of_get?_submit found with before | rfl
    · exact course.judged id record before
    · rfl
  fits run isLoaded := by
    obtain ⟨record, found, fits⟩ := course.fits run isLoaded
    exact ⟨record, Registry.get?_submit_of_some task found, fits⟩

/-! ## Moves -/

variable {actor : Actor} {board : Board} {active asked : Option TaskId}

/-- News that the engine is still at work change no record. -/
theorem busy (course : OnCourse config engine board.registry) (states : List EngineState)
    (busy : ∀ engineState ∈ states, engineState.workerState ≠ .idle) (same : later.config = engine.config)
    (continues : Continues config engine.run later.run) :
    OnCourse config later (board.applyAll (states.map .stateChanged) active).registry := by
  rw [board.registry_applyAll_of_busy states busy]
  exact course.goOn same continues

theorem comeUp (course : OnCourse config actor.engine board.registry)
    (coupled : Coupled asked actor.up actor.engine (board.view active)) :
    OnCourse config (actor.move .comeUp).1.engine
      (board.applyAll ((actor.move .comeUp).2.map (·.event)) active).registry := by
  unfold Actor.move
  cases up : actor.up with
  | true => exact course
  | false =>
    cases coupled with
    | resting idle empty shows =>
      have rests : board.state = .idle := congrArg View.state shows
      have same : (board.apply (.stateChanged .idle) active).registry = board.registry :=
        board.registry_apply_of_quiet (.inl rests) active
      have quiet : OnCourse config (actor.engine.enter .idle).1 board.registry :=
        course.goOn rfl (.refl _)
      exact same ▸ quiet
    | loaded run isLoaded busy shows isUp =>
      -- No plan is loaded before the engine has come up.
      simp [up] at isUp

theorem endStep (course : OnCourse config actor.engine board.registry)
    (coupled : Coupled asked actor.up actor.engine (board.view active)) :
    OnCourse config (actor.move .endStep).1.engine
      (board.applyAll ((actor.move .endStep).2.map (·.event)) active).registry := by
  unfold Actor.move
  cases isDue : actor.engine.due? actor.engine.now with
  | none => exact course
  | some time =>
    obtain ⟨run, isLoaded⟩ := Option.isSome_iff_exists.mp (isSome_run_of_due? isDue)
    obtain ⟨working, isActive, record, found, incomplete⟩ := coupled.open_of_loaded isLoaded
    obtain ⟨same, isFound, fits⟩ := course.fits run isLoaded
    rw [found] at isFound
    cases isFound
    subst isActive
    dsimp only
    rw [Actor.events_turn]
    rcases finishStep_cases isLoaded with
      ⟨messages, ends, ended⟩ | ⟨goesOn, -, ended⟩ | ⟨goesOn, -, ended⟩
    · rw [ended]
      refine course.ended found incomplete ?_ (fun other => board.get?_applyAll_of_ne _) rfl rfl
      rw [fits.verdict_eq ends]
      exact Board.get?_applyAll_of_ended found incomplete working messages
    · rw [ended]
      exact course.busy [.paused] (by decide) rfl (isLoaded ▸ .stepped goesOn none)
    · rw [ended]
      exact course.goOn rfl (isLoaded ▸ .stepped goesOn _)

theorem move (course : OnCourse config actor.engine board.registry)
    (coupled : Coupled asked actor.up actor.engine (board.view active)) (move : Move) :
    OnCourse config (actor.move move).1.engine
      (board.applyAll ((actor.move move).2.map (·.event)) active).registry := by
  cases move with
  | comeUp => exact course.comeUp coupled
  | endStep => exact course.endStep coupled
  | time now => exact course.goOn rfl (.refl _)

theorem moveAll (course : OnCourse config actor.engine board.registry)
    (coupled : Coupled asked actor.up actor.engine (board.view active)) (moves : List Move) :
    OnCourse config (actor.moveAll moves).1.engine
      (board.applyAll ((actor.moveAll moves).2.map (·.event)) active).registry := by
  induction moves generalizing actor board with
  | nil => exact course
  | cons move moves ih =>
    have moved := (coupled.move move).coupled
    rw [← Board.view_applyAll] at moved
    rw [Actor.moveAll_cons, List.map_append, Board.applyAll_append]
    exact ih (course.move coupled move) moved

/-! ## Calls -/

/-- A task is refused with its verdict. -/
theorem verdict_of_declined (course : OnCourse config actor.engine registry) {id : TaskId} {view : View}
    (coupled : Coupled (some id) actor.up actor.engine view) {task : Task} {error : EngineError}
    (declined : (actor.engine.perform (.run id task)).error = some error) :
    config.verdict task = [error.message] := by
  cases coupled with
  | loaded run isLoaded busy shows isUp free => cases free
  | resting idle empty shows =>
    rw [← course.config_eq]
    rw [Simulated.perform] at declined
    rcases start_cases idle id task with
      ⟨error, refused, answer⟩ | ⟨steps, failAfter, deadline, -, -, answer⟩ | ⟨failAfter, -, answer⟩ <;>
      rw [answer] at declined <;> cases declined
    exact verdict_of_refused refused

theorem start_run {id : TaskId} {task : Task} (course : OnCourse config engine board.registry)
    (idle : engine.state = .idle) {record : TrackedTask} (isTask : record.task = task)
    (found : board.registry.get? id = some record) (incomplete : record.isComplete = false) :
    OnCourse config (engine.start id task).engine
      (board.applyAll (engine.start id task).events (some id)).registry := by
  subst isTask
  have same := board.registry_applyAll_of_busy [.running] (by decide) (some id)
  rcases start_cases idle id record.task with
    ⟨error, refused, answer⟩ | ⟨steps, failAfter, deadline, planned, working, answer⟩ |
    ⟨failAfter, planned, answer⟩
  · rw [answer]
    exact course
  · have loaded : OnCourse config
        { engine with run := some { id, remaining := steps, failAfter, deadline }, state := .running }
        board.registry :=
      { config_eq := course.config_eq
        judged := course.judged
        fits := fun run isLoaded => by
          cases isLoaded
          exact ⟨record, found, .start (course.config_eq ▸ planned) working id deadline⟩ }
    rw [answer]
    exact same ▸ loaded
  · -- The engine shows that it is at work, and then the task is over.
    let running := board.applyAll [.stateChanged .running] (some id)
    have shows : running.state ≠ .idle := by
      have shown : running.state = .running := board.state_perform (.apply (.stateChanged .running) (some id))
      rw [shown]
      decide
    have ends := Board.get?_applyAll_of_ended (same ▸ found : running.registry.get? id = some record)
      incomplete shows []
    rw [answer]
    refine course.ended found incomplete ?_ (fun other => board.get?_applyAll_of_ne _) rfl rfl
    rw [verdict_of_no_steps (course.config_eq ▸ planned)]
    exact ends

theorem perform {call : EngineCall} (course : OnCourse config actor.engine board.registry)
    (coupled : Coupled call.task? actor.up actor.engine (board.view active))
    (asks : Registered call board.registry) :
    OnCourse config (actor.perform call).1.engine
      (board.applyAll ((actor.perform call).2.map (·.event)) active).registry := by
  rw [Actor.perform, Actor.events_turn]
  cases call with
  | run id task =>
    cases coupled with
    | loaded run isLoaded busy shows isUp free => cases free
    | resting idle empty shows =>
      have asked : (board.view active).unfinished = some id := congrArg View.unfinished shows
      obtain ⟨rfl, record, found, incomplete⟩ := Board.unfinished_view_eq_some_iff.mp asked
      obtain ⟨same, isFound, isTask⟩ := asks id task rfl
      rw [found] at isFound
      cases isFound
      exact course.start_run idle isTask found incomplete
  | pause defer =>
    rcases actor.engine.pause_cases defer with
      ⟨error, -, answer⟩ | ⟨-, answer⟩ | ⟨-, answer⟩ <;> rw [Simulated.perform, answer]
    · exact course
    · exact course.busy [.pausing] (by decide) rfl (.refl _)
    · exact course.busy [.pausing, .paused] (by decide) rfl (.withDeadline _ none)
  | resume =>
    rcases actor.engine.resume_cases with ⟨error, -, answer⟩ | ⟨-, deadline, answer⟩ <;>
      rw [Simulated.perform, answer]
    · exact course
    · exact course.busy [.running] (by decide) rfl (.withDeadline _ (some deadline))

/-- The same of the whole answer, with the moves before and after the call is carried out. -/
theorem answer {call : EngineCall} (course : OnCourse config actor.engine board.registry)
    (coupled : Coupled call.task? actor.up actor.engine (board.view active))
    (asks : Registered call board.registry) :
    OnCourse config (actor.answer call).1.1.engine
        (board.applyAll ((actor.answer call).1.2.map (·.event)) active).registry ∧
      ∀ id task error, call = .run id task → (actor.answer call).2 = some error →
        config.verdict task = [error.message] := by
  have early := coupled.moveAll (actor.before ++ [.comeUp])
  have ready := early.coupled
  rw [← Board.view_applyAll] at ready
  have readyCourse := course.moveAll coupled (actor.before ++ [.comeUp])
  have done := Answers.perform ready (actor.up_moveAll_comeUp actor.before)
  have working := done.follows.coupled
  rw [← Board.view_applyAll] at working
  have performed := readyCourse.perform ready (asks.applyAll _ active)
  refine ⟨?_, fun id task error isRun declined => ?_⟩
  · rw [Actor.answer, List.map_append, List.map_append, Board.applyAll_append, Board.applyAll_append]
    exact performed.moveAll working _
  · subst isRun
    exact readyCourse.verdict_of_declined ready declined

end OnCourse

end Simulated

end PlanService
