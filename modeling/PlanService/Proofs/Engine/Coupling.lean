import PlanService.Proofs.Board.View
import PlanService.Proofs.Engine.Actor
import PlanService.Proofs.Except

/-! # A view that keeps up with the simulated engine

`Coupled` relates an actor to the view of somebody who has taken note of everything that it
emitted.  Either the engine rests and the view is idle, or a plan is loaded and the view shows
its task as the unfinished one.  In between there is a moment in which a worker has made a
task its active one and the engine does not know it yet: the task is `asked` for then.

Every move keeps the relation, and so does a call that asks for a task only while the engine
rests; such a call is never declined as busy.
-/

namespace PlanService

namespace Simulated

/-! ## What the engine can do -/

/-- The errors with which the step in flight ends its plan, if it does. -/
def Run.ending? (run : Run) : Option (List String) :=
  if run.failAfter.any (· ≤ run.completed + 1) then
    some [s!"plan failed after {run.completed + 1} step(s)"]
  else if run.remaining ≤ 1 then some []
  else none

/-- The run after the step in flight, with another deadline. -/
def Run.stepped (run : Run) (deadline : Option Millis) : Run :=
  { run with remaining := run.remaining - 1, completed := run.completed + 1, deadline }

/-- A step of a loaded plan ends the plan, pauses it or goes on with the next step. -/
theorem finishStep_cases {engine : Simulated} {run : Run} (loaded : engine.run = some run) :
    (∃ messages, run.ending? = some messages ∧ engine.finishStep =
      ({ engine with run := none, state := .idle }, messages.map .error ++ [.stateChanged .idle])) ∨
    (run.ending? = none ∧ engine.state = .pausing ∧ engine.finishStep =
      ({ engine with run := some (run.stepped none), state := .paused }, [.stateChanged .paused])) ∨
    (run.ending? = none ∧ engine.state ≠ .pausing ∧ engine.finishStep =
      ({ engine with run := some (run.stepped (some (engine.now + engine.config.step))) }, [])) := by
  simp only [finishStep, loaded, Run.ending?, Nat.sub_eq_zero_iff_le]
  split
  · exact .inl ⟨_, rfl, rfl⟩
  · split
    · exact .inl ⟨[], rfl, rfl⟩
    · split
      next pausing => exact .inr (.inl ⟨rfl, pausing, rfl⟩)
      next other => exact .inr (.inr ⟨rfl, other, rfl⟩)

theorem positiveCount_ne_busy (name : String) (value : Json) :
    positiveCount name value ≠ .error .busy := by
  unfold positiveCount
  split
  · split <;> simp
  · simp

/-- A task is refused for its name or its parameters. -/
theorem plan_ne_busy (config : Config) (task : Task) : plan config task ≠ .error .busy := by
  have counted (name : String) (value : Json) : some <$> positiveCount name value ≠ .error .busy := by
    cases counts : positiveCount name value with
    | error error => exact fun same => positiveCount_ne_busy name value (by cases same; exact counts)
    | ok count => nofun
  unfold plan
  dsimp only
  split
  · nofun
  · cases task.params.get? "fail_after" with
    | none =>
      split
      · exact bind_ne_error (positiveCount_ne_busy _ _) fun steps => nofun
      · nofun
    | some value =>
      have failing (steps : Nat) : (do
          let failAfter ← some <$> positiveCount "fail_after" value
          return (steps, failAfter)) ≠ Except.error EngineError.busy :=
        bind_ne_error (counted _ _) fun failAfter => nofun
      split
      · exact bind_ne_error (positiveCount_ne_busy _ _) failing
      · exact failing config.defaultSteps

/-- An idle engine starts a plan, is over with it at once, or refuses it for what it is. -/
theorem start_cases {engine : Simulated} (idle : engine.state = .idle) (id : TaskId) (task : Task) :
    (∃ error, plan engine.config task = .error error ∧
      engine.start id task = { engine, error := some error }) ∨
    (∃ steps failAfter deadline, plan engine.config task = .ok (steps, failAfter) ∧ steps ≠ 0 ∧
      engine.start id task =
        { engine := { engine with
            run := some { id, remaining := steps, failAfter, deadline }, state := .running }
          events := [.stateChanged .running] }) ∨
    ∃ failAfter, plan engine.config task = .ok (0, failAfter) ∧
      engine.start id task =
        { engine := { engine with run := none, state := .idle }
          events := [.stateChanged .running, .stateChanged .idle] } := by
  simp only [start, idle, ne_eq, not_true_eq_false, if_false]
  cases planned : plan engine.config task with
  | error error => exact .inl ⟨error, rfl, rfl⟩
  | ok plan =>
    obtain ⟨steps, failAfter⟩ := plan
    by_cases none : steps = 0
    · subst none
      exact .inr (.inr ⟨failAfter, rfl, by simp [enter, finish]⟩)
    · exact .inr (.inl ⟨steps, failAfter, _, rfl, none, by simp [none, enter]; rfl⟩)

/-- A running engine pauses at once or at the end of the step; any other declines. -/
theorem pause_cases (engine : Simulated) (defer : Bool) :
    (∃ error, error ≠ .busy ∧ engine.pause defer = { engine, error := some error }) ∨
    (engine.state = .running ∧ engine.pause defer =
      { engine := { engine with state := .pausing }, events := [.stateChanged .pausing] }) ∨
    (engine.state = .running ∧ engine.pause defer =
      { engine := { engine with run := engine.run.map ({ · with deadline := none }), state := .paused }
        events := [.stateChanged .pausing, .stateChanged .paused] }) := by
  unfold pause
  by_cases running : engine.state = .running
  · cases defer with
    | true => exact .inr (.inl ⟨running, by simp [running, enter]⟩)
    | false => exact .inr (.inr ⟨running, by simp [running, enter]⟩)
  · exact .inl ⟨.invalidState .pause engine.state, by simp, by simp [running]⟩

/-- A paused engine goes on; any other declines. -/
theorem resume_cases (engine : Simulated) :
    (∃ error, error ≠ .busy ∧ engine.resume = { engine, error := some error }) ∨
    (engine.state = .paused ∧ ∃ deadline : Millis, engine.resume =
      { engine := { engine with
          run := engine.run.map ({ · with deadline := some deadline }), state := .running }
        events := [.stateChanged .running] }) := by
  unfold resume
  by_cases paused : engine.state = .paused
  · exact .inr ⟨paused, engine.now + engine.config.step, by simp [paused, enter]⟩
  · exact .inl ⟨.invalidState .resume engine.state, by simp, by simp [paused]⟩

variable {engine : Simulated}

theorem pause_at_once (running : engine.state = .running) :
    engine.pause false =
      { engine := { engine with run := engine.run.map ({ · with deadline := none }), state := .paused }
        events := [.stateChanged .pausing, .stateChanged .paused] } := by
  simp [pause, running, enter]

theorem pause_deferred (running : engine.state = .running) :
    engine.pause true = { engine := { engine with state := .pausing }, events := [.stateChanged .pausing] } := by
  simp [pause, running, enter]

theorem pause_of_not_running (other : engine.state ≠ .running) (defer : Bool) :
    engine.pause defer = { engine, error := some (.invalidState .pause engine.state) } := by
  simp [pause, other]

theorem resume_of_paused (paused : engine.state = .paused) :
    engine.resume =
      { engine :=
          { engine with
            run := engine.run.map ({ · with deadline := some (engine.now + engine.config.step) })
            state := .running }
        events := [.stateChanged .running] } := by
  simp [resume, paused, enter]

/-! ## The relation -/

/-- How an engine and a view that has taken note of all its events fit, while a task is asked
for or none is. -/
inductive Coupled (asked : Option TaskId) (up : Bool) (engine : Simulated) (view : View) : Prop where
  | resting (idle : engine.state = .idle) (empty : engine.run = none) (shows : view = ⟨.idle, asked⟩)
  | loaded (run : Run) (isLoaded : engine.run = some run)
      (busy : engine.state = .running ∨ engine.state = .pausing ∨ engine.state = .paused)
      (shows : view = ⟨engine.state.workerState, some run.id⟩) (isUp : up = true) (free : asked = none)

/-- A view keeps up with what an actor did, and that was about the unfinished task only. -/
structure Follows (asked : Option TaskId) (view : View) (result : Actor × List Attributed) : Prop where
  coupled : Coupled asked result.1.up result.1.engine (view.observeAll (result.2.map (·.event)))
  about : ∀ emission ∈ result.2, emission.IsAbout view.unfinished

namespace Follows

variable {asked : Option TaskId} {view : View} {actor : Actor}

theorem nothing (coupled : Coupled asked actor.up actor.engine view) : Follows asked view (actor, []) :=
  ⟨coupled, nofun⟩

theorem append {middle last : Actor} {events more : List Attributed} {left : Option TaskId}
    (first : Follows asked view (middle, events))
    (second : Follows left (view.observeAll (events.map (·.event))) (last, more)) :
    Follows left view (last, events ++ more) where
  coupled := by
    rw [List.map_append, View.observeAll_append]
    exact second.coupled
  about := by
    intro emission member
    rcases List.mem_append.mp member with member | member
    · exact first.about emission member
    · rcases second.about emission member with initial | ⟨id, isAbout, unfinished⟩
      · exact .inl initial
      · -- The task that is unfinished then was so before.
        rcases view.unfinished_observeAll (events.map (·.event)) with gone | same
        · rw [gone] at unfinished
          cases unfinished
        · exact .inr ⟨id, isAbout, same ▸ unfinished⟩

/-- What is emitted in one turn about the task that the view shows. -/
theorem turn {left task : Option TaskId} {result : Simulated × List EngineEvent}
    (coupled : Coupled left actor.up result.1 (view.observeAll result.2))
    (about : ∀ event ∈ result.2, (⟨event, task⟩ : Attributed).IsAbout view.unfinished) :
    Follows left view (actor.turn task result) where
  coupled := by
    rw [Actor.events_turn]
    exact coupled
  about := by
    intro emission member
    obtain ⟨event, isEmitted, rfl⟩ := List.mem_map.mp member
    exact about event isEmitted

end Follows

namespace Coupled

variable {asked : Option TaskId} {view : View} {actor : Actor}

theorem state_eq (coupled : Coupled asked actor.up actor.engine view) :
    view.state = actor.engine.state.workerState := by
  cases coupled with
  | resting idle empty shows =>
    rw [shows, idle]
    rfl
  | loaded run isLoaded busy shows => rw [shows]

/-- The view shows the task of the loaded plan, or the one that is asked for. -/
theorem unfinished_eq (coupled : Coupled asked actor.up actor.engine view) :
    view.unfinished = actor.task?.or asked := by
  cases coupled with
  | resting idle empty shows => simp [shows, Actor.task?, empty]
  | loaded run isLoaded busy shows => simp [shows, Actor.task?, isLoaded]

/-- The task that was asked for is over although it never ran. -/
theorem refused {id : TaskId} (coupled : Coupled (some id) actor.up actor.engine view) :
    Coupled none actor.up actor.engine { view with unfinished := none } := by
  cases coupled with
  | resting idle empty shows => exact .resting idle empty (by rw [shows])
  | loaded run isLoaded busy shows isUp free => cases free

theorem comeUp (coupled : Coupled asked actor.up actor.engine view) :
    Follows asked view (actor.move .comeUp) := by
  unfold Actor.move
  cases up : actor.up with
  | true => exact .nothing coupled
  | false =>
    refine .turn ?_ fun event member => .inl (List.mem_singleton.mp member ▸ rfl)
    cases coupled with
    | resting idle empty shows =>
      refine .resting rfl empty ?_
      rw [shows]
      exact View.observe_resting rfl .idle
    | loaded run isLoaded busy shows isUp free =>
      -- No plan is loaded before the engine has come up.
      simp [up] at isUp

theorem endStep (coupled : Coupled asked actor.up actor.engine view) :
    Follows asked view (actor.move .endStep) := by
  unfold Actor.move
  cases isDue : actor.engine.due? actor.engine.now with
  | none => exact .nothing coupled
  | some time =>
    cases coupled with
    | resting idle empty shows => simp [due?, empty] at isDue
    | loaded run isLoaded busy shows isUp free =>
      refine .turn ?_ fun event _ => .inr ⟨run.id, Actor.task?_of_loaded isLoaded, shows ▸ rfl⟩
      have working : view.state ≠ .idle := by
        rw [shows]
        rcases busy with state | state | state <;> simp [state, EngineState.workerState]
      rcases finishStep_cases isLoaded with
        ⟨messages, -, ended⟩ | ⟨-, -, ended⟩ | ⟨-, -, ended⟩
      · -- The errors leave the view alone, and the fall back to idle ends the task.
        refine ended ▸ .resting rfl rfl ?_
        rw [View.observeAll_append, View.observeAll_errors, free]
        exact View.observe_ended working rfl
      · refine ended ▸ .loaded (run.stepped none) rfl (.inr (.inr rfl)) ?_ isUp free
        exact (view.observe_busy (by decide)).trans (by rw [shows]; rfl)
      · exact ended ▸ .loaded (run.stepped _) rfl busy shows isUp free

theorem move (coupled : Coupled asked actor.up actor.engine view) (move : Move) :
    Follows asked view (actor.move move) := by
  cases move with
  | comeUp => exact coupled.comeUp
  | endStep => exact coupled.endStep
  | time now =>
    refine .nothing ?_
    cases coupled with
    | resting idle empty shows => exact .resting idle empty shows
    | loaded run isLoaded busy shows isUp free => exact .loaded run isLoaded busy shows isUp free

theorem moveAll (coupled : Coupled asked actor.up actor.engine view) (moves : List Move) :
    Follows asked view (actor.moveAll moves) := by
  induction moves generalizing actor view with
  | nil => exact .nothing coupled
  | cons move moves ih =>
    have first := coupled.move move
    exact first.append (ih first.coupled)

theorem loaded_of_busy (coupled : Coupled asked actor.up actor.engine view)
    (busy : actor.engine.state ≠ .idle) :
    ∃ run, actor.engine.run = some run ∧ view = ⟨actor.engine.state.workerState, some run.id⟩ := by
  cases coupled with
  | resting idle empty shows => exact absurd idle busy
  | loaded run isLoaded busy shows => exact ⟨run, isLoaded, shows⟩

end Coupled

/-! ## Calls -/

/-- A call was not declined as busy, and a view keeps up with what was done: a task that the
call asks for is asked for no longer unless it was refused. -/
structure Answers (call : EngineCall) (view : View) (result : Actor × List Attributed)
    (error : Option EngineError) : Prop where
  notBusy : error ≠ some .busy
  follows : Follows (if error.isSome then call.task? else none) view result

namespace Answers

variable {call : EngineCall} {view : View} {actor : Actor}

theorem declined {error : EngineError} (coupled : Coupled call.task? actor.up actor.engine view)
    (other : error ≠ .busy)
    (answer : actor.engine.perform call = { engine := actor.engine, error := some error }) :
    Answers call view (actor.perform call) (actor.engine.perform call).error := by
  rw [Actor.perform, answer]
  exact ⟨fun same => other (Option.some.inj same), .turn coupled (by simp)⟩

theorem performed {later : Simulated} {events : List EngineEvent} {id : TaskId}
    (answer : actor.engine.perform call = { engine := later, events })
    (fits : Coupled none actor.up later (view.observeAll events))
    (isAbout : call.task?.or actor.task? = some id) (unfinished : view.unfinished = some id) :
    Answers call view (actor.perform call) (actor.engine.perform call).error := by
  rw [Actor.perform, answer]
  exact ⟨by simp, .turn fits fun event _ => .inr ⟨id, isAbout, unfinished⟩⟩

/-- An engine that has come up carries out a call that asks for a task only while it rests. -/
theorem perform (coupled : Coupled call.task? actor.up actor.engine view) (isUp : actor.up = true) :
    Answers call view (actor.perform call) (actor.engine.perform call).error := by
  cases call with
  | run id task =>
    cases coupled with
    | loaded run isLoaded busy shows isUp free =>
      -- Nothing is asked for while a plan is loaded, so the engine cannot be busy.
      cases free
    | resting idle empty shows =>
      have asked : view.unfinished = some id := by
        rw [shows]
        rfl
      rcases start_cases idle id task with
        ⟨error, planned, answer⟩ | ⟨steps, failAfter, deadline, -, -, answer⟩ | ⟨failAfter, -, answer⟩
      · exact declined (.resting idle empty shows) (fun busy => plan_ne_busy _ _ (busy ▸ planned)) answer
      · refine performed answer (.loaded _ rfl (.inl rfl) ?_ isUp rfl) rfl asked
        rw [shows]
        exact View.observe_busy _ (by decide)
      · refine performed answer (.resting rfl rfl ?_) rfl asked
        rw [shows]
        rfl
  | pause defer =>
    rcases actor.engine.pause_cases defer with
      ⟨error, other, answer⟩ | ⟨running, answer⟩ | ⟨running, answer⟩
    · exact declined coupled other answer
    · obtain ⟨run, isLoaded, shows⟩ := coupled.loaded_of_busy (by rw [running]; nofun)
      rw [running] at shows
      subst shows
      exact performed answer (.loaded run isLoaded (.inr (.inl rfl)) rfl isUp rfl)
        (Actor.task?_of_loaded isLoaded) rfl
    · obtain ⟨run, isLoaded, shows⟩ := coupled.loaded_of_busy (by rw [running]; nofun)
      rw [running] at shows
      subst shows
      have sameTask := congrArg (Option.map fun run : Run => { run with deadline := none }) isLoaded
      exact performed answer (.loaded _ sameTask (.inr (.inr rfl)) rfl isUp rfl)
        (Actor.task?_of_loaded isLoaded) rfl
  | resume =>
    rcases actor.engine.resume_cases with ⟨error, other, answer⟩ | ⟨paused, deadline, answer⟩
    · exact declined coupled other answer
    · obtain ⟨run, isLoaded, shows⟩ := coupled.loaded_of_busy (by rw [paused]; nofun)
      rw [paused] at shows
      subst shows
      have sameTask := congrArg (Option.map fun run : Run => { run with deadline := some deadline }) isLoaded
      exact performed answer (.loaded _ sameTask (.inl rfl) rfl isUp rfl)
        (Actor.task?_of_loaded isLoaded) rfl

/-- The same of the whole answer, with the moves before and after the call is carried out. -/
theorem answer (coupled : Coupled call.task? actor.up actor.engine view) :
    Answers call view (actor.answer call).1 (actor.answer call).2 := by
  have early := coupled.moveAll (actor.before ++ [.comeUp])
  have done := perform early.coupled (actor.up_moveAll_comeUp actor.before)
  have late := done.follows.coupled.moveAll
    ((actor.moveAll (actor.before ++ [.comeUp])).1.perform call).1.later
  have whole := early.append (done.follows.append late)
  exact ⟨done.notBusy, whole.coupled, whole.about⟩

end Answers

end Simulated

end PlanService
