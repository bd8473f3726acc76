import PlanService.Proofs.Engine.Pace
import PlanService.Proofs.Engine.Protocol

/-! # The books of the simulated engine

What an engine keeps of its plan agrees at any time with what it was called to do: the state tells
whether a plan is loaded and whether a step is in flight, and the counters of a loaded plan add up to
the number of steps that it was started with (`Booked`).  Calls and steps keep this, in whatever order
they come; to answer a call and to let time pass are such orders (`exists_stimuli_answer`,
`exists_stimuli_advance`).

So the counters stay where 64 bits hold them, and a plan that fails does so with the very step that it is
to fail after.
-/

namespace PlanService

/-- The task that a call is to run, with its id. -/
def EngineCall.job? : EngineCall → Option (TaskId × Task)
  | run id task => some (id, task)
  | pause _ | resume => none

/-- The task of the last call to run one. -/
def lastJob? (calls : List EngineCall) : Option (TaskId × Task) :=
  (calls.filterMap (·.job?)).getLast?

theorem lastJob?_append (calls more : List EngineCall) :
    lastJob? (calls ++ more) = (lastJob? more).or (lastJob? calls) := by
  rw [lastJob?, List.filterMap_append, List.getLast?_append, lastJob?, lastJob?]

theorem Json.count?_le {value : Json} {n : Nat} (counts : value.count? = some n) : n ≤ Nat.pow 2 64 - 1 := by
  unfold Json.count? at counts
  split at counts
  · split at counts
    next inRange =>
      cases counts
      exact Nat.le_sub_one_of_lt inRange.2
    next => cases counts
  · cases counts

namespace Simulated

/-- A plan takes no more steps than 64 bits hold, if the default number is one that they hold. -/
theorem steps_le {config : Config} {task : Task} {steps : Nat} {failAfter : Option Nat}
    (isWord : config.defaultSteps ≤ Nat.pow 2 64 - 1) (planned : plan config task = .ok (steps, failAfter)) :
    steps ≤ Nat.pow 2 64 - 1 := by
  rw [plan_eq] at planned
  split at planned
  · cases planned
  · split at planned
    · cases planned
    · simp only [Except.ok.injEq, Prod.mk.injEq] at planned
      cases counted : (task.params.get? "num").bind (·.count?) with
      | none =>
        rw [← planned.1, counted]
        exact isWord
      | some n =>
        obtain ⟨value, -, counts⟩ := Option.bind_eq_some_iff.mp counted
        rw [← planned.1, counted]
        exact Json.count?_le counts

namespace Run.Fits

variable {config : Config} {task : Task} {run : Run}

theorem withDeadline (fits : run.Fits config task) (deadline : Option Millis) :
    Run.Fits { run with deadline } config task :=
  ⟨fits.planned, fits.working, fits.going⟩

/-- The step with which a plan fails is the one that it is to fail after. -/
theorem failAfter_eq (fits : run.Fits config task) {messages : List String} {message : String}
    (ends : run.ending? = some messages) (member : message ∈ messages) :
    run.failAfter = some (run.completed + 1) ∧ message = s!"plan failed after {run.completed + 1} step(s)" := by
  unfold ending? at ends
  split at ends
  next fails =>
    cases ends
    obtain ⟨k, isLimit, reached⟩ := (Option.any_eq_true _ _).mp fails
    have before := fits.going k isLimit
    have now : k = run.completed + 1 := Nat.le_antisymm (of_decide_eq_true reached) before
    exact ⟨now ▸ isLimit, List.mem_singleton.mp member⟩
  next =>
    split at ends <;> cases ends
    cases member

end Run.Fits

/-! ## What agrees -/

/-- The books of an engine with these settings agree, where `job` is the task that it was to run last. -/
inductive Booked (config : Config) (job : Option (TaskId × Task)) (engine : Simulated) : Prop where
  | resting (same : engine.config = config) (state : engine.state = .idle) (empty : engine.run = none)
  | working (same : engine.config = config) (run : Run) (task : Task) (deadline : Millis)
      (isLoaded : engine.run = some run) (isJob : job = some (run.id, task)) (fits : run.Fits config task)
      (state : engine.state = .running ∨ engine.state = .pausing) (inFlight : run.deadline = some deadline)
  | halted (same : engine.config = config) (run : Run) (task : Task) (isLoaded : engine.run = some run)
      (isJob : job = some (run.id, task)) (fits : run.Fits config task) (state : engine.state = .paused)
      (still : run.deadline = none)

namespace Booked

variable {config : Config} {job : Option (TaskId × Task)} {engine : Simulated}

theorem config_eq (booked : Booked config job engine) : engine.config = config := by
  cases booked <;> assumption

/-- A loaded plan is the one of the last task to run, and its counters add up to it. -/
theorem fits (booked : Booked config job engine) {run : Run} (isLoaded : engine.run = some run) :
    ∃ task, job = some (run.id, task) ∧ run.Fits config task := by
  cases booked with
  | resting same state empty => cases isLoaded.symm.trans empty
  | working same other task deadline isOther isJob fits =>
    cases isLoaded.symm.trans isOther
    exact ⟨task, isJob, fits⟩
  | halted same other task isOther isJob fits =>
    cases isLoaded.symm.trans isOther
    exact ⟨task, isJob, fits⟩

theorem running_of_due (booked : Booked config job engine) {limit time : Millis}
    (isDue : engine.due? limit = some time) : engine.state = .running ∨ engine.state = .pausing := by
  cases booked with
  | resting same state empty => simp [due?, empty] at isDue
  | working same run task deadline isLoaded isJob fits state => exact state
  | halted same run task isLoaded isJob fits state still => simp [due?, isLoaded, still] at isDue

theorem atTime (booked : Booked config job engine) (now : Millis) :
    Booked config job { engine with now } := by
  cases booked with
  | resting same state empty => exact .resting same state empty
  | working same run task deadline isLoaded isJob fits state inFlight =>
    exact .working same run task deadline isLoaded isJob fits state inFlight
  | halted same run task isLoaded isJob fits state still =>
    exact .halted same run task isLoaded isJob fits state still

/-- The step in flight ends. -/
theorem finishStep (booked : Booked config job engine) {limit time : Millis}
    (isDue : engine.due? limit = some time) : Booked config job engine.finishStep.1 := by
  obtain ⟨run, isLoaded⟩ := Option.isSome_iff_exists.mp (isSome_run_of_due? isDue)
  obtain ⟨task, isJob, fits⟩ := booked.fits isLoaded
  have same := booked.config_eq
  have working := booked.running_of_due isDue
  rcases finishStep_cases isLoaded with ⟨_, -, ended⟩ | ⟨goesOn, -, ended⟩ | ⟨goesOn, -, ended⟩ <;> rw [ended]
  · exact .resting same rfl rfl
  · exact .halted same _ task rfl isJob (fits.stepped goesOn _) rfl rfl
  · exact .working same _ task _ rfl isJob (fits.stepped goesOn _) working rfl

theorem perform_of_declined (booked : Booked config job engine) {call : EngineCall} {error : EngineError}
    (declined : (engine.perform call).error = some error) :
    Booked config ((lastJob? (engine.acceptedBy (.call call))).or job) (engine.perform call).engine := by
  rw [acceptedBy, Simulated.perform_of_declined declined]
  exact booked

theorem perform_of_accepted {call : EngineCall} {later : Simulated} {events : List EngineEvent}
    (answer : engine.perform call = { engine := later, events })
    (booked : Booked config (call.job?.or job) later) :
    Booked config ((lastJob? (engine.acceptedBy (.call call))).or job) (engine.perform call).engine := by
  have isLast : lastJob? [call] = call.job? := by cases call <;> rfl
  rw [acceptedBy, answer]
  exact isLast ▸ booked

theorem perform (booked : Booked config job engine) (call : EngineCall) :
    Booked config ((lastJob? (engine.acceptedBy (.call call))).or job) (engine.perform call).engine := by
  cases declined : (engine.perform call).error with
  | some error => exact booked.perform_of_declined declined
  | none =>
    have same := booked.config_eq
    cases call with
    | run id task =>
      by_cases idle : engine.state = .idle
      · rcases start_cases idle id task with
          ⟨error, -, answer⟩ | ⟨steps, failAfter, -, planned, some, -⟩ | ⟨failAfter, -, answer⟩
        · rw [Simulated.perform, answer] at declined
          cases declined
        · have answer := start_of_planned idle planned some id
          rw [same] at planned
          exact perform_of_accepted answer
            (.working same _ task _ rfl rfl (.start planned some id _) (.inl rfl) rfl)
        · exact perform_of_accepted answer (.resting same rfl rfl)
      · simp [Simulated.perform, start, idle] at declined
    | pause defer =>
      rcases engine.pause_cases defer with ⟨error, -, answer⟩ | ⟨running, answer⟩ | ⟨running, answer⟩
      · rw [Simulated.perform, answer] at declined
        cases declined
      all_goals
        refine perform_of_accepted answer ?_
        cases booked with
        | resting _ state => cases running.symm.trans state
        | halted _ _ _ _ _ _ state => cases running.symm.trans state
        | working _ run task deadline isLoaded isJob fits _ inFlight => ?_
      · exact .working same run task deadline isLoaded isJob fits (.inr rfl) inFlight
      · have halted := congrArg (Option.map fun run : Run => { run with deadline := none }) isLoaded
        exact .halted same _ task halted isJob (fits.withDeadline none) rfl rfl
    | resume =>
      rcases engine.resume_cases with ⟨error, -, answer⟩ | ⟨paused, deadline, answer⟩
      · rw [Simulated.perform, answer] at declined
        cases declined
      · obtain ⟨run, isLoaded⟩ : ∃ run, engine.run = some run := by
          cases booked with
          | resting _ state => cases paused.symm.trans state
          | halted _ run _ isLoaded => exact ⟨run, isLoaded⟩
          | working _ run _ _ isLoaded => exact ⟨run, isLoaded⟩
        obtain ⟨task, isJob, fits⟩ := booked.fits isLoaded
        have goesOn := congrArg (Option.map fun run : Run => { run with deadline := some deadline }) isLoaded
        exact perform_of_accepted answer
          (.working same _ task deadline goesOn isJob (fits.withDeadline _) (.inl rfl) rfl)

theorem meet (booked : Booked config job engine) (stimulus : Stimulus) :
    Booked config ((lastJob? (engine.acceptedBy stimulus)).or job) (engine.meet stimulus).engine := by
  cases stimulus with
  | call call => exact booked.perform call
  | time now => exact booked.atTime now
  | endStep =>
    cases isDue : engine.due? engine.now with
    | none =>
      rw [Simulated.meet, isDue]
      exact booked
    | some time =>
      rw [meet_endStep isDue]
      exact booked.finishStep isDue

theorem after (booked : Booked config job engine) (stimuli : List Stimulus) :
    Booked config ((lastJob? (engine.accepted stimuli)).or job) (engine.after stimuli) := by
  induction stimuli generalizing engine job with
  | nil => exact booked
  | cons stimulus later ih =>
    have rest := ih (booked.meet stimulus)
    rwa [← Option.or_assoc, ← lastJob?_append] at rest

end Booked

/-- An engine that comes up has nothing in its books. -/
theorem booked_after (config : Config) (now : Millis) (stimuli : List Stimulus) :
    let start : Simulated := { config, now }
    Booked config (lastJob? (start.accepted stimuli)) (start.after stimuli) := by
  intro start
  have atStart : Booked config none start := .resting rfl rfl rfl
  have later := atStart.after stimuli
  rwa [Option.or_none] at later

/-- No call is answered with an error event. -/
theorem error_not_mem_perform (engine : Simulated) (call : EngineCall) (message : String) :
    .error message ∉ (engine.perform call).events := by
  cases call with
  | run id task =>
    by_cases idle : engine.state = .idle
    · rcases start_cases idle id task with
        ⟨error, -, answer⟩ | ⟨steps, failAfter, deadline, -, -, answer⟩ | ⟨failAfter, -, answer⟩ <;>
        simp [perform, answer]
    · simp [perform, start, idle]
  | pause defer =>
    rcases engine.pause_cases defer with ⟨error, -, answer⟩ | ⟨-, answer⟩ | ⟨-, answer⟩ <;>
      simp [perform, answer]
  | resume =>
    rcases engine.resume_cases with ⟨error, -, answer⟩ | ⟨-, deadline, answer⟩ <;> simp [perform, answer]

/-- An error is told by the step that ends a plan, and by nothing else. -/
theorem exists_run_of_error {engine : Simulated} {stimulus : Stimulus} {message : String}
    (told : .error message ∈ (engine.meet stimulus).events) :
    ∃ run messages, engine.run = some run ∧ run.ending? = some messages ∧ message ∈ messages := by
  cases stimulus with
  | call call => exact absurd told (engine.error_not_mem_perform call message)
  | time now => cases told
  | endStep =>
    cases isDue : engine.due? engine.now with
    | none =>
      rw [meet, isDue] at told
      cases told
    | some time =>
      obtain ⟨run, isLoaded⟩ := Option.isSome_iff_exists.mp (isSome_run_of_due? isDue)
      rw [meet_endStep isDue] at told
      rcases finishStep_cases isLoaded with ⟨messages, ends, ended⟩ | ⟨-, -, ended⟩ | ⟨-, -, ended⟩ <;>
        rw [ended] at told
      · exact ⟨run, messages, isLoaded, ends, by simpa using told⟩
      · simp at told
      · cases told

/-- Let a simulated engine come up with any settings, and then be called to run, to pause and to resume
while the clock goes and steps end, in any order.  It is idle, running, pausing or paused.  It has a plan
loaded unless it is idle, and a step in flight if it is running or pausing and not otherwise.

The loaded plan is the one of the last call to run that was accepted.  It has steps to do; those and the
ones done make up the number that it was started with, which 64 bits hold; and it has not come to the
step that it is to fail after.  So when a step is due there is a plan that it belongs to, there is one
more to count, and one fewer is left without counting below zero.  A failure names just the number of steps
that the plan was to fail after. -/
theorem books_agree (config : Config) (isWord : config.defaultSteps ≤ Nat.pow 2 64 - 1) (now : Millis)
    (stimuli : List Stimulus) :
    let start : Simulated := { config, now }
    let engine := start.after stimuli
    let deadline := engine.run.bind (·.deadline)
    engine.state ∈ [.idle, .running, .pausing, .paused] ∧
    (engine.run.isSome ↔ engine.state ≠ .idle) ∧
    (deadline.isSome ↔ engine.state = .running ∨ engine.state = .pausing) ∧
    (∀ run, engine.run = some run → ∃ task steps,
      lastJob? (start.accepted stimuli) = some (run.id, task) ∧
      plan config task = .ok (steps, run.failAfter) ∧ steps ≤ Nat.pow 2 64 - 1 ∧
      1 ≤ run.remaining ∧ run.completed + run.remaining = steps ∧
      ∀ k, run.failAfter = some k → run.completed < k) ∧
    (∀ limit time, engine.due? limit = some time → ∃ run, engine.run = some run ∧
      run.completed + 1 ≤ Nat.pow 2 64 - 1 ∧ run.remaining - 1 + 1 = run.remaining) ∧
    ∀ stimulus message, .error message ∈ (engine.meet stimulus).events →
      ∃ run k, engine.run = some run ∧ run.failAfter = some k ∧ run.completed + 1 = k ∧
        message = s!"plan failed after {k} step(s)" := by
  intro start engine deadline
  have booked : Booked config (lastJob? (start.accepted stimuli)) engine := booked_after config now stimuli
  have holds (run : Run) (isLoaded : engine.run = some run) : ∃ task steps,
      lastJob? (start.accepted stimuli) = some (run.id, task) ∧
      plan config task = .ok (steps, run.failAfter) ∧ steps ≤ Nat.pow 2 64 - 1 ∧
      1 ≤ run.remaining ∧ run.completed + run.remaining = steps ∧
      ∀ k, run.failAfter = some k → run.completed < k := by
    obtain ⟨task, isJob, fits⟩ := booked.fits isLoaded
    exact ⟨task, _, isJob, fits.planned, steps_le isWord fits.planned, fits.working, rfl, fits.going⟩
  refine ⟨?_, ?_, ?_, holds, fun limit time isDue => ?_, fun stimulus message told => ?_⟩
  · cases booked with
    | resting _ state => simp [state]
    | working _ _ _ _ _ _ _ state => rcases state with state | state <;> simp [state]
    | halted _ _ _ _ _ _ state => simp [state]
  · cases booked with
    | resting _ state empty => simp [state, empty]
    | working _ run _ _ isLoaded _ _ state => rcases state with state | state <;> simp [state, isLoaded]
    | halted _ run _ isLoaded _ _ state => simp [state, isLoaded]
  · cases booked with
    | resting _ state empty => simp [deadline, state, empty]
    | working _ run _ _ isLoaded _ _ state inFlight => simp [deadline, state, isLoaded, inFlight]
    | halted _ run _ isLoaded _ _ state still => simp [deadline, state, isLoaded, still]
  · obtain ⟨run, isLoaded⟩ := Option.isSome_iff_exists.mp (isSome_run_of_due? isDue)
    obtain ⟨task, steps, -, -, small, working, sum, -⟩ := holds run isLoaded
    exact ⟨run, isLoaded, by omega, Nat.sub_add_cancel working⟩
  · obtain ⟨run, messages, isLoaded, ends, member⟩ := exists_run_of_error told
    obtain ⟨task, -, fits⟩ := booked.fits isLoaded
    obtain ⟨isLimit, rfl⟩ := fits.failAfter_eq ends member
    exact ⟨run, _, isLoaded, isLimit, rfl, rfl⟩

/-- After one of three steps the second is due, with which the plan is to fail. -/
theorem fails_with_second_step :
    let task : Task := { name := "count", params := [("fail_after", .ofNat 2), ("num", .ofNat 3)] }
    let engine := ({} : Simulated).after [.call (.run (.ofNumber 1) task), .time 100, .endStep, .time 200]
    ({} : Config).defaultSteps ≤ Nat.pow 2 64 - 1 ∧
      .error "plan failed after 2 step(s)" ∈ (engine.meet .endStep).events ∧
      ∃ run, engine.run = some run ∧ run.failAfter = some 2 ∧ run.completed + 1 = 2 ∧ 1 ≤ run.remaining := by
  intro task engine
  have isWord : ({} : Config).defaultSteps ≤ Nat.pow 2 64 - 1 := by decide
  have told : .error "plan failed after 2 step(s)" ∈ (engine.meet .endStep).events := by decide +kernel
  have limit : engine.run.bind (·.failAfter) = some 2 := by decide +kernel
  obtain ⟨-, -, -, counts, -, names⟩ := books_agree {} isWord 0
    [.call (.run (.ofNumber 1) task), .time 100, .endStep, .time 200]
  obtain ⟨run, k, isLoaded, isLimit, reached, -⟩ := names .endStep _ told
  obtain ⟨_, _, -, -, -, working, -⟩ := counts run isLoaded
  obtain rfl : 2 = k := by
    rw [isLoaded, Option.bind_some, isLimit] at limit
    exact (Option.some.inj limit).symm
  exact ⟨isWord, told, run, isLoaded, isLimit, reached, working⟩

end Simulated

end PlanService
