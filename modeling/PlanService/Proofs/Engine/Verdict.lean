import PlanService.Proofs.Engine.Coupling

/-! # How a plan ends

What a task and the settings of the simulated engine say is enough to tell how the task will
end.  `Config.verdict` says it in one place, without an engine.  A run of the plan keeps to it:
`Run.Fits` ties the counters of a loaded run to the numbers that the plan was started with,
each step keeps that, whatever was paused in between, and the step that ends the plan ends it
with the verdict.
-/

namespace PlanService

/-- A whole number from 1 on that fits into 64 bits, which is what counts as a number of steps. -/
def Json.count? : Json → Option Nat
  | .number (.integer (.ofNat n)) => if 0 < n ∧ n < UInt64.size then some n else none
  | _ => none

theorem Json.count?_eq (value : Json) : value.count? = value.nat?.filter (0 < ·) := by
  cases value with
  | number number =>
    cases number with
    | integer n =>
      cases n with
      | ofNat n =>
        rw [count?, nat?]
        generalize UInt64.size = bound
        by_cases fits : n < bound <;> simp [fits, Option.filter_some]
      | negSucc n => rfl
    | real value => rfl
  | _ => rfl

theorem Json.count?_pos {value : Json} {n : Nat} (counts : value.count? = some n) : 0 < n := by
  rw [count?_eq, Option.filter_eq_some_iff] at counts
  simpa using counts.2

namespace Simulated

/-- What is wrong with a parameter that is given and is no count. -/
def badCount? (task : Task) (name : String) : Option String :=
  ((task.params.get? name).filter (·.count?.isNone)).map fun value =>
    s!"'{name}' must be a positive integer, got {value.compact}"

/-- The errors that a task ends with: it is refused for its name, or for the first parameter
that is no count; otherwise it fails if it is to do so before its steps are done. -/
def Config.verdict (config : Config) (task : Task) : List String :=
  if task.name ∉ config.plans then [s!"Unknown plan: {task.name}"]
  else
    match (badCount? task "num").or (badCount? task "fail_after") with
    | some reason => [s!"Invalid parameters: {reason}"]
    | none =>
      let steps := ((task.params.get? "num").bind (·.count?)).getD config.defaultSteps
      match (task.params.get? "fail_after").bind (·.count?) with
      | some k => if k ≤ steps then [s!"plan failed after {k} step(s)"] else []
      | none => []

/-! ## What is planned -/

theorem positiveCount_eq (name : String) (value : Json) :
    positiveCount name value =
      match value.count? with
      | some n => .ok n
      | none => .error (.invalidParams s!"'{name}' must be a positive integer, got {value.compact}") := by
  unfold positiveCount
  rw [Json.count?_eq]
  cases value.nat? with
  | none => rfl
  | some n => by_cases positive : 0 < n <;> simp [positive, Option.filter_some]

/-- A plan is refused for its name, or for the first parameter that is no count. -/
theorem plan_eq (config : Config) (task : Task) :
    plan config task =
      if task.name ∉ config.plans then .error (.unknownPlan task.name)
      else
        match (badCount? task "num").or (badCount? task "fail_after") with
        | some reason => .error (.invalidParams reason)
        | none =>
          .ok (((task.params.get? "num").bind (·.count?)).getD config.defaultSteps,
            (task.params.get? "fail_after").bind (·.count?)) := by
  simp only [plan, positiveCount_eq, bind, Except.bind, pure, Except.pure, Functor.map, Except.map, throw,
    throwThe, MonadExceptOf.throw]
  by_cases known : task.name ∈ config.plans
  · simp only [badCount?, List.contains_eq_mem, known, decide_true, Bool.not_true, Bool.false_eq_true,
      if_false, not_true_eq_false]
    rcases task.params.get? "num" with _ | num <;> rcases task.params.get? "fail_after" with _ | failAfter
    · rfl
    · cases failing : failAfter.count? <;> simp [Option.filter_some, failing]
    · cases counts : num.count? <;> simp [Option.filter_some, counts]
    · cases counts : num.count? with
      | none => simp [Option.filter_some, counts]
      | some n => cases failing : failAfter.count? <;> simp [Option.filter_some, counts, failing]
  · simp [known]

/-- The verdict is what comes of the plan: the error that refuses it, or the failure that comes
before its steps are done. -/
theorem verdict_eq (config : Config) (task : Task) :
    config.verdict task =
      match plan config task with
      | .error error => [error.message]
      | .ok (steps, failAfter) =>
        ((failAfter.filter (· ≤ steps)).map fun k => s!"plan failed after {k} step(s)").toList := by
  rw [plan_eq, Config.verdict]
  split
  · rfl
  · split
    · rfl
    · cases (task.params.get? "fail_after").bind (·.count?) with
      | none => rfl
      | some k =>
        simp only [Option.filter_some, decide_eq_true_eq]
        split <;> rfl

/-- A failure on the last step counts. -/
example : ({} : Config).verdict { name := "count", params := [("fail_after", .ofNat 2), ("num", .ofNat 2)] } =
    ["plan failed after 2 step(s)"] := by decide

theorem verdict_of_refused {config : Config} {task : Task} {error : EngineError}
    (refused : plan config task = .error error) : config.verdict task = [error.message] := by
  rw [verdict_eq, refused]

/-- No plan is to fail before its first step. -/
theorem failAfter_pos {config : Config} {task : Task} {steps k : Nat}
    (planned : plan config task = .ok (steps, some k)) : 0 < k := by
  rw [plan_eq] at planned
  split at planned
  · cases planned
  · split at planned
    · cases planned
    · simp only [Except.ok.injEq, Prod.mk.injEq, Option.bind_eq_some_iff] at planned
      obtain ⟨-, value, -, counts⟩ := planned
      exact Json.count?_pos counts

/-- A plan without steps is over before it can fail. -/
theorem verdict_of_no_steps {config : Config} {task : Task} {failAfter : Option Nat}
    (planned : plan config task = .ok (0, failAfter)) : config.verdict task = [] := by
  rw [verdict_eq, planned]
  cases failAfter with
  | none => rfl
  | some k =>
    have later : k ≠ 0 := Nat.ne_of_gt (failAfter_pos planned)
    simp [Option.filter_some, later]

/-! ## Runs of a plan -/

/-- A loaded run does what the task says: the steps done and those to do are the ones of the
plan, and it has not come to the step that it is to fail after. -/
structure Run.Fits (run : Run) (config : Config) (task : Task) : Prop where
  planned : plan config task = .ok (run.completed + run.remaining, run.failAfter)
  working : 0 < run.remaining
  going : ∀ k, run.failAfter = some k → run.completed < k

namespace Run.Fits

variable {config : Config} {task : Task} {run : Run}

theorem start {steps : Nat} {failAfter : Option Nat} (planned : plan config task = .ok (steps, failAfter))
    (some : steps ≠ 0) (id : TaskId) (deadline : Option Millis) :
    Run.Fits { id, remaining := steps, failAfter, deadline } config task where
  planned := by rw [Nat.zero_add, planned]
  working := Nat.pos_of_ne_zero some
  going k fails := by
    cases fails
    exact failAfter_pos planned

theorem stepped (fits : run.Fits config task) (goesOn : run.ending? = none) (deadline : Option Millis) :
    (run.stepped deadline).Fits config task := by
  obtain ⟨planned, working, going⟩ := fits
  unfold ending? at goesOn
  split at goesOn
  · cases goesOn
  next notFailing =>
    split at goesOn
    · cases goesOn
    next more =>
      refine ⟨?_, ?_, fun k fails => ?_⟩
      · rw [planned]
        simp only [Run.stepped]
        congr 2
        omega
      · simp only [Run.stepped]
        omega
      · simp only [Run.stepped] at fails ⊢
        simpa [fails] using notFailing

/-- The step that ends a plan ends it with the verdict: a failure on the last step counts. -/
theorem verdict_eq (fits : run.Fits config task) {messages : List String}
    (ends : run.ending? = some messages) : config.verdict task = messages := by
  obtain ⟨planned, working, going⟩ := fits
  rw [Simulated.verdict_eq, planned]
  cases fails : run.failAfter with
  | none =>
    simp only [ending?, fails, Option.any_none, Bool.false_eq_true, if_false] at ends
    split at ends <;> cases ends
    rfl
  | some k =>
    have before : run.completed < k := going k fails
    simp only [ending?, fails, Option.any_some, decide_eq_true_eq] at ends
    split at ends
    next failing =>
      -- The failure comes with this step, and this step is one of the plan's.
      have now : k = run.completed + 1 := by omega
      cases ends
      simp [Option.filter_some, now, Nat.one_le_iff_ne_zero.mpr (Nat.ne_of_gt working)]
    next notFailing =>
      split at ends
      next last =>
        have never : ¬k ≤ run.completed + run.remaining := by omega
        cases ends
        simp [Option.filter_some, never]
      next => cases ends

end Run.Fits

/-- What is loaded goes on with the run that was loaded before. -/
def Continues (config : Config) (earlier later : Option Run) : Prop :=
  ∀ run, later = some run → ∃ old, earlier = some old ∧ run.id = old.id ∧
    ∀ task, old.Fits config task → run.Fits config task

namespace Continues

variable {config : Config}

theorem refl (run : Option Run) : Continues config run run :=
  fun run isRun => ⟨run, isRun, rfl, fun _ fits => fits⟩

/-- To pause and to go on later leaves the counters alone. -/
theorem withDeadline (run : Option Run) (deadline : Option Millis) :
    Continues config run (run.map fun run => { run with deadline }) := by
  intro later isLater
  obtain ⟨old, isOld, rfl⟩ := Option.map_eq_some_iff.mp isLater
  exact ⟨old, isOld, rfl, fun _ ⟨planned, working, going⟩ => ⟨planned, working, going⟩⟩

theorem stepped {run : Run} (goesOn : run.ending? = none) (deadline : Option Millis) :
    Continues config (some run) (some (run.stepped deadline)) := by
  intro later isLater
  cases isLater
  exact ⟨run, rfl, rfl, fun _ fits => fits.stepped goesOn deadline⟩

end Continues

end Simulated

end PlanService
