import Mathlib.Logic.Function.Iterate
import PlanService.Proofs.Engine.Bookkeeping

/-! # Deadlines run out

When the clock goes on, the deadlines up to the new time are met one after another.  A step need not take
any time, so the clock is no measure of how many there are: the next deadline may be the very same moment.
What each step lowers is the number of steps that the plan still has before it (`Run.left`), and only a
plan with steps before it has a deadline.
-/

namespace PlanService

namespace Simulated

/-- The steps that a plan still has before it: all that are left, or those up to the one that it is to fail
after. -/
def Run.left (run : Run) : Nat :=
  run.failAfter.elim run.remaining fun k => min run.remaining (k - run.completed)

theorem Run.left_le_remaining (run : Run) : run.left ≤ run.remaining := by
  cases fails : run.failAfter with
  | none => simp [left, fails]
  | some k =>
    rw [left, fails]
    exact Nat.min_le_left ..

theorem Run.left_le_of_failAfter {run : Run} {k : Nat} (fails : run.failAfter = some k) :
    run.left ≤ k - run.completed := by
  rw [left, fails]
  exact Nat.min_le_right ..

theorem Run.Fits.left_pos {config : Config} {task : Task} {run : Run} (fits : run.Fits config task) :
    0 < run.left := by
  have working := fits.working
  cases fails : run.failAfter with
  | none => rwa [left, fails]
  | some k =>
    rw [left, fails]
    exact Nat.lt_min.mpr ⟨working, Nat.sub_pos_of_lt (fits.going k fails)⟩

/-- A step that does not end the plan leaves one fewer. -/
theorem Run.left_stepped (run : Run) (deadline : Option Millis) : (run.stepped deadline).left = run.left - 1 := by
  cases fails : run.failAfter with
  | none => simp [left, stepped, fails]
  | some k =>
    simp only [left, stepped, fails, Option.elim_some]
    omega

/-- The steps that an engine still has before it. -/
def left (engine : Simulated) : Nat :=
  engine.run.elim 0 Run.left

/-- Meets the next deadline, if that is not after the limit, and ends the step that it is the end of. -/
def meetDeadline (limit : Millis) (engine : Simulated) : Simulated :=
  match engine.due? limit with
  | none => engine
  | some time => { engine with now := time }.finishStep.1

variable {config : Config} {job : Option (TaskId × Task)} {engine : Simulated} {limit time : Millis}

theorem meetDeadline_of_due (isDue : engine.due? limit = some time) :
    engine.meetDeadline limit = { engine with now := time }.finishStep.1 := by
  rw [meetDeadline, isDue]

namespace Booked

theorem meetDeadline (booked : Booked config job engine) (isDue : engine.due? limit = some time) :
    Booked config job (engine.meetDeadline limit) := by
  have isDueThen : ({ engine with now := time } : Simulated).due? limit = some time := isDue
  rw [meetDeadline_of_due isDue]
  exact (booked.atTime time).finishStep isDueThen

/-- Each deadline that is met leaves fewer steps. -/
theorem left_meetDeadline (booked : Booked config job engine) (isDue : engine.due? limit = some time) :
    (engine.meetDeadline limit).left < engine.left := by
  obtain ⟨run, isLoaded⟩ := Option.isSome_iff_exists.mp (isSome_run_of_due? isDue)
  obtain ⟨task, -, fits⟩ := booked.fits isLoaded
  have before : engine.left = run.left := by rw [left, isLoaded, Option.elim_some]
  have fewer (deadline : Option Millis) : (run.stepped deadline).left < run.left := by
    rw [run.left_stepped]
    exact Nat.sub_one_lt_of_lt fits.left_pos
  have loadedThen : ({ engine with now := time } : Simulated).run = some run := isLoaded
  rw [meetDeadline_of_due isDue, before]
  rcases finishStep_cases loadedThen with ⟨_, -, ended⟩ | ⟨-, -, ended⟩ | ⟨-, -, ended⟩ <;> rw [ended, left]
  · exact fits.left_pos
  · exact fewer _
  · exact fewer _

/-- No more deadlines are met up to a limit than there are steps left. -/
theorem exists_meets_settle (booked : Booked config job engine) (limit : Millis) :
    ∃ met ≤ engine.left, (∀ n < met, ((Simulated.meetDeadline limit)^[n] engine).due? limit ≠ none) ∧
      (engine.settle limit).1 = (Simulated.meetDeadline limit)^[met] engine := by
  -- The induction is on the deadlines that are met, each of which leaves fewer steps.
  induction engine using settle.induct limit with
  | case1 engine notDue =>
    refine ⟨0, Nat.zero_le _, fun n isBefore => absurd isBefore (Nat.not_lt_zero n), ?_⟩
    rw [settle_of_not_due notDue]
    rfl
  | case2 engine time isDue ended ih =>
    have fewer := booked.left_meetDeadline isDue
    have later := booked.meetDeadline isDue
    rw [meetDeadline_of_due isDue] at fewer later
    obtain ⟨met, few, due, settles⟩ := ih later
    refine ⟨met + 1, Nat.lt_of_le_of_lt few fewer, fun n isBefore => ?_, ?_⟩
    · cases n with
      | zero => simp [isDue]
      | succ n =>
        rw [Function.iterate_succ_apply, meetDeadline_of_due isDue]
        exact due n (Nat.lt_of_succ_lt_succ isBefore)
    · rw [settle_of_due isDue, Function.iterate_succ_apply, meetDeadline_of_due isDue]
      exact settles

end Booked

/-- Let a simulated engine come up with any settings, a step that takes no time among them, and meet with
anything; and then let the clock go on by any span.  The deadlines that are due by then are met one after
the other, and each is the end of a step.  There are no more of them than the plan has steps left, nor than
it has before it is to fail, and none without a plan; and when they are met no deadline is left, or one that
is after the new time.  That is where the engine stands when the time has passed. -/
theorem deadlines_run_out (config : Config) (now : Millis) (stimuli : List Stimulus) (span : Millis) :
    let engine := ({ config, now } : Simulated).after stimuli
    let limit := engine.now + span
    let later (met : Nat) := (meetDeadline limit)^[met] engine
    ∃ met,
      (∀ n < met, (later n).due? limit ≠ none) ∧ (later met).due? limit = none ∧
      (engine.run = none → met = 0) ∧
      (∀ run, engine.run = some run →
        met ≤ run.remaining ∧ ∀ k, run.failAfter = some k → met ≤ k - run.completed) ∧
      (engine.advance span).1 = { later met with now := limit } ∧
      ∀ deadline, (engine.advance span).1.run.bind (·.deadline) = some deadline → limit < deadline := by
  intro engine limit later
  have booked : Booked config _ engine := booked_after config now stimuli
  obtain ⟨met, few, due, settles⟩ := booked.exists_meets_settle limit
  have notDue : (later met).due? limit = none := by
    rw [show later met = (engine.settle limit).1 from settles.symm]
    exact engine.not_due_settle limit
  have advances : (engine.advance span).1 = { later met with now := limit } :=
    congrArg (fun engine : Simulated => { engine with now := limit }) settles
  refine ⟨met, due, notDue, fun empty => ?_, fun run isLoaded => ?_, advances, ?_⟩
  · rw [left, empty] at few
    exact Nat.le_zero.mp few
  · rw [left, isLoaded] at few
    exact ⟨Nat.le_trans few run.left_le_remaining,
      fun k fails => Nat.le_trans few (Run.left_le_of_failAfter fails)⟩
  · rw [advances]
    exact due?_eq_none_iff.mp notDue

/-- Ten steps that take no time are all over before the clock moves. -/
example :
    let start : Simulated := { config := { step := 0 } }
    let engine := start.after [.call (.run (.ofNumber 1) { name := "count" })]
    engine.left = 10 ∧ (((meetDeadline 0)^[9] engine).due? 0).isSome ∧
      ((meetDeadline 0)^[10] engine).run = none := by
  decide +kernel

end Simulated

end PlanService
