import Mathlib.Algebra.GroupWithZero.Nat
import PlanService.Proofs.Engine.Passage

/-! # The time at work

A history tells when an engine was at work: from each time that it told that it runs, at the start or
after a pause, to the next time that it told that it has paused, or to now.  Of such a stretch only whole
steps count.

What is emitted later adds to a history at its end: a pause ends the stretch that is open, and a new one
begins when the engine runs (`stretches_append`).  What was counted by some time stays counted.
-/

namespace PlanService

namespace Simulated

def Stamped.isRunning (moment : Stamped) : Bool := moment.event = .stateChanged .running

def Stamped.isPaused (moment : Stamped) : Bool := moment.event = .stateChanged .paused

/-- The time of the next pause, or now. -/
def pauseTime (now : Millis) (history : List Stamped) : Millis :=
  (history.find? (·.isPaused)).elim now (·.time)

/-- How long the engine was at work, in one stretch after another. -/
def stretches (now : Millis) : List Stamped → List Millis
  | [] => []
  | moment :: later =>
    if moment.isRunning then (pauseTime now later - moment.time) :: stretches now later
    else stretches now later

/-- How many whole steps there are in the stretches up to a time. -/
def wholeSteps (step : Millis) (history : List Stamped) (time : Millis) : Nat :=
  ((stretches time (history.filter (·.time ≤ time))).map (· / step)).sum

theorem pauseTime_append (now : Millis) (history more : List Stamped) :
    pauseTime now (history ++ more) = pauseTime (pauseTime now more) history := by
  rw [pauseTime, List.find?_append]
  cases found : history.find? (·.isPaused) <;> simp [pauseTime, found]

theorem stretches_append (now : Millis) (history more : List Stamped) :
    stretches now (history ++ more) = stretches (pauseTime now more) history ++ stretches now more := by
  induction history with
  | nil => rfl
  | cons moment later ih =>
    rw [List.cons_append, stretches, stretches, ih, pauseTime_append]
    split <;> rfl

/-- Events that tell of something else do not bear on the stretches. -/
theorem stretches_append_of_other (now : Millis) (history : List Stamped) {more : List Stamped}
    (other : ∀ moment ∈ more, moment.isRunning = false ∧ moment.isPaused = false) :
    stretches now (history ++ more) = stretches now history := by
  have noPause : pauseTime now more = now := by
    have missing : more.find? (·.isPaused) = none :=
      List.find?_eq_none.mpr fun moment member => by simp [(other moment member).2]
    rw [pauseTime, missing, Option.elim_none]
  have none : stretches now more = [] := by
    clear noPause
    induction more with
    | nil => rfl
    | cons moment later ih =>
      rw [stretches, (other moment List.mem_cons_self).1]
      exact ih fun next member => other next (List.mem_cons_of_mem _ member)
  rw [stretches_append, noPause, none, List.append_nil]

/-- A pause ends the stretch that is open. -/
theorem stretches_append_paused (now : Millis) (history : List Stamped) (time : Millis) :
    stretches now (history ++ [⟨time, .stateChanged .paused⟩]) = stretches time history := by
  rw [stretches_append]
  exact List.append_nil _

/-- To run is to begin a stretch. -/
theorem stretches_append_running (now : Millis) (history : List Stamped) (time : Millis) :
    stretches now (history ++ [⟨time, .stateChanged .running⟩]) = stretches now history ++ [now - time] := by
  rw [stretches_append]
  rfl

/-- When everything has been emitted by a time, all of it counts. -/
theorem wholeSteps_of_past {history : List Stamped} {time : Millis}
    (past : ∀ moment ∈ history, moment.time ≤ time) (step : Millis) :
    wholeSteps step history time = ((stretches time history).map (· / step)).sum := by
  rw [wholeSteps, List.filter_eq_self.mpr fun moment member => decide_eq_true (past moment member)]

/-- What is emitted after a time does not bear on what was done by then. -/
theorem wholeSteps_append_of_later {more : List Stamped} {time : Millis}
    (later : ∀ moment ∈ more, time < moment.time) (step : Millis) (history : List Stamped) :
    wholeSteps step (history ++ more) time = wholeSteps step history time := by
  have none : more.filter (·.time ≤ time) = [] :=
    List.filter_eq_nil_iff.mpr fun moment member => by simpa using later moment member
  rw [wholeSteps, wholeSteps, List.filter_append, none, List.append_nil]

/-- A step that was cut is not counted. -/
example : wholeSteps 100
    [⟨0, .stateChanged .running⟩, ⟨250, .stateChanged .pausing⟩, ⟨250, .stateChanged .paused⟩,
      ⟨400, .stateChanged .running⟩] 500 = 3 := by decide

end Simulated

end PlanService
