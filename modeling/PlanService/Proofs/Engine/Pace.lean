import PlanService.Proofs.Engine.Stretches
import PlanService.Proofs.Engine.Verdict

/-! # The pace of a plan

However often a plan is paused and goes on, the steps that are done by some time are the whole ones in
the stretches at work.  What carries this through a millisecond, and so through any span, is where the
next deadline is (`OnPace.working`): a whole number of steps after the stretch began, the first such time
that is still to come.  A pause, whether it cuts a step or waits for its end, closes the stretch, and to
go on opens one at a deadline that is a full step away.

The plan is over at the deadline that makes up the number of steps that it takes, or that it is to fail
after (`goal`); until then fewer were done.
-/

namespace PlanService

namespace Simulated

/-! ## What happens to a plan -/

/-- What can happen while a plan is carried out: time passes, or it is asked to pause or to go on. -/
inductive Cue where
  | wait (span : Millis)
  | pause (defer : Bool)
  | resume
  deriving Repr, DecidableEq, Inhabited

/-- A call, and what is emitted before it is answered. -/
def called (engine : Simulated) (call : EngineCall) : Simulated × List Stamped :=
  ((engine.answer call).engine, (engine.answer call).events.map (⟨engine.now, ·⟩))

def obey (engine : Simulated) : Cue → Simulated × List Stamped
  | .wait span => ((engine.advance span).1, engine.timeline span)
  | .pause defer => engine.called (.pause defer)
  | .resume => engine.called .resume

def follow (engine : Simulated) : List Cue → Simulated × List Stamped
  | [] => (engine, [])
  | cue :: later =>
    (((engine.obey cue).1.follow later).1, (engine.obey cue).2 ++ ((engine.obey cue).1.follow later).2)

variable {engine : Simulated}

/-- If nothing is due then, a call does what it says and no more. -/
theorem called_of_not_due {call : EngineCall}
    (notDue : (engine.perform call).engine.due? (engine.perform call).engine.now = none) :
    engine.called call = ((engine.perform call).engine, (engine.perform call).events.map (⟨engine.now, ·⟩)) := by
  simp [called, answer, settle_of_not_due notDue]

theorem called_of_declined (notDue : engine.due? engine.now = none) {call : EngineCall} {error : EngineError}
    (declined : engine.perform call = { engine, error := some error }) : engine.called call = (engine, []) := by
  rw [called_of_not_due (by rw [declined]; exact notDue), declined]
  rfl

theorem resume_of_not_paused (other : engine.state ≠ .paused) :
    engine.resume = { engine, error := some (.invalidState .resume engine.state) } := by
  simp [resume, other]

theorem start_of_planned (idle : engine.state = .idle) {task : Task} {steps : Nat} {failAfter : Option Nat}
    (planned : plan engine.config task = .ok (steps, failAfter)) (some : steps ≠ 0) (id : TaskId) :
    engine.start id task =
      { engine :=
          { engine with
            run := .some
              { id, remaining := steps, failAfter, deadline := .some (engine.now + engine.config.step) }
            state := .running }
        events := [.stateChanged .running] } := by
  simp [start, idle, planned, some, enter]

theorem config_perform (engine : Simulated) (call : EngineCall) :
    (engine.perform call).engine.config = engine.config := by
  cases call with
  | run id task =>
    rw [perform, start]
    split
    · rfl
    · split
      · rfl
      · simp only []
        split <;> rfl
  | pause defer =>
    rcases engine.pause_cases defer with ⟨error, -, asked⟩ | ⟨-, asked⟩ | ⟨-, asked⟩ <;> rw [perform, asked]
  | resume => rcases engine.resume_cases with ⟨error, -, asked⟩ | ⟨-, deadline, asked⟩ <;> rw [perform, asked]

@[simp] theorem config_called (engine : Simulated) (call : EngineCall) :
    (engine.called call).1.config = engine.config :=
  (config_settle _ _).trans (engine.config_perform call)

theorem config_obey (engine : Simulated) (cue : Cue) : (engine.obey cue).1.config = engine.config := by
  cases cue with
  | wait span => exact engine.config_advance span
  | pause defer => exact engine.config_called _
  | resume => exact engine.config_called _

theorem config_follow (engine : Simulated) (cues : List Cue) : (engine.follow cues).1.config = engine.config := by
  induction cues generalizing engine with
  | nil => rfl
  | cons cue cues ih => exact (ih _).trans (engine.config_obey cue)

/-! ## The end of a plan -/

/-- How many steps a plan is over after: all, or those that it is to fail after. -/
def goal (steps : Nat) (failAfter : Option Nat) : Nat :=
  failAfter.elim steps (min steps)

namespace Run.Fits

variable {config : Config} {task : Task} {run : Run} {steps : Nat} {failAfter : Option Nat}

theorem goal_eq (fits : run.Fits config task) (planned : plan config task = .ok (steps, failAfter)) :
    goal steps failAfter = goal (run.completed + run.remaining) run.failAfter := by
  have same := fits.planned.symm.trans planned
  simp only [Except.ok.injEq, Prod.mk.injEq] at same
  rw [same.1, same.2]

theorem lt_goal (fits : run.Fits config task) (planned : plan config task = .ok (steps, failAfter)) :
    run.completed < goal steps failAfter := by
  rw [fits.goal_eq planned]
  have working := fits.working
  cases fails : run.failAfter with
  | none => exact Nat.lt_add_of_pos_right working
  | some k =>
    have before := fits.going k fails
    exact Nat.lt_min.mpr ⟨Nat.lt_add_of_pos_right working, before⟩

/-- A step ends the plan if it makes up the goal. -/
theorem eq_goal (fits : run.Fits config task) (planned : plan config task = .ok (steps, failAfter))
    {messages : List String} (ends : run.ending? = some messages) : run.completed + 1 = goal steps failAfter := by
  have below := fits.lt_goal planned
  rw [fits.goal_eq planned] at below ⊢
  unfold ending? at ends
  cases fails : run.failAfter with
  | none =>
    simp only [fails, Option.any_none, Bool.false_eq_true, if_false, goal, Option.elim_none] at ends below ⊢
    split at ends
    · omega
    · cases ends
  | some k =>
    simp only [fails, Option.any_some, decide_eq_true_eq, goal, Option.elim_some] at ends below ⊢
    split at ends
    · omega
    · split at ends
      · omega
      · cases ends

end Run.Fits

/-! ## Keeping pace -/

/-- Everything was emitted by now, and until now fewer steps were done than the plan is over after. -/
structure Recorded (goal : Nat) (step now : Millis) (history : List Stamped) : Prop where
  past : ∀ moment ∈ history, moment.time ≤ now
  before : ∀ time < now, wholeSteps step history time < goal

namespace Recorded

variable {total : Nat} {step now : Millis} {history more : List Stamped}

theorem append (recorded : Recorded total step now history) (atNow : ∀ moment ∈ more, moment.time = now) :
    Recorded total step now (history ++ more) where
  past moment member := by
    rcases List.mem_append.mp member with member | member
    · exact recorded.past moment member
    · exact Nat.le_of_eq (atNow moment member)
  before time isBefore := by
    rw [wholeSteps_append_of_later fun moment member => by rw [atNow moment member]; exact isBefore]
    exact recorded.before time isBefore

theorem tick (recorded : Recorded total step now history) (notYet : wholeSteps step history now < total)
    (atNext : ∀ moment ∈ more, moment.time = now + 1) : Recorded total step (now + 1) (history ++ more) where
  past moment member := by
    rcases List.mem_append.mp member with member | member
    · exact Nat.le_succ_of_le (recorded.past moment member)
    · exact Nat.le_of_eq (atNext moment member)
  before time isBefore := by
    rw [wholeSteps_append_of_later fun moment member => by rw [atNext moment member]; exact isBefore]
    rcases Nat.lt_or_eq_of_le (Nat.le_of_lt_succ isBefore) with isBefore | rfl
    · exact recorded.before time isBefore
    · exact notYet

end Recorded

/-- How an engine stands that was given a task, with the history since. -/
inductive OnPace (task : Task) (total : Nat) (engine : Simulated) (history : List Stamped) : Prop where
  -- The last stretch began at `since`, and the deadline is the first one from there that is to come.
  | working (run : Run) (past : List Millis) (since : Millis) (isLoaded : engine.run = some run)
      (state : engine.state = .running ∨ engine.state = .pausing) (fits : run.Fits engine.config task)
      (isOpen : ∀ now, stretches now history = past ++ [now - since]) (begun : since ≤ engine.now)
      (counts : run.completed =
        (past.map (· / engine.config.step)).sum + (engine.now - since) / engine.config.step)
      (next : run.deadline = some (since + ((engine.now - since) / engine.config.step + 1) * engine.config.step))
      (recorded : Recorded total engine.config.step engine.now history)
  | halted (run : Run) (past : List Millis) (isLoaded : engine.run = some run) (state : engine.state = .paused)
      (fits : run.Fits engine.config task) (isClosed : ∀ now, stretches now history = past)
      (counts : run.completed = (past.map (· / engine.config.step)).sum) (still : run.deadline = none)
      (recorded : Recorded total engine.config.step engine.now history)
  | ended (finish : Millis) (empty : engine.run = none) (state : engine.state = .idle) (isPast : finish ≤ engine.now)
      (ends : history.getLast? = some ⟨finish, .stateChanged .idle⟩)
      (reached : wholeSteps engine.config.step history finish = total)
      (before : ∀ time < finish, wholeSteps engine.config.step history time < total)

/-- The first time that is a number of whole steps after another, and still to come. -/
theorem lt_next_deadline {since now step : Nat} (begun : since ≤ now) (takesTime : 0 < step) :
    now < since + ((now - since) / step + 1) * step := by
  have ahead := Nat.lt_mul_div_succ (now - since) takesTime
  rw [Nat.mul_comm] at ahead
  omega

/-- One more millisecond makes up a step at most, and does so at the next deadline. -/
theorem next_millisecond {since now step : Nat} (begun : since ≤ now) (takesTime : 0 < step) :
    (now + 1 < since + ((now - since) / step + 1) * step ∧ (now + 1 - since) / step = (now - since) / step) ∨
    (since + ((now - since) / step + 1) * step = now + 1 ∧ (now + 1 - since) / step = (now - since) / step + 1) := by
  have ahead := lt_next_deadline begun takesTime
  have atLeast := Nat.div_mul_le_self (now - since) step
  rcases Nat.lt_or_eq_of_le (Nat.succ_le_of_lt ahead) with early | now
  · refine .inl ⟨early, Nat.div_eq_of_lt_le ?_ ?_⟩ <;> omega
  · refine .inr ⟨now.symm, Nat.div_eq_of_eq_mul_left takesTime ?_⟩
    omega

namespace OnPace

variable {task : Task} {total steps : Nat} {failAfter : Option Nat} {history : List Stamped}

/-- The steps that are done are the whole ones in the stretches at work. -/
theorem completed_eq (onPace : OnPace task total engine history) {run : Run} (isLoaded : engine.run = some run) :
    run.completed = wholeSteps engine.config.step history engine.now := by
  cases onPace with
  | working other past since isOther state fits isOpen begun counts next recorded =>
    cases isLoaded.symm.trans isOther
    rw [wholeSteps_of_past recorded.past, isOpen, counts]
    simp
  | halted other past isOther state fits isClosed counts still recorded =>
    cases isLoaded.symm.trans isOther
    rw [wholeSteps_of_past recorded.past, isClosed, counts]
  | ended finish empty => cases isLoaded.symm.trans empty

/-- The deadline, if there is one, is the end of a step in the last stretch. -/
theorem deadline_eq (onPace : OnPace task total engine history) {run : Run} (isLoaded : engine.run = some run) :
    (engine.state = .paused ∧ run.deadline = none) ∨
    ((engine.state = .running ∨ engine.state = .pausing) ∧
      ∃ past since, stretches engine.now history = past ++ [engine.now - since] ∧ since ≤ engine.now ∧
        run.deadline = some (since + ((engine.now - since) / engine.config.step + 1) * engine.config.step)) := by
  cases onPace with
  | working other past since isOther state fits isOpen begun counts next recorded =>
    cases isLoaded.symm.trans isOther
    exact .inr ⟨state, past, since, isOpen engine.now, begun, next⟩
  | halted other past isOther state fits isClosed counts still recorded =>
    cases isLoaded.symm.trans isOther
    exact .inl ⟨state, still⟩
  | ended finish empty => cases isLoaded.symm.trans empty

/-- Nothing is due that was not met. -/
theorem not_due (onPace : OnPace task total engine history) (takesTime : 0 < engine.config.step) :
    engine.due? engine.now = none := by
  rw [due?_eq_none_iff]
  intro time isDeadline
  cases onPace with
  | working run past since isLoaded state fits isOpen begun counts next recorded =>
    rw [isLoaded, Option.bind_some, next] at isDeadline
    cases isDeadline
    exact lt_next_deadline begun takesTime
  | halted run past isLoaded state fits isClosed counts still recorded =>
    rw [isLoaded, Option.bind_some, still] at isDeadline
    cases isDeadline
  | ended finish empty =>
    rw [empty] at isDeadline
    cases isDeadline

theorem fits (onPace : OnPace task total engine history) {run : Run} (isLoaded : engine.run = some run) :
    run.Fits engine.config task := by
  cases onPace with
  | working other past since isOther state fits =>
    cases isLoaded.symm.trans isOther
    exact fits
  | halted other past isOther state fits =>
    cases isLoaded.symm.trans isOther
    exact fits
  | ended finish empty => cases isLoaded.symm.trans empty

/-- While a plan is loaded, fewer steps are done than it is over after. -/
theorem not_yet (onPace : OnPace task total engine history) {run : Run} (isLoaded : engine.run = some run)
    (planned : plan engine.config task = .ok (steps, failAfter)) :
    wholeSteps engine.config.step history engine.now < goal steps failAfter := by
  rw [← onPace.completed_eq isLoaded]
  exact (onPace.fits isLoaded).lt_goal planned

theorem below (onPace : OnPace task (goal steps failAfter) engine history) {run : Run}
    (isLoaded : engine.run = some run) (planned : plan engine.config task = .ok (steps, failAfter)) :
    ∀ time ≤ engine.now, wholeSteps engine.config.step history time < goal steps failAfter := by
  intro time atMost
  rcases Nat.lt_or_eq_of_le atMost with before | rfl
  · cases onPace with
    | working other past since isOther state fits isOpen begun counts next recorded =>
      exact recorded.before time before
    | halted other past isOther state fits isClosed counts still recorded => exact recorded.before time before
    | ended finish empty => cases isLoaded.symm.trans empty
  · exact onPace.not_yet isLoaded planned

/-- The step that is at work when a millisecond passes. -/
theorem tick_of_due {run : Run} {past : List Millis} {since : Millis}
    (planned : plan engine.config task = .ok (steps, failAfter)) (isLoaded : engine.run = some run)
    (state : engine.state = .running ∨ engine.state = .pausing) (fits : run.Fits engine.config task)
    (isOpen : ∀ now, stretches now history = past ++ [now - since])
    (begun : since ≤ engine.now + 1)
    (counts : run.completed + 1 =
      (past.map (· / engine.config.step)).sum + (engine.now + 1 - since) / engine.config.step)
    (next : engine.now + 1 + engine.config.step =
      since + ((engine.now + 1 - since) / engine.config.step + 1) * engine.config.step)
    (recorded : Recorded (goal steps failAfter) engine.config.step (engine.now + 1)
      (history ++ ({ engine with now := engine.now + 1 } : Simulated).finishStep.2.map (⟨engine.now + 1, ·⟩))) :
    OnPace task (goal steps failAfter) ({ engine with now := engine.now + 1 } : Simulated).finishStep.1
      (history ++ ({ engine with now := engine.now + 1 } : Simulated).finishStep.2.map (⟨engine.now + 1, ·⟩)) := by
  have loaded : ({ engine with now := engine.now + 1 } : Simulated).run = some run := isLoaded
  rcases finishStep_cases loaded with ⟨messages, ends, ended⟩ | ⟨goesOn, -, ended⟩ | ⟨goesOn, -, ended⟩ <;>
    rw [ended] at recorded ⊢
  · refine .ended (engine.now + 1) rfl rfl (Nat.le_refl _) (by simp) ?_ recorded.before
    rw [wholeSteps_of_past recorded.past, stretches_append_of_other, isOpen, ← fits.eq_goal planned ends, counts]
    · simp
    · intro moment member
      obtain ⟨event, isEvent, rfl⟩ := List.mem_map.mp member
      rcases List.mem_append.mp isEvent with isError | isIdle
      · obtain ⟨message, -, rfl⟩ := List.mem_map.mp isError
        exact ⟨rfl, rfl⟩
      · cases List.mem_singleton.mp isIdle
        exact ⟨rfl, rfl⟩
  · refine .halted (run.stepped none) (past ++ [engine.now + 1 - since]) rfl rfl (fits.stepped goesOn none)
      (fun now => (stretches_append_paused now history _).trans (isOpen _)) ?_ rfl recorded
    rw [List.map_append, List.sum_append, List.map_singleton, List.sum_singleton]
    exact counts
  · rw [List.map_nil, List.append_nil] at recorded ⊢
    exact .working (run.stepped _) past since rfl state (fits.stepped goesOn _) isOpen begun counts
      (congrArg some next) recorded

/-- A millisecond passes. -/
theorem tick (onPace : OnPace task (goal steps failAfter) engine history) (takesTime : 0 < engine.config.step)
    (planned : plan engine.config task = .ok (steps, failAfter)) :
    OnPace task (goal steps failAfter) (engine.advance 1).1
      (history ++ (engine.advance 1).2.map (⟨engine.now + 1, ·⟩)) := by
  have notYet {run : Run} (isLoaded : engine.run = some run) := onPace.not_yet isLoaded planned
  cases onPace with
  | halted run past isLoaded state fits isClosed counts still recorded =>
    have notDue : engine.due? (engine.now + 1) = none := by simp [due?, isLoaded, still]
    rw [advance_of_not_due notDue]
    have noMore : ∀ moment ∈ ([] : List Stamped), moment.time = engine.now + 1 := List.forall_mem_nil _
    have later := recorded.tick (notYet isLoaded) noMore
    rw [List.append_nil] at later
    exact .halted run past isLoaded state fits (by simpa using isClosed) counts still (by simpa using later)
  | ended finish empty state isPast ends reached before =>
    have notDue : engine.due? (engine.now + 1) = none := by simp [due?, empty]
    rw [advance_of_not_due notDue, List.map_nil, List.append_nil]
    exact .ended finish empty state (Nat.le_succ_of_le isPast) ends reached before
  | working run past since isLoaded state fits isOpen begun counts next recorded =>
    have later (more : List Stamped) (atNext : ∀ moment ∈ more, moment.time = engine.now + 1) :=
      recorded.tick (notYet isLoaded) atNext
    rcases next_millisecond begun takesTime with ⟨early, same⟩ | ⟨now, onwards⟩
    · have notDue : engine.due? (engine.now + 1) = none := by
        rw [due?_eq_none_iff, isLoaded, Option.bind_some, next]
        rintro time ⟨⟩
        exact early
      rw [advance_of_not_due notDue, List.map_nil, List.append_nil]
      exact .working run past since isLoaded state fits isOpen (Nat.le_succ_of_le begun) (by rw [counts, ← same])
        (by rw [next, ← same]) (by simpa using later [] (List.forall_mem_nil _))
    · have isDue : engine.due? (engine.now + 1) = some (engine.now + 1) := by
        rw [due?_eq_some_iff, isLoaded, Option.bind_some, next, now]
        exact ⟨rfl, Nat.le_refl _⟩
      rw [advance_of_due engine takesTime isDue]
      refine tick_of_due planned isLoaded state fits isOpen (Nat.le_succ_of_le begun) ?_ ?_
        (later _ fun moment member => ?_)
      · rw [counts, onwards, Nat.add_assoc]
      · rw [onwards, Nat.succ_mul, ← Nat.add_assoc, now]
      · obtain ⟨event, -, rfl⟩ := List.mem_map.mp member
        rfl

/-- Time passes. -/
theorem wait (onPace : OnPace task (goal steps failAfter) engine history) (takesTime : 0 < engine.config.step)
    (planned : plan engine.config task = .ok (steps, failAfter)) (span : Nat) :
    OnPace task (goal steps failAfter) (engine.advance span).1 (history ++ engine.timeline span) := by
  induction span with
  | zero =>
    have notDue : engine.due? (engine.now + 0) = none := onPace.not_due takesTime
    rw [advance_of_not_due notDue, timeline_of_not_due notDue, List.append_nil]
    exact onPace
  | succ span ih =>
    have sameConfig := engine.config_advance span
    have later := ih.tick (by rwa [sameConfig]) (by rwa [sameConfig])
    rw [timeline, advance_add, ← List.append_assoc]
    exact later

variable (onPace : OnPace task (goal steps failAfter) engine history) (takesTime : 0 < engine.config.step)
include onPace takesTime

theorem called_of_declined {call : EngineCall} {error : EngineError}
    (declined : engine.perform call = { engine, error := some error }) :
    OnPace task (goal steps failAfter) (engine.called call).1 (history ++ (engine.called call).2) := by
  rw [Simulated.called_of_declined (onPace.not_due takesTime) declined, List.append_nil]
  exact onPace

/-- A pause closes the stretch at once, or leaves it open until the step ends. -/
theorem pause (defer : Bool) :
    OnPace task (goal steps failAfter) (engine.called (.pause defer)).1
      (history ++ (engine.called (.pause defer)).2) := by
  by_cases running : engine.state = .running
  · have notDue := onPace.not_due takesTime
    cases onPace with
    | halted run past isLoaded state => simp [state] at running
    | ended finish empty state => simp [state] at running
    | working run past since isLoaded state fits isOpen begun counts next recorded =>
      cases defer with
      | true =>
        have asked : engine.perform (.pause true) = _ := pause_deferred running
        rw [called_of_not_due (by rw [asked]; exact notDue), asked]
        refine .working run past since isLoaded (.inr rfl) fits (fun now => ?_) begun counts next
          (recorded.append (by simp))
        rw [stretches_append_of_other _ _ (by simp [Stamped.isRunning, Stamped.isPaused]), isOpen]
      | false =>
        have asked : engine.perform (.pause false) = _ := pause_at_once running
        rw [called_of_not_due (by rw [asked, isLoaded]; rfl), asked, isLoaded]
        refine .halted { run with deadline := none } (past ++ [engine.now - since]) rfl rfl
          ⟨fits.planned, fits.working, fits.going⟩ (fun now => ?_) ?_ rfl (recorded.append (by simp))
        · rw [← isOpen]
          exact (stretches_append now history _).trans (List.append_nil _)
        · rw [List.map_append, List.sum_append, List.map_singleton, List.sum_singleton]
          exact counts
  · exact onPace.called_of_declined takesTime (pause_of_not_running running defer)

/-- To go on is to begin a stretch, and a step. -/
theorem resume :
    OnPace task (goal steps failAfter) (engine.called .resume).1 (history ++ (engine.called .resume).2) := by
  by_cases paused : engine.state = .paused
  · cases onPace with
    | working run past since isLoaded state => simp [paused] at state
    | ended finish empty state => simp [state] at paused
    | halted run past isLoaded state fits isClosed counts still recorded =>
      have asked : engine.perform .resume = _ := resume_of_paused paused
      have notDue : (engine.perform .resume).engine.due? (engine.perform .resume).engine.now = none := by
        rw [asked, isLoaded, due?_eq_none_iff]
        rintro time ⟨⟩
        exact Nat.lt_add_of_pos_right takesTime
      rw [called_of_not_due notDue, asked, isLoaded]
      refine .working { run with deadline := some (engine.now + engine.config.step) } past engine.now rfl
        (.inl rfl) ⟨fits.planned, fits.working, fits.going⟩ (fun now => ?_) (Nat.le_refl _) ?_ ?_
        (recorded.append (by simp))
      · rw [← isClosed now]
        exact stretches_append_running now history engine.now
      · simpa using counts
      · simp
  · exact onPace.called_of_declined takesTime (resume_of_not_paused paused)

theorem obey (planned : plan engine.config task = .ok (steps, failAfter)) (cue : Cue) :
    OnPace task (goal steps failAfter) (engine.obey cue).1 (history ++ (engine.obey cue).2) := by
  cases cue with
  | wait span => exact onPace.wait takesTime planned span
  | pause defer => exact onPace.pause takesTime defer
  | resume => exact onPace.resume takesTime

theorem follow (planned : plan engine.config task = .ok (steps, failAfter)) (cues : List Cue) :
    OnPace task (goal steps failAfter) (engine.follow cues).1 (history ++ (engine.follow cues).2) := by
  induction cues generalizing engine history with
  | nil =>
    rw [Simulated.follow, List.append_nil]
    exact onPace
  | cons cue cues ih =>
    have sameConfig := engine.config_obey cue
    have later := ih (onPace.obey takesTime planned cue) (by rwa [sameConfig]) (by rwa [sameConfig])
    rw [List.append_assoc] at later
    exact later

omit onPace takesTime

/-- A plan that is started is on its first step. -/
theorem start (idle : engine.state = .idle) (takesTime : 0 < engine.config.step)
    (planned : plan engine.config task = .ok (steps, failAfter)) (some : steps ≠ 0) (id : TaskId) :
    OnPace task (goal steps failAfter) (engine.called (.run id task)).1 (engine.called (.run id task)).2 := by
  have asked : engine.perform (.run id task) = _ := start_of_planned idle planned some id
  have notDue : (engine.perform (.run id task)).engine.due? (engine.perform (.run id task)).engine.now = none := by
    rw [asked, due?_eq_none_iff]
    rintro time ⟨⟩
    exact Nat.lt_add_of_pos_right takesTime
  have fits := Run.Fits.start planned some id (.some (engine.now + engine.config.step))
  rw [called_of_not_due notDue, asked]
  refine .working _ [] engine.now rfl (.inl rfl) fits (fun now => rfl) (Nat.le_refl _) (by simp) (by simp)
    ⟨by simp, fun time isBefore => ?_⟩
  have nothing : wholeSteps engine.config.step ([] ++ [⟨engine.now, .stateChanged .running⟩]) time = 0 :=
    wholeSteps_append_of_later (by simpa using isBefore) _ _
  exact Nat.lt_of_le_of_lt (Nat.le_of_eq nothing) (fits.lt_goal planned)

end OnPace

/-! ## Pauses -/

theorem wait_add (engine : Simulated) (span more : Millis) :
    engine.obey (.wait (span + more)) =
      (((engine.obey (.wait span)).1.obey (.wait more)).1,
        (engine.obey (.wait span)).2 ++ ((engine.obey (.wait span)).1.obey (.wait more)).2) := by
  simp only [obey, advance_add, timeline_add]

theorem wait_of_not_due {span : Millis} (notDue : engine.due? (engine.now + span) = none) :
    engine.obey (.wait span) = ({ engine with now := engine.now + span }, []) := by
  rw [obey, advance_of_not_due notDue, timeline_of_not_due notDue]

theorem wait_of_due (engine : Simulated) (takesTime : 0 < engine.config.step) {span : Millis} (later : 0 < span)
    (isDue : engine.due? (engine.now + span) = some (engine.now + span)) :
    engine.obey (.wait span) =
      (({ engine with now := engine.now + span } : Simulated).finishStep.1,
        ({ engine with now := engine.now + span } : Simulated).finishStep.2.map (⟨engine.now + span, ·⟩)) := by
  rw [obey, advance_of_due engine takesTime isDue, timeline_of_due takesTime later isDue]

/-- Without a deadline nothing happens but that time passes. -/
theorem wait_of_no_deadline (none : engine.run.bind (·.deadline) = none) (span : Millis) :
    engine.obey (.wait span) = ({ engine with now := engine.now + span }, []) :=
  wait_of_not_due (by rw [due?, none, Option.filter_none])

/-- A step that is cut is done in full when the plan goes on. -/
theorem follow_pause_at_once (takesTime : 0 < engine.config.step) {run : Run} (isLoaded : engine.run = some run)
    (running : engine.state = .running) (span : Millis) :
    engine.follow [.pause false, .wait span, .resume] =
      ({ engine with
          now := engine.now + span
          state := .running
          run := some { run with deadline := some (engine.now + span + engine.config.step) } },
        [⟨engine.now, .stateChanged .pausing⟩, ⟨engine.now, .stateChanged .paused⟩,
          ⟨engine.now + span, .stateChanged .running⟩]) := by
  let cut : Simulated := { engine with run := some { run with deadline := none }, state := .paused }
  let rested : Simulated := { cut with now := engine.now + span }
  have pauses : engine.obey (.pause false) =
      (cut, [⟨engine.now, .stateChanged .pausing⟩, ⟨engine.now, .stateChanged .paused⟩]) := by
    have asked : engine.perform (.pause false) = _ := pause_at_once running
    rw [obey, called_of_not_due (by rw [asked, isLoaded]; rfl), asked, isLoaded]
    rfl
  have rests : cut.obey (.wait span) = (rested, []) := wait_of_no_deadline rfl span
  have goesOn : rested.obey .resume =
      ({ rested with
          run := some { run with deadline := some (engine.now + span + engine.config.step) }
          state := .running },
        [⟨engine.now + span, EngineEvent.stateChanged .running⟩]) := by
    have asked : rested.perform .resume = _ := resume_of_paused rfl
    have notDue : (rested.perform .resume).engine.due? (rested.perform .resume).engine.now = none := by
      rw [asked, due?_eq_none_iff]
      rintro time ⟨⟩
      exact Nat.lt_add_of_pos_right takesTime
    rw [obey, called_of_not_due notDue, asked]
    rfl
  simp only [follow, pauses, rests, goesOn, List.nil_append, List.append_nil]
  rfl

/-- A pause that waits for the end of the step is made then, unless the plan is over with it. -/
theorem follow_pause_deferred (takesTime : 0 < engine.config.step) {run : Run} (isLoaded : engine.run = some run)
    (running : engine.state = .running) {deadline : Millis} (isDeadline : run.deadline = some deadline)
    (ahead : engine.now < deadline) (span : Millis) :
    engine.follow [.pause true, .wait span] =
      if engine.now + span < deadline then
        ({ engine with now := engine.now + span, state := .pausing }, [⟨engine.now, .stateChanged .pausing⟩])
      else
        match run.ending? with
        | none =>
          ({ engine with now := engine.now + span, state := .paused, run := some (run.stepped none) },
            [⟨engine.now, .stateChanged .pausing⟩, ⟨deadline, .stateChanged .paused⟩])
        | some messages =>
          ({ engine with now := engine.now + span, state := .idle, run := none },
            ⟨engine.now, .stateChanged .pausing⟩ ::
              (messages.map (⟨deadline, .error ·⟩) ++ [⟨deadline, .stateChanged .idle⟩])) := by
  let asked : Simulated := { engine with state := .pausing }
  have loaded : asked.run.bind (·.deadline) = some deadline := by simp [asked, isLoaded, isDeadline]
  have pauses : engine.obey (.pause true) = (asked, [⟨engine.now, EngineEvent.stateChanged .pausing⟩]) := by
    have isAsked : engine.perform (.pause true) = _ := pause_deferred running
    have notDue : asked.due? asked.now = none := by
      rw [due?_eq_none_iff, loaded]
      rintro time ⟨⟩
      exact ahead
    rw [obey, called_of_not_due (by rw [isAsked]; exact notDue), isAsked]
    rfl
  simp only [follow, pauses, List.append_nil]
  split
  next early =>
    have notDue : asked.due? (asked.now + span) = none := by
      rw [due?_eq_none_iff, loaded]
      rintro time ⟨⟩
      exact early
    rw [wait_of_not_due notDue]
    rfl
  next late =>
    -- The wait is one for the deadline and one for the rest, when there is none any more.
    obtain ⟨first, isFirst⟩ := Nat.exists_eq_add_of_lt ahead
    obtain ⟨rest, whole⟩ := Nat.exists_eq_add_of_le (Nat.le_of_not_lt late)
    obtain rfl : span = (first + 1) + rest := by
      rw [isFirst, Nat.add_assoc, Nat.add_assoc] at whole
      exact (Nat.add_left_cancel whole).trans (Nat.add_assoc _ _ _).symm
    have isDue : asked.due? (asked.now + (first + 1)) = some (asked.now + (first + 1)) := by
      rw [due?_eq_some_iff, loaded, isFirst]
      exact ⟨rfl, Nat.le_refl _⟩
    have loadedThen : ({ asked with now := asked.now + (first + 1) } : Simulated).run = some run := isLoaded
    rw [wait_add, wait_of_due asked takesTime (Nat.succ_pos first) isDue]
    rcases finishStep_cases loadedThen with ⟨messages, ends, ended⟩ | ⟨goesOn, -, ended⟩ | ⟨-, other, -⟩
    · rw [ended, ends, wait_of_no_deadline rfl, isFirst]
      simp [asked, Nat.add_assoc]
    · rw [ended, goesOn, wait_of_no_deadline rfl, isFirst]
      simp [asked, Nat.add_assoc]
    · exact absurd rfl other

/-- Whether a step is the last one of its plan, and with what the plan then ends, as the plan tells. -/
theorem Run.Fits.ending?_eq {config : Config} {task : Task} {run : Run} (fits : run.Fits config task) {steps : Nat}
    {failAfter : Option Nat} (planned : plan config task = .ok (steps, failAfter)) :
    run.ending? = if run.completed + 1 < goal steps failAfter then none else some (config.verdict task) := by
  cases ends : run.ending? with
  | none =>
    have further : run.completed + 1 < goal steps failAfter := (fits.stepped ends none).lt_goal planned
    rw [if_pos further]
  | some messages =>
    rw [if_neg (Nat.not_lt.mpr (Nat.le_of_eq (fits.eq_goal planned ends).symm)), fits.verdict_eq ends]

/-- Let an engine whose steps take time accept a task that takes some steps, and then let it be told to
pause and to go on, and time pass, in any order.  While the plan is loaded, the steps done so far are the
whole ones in the stretches from each start to the next pause, and at no time they were as many as the plan
is over after.  When it is over, it is so since the first time at which they were.

The deadline is the end of the step in the last stretch.  A step that is cut by a pause is done in full when
the plan goes on.  A pause that waits is made at the deadline, and no further step is begun, unless the
plan is over then.  Time may pass in one go or in parts. -/
theorem counts_whole_steps (engine : Simulated) (id : TaskId) (task : Task) (steps : Nat) (failAfter : Option Nat)
    (takesTime : 0 < engine.config.step) (planned : plan engine.config task = .ok (steps, failAfter))
    (atLeastOne : 1 ≤ steps) (accepted : (engine.answer (.run id task)).error = none) (cues : List Cue) :
    let step := engine.config.step
    let begun := engine.called (.run id task)
    let last := (begun.1.follow cues).1
    let history := begun.2 ++ (begun.1.follow cues).2
    let total := failAfter.elim steps (min steps)
    let done := wholeSteps step history
    ((∃ run, last.run = some run ∧ run.completed = done last.now ∧ (∀ time ≤ last.now, done time < total) ∧
        ((last.state = .paused ∧ run.deadline = none) ∨
          ((last.state = .running ∨ last.state = .pausing) ∧
            ∃ past since, stretches last.now history = past ++ [last.now - since] ∧ since ≤ last.now ∧
              run.deadline = some (since + ((last.now - since) / step + 1) * step))) ∧
        (last.state = .running → ∀ span,
          last.follow [.pause false, .wait span, .resume] =
            ({ last with
                now := last.now + span
                state := .running
                run := some { run with deadline := some (last.now + span + step) } },
              [⟨last.now, .stateChanged .pausing⟩, ⟨last.now, .stateChanged .paused⟩,
                ⟨last.now + span, .stateChanged .running⟩]) ∧
          ∀ deadline, run.deadline = some deadline →
            last.follow [.pause true, .wait span] =
              if last.now + span < deadline then
                ({ last with now := last.now + span, state := .pausing }, [⟨last.now, .stateChanged .pausing⟩])
              else if run.completed + 1 < total then
                ({ last with now := last.now + span, state := .paused, run := some (run.stepped none) },
                  [⟨last.now, .stateChanged .pausing⟩, ⟨deadline, .stateChanged .paused⟩])
              else
                ({ last with now := last.now + span, state := .idle, run := none },
                  ⟨last.now, .stateChanged .pausing⟩ ::
                    ((engine.config.verdict task).map (⟨deadline, .error ·⟩) ++ [⟨deadline, .stateChanged .idle⟩]))) ∧
        (last.state ≠ .running → ∀ defer, last.obey (.pause defer) = (last, [])) ∧
        (last.state ≠ .paused → last.obey .resume = (last, []))) ∨
      ∃ finish ≤ last.now, last.run = none ∧ last.state = .idle ∧
        history.getLast? = some ⟨finish, .stateChanged .idle⟩ ∧
        done finish = total ∧ ∀ time < finish, done time < total) ∧
    (∀ span, (last.timeline span).map (·.event) = (last.advance span).2) ∧
    ∀ span more, last.advance (span + more) =
      (((last.advance span).1.advance more).1, (last.advance span).2 ++ ((last.advance span).1.advance more).2) := by
  intro step begun last history total done
  have idle : engine.state = .idle := by
    by_contra other
    have busy : (engine.answer (.run id task)).error = some .busy := by simp [answer, perform, start, other]
    cases busy.symm.trans accepted
  have sameConfig : last.config = engine.config :=
    (config_follow _ cues).trans (engine.config_called (.run id task))
  have onPace : OnPace task total last history := by
    have atStart := OnPace.start idle takesTime planned (Nat.ne_of_gt atLeastOne) id
    have beginsWith := engine.config_called (.run id task)
    exact atStart.follow (by rwa [beginsWith]) (by rwa [beginsWith]) cues
  refine ⟨?_, last.map_event_timeline, last.advance_add⟩
  have sameStep : last.config.step = step := congrArg Config.step sameConfig
  rw [← sameConfig] at takesTime planned
  cases isLoaded : last.run with
  | none =>
    cases onPace with
    | working run past since isRun => cases isLoaded.symm.trans isRun
    | halted run past isRun => cases isLoaded.symm.trans isRun
    | ended finish empty state isPast ends reached before =>
      rw [sameStep] at reached before
      exact .inr ⟨finish, isPast, rfl, state, ends, reached, before⟩
  | some run =>
    have notDue := onPace.not_due takesTime
    have completed := onPace.completed_eq isLoaded
    have below := onPace.below isLoaded planned
    have deadline := onPace.deadline_eq isLoaded
    rw [sameStep] at completed below deadline
    refine .inl ⟨run, rfl, completed, below, deadline, fun running span => ⟨?_, fun deadline isDeadline => ?_⟩,
      fun other defer => called_of_declined notDue (pause_of_not_running other defer),
      fun other => called_of_declined notDue (resume_of_not_paused other)⟩
    · rw [follow_pause_at_once takesTime isLoaded running, sameStep]
    · have ahead : last.now < deadline := by
        rw [due?_eq_none_iff, isLoaded] at notDue
        exact notDue deadline isDeadline
      have ends : run.ending? = if run.completed + 1 < total then none else some (last.config.verdict task) :=
        (onPace.fits isLoaded).ending?_eq planned
      rw [follow_pause_deferred takesTime isLoaded running isDeadline ahead, ends, isLoaded, sameConfig]
      by_cases further : run.completed + 1 < total
      · rw [if_pos further, if_pos further]
      · rw [if_neg further, if_neg further]

/-- The third step is cut in its middle and done in full later; being the last one it ends the plan,
although a pause was asked for meanwhile. -/
theorem over_with_third_whole_step :
    let engine : Simulated := {}
    let task : Task := { name := "count", params := [("num", .ofNat 3)] }
    let begun := engine.called (.run (.ofNumber 1) task)
    let ended := begun.1.follow [.wait 250, .pause false, .wait 50, .resume, .pause true, .wait 150]
    let history := begun.2 ++ ended.2
    history.getLast? = some ⟨400, .stateChanged .idle⟩ ∧ wholeSteps 100 history 400 = 3 ∧
      ∀ time < 400, wholeSteps 100 history time < 3 := by
  intro engine task begun ended history
  have isOver : ended.1.run = none := by decide +kernel
  have last : history.getLast? = some ⟨400, .stateChanged .idle⟩ := by decide +kernel
  have accepted : (engine.answer (.run (.ofNumber 1) task)).error = none := by decide +kernel
  obtain ⟨⟨run, isLoaded, -⟩ | ⟨finish, -, -, -, ends, reached, before⟩, -⟩ :=
    counts_whole_steps engine (.ofNumber 1) task 3 none (by decide) rfl (by decide) accepted
      [.wait 250, .pause false, .wait 50, .resume, .pause true, .wait 150]
  · cases isOver.symm.trans isLoaded
  · cases last.symm.trans ends
    exact ⟨last, reached, before⟩

end Simulated

end PlanService
