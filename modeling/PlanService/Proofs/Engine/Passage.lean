import PlanService.Proofs.Engine.Coupling

/-! # The passage of time

To let time pass in one go is the same as to let it pass in parts (`advance_add`): a deadline is met
at its own time, whoever looks.  So what an engine does in some time is known from what it does in each
millisecond, and that tells when an event is emitted (`timeline`).

If steps take time, at most one deadline falls on a millisecond: the next one is later.
-/

namespace PlanService

namespace Simulated

variable {engine : Simulated} {limit : Millis}

/-! ## Deadlines -/

theorem settle_of_not_due (notDue : engine.due? limit = none) : engine.settle limit = (engine, []) := by
  rw [settle, notDue]

theorem settle_of_due {time : Millis} (isDue : engine.due? limit = some time) :
    engine.settle limit =
      let ended := { engine with now := time }.finishStep
      ((ended.1.settle limit).1, ended.2 ++ (ended.1.settle limit).2) := by
  rw [settle, isDue]

theorem due?_eq_some_iff {time : Millis} :
    engine.due? limit = some time ↔ engine.run.bind (·.deadline) = some time ∧ time ≤ limit := by
  rw [due?, Option.filter_eq_some_iff, decide_eq_true_iff]

theorem due?_eq_none_iff :
    engine.due? limit = none ↔ ∀ time, engine.run.bind (·.deadline) = some time → limit < time := by
  simp [due?, Option.filter_eq_none_iff]

theorem not_due_settle (engine : Simulated) (limit : Millis) : (engine.settle limit).1.due? limit = none := by
  induction engine using settle.induct limit with
  | case1 engine notDue => rwa [settle_of_not_due notDue]
  | case2 engine time isDue ended ih => rwa [settle_of_due isDue]

/-- What is due at a limit is met on the way to a later one. -/
theorem settle_settle (engine : Simulated) {limit later : Millis} (isLater : limit ≤ later) :
    engine.settle later =
      (((engine.settle limit).1.settle later).1,
        (engine.settle limit).2 ++ ((engine.settle limit).1.settle later).2) := by
  induction engine using settle.induct limit with
  | case1 engine notDue => rw [settle_of_not_due notDue, List.nil_append]
  | case2 engine time isDue ended ih =>
    have dueLater : engine.due? later = some time := by
      rw [due?_eq_some_iff] at isDue ⊢
      exact ⟨isDue.1, Nat.le_trans isDue.2 isLater⟩
    rw [settle_of_due isDue, settle_of_due dueLater]
    simp only [List.append_assoc]
    exact congrArg (fun rest : Simulated × List EngineEvent => (rest.1, ended.2 ++ rest.2)) ih

/-- A deadline is met at its own time, whatever the clock shows. -/
theorem settle_at (engine : Simulated) (limit start : Millis) :
    ({ engine with now := start }.settle limit).2 = (engine.settle limit).2 ∧
      ∀ now, ({ ({ engine with now := start }.settle limit).1 with now } : Simulated) =
        { (engine.settle limit).1 with now } := by
  have same : ({ engine with now := start } : Simulated).due? limit = engine.due? limit := rfl
  cases isDue : engine.due? limit with
  | none =>
    rw [settle_of_not_due isDue, settle_of_not_due (same.trans isDue)]
    exact ⟨rfl, fun now => rfl⟩
  | some time =>
    rw [settle_of_due isDue, settle_of_due (same.trans isDue)]
    exact ⟨rfl, fun now => rfl⟩

/-! ## Parts of a span -/

@[simp] theorem now_advance (engine : Simulated) (span : Millis) :
    (engine.advance span).1.now = engine.now + span := rfl

theorem not_due_advance (engine : Simulated) (span : Millis) :
    (engine.advance span).1.due? (engine.now + span) = none :=
  engine.not_due_settle (engine.now + span)

/-- Time may pass in one go or in parts. -/
theorem advance_add (engine : Simulated) (span more : Millis) :
    engine.advance (span + more) =
      (((engine.advance span).1.advance more).1,
        (engine.advance span).2 ++ ((engine.advance span).1.advance more).2) := by
  let settled := (engine.settle (engine.now + span)).1
  obtain ⟨sameEvents, sameEngine⟩ :=
    settled.settle_at (engine.now + span + more) (engine.now + span)
  have inParts := engine.settle_settle (Nat.le_add_right (engine.now + span) more)
  simp only [advance, ← Nat.add_assoc, inParts]
  exact Prod.ext (sameEngine _).symm (congrArg (_ ++ ·) sameEvents.symm)

theorem advance_of_not_due {span : Millis} (notDue : engine.due? (engine.now + span) = none) :
    engine.advance span = ({ engine with now := engine.now + span }, []) := by
  rw [advance, settle_of_not_due notDue]

@[simp] theorem config_finishStep (engine : Simulated) : engine.finishStep.1.config = engine.config := by
  cases loaded : engine.run with
  | none => rw [finishStep, loaded]
  | some run => rcases finishStep_cases loaded with ⟨_, -, ended⟩ | ⟨-, -, ended⟩ | ⟨-, -, ended⟩ <;> rw [ended]

@[simp] theorem now_finishStep (engine : Simulated) : engine.finishStep.1.now = engine.now := by
  cases loaded : engine.run with
  | none => rw [finishStep, loaded]
  | some run => rcases finishStep_cases loaded with ⟨_, -, ended⟩ | ⟨-, -, ended⟩ | ⟨-, -, ended⟩ <;> rw [ended]

@[simp] theorem config_settle (engine : Simulated) (limit : Millis) :
    (engine.settle limit).1.config = engine.config := by
  induction engine using settle.induct limit with
  | case1 engine notDue => rw [settle_of_not_due notDue]
  | case2 engine time isDue ended ih => exact settle_of_due isDue ▸ ih.trans (config_finishStep _)

@[simp] theorem config_advance (engine : Simulated) (span : Millis) :
    (engine.advance span).1.config = engine.config :=
  engine.config_settle (engine.now + span)

/-- If steps take time the next one is not over yet when one has ended. -/
theorem not_due_finishStep (engine : Simulated) (takesTime : 0 < engine.config.step) {run : Run}
    (loaded : engine.run = some run) : engine.finishStep.1.due? engine.now = none := by
  rw [due?_eq_none_iff]
  rcases finishStep_cases loaded with ⟨_, -, ended⟩ | ⟨-, -, ended⟩ | ⟨-, -, ended⟩ <;> rw [ended]
  · nofun
  · nofun
  · rintro time ⟨⟩
    exact Nat.lt_add_of_pos_right takesTime

/-- When time passes to the next deadline, the step ends and that is all. -/
theorem advance_of_due (engine : Simulated) (takesTime : 0 < engine.config.step) {span : Millis}
    (isDue : engine.due? (engine.now + span) = some (engine.now + span)) :
    engine.advance span = { engine with now := engine.now + span }.finishStep := by
  obtain ⟨run, loaded⟩ := Option.isSome_iff_exists.mp (isSome_run_of_due? isDue)
  have rests := not_due_finishStep { engine with now := engine.now + span } takesTime loaded
  have now : _ = engine.now + span := now_finishStep { engine with now := engine.now + span }
  generalize ends : { engine with now := engine.now + span }.finishStep = ended at rests now
  simp only [advance, settle_of_due isDue, ends, settle_of_not_due rests, List.append_nil]
  exact Prod.ext (by rw [← now]) rfl

/-! ## When events are emitted -/

/-- An event and when it was emitted. -/
structure Stamped where
  time : Millis
  event : EngineEvent
  deriving Repr, DecidableEq, Inhabited

/-- What is emitted while time passes, looked at after each millisecond. -/
def timeline (engine : Simulated) : Nat → List Stamped
  | 0 => (engine.advance 0).2.map (⟨engine.now, ·⟩)
  | span + 1 => engine.timeline span ++ ((engine.advance span).1.advance 1).2.map (⟨engine.now + span + 1, ·⟩)

theorem map_event_timeline (engine : Simulated) (span : Nat) :
    (engine.timeline span).map (·.event) = (engine.advance span).2 := by
  induction span with
  | zero => simp [timeline, Function.comp_def]
  | succ span ih => simp [timeline, advance_add, ih, Function.comp_def]

theorem timeline_add (engine : Simulated) (span more : Nat) :
    engine.timeline (span + more) = engine.timeline span ++ (engine.advance span).1.timeline more := by
  induction more with
  | zero =>
    have nothing : ((engine.advance span).1.advance 0).2 = [] := by
      rw [advance_of_not_due (engine.not_due_advance span)]
    simp [timeline, nothing]
  | succ more ih =>
    rw [← Nat.add_assoc, timeline, timeline, ih, List.append_assoc, advance_add, now_advance]
    simp only [← Nat.add_assoc]

theorem timeline_of_not_due {span : Nat} (notDue : engine.due? (engine.now + span) = none) :
    engine.timeline span = [] := by
  rw [← List.map_eq_nil_iff, map_event_timeline, advance_of_not_due notDue]

/-- What is emitted when time passes to the next deadline is emitted then. -/
theorem timeline_of_due (takesTime : 0 < engine.config.step) {span : Nat} (later : 0 < span)
    (isDue : engine.due? (engine.now + span) = some (engine.now + span)) :
    engine.timeline span = { engine with now := engine.now + span }.finishStep.2.map (⟨engine.now + span, ·⟩) := by
  obtain ⟨before, rfl⟩ := Nat.exists_eq_add_one.mpr later
  have notBefore : engine.due? (engine.now + before) = none := by
    rw [due?_eq_none_iff]
    intro time isDeadline
    rw [due?_eq_some_iff, isDeadline] at isDue
    cases isDue.1
    exact Nat.lt_succ_self _
  rw [timeline, timeline_of_not_due notBefore, advance_of_not_due notBefore, List.nil_append]
  have atLast : ({ engine with now := engine.now + before } : Simulated).advance 1 =
      { engine with now := engine.now + (before + 1) }.finishStep :=
    advance_of_due { engine with now := engine.now + before } takesTime isDue
  exact congrArg (fun result : Simulated × List EngineEvent => result.2.map _) atLast

end Simulated

end PlanService
