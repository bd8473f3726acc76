import PlanService.Proofs.Board.History

/-! # How events bear on one task

An engine that is at work says so with events that leave every record alone.  When it falls
back to idle, the active task ends with the errors that were told before.  Neither depends on
who else is registered: to submit a task and to take note of events commute.
-/

namespace PlanService

/-- The record of a task that ends with more errors. -/
def TrackedTask.ended (record : TrackedTask) (errors : List String) : TrackedTask :=
  { record with isComplete := true, errors := record.errors ++ errors }

@[simp] theorem Registry.nextId_modify (registry : Registry) (id : TaskId)
    (change : TrackedTask → TrackedTask) : (registry.modify id change).nextId = registry.nextId := by
  simp [nextId, size, modify]

theorem Registry.modify_submit {registry : Registry} {id : TaskId} (task : Task)
    (change : TrackedTask → TrackedTask) (old : id ≠ registry.nextId) :
    (registry.submit task).modify id change = (registry.modify id change).submit task := by
  rw [submit, submit, nextId_modify]
  simp [modify, old.symm]

namespace Board

/-! ## Events that end no task -/

/-- While the engine is at work, or rests as before, its state is shown and that is all. -/
theorem apply_of_quiet {board : Board} {engineState : EngineState}
    (quiet : board.state = .idle ∨ engineState.workerState ≠ .idle) (active : Option TaskId) :
    board.apply (.stateChanged engineState) active = { board with state := engineState.workerState } := by
  have goesOn : (board.state != .idle && engineState.workerState == .idle) = false := by
    rcases quiet with idle | busy
    · simp [idle]
    · simp [busy]
  cases active <;> simp [apply, goesOn]

/-- So it is of no account to the records. -/
theorem registry_apply_of_quiet {board : Board} {engineState : EngineState}
    (quiet : board.state = .idle ∨ engineState.workerState ≠ .idle) (active : Option TaskId) :
    (board.apply (.stateChanged engineState) active).registry = board.registry := by
  rw [apply_of_quiet quiet]

theorem registry_applyAll_of_busy (board : Board) (states : List EngineState)
    (busy : ∀ engineState ∈ states, engineState.workerState ≠ .idle) (active : Option TaskId) :
    (board.applyAll (states.map .stateChanged) active).registry = board.registry := by
  induction states generalizing board with
  | nil => rfl
  | cons engineState states ih =>
    have rest := ih (board.apply (.stateChanged engineState) active) fun other member =>
      busy other (List.mem_cons_of_mem _ member)
    exact rest.trans (registry_apply_of_quiet (.inr (busy engineState List.mem_cons_self)) active)

/-! ## Events that end a task -/

variable {board : Board} {id : TaskId} {record : TrackedTask}

/-- When the engine falls back to idle the active task ends with the errors that it told. -/
theorem get?_applyAll_of_ended (found : board.registry.get? id = some record)
    (incomplete : record.isComplete = false) (busy : board.state ≠ .idle) (messages : List String) :
    (board.applyAll (messages.map .error ++ [.stateChanged .idle]) (some id)).registry.get? id =
      some (record.ended messages) := by
  induction messages generalizing board record with
  | nil =>
    have ends : (board.state != .idle && EngineState.idle.workerState == .idle) = true := by
      simp [busy, EngineState.workerState]
    simp only [List.map_nil, List.nil_append, applyAll, List.foldl_cons, List.foldl_nil, apply, ends,
      if_true]
    rw [get?_complete_self]
    simp [found, TrackedTask.finish, TrackedTask.ended]
  | cons message messages ih =>
    have told : (board.addError id message).registry.get? id =
        some { record with errors := record.errors ++ [message] } := by
      rw [get?_addError_self, found]
      simp [TrackedTask.addError, incomplete]
    have rest := ih told incomplete busy
    rw [TrackedTask.ended, List.append_assoc] at rest
    exact rest

theorem get?_fail_of_open (found : board.registry.get? id = some record)
    (incomplete : record.isComplete = false) (reason : String) :
    (board.fail id reason).registry.get? id = some (record.ended [reason]) := by
  rw [fail, get?_complete_self, get?_addError_self, found]
  simp [TrackedTask.addError, TrackedTask.finish, TrackedTask.ended, incomplete]

/-! ## Tasks that are submitted -/

theorem addError_submit (board : Board) (task : Task) (message : String) (old : id ≠ board.registry.nextId) :
    (board.perform (.submit task)).addError id message =
      (board.addError id message).perform (.submit task) := by
  simp only [addError, perform, Registry.modify_submit task _ old]

theorem complete_submit (board : Board) (task : Task) (old : id ≠ board.registry.nextId) :
    (board.perform (.submit task)).complete id = (board.complete id).perform (.submit task) := by
  have same : (board.registry.submit task).get? id = board.registry.get? id := by
    rw [Registry.get?_submit, if_neg old.symm, Option.or_none]
  simp only [complete, perform, same]
  cases board.registry.get? id with
  | none => rfl
  | some record =>
    simp only
    split
    · rfl
    · rw [Registry.modify_submit task _ old]

/-- What the engine tells is about the tasks that are there, whether a new one comes before it
is applied or after. -/
theorem apply_submit (board : Board) (task : Task) (event : EngineEvent) {active : Option TaskId}
    (old : active ≠ some board.registry.nextId) :
    (board.perform (.submit task)).apply event active =
      (board.apply event active).perform (.submit task) := by
  cases active with
  | none => cases event <;> rfl
  | some id =>
    have old : id ≠ board.registry.nextId := fun same => old (congrArg some same)
    cases event with
    | error message => exact board.addError_submit task message old
    | stateChanged engineState =>
      let shown : Board := { board with state := engineState.workerState }
      cases ended : board.state != .idle && engineState.workerState == .idle with
      | false => simp only [apply, perform, ended, Bool.false_eq_true, if_false]
      | true =>
        cases panicked : engineState == .panicked with
        | false =>
          simp only [apply, perform, ended, panicked, if_true, Bool.false_eq_true, if_false]
          exact shown.complete_submit task old
        | true =>
          simp only [apply, perform, ended, panicked, if_true]
          have stillOld : id ≠ (shown.addError id "Engine panicked").registry.nextId := by
            rw [addError, Registry.nextId_modify]
            exact old
          have added := shown.addError_submit task "Engine panicked" old
          have completed := (shown.addError id "Engine panicked").complete_submit task stillOld
          rw [← added] at completed
          exact completed

/-- What counts for one task makes no new one. -/
theorem nextId_perform {change : Change} {active : Option TaskId} (credited : change.CreditedTo active) :
    (board.perform change).registry.nextId = board.registry.nextId := by
  refine perform_induction (P := fun later => later.registry.nextId = board.registry.nextId)
    (fun _ _ same => same) (fun later _ _ _ same => ?_) (fun later _ _ same => ?_) credited rfl
  · rw [addError, Registry.nextId_modify, same]
  · unfold complete
    split
    · exact same
    · split
      · exact same
      · rw [Registry.nextId_modify, same]

theorem applyAll_submit (board : Board) (task : Task) (events : List EngineEvent)
    {active : Option TaskId} (old : active ≠ some board.registry.nextId) :
    (board.perform (.submit task)).applyAll events active =
      (board.applyAll events active).perform (.submit task) := by
  induction events generalizing board with
  | nil => rfl
  | cons event events ih =>
    have same : (board.perform (.apply event active)).registry.nextId = board.registry.nextId :=
      nextId_perform rfl
    rw [applyAll, List.foldl_cons, board.apply_submit task event old]
    exact ih _ (same ▸ old)

/-! ## Completions that others announce -/

namespace Alike

variable {other : Board}

theorem addError (alike : board.Alike other) (id : TaskId) (message : String) :
    (board.addError id message).Alike (other.addError id message) :=
  ⟨by rw [Board.addError, Board.addError, alike.registry], alike.state⟩

theorem complete (alike : board.Alike other) (id : TaskId) :
    (board.complete id).Alike (other.complete id) := by
  unfold Board.complete
  rw [alike.registry]
  cases board.registry.get? id with
  | none => exact alike
  | some record =>
    simp only
    split
    · exact alike
    · exact ⟨rfl, alike.state⟩

theorem apply (alike : board.Alike other) (event : EngineEvent) (active : Option TaskId) :
    (board.apply event active).Alike (other.apply event active) := by
  cases event with
  | error message =>
    cases active with
    | none => exact alike
    | some id => exact alike.addError id message
  | stateChanged engineState =>
    have shown : Board.Alike { board with state := engineState.workerState }
        { other with state := engineState.workerState } := ⟨alike.registry, rfl⟩
    cases active with
    | none => exact shown
    | some id =>
      simp only [Board.apply, alike.state]
      split
      · split
        · exact (shown.addError id "Engine panicked").complete id
        · exact shown.complete id
      · exact shown

/-- What is on the bus does not matter to what the engine tells. -/
theorem applyAll (alike : board.Alike other) (events : List EngineEvent) (active : Option TaskId) :
    (board.applyAll events active).Alike (other.applyAll events active) := by
  induction events generalizing board other with
  | nil => exact alike
  | cons event events ih => exact ih (alike.apply event active)

end Alike

end Board

end PlanService
