import PlanService.Proofs.Board.Change

/-! # What matters of a board

To say how a board follows an engine two things matter: the state it shows and whether the
active task is complete.  A `View` keeps these two.  Taking note of events is a function of
the view alone (`view_applyAll`), so how a worker keeps up with its engine can be told
without a registry and without a bus.
-/

namespace PlanService

/-- The state that a board shows, and the active task while it is not complete. -/
@[ext] structure View where
  state : WorkerState
  unfinished : Option TaskId

namespace View

/-- Takes note of an event: only a fall back to idle ends the task. -/
def observe (view : View) : EngineEvent → View
  | .stateChanged engineState =>
    { state := engineState.workerState
      unfinished :=
        if view.state != .idle && engineState.workerState == .idle then none else view.unfinished }
  | .error _ => view

def observeAll (view : View) (events : List EngineEvent) : View :=
  events.foldl observe view

@[simp] theorem observeAll_cons (view : View) (event : EngineEvent) (events : List EngineEvent) :
    view.observeAll (event :: events) = (view.observe event).observeAll events := rfl

@[simp] theorem observeAll_append (view : View) (events more : List EngineEvent) :
    view.observeAll (events ++ more) = (view.observeAll events).observeAll more :=
  List.foldl_append

theorem observe_ended {view : View} {engineState : EngineState} (busy : view.state ≠ .idle)
    (idle : engineState.workerState = .idle) :
    view.observe (.stateChanged engineState) = ⟨.idle, none⟩ := by
  simp [observe, busy, idle]

theorem observe_resting {view : View} (idle : view.state = .idle) (engineState : EngineState) :
    view.observe (.stateChanged engineState) = ⟨engineState.workerState, view.unfinished⟩ := by
  simp [observe, idle]

theorem observe_busy (view : View) {engineState : EngineState}
    (busy : engineState.workerState ≠ .idle) :
    view.observe (.stateChanged engineState) = ⟨engineState.workerState, view.unfinished⟩ := by
  simp [observe, busy]

theorem observeAll_errors (view : View) (messages : List String) :
    view.observeAll (messages.map .error) = view := by
  induction messages with
  | nil => rfl
  | cons message messages ih => exact ih

/-- No event makes another task the unfinished one. -/
theorem unfinished_observe (view : View) (event : EngineEvent) :
    (view.observe event).unfinished = none ∨ (view.observe event).unfinished = view.unfinished := by
  cases event with
  | stateChanged engineState =>
    simp only [observe]
    split
    · exact .inl rfl
    · exact .inr rfl
  | error message => exact .inr rfl

theorem unfinished_observeAll (view : View) (events : List EngineEvent) :
    (view.observeAll events).unfinished = none ∨
      (view.observeAll events).unfinished = view.unfinished := by
  induction events generalizing view with
  | nil => exact .inr rfl
  | cons event events ih =>
    rw [observeAll_cons]
    rcases ih (view.observe event) with gone | same
    · exact .inl gone
    · rw [same]
      exact view.unfinished_observe event

end View

namespace Board

/-- What matters of a board while `active` is the active task. -/
def view (board : Board) (active : Option TaskId) : View where
  state := board.state
  unfinished := active.filter board.registry.isOpen

theorem unfinished_view_eq_some_iff {board : Board} {active : Option TaskId} {id : TaskId} :
    (board.view active).unfinished = some id ↔
      active = some id ∧
        ∃ record, board.registry.get? id = some record ∧ record.isComplete = false := by
  rw [view, Option.filter_eq_some_iff, Registry.isOpen_iff]

theorem view_addError (board : Board) (id : TaskId) (message : String) (active : Option TaskId) :
    (board.addError id message).view active = board.view active := by
  have same : (board.addError id message).registry.isOpen = board.registry.isOpen := by
    funext other
    unfold Registry.isOpen
    by_cases isOther : other = id
    · subst isOther
      rw [get?_addError_self]
      cases board.registry.get? other with
      | none => rfl
      | some record => simp
    · rw [get?_addError_of_ne _ _ isOther]
  rw [view, same, state_addError, view]

/-- Completing the active task leaves none unfinished. -/
theorem view_complete (board : Board) (id : TaskId) :
    (board.complete id).view (some id) = { board.view (some id) with unfinished := none } := by
  have complete : (board.complete id).registry.isOpen id = false := by
    unfold Registry.isOpen
    rw [get?_complete_self]
    cases board.registry.get? id <;> rfl
  simp [view, complete, Option.filter]

theorem view_fail (board : Board) (id : TaskId) (reason : String) :
    (board.fail id reason).view (some id) = { board.view (some id) with unfinished := none } := by
  rw [fail, view_complete, view_addError]

/-- Taking note of an event is a function of the view. -/
theorem view_apply (board : Board) (event : EngineEvent) (active : Option TaskId) :
    (board.apply event active).view active = (board.view active).observe event := by
  cases event with
  | error message =>
    cases active with
    | none => rfl
    | some id =>
      -- An error completes nothing, so the view stays.
      exact board.view_addError id message (some id)
  | stateChanged engineState =>
    cases ended : board.state != .idle && engineState.workerState == .idle with
    | false => cases active <;> simp [apply, view, View.observe, ended]
    | true =>
      cases active with
      | none => simp [apply, view, View.observe, ended]
      | some id =>
        simp only [apply, ended, if_true]
        -- A panic adds an error first, which the view does not show.
        rw [view_complete]
        split
        · rw [view_addError]
          simp [view, View.observe, ended]
        · simp [view, View.observe, ended]

theorem view_applyAll (board : Board) (events : List EngineEvent) (active : Option TaskId) :
    (board.applyAll events active).view active = (board.view active).observeAll events := by
  induction events generalizing board with
  | nil => rfl
  | cons event events ih =>
    rw [View.observeAll_cons, ← view_apply]
    exact ih (board.apply event active)

/-- A new task is not the active one, which is registered already. -/
theorem view_submit (board : Board) (task : Task) {active : Option TaskId}
    (registered : ∀ id, active = some id → ∃ record, board.registry.get? id = some record) :
    ({ board with registry := board.registry.submit task } : Board).view active = board.view active := by
  cases active with
  | none => rfl
  | some id =>
    obtain ⟨record, found⟩ := registered id rfl
    simp [view, Option.filter, Registry.isOpen, Registry.get?_submit, found]

end Board

end PlanService
