import PlanService.Board
import PlanService.Proofs.Registry

/-! # Changes of the board

A board changes in three ways only: a task is submitted, an engine event is taken note of,
or a task fails that could not be started.  `Board.Change` says them as data, so that what a
worker does to its board is a list of changes.

Each law is proved for the two operations that `Board.apply` and `Board.fail` are made of,
`addError` and `complete`, then for one change, then for a list: records advance
(`get?_performAll`), a change touches no record but the one it is credited to
(`get?_perform_of_ne`), and the log of the bus only grows.
-/

namespace PlanService

namespace Board

/-- What can happen to a board. -/
inductive Change where
  | submit (task : Task)
  | apply (event : EngineEvent) (active : Option TaskId)
  | fail (id : TaskId) (reason : String)

/-- An event or a failure is credited to the task that is active then. -/
def Change.CreditedTo (active : Option TaskId) : Change → Prop
  | submit _ => False
  | apply _ creditor => creditor = active
  | fail id _ => some id = active

def perform (board : Board) : Change → Board
  | .submit task => { board with registry := board.registry.submit task }
  | .apply event active => board.apply event active
  | .fail id reason => board.fail id reason

def performAll (board : Board) (changes : List Change) : Board :=
  changes.foldl perform board

@[simp] theorem performAll_nil (board : Board) : board.performAll [] = board := rfl

@[simp] theorem performAll_cons (board : Board) (change : Change) (changes : List Change) :
    board.performAll (change :: changes) = (board.perform change).performAll changes := rfl

@[simp] theorem performAll_append (board : Board) (changes more : List Change) :
    board.performAll (changes ++ more) = (board.performAll changes).performAll more :=
  List.foldl_append

/-- Taking note of events is a list of changes, all credited to the active task. -/
theorem applyAll_eq_performAll (board : Board) (events : List EngineEvent) (active : Option TaskId) :
    board.applyAll events active = board.performAll (events.map (.apply · active)) := by
  simp [applyAll, performAll, List.foldl_map, perform]

theorem credited_apply (events : List EngineEvent) (active : Option TaskId) :
    ∀ change ∈ events.map (Change.apply · active), change.CreditedTo active := by
  intro change member
  obtain ⟨event, -, rfl⟩ := List.mem_map.mp member
  rfl

theorem applyAll_append (board : Board) (events more : List EngineEvent) (active : Option TaskId) :
    board.applyAll (events ++ more) active = (board.applyAll events active).applyAll more active :=
  List.foldl_append

theorem performAll_induction {P : Board → Prop} {changes : List Change}
    (keeps : ∀ board, ∀ change ∈ changes, P board → P (board.perform change))
    {board : Board} (start : P board) : P (board.performAll changes) := by
  induction changes generalizing board with
  | nil => exact start
  | cons change changes ih =>
    exact ih (fun board change member => keeps board change (List.mem_cons_of_mem _ member))
      (keeps board change List.mem_cons_self start)

/-! ## Adding an error, completing -/

@[simp] theorem bus_addError (board : Board) (id : TaskId) (message : String) :
    (board.addError id message).bus = board.bus := rfl

@[simp] theorem state_addError (board : Board) (id : TaskId) (message : String) :
    (board.addError id message).state = board.state := rfl

theorem get?_addError_self (board : Board) (id : TaskId) (message : String) :
    (board.addError id message).registry.get? id =
      (board.registry.get? id).map (·.addError message) :=
  Registry.get?_modify_self fun record => record.id_addError message

theorem get?_addError_of_ne (board : Board) {id other : TaskId} (message : String)
    (different : other ≠ id) :
    (board.addError id message).registry.get? other = board.registry.get? other :=
  Registry.get?_modify_of_ne (fun record => record.id_addError message) different

@[simp] theorem state_complete (board : Board) (id : TaskId) :
    (board.complete id).state = board.state := by
  unfold complete
  split
  · rfl
  · split <;> rfl

theorem get?_complete_self (board : Board) (id : TaskId) :
    (board.complete id).registry.get? id = (board.registry.get? id).map TrackedTask.finish := by
  unfold complete
  cases found : board.registry.get? id with
  | none => simp [found]
  | some record =>
    simp only [Option.map_some]
    split
    next complete =>
      -- A complete record is left alone, and finishing it again changes nothing.
      rw [found, record.advances_finish.frozen complete]
    next =>
      have changed : (board.registry.modify id TrackedTask.finish).get? id = _ :=
        Registry.get?_modify_self TrackedTask.id_finish
      rwa [found, Option.map_some] at changed

theorem get?_complete_of_ne (board : Board) {id other : TaskId} (different : other ≠ id) :
    (board.complete id).registry.get? other = board.registry.get? other := by
  unfold complete
  split
  · rfl
  · split
    · rfl
    · exact Registry.get?_modify_of_ne TrackedTask.id_finish different

/-- A task that was not complete is announced when it is completed, and nothing else is. -/
theorem log_complete (board : Board) (id : TaskId) :
    (board.complete id).bus.log.toList = board.bus.log.toList ++
      (((board.registry.get? id).filter (!·.isComplete)).map (·.completion)).toList := by
  unfold complete
  cases board.registry.get? id with
  | none => simp
  | some record =>
    simp only
    split
    next complete => simp [complete]
    next incomplete => simp [Option.filter, incomplete, Bus.publish]

/-! ## One change -/

/-- How the two basic operations make up an engine event. -/
theorem apply_cases (board : Board) (event : EngineEvent) (active : Option TaskId) :
    (∃ state, board.apply event active = { board with state }) ∨
    (∃ id state, active = some id ∧ board.apply event active =
      ({ board with state } : Board).complete id) ∨
    (∃ id state message, active = some id ∧ board.apply event active =
      (({ board with state } : Board).addError id message).complete id) ∨
    (∃ id message, active = some id ∧ board.apply event active = board.addError id message) := by
  cases event with
  | stateChanged engineState =>
    cases active with
    | none => exact .inl ⟨_, rfl⟩
    | some id =>
      simp only [apply]
      split
      next =>
        split
        · exact .inr (.inr (.inl ⟨_, _, _, rfl, rfl⟩))
        · exact .inr (.inl ⟨_, _, rfl, rfl⟩)
      next => exact .inl ⟨_, rfl⟩
  | error message =>
    cases active with
    | none => exact .inl ⟨_, rfl⟩
    | some id => exact .inr (.inr (.inr ⟨_, _, rfl, rfl⟩))

/-- A property that the basic operations on one task and a new state keep is kept by every
event and failure that is credited to this task. -/
theorem perform_induction {P : Board → Prop} {active : Option TaskId}
    (state : ∀ board state, P board → P { board with state })
    (addError : ∀ board id message, active = some id → P board → P (board.addError id message))
    (complete : ∀ board id, active = some id → P board → P (board.complete id))
    {board : Board} {change : Change} (credited : change.CreditedTo active) (start : P board) :
    P (board.perform change) := by
  cases change with
  | submit task => exact credited.elim
  | apply event creditor =>
    cases credited
    rw [perform]
    rcases board.apply_cases event active with
      ⟨s, same⟩ | ⟨id, s, isActive, same⟩ | ⟨id, s, message, isActive, same⟩ |
      ⟨id, message, isActive, same⟩
    · rw [same]; exact state _ s start
    · rw [same]; exact complete _ id isActive (state _ s start)
    · rw [same]; exact complete _ id isActive (addError _ id message isActive (state _ s start))
    · rw [same]; exact addError _ id message isActive start
  | fail id reason =>
    cases credited
    exact complete _ id rfl (addError _ id reason rfl start)

/-- A change leaves every record alone but the one it is credited to. -/
theorem get?_perform_of_ne {board : Board} {change : Change} {active : Option TaskId} {id : TaskId}
    (credited : change.CreditedTo active) (other : active ≠ some id) :
    (board.perform change).registry.get? id = board.registry.get? id := by
  refine perform_induction (P := fun later => later.registry.get? id = board.registry.get? id)
    (fun _ _ same => same) (fun later current message isActive same => ?_)
    (fun later current isActive same => ?_) credited rfl
  · rw [get?_addError_of_ne _ _ fun h : id = current => other (h ▸ isActive), same]
  · rw [get?_complete_of_ne _ fun h : id = current => other (h ▸ isActive), same]

/-- A record that is there stays there, and only advances. -/
theorem get?_perform {board : Board} (change : Change) {id : TaskId} {record : TrackedTask}
    (found : board.registry.get? id = some record) :
    ∃ later, (board.perform change).registry.get? id = some later ∧ record.Advances later := by
  cases change with
  | submit task => exact ⟨record, Registry.get?_submit_of_some task found, .refl record⟩
  | _ =>
    refine perform_induction (P := fun board => ∃ later, board.registry.get? id = some later ∧
      record.Advances later) (fun _ _ same => same) ?_ ?_ rfl ⟨record, found, .refl record⟩
    · rintro board other message - ⟨later, found, advances⟩
      by_cases same : id = other
      · subst same
        exact ⟨_, by rw [get?_addError_self, found, Option.map_some],
          advances.trans (later.advances_addError message)⟩
      · exact ⟨later, by rw [get?_addError_of_ne _ _ same, found], advances⟩
    · rintro board other - ⟨later, found, advances⟩
      by_cases same : id = other
      · subst same
        exact ⟨_, by rw [get?_complete_self, found, Option.map_some],
          advances.trans later.advances_finish⟩
      · exact ⟨later, by rw [get?_complete_of_ne _ same, found], advances⟩

theorem numbered_perform {board : Board} (change : Change) (numbered : board.registry.Numbered) :
    (board.perform change).registry.Numbered := by
  cases change with
  | submit task => exact numbered.submit task
  | _ =>
    refine perform_induction (P := fun board => board.registry.Numbered) (fun _ _ same => same)
      (fun _ _ message _ same => same.modify fun record => record.id_addError message) ?_ rfl numbered
    intro board id _ same
    unfold complete
    split
    · exact same
    · split
      · exact same
      · exact same.modify TrackedTask.id_finish

/-! ## Several changes -/

theorem get?_performAll {board : Board} (changes : List Change) {id : TaskId} {record : TrackedTask}
    (found : board.registry.get? id = some record) :
    ∃ later, (board.performAll changes).registry.get? id = some later ∧ record.Advances later := by
  refine performAll_induction (P := fun board => ∃ later, board.registry.get? id = some later ∧
    record.Advances later) ?_ ⟨record, found, .refl record⟩
  rintro board change - ⟨later, found, advances⟩
  obtain ⟨last, found, more⟩ := get?_perform change found
  exact ⟨last, found, advances.trans more⟩

theorem get?_performAll_of_ne {board : Board} {changes : List Change} {active : Option TaskId} {id : TaskId}
    (credited : ∀ change ∈ changes, change.CreditedTo active) (other : active ≠ some id) :
    (board.performAll changes).registry.get? id = board.registry.get? id :=
  performAll_induction (P := fun later => later.registry.get? id = board.registry.get? id)
    (fun _ change member same => (get?_perform_of_ne (credited change member) other).trans same) rfl

theorem get?_applyAll_of_ne (board : Board) (events : List EngineEvent) {active : Option TaskId} {id : TaskId}
    (other : active ≠ some id) :
    (board.applyAll events active).registry.get? id = board.registry.get? id := by
  rw [applyAll_eq_performAll]
  exact get?_performAll_of_ne (credited_apply events active) other

theorem numbered_performAll {board : Board} (changes : List Change)
    (numbered : board.registry.Numbered) : (board.performAll changes).registry.Numbered :=
  performAll_induction (P := fun board => board.registry.Numbered)
    (fun _ change _ => numbered_perform change) numbered

end Board

end PlanService
