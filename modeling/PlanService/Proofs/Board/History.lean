import PlanService.Proofs.Board.Change

/-! # What a board has gone through

A history is a list of entries, each a change together with the board that it was made to.
`Leads` says that a history leads from one board to another.  Completions that others
announce come in between and are no part of it, so two boards in a row may differ in their
bus.

The history alone tells the errors of every task (`Leads.errorsOf_eq`) and the state that is
shown (`Leads.state_eq`).
-/

namespace PlanService

/-- The errors of a task; one that is not registered has none. -/
def Registry.errorsOf (registry : Registry) (id : TaskId) : List String :=
  ((registry.get? id).map (·.errors)).getD []

theorem Registry.errorsOf_of_get? {registry : Registry} {id : TaskId} {record : TrackedTask}
    (found : registry.get? id = some record) : registry.errorsOf id = record.errors := by
  rw [errorsOf, found, Option.map_some, Option.getD_some]

theorem Registry.isOpen_of_get? {registry : Registry} {id : TaskId} {record : TrackedTask}
    (found : registry.get? id = some record) : registry.isOpen id = !record.isComplete := by
  rw [isOpen, found, Option.any_some]

namespace Board

/-! ## What changes say -/

namespace Change

/-- The state that a change puts on show. -/
def shown? : Change → Option WorkerState
  | apply (.stateChanged engineState) _ => some engineState.workerState
  | _ => none

/-- The task that fails by a change because the engine refused it, and why. -/
def refusal? : Change → Option (TaskId × String)
  | fail id reason => some (id, reason)
  | _ => none

/-- A change submits a task, or some task or none is credited with it. -/
theorem submits_or_credited (change : Change) :
    (∃ task, change = submit task) ∨ ∃ active, change.CreditedTo active := by
  cases change with
  | submit task => exact .inl ⟨task, rfl⟩
  | apply event active => exact .inr ⟨active, rfl⟩
  | fail id reason => exact .inr ⟨some id, rfl⟩

/-- What is added to the errors of a task when this change completes it. -/
def lastWord? : Change → Option String
  | apply (.stateChanged .panicked) _ => some "Engine panicked"
  | fail _ reason => some reason
  | _ => none

end Change

theorem state_perform (board : Board) (change : Change) :
    (board.perform change).state = change.shown?.getD board.state := by
  cases change with
  | submit task => rfl
  | fail id reason => rw [perform, fail, state_complete, state_addError]; rfl
  | apply event active =>
    rw [perform]
    cases event with
    | error message => cases active <;> rfl
    | stateChanged engineState =>
      cases active with
      | none => rfl
      | some id =>
        simp only [apply]
        split
        · rw [state_complete]
          split <;> rfl
        · rfl

/-- A change that only a task can be credited with registers none. -/
theorem get?_perform_of_none {board : Board} {change : Change} {active : Option TaskId} {id : TaskId}
    (credited : change.CreditedTo active) (missing : board.registry.get? id = none) :
    (board.perform change).registry.get? id = none := by
  refine perform_induction (P := fun later => later.registry.get? id = none) (fun _ _ same => same)
    (fun later other message _ same => ?_) (fun later other _ same => ?_) credited missing
  · by_cases isOther : id = other
    · subst isOther
      rw [get?_addError_self, same, Option.map_none]
    · rw [get?_addError_of_ne _ _ isOther, same]
  · by_cases isOther : id = other
    · subst isOther
      rw [get?_complete_self, same, Option.map_none]
    · rw [get?_complete_of_ne _ isOther, same]

/-! ## Entries -/

/-- A change, and the board that it was made to. -/
structure Entry where
  board : Board
  change : Change

namespace Entry

def later (entry : Entry) : Board := entry.board.perform entry.change

/-- The task is complete after this change and was not before. -/
def completes (id : TaskId) (entry : Entry) : Bool :=
  entry.board.registry.isOpen id && !entry.later.registry.isOpen id

/-- The message of an error event that is applied while the task is active and not complete. -/
def report? (id : TaskId) (entry : Entry) : Option String :=
  match entry.change with
  | .apply (.error message) active =>
    if active = some id ∧ entry.board.registry.isOpen id = true then some message else none
  | _ => none

variable {entry : Entry} {id : TaskId}

theorem report?_of_not_open (notOpen : entry.board.registry.isOpen id = false) :
    entry.report? id = none := by
  unfold report?
  split
  · rw [if_neg fun (both : _ ∧ _) => Bool.false_ne_true (notOpen ▸ both.2)]
  · rfl

theorem completes_of_not_open (notOpen : entry.board.registry.isOpen id = false) :
    entry.completes id = false := by
  rw [completes, notOpen, Bool.false_and]

theorem complete_of_completes (completes : entry.completes id = true) :
    ∃ record, entry.later.registry.get? id = some record ∧ record.isComplete = true := by
  rw [Entry.completes, Bool.and_eq_true, Registry.isOpen_iff] at completes
  obtain ⟨⟨record, found, -⟩, notOpen⟩ := completes
  obtain ⟨later, found, -⟩ := get?_perform entry.change found
  refine ⟨later, found, ?_⟩
  rw [Entry.later, Registry.isOpen_of_get? found] at notOpen
  simpa using notOpen

theorem report?_of_other {other : Option TaskId} (credited : entry.change.CreditedTo other)
    (isOther : other ≠ some id) : entry.report? id = none := by
  unfold report?
  split
  next message active isError =>
    rw [isError] at credited
    exact if_neg fun both => isOther (credited ▸ both.1)
  next => rfl

/-- What is added to the errors of a task by a change: the message that it reports, or the last
word if it completes the task. -/
def addition (id : TaskId) (entry : Entry) : List String :=
  (entry.report? id).toList ++ if entry.completes id = true then entry.change.lastWord?.toList else []

/-- A change that leaves a record alone adds nothing to it. -/
theorem errorsOf_later_of_same (same : entry.later.registry.get? id = entry.board.registry.get? id)
    (silent : entry.report? id = none) :
    entry.later.registry.errorsOf id = entry.board.registry.errorsOf id ++ entry.addition id := by
  have keeps : entry.completes id = false := by simp [completes, Registry.isOpen, same]
  rw [addition, silent, keeps, Registry.errorsOf, same]
  simp [Registry.errorsOf]

/-- What a change that a task is credited with makes of its record while that is not complete. -/
theorem exists_later_of_open {record : TrackedTask} (credited : entry.change.CreditedTo (some id))
    (found : entry.board.registry.get? id = some record) (incomplete : record.isComplete = false) :
    ∃ after, entry.later.registry.get? id = some after ∧
      after.errors = record.errors ++ ((entry.report? id).toList ++
        if after.isComplete = true then entry.change.lastWord?.toList else []) := by
  obtain ⟨board, change⟩ := entry
  cases change with
  | submit task => cases credited
  | fail other reason =>
    cases credited
    refine ⟨(record.addError reason).finish, ?_, ?_⟩
    · rw [later, perform, fail, get?_complete_self, get?_addError_self, found]
      rfl
    · simp [TrackedTask.finish, TrackedTask.addError, incomplete, report?, Change.lastWord?]
  | apply event active =>
    cases credited
    cases event with
    | error message =>
      have isOpen : board.registry.isOpen id = true := by
        rw [Registry.isOpen_of_get? found, incomplete, Bool.not_false]
      refine ⟨record.addError message, ?_, ?_⟩
      · rw [later, perform, apply, get?_addError_self, found]
        rfl
      · simp [TrackedTask.addError, incomplete, report?, isOpen]
    | stateChanged engineState =>
      cases ended : board.state != .idle && engineState.workerState == .idle with
      | false => exact ⟨record, by simp [later, perform, apply, ended, found], by simp [incomplete, report?]⟩
      | true =>
        by_cases panicked : engineState = .panicked
        · subst panicked
          refine ⟨(record.addError "Engine panicked").finish, ?_, ?_⟩
          · simp only [later, perform, apply, ended, if_true, BEq.rfl]
            rw [get?_complete_self, get?_addError_self, found]
            rfl
          · simp [TrackedTask.finish, TrackedTask.addError, incomplete, report?, Change.lastWord?]
        · -- The engine came to rest, which adds nothing.
          have silent : (Change.apply (.stateChanged engineState) (some id)).lastWord? = none := by
            cases engineState <;> first | rfl | exact absurd rfl panicked
          refine ⟨record.finish, ?_, ?_⟩
          · simp only [later, perform, apply, ended, if_true, beq_iff_eq, panicked, if_false]
            rw [get?_complete_self, found]
            rfl
          · simp [TrackedTask.finish, report?, silent]

theorem errorsOf_later_of_open {record : TrackedTask} (credited : entry.change.CreditedTo (some id))
    (found : entry.board.registry.get? id = some record) (incomplete : record.isComplete = false) :
    entry.later.registry.errorsOf id = entry.board.registry.errorsOf id ++ entry.addition id := by
  obtain ⟨after, changed, adds⟩ := exists_later_of_open credited found incomplete
  have ends : entry.completes id = after.isComplete := by
    rw [completes, Registry.isOpen_of_get? found, Registry.isOpen_of_get? changed, incomplete,
      Bool.not_false, Bool.true_and, Bool.not_not]
  rw [addition, ends, Registry.errorsOf_of_get? found, Registry.errorsOf_of_get? changed, adds]

/-- The errors of a task after a change are those before it and what the change adds. -/
theorem errorsOf_later (entry : Entry) (id : TaskId) :
    entry.later.registry.errorsOf id = entry.board.registry.errorsOf id ++ entry.addition id := by
  cases found : entry.board.registry.get? id with
  | none =>
    have notOpen : entry.board.registry.isOpen id = false := by rw [Registry.isOpen, found]; rfl
    rw [addition, report?_of_not_open notOpen, completes_of_not_open notOpen]
    rcases entry.change.submits_or_credited with ⟨task, submits⟩ | ⟨active, credited⟩
    · -- A task that is registered only now has no errors.
      simp only [later, submits, perform, Registry.errorsOf, Registry.get?_submit, found]
      split <;> rfl
    · have missing : entry.later.registry.get? id = none := get?_perform_of_none credited found
      simp [Registry.errorsOf, missing, found]
  | some record =>
    obtain ⟨after, changed, advances⟩ := get?_perform entry.change found
    cases incomplete : record.isComplete with
    | true =>
      rw [advances.frozen incomplete] at changed
      have notOpen : entry.board.registry.isOpen id = false := by
        rw [Registry.isOpen_of_get? found, incomplete, Bool.not_true]
      exact errorsOf_later_of_same (changed.trans found.symm) (report?_of_not_open notOpen)
    | false =>
      rcases entry.change.submits_or_credited with ⟨task, submits⟩ | ⟨active, credited⟩
      · refine errorsOf_later_of_same ?_ (by rw [report?, submits])
        simp [later, submits, perform, Registry.get?_submit, found]
      · by_cases isActive : active = some id
        · subst isActive
          exact errorsOf_later_of_open credited found incomplete
        · exact errorsOf_later_of_same (get?_perform_of_ne credited isActive)
            (report?_of_other credited isActive)

end Entry

/-! ## Histories -/

/-- The entries of changes that are made one after another. -/
def entries (board : Board) : List Change → List Entry
  | [] => []
  | change :: later => ⟨board, change⟩ :: (board.perform change).entries later

/-- Two boards differ in their bus only. -/
structure Alike (board other : Board) : Prop where
  registry : other.registry = board.registry
  state : other.state = board.state

theorem Alike.refl (board : Board) : board.Alike board := ⟨rfl, rfl⟩

theorem Alike.trans {first middle last : Board} (earlier : first.Alike middle)
    (later : middle.Alike last) : first.Alike last :=
  ⟨later.registry.trans earlier.registry, later.state.trans earlier.state⟩

theorem alike_publish (board : Board) (completion : Completion) :
    board.Alike { board with bus := board.bus.publish completion } := ⟨rfl, rfl⟩

/-- A history leads from one board to another. -/
inductive Leads : Board → List Entry → Board → Prop where
  | nil {board last : Board} (alike : board.Alike last) : Leads board [] last
  | cons {board last : Board} {entry : Entry} {more : List Entry} (alike : board.Alike entry.board)
      (rest : Leads entry.later more last) : Leads board (entry :: more) last

theorem leads_performAll (board : Board) (changes : List Change) :
    Leads board (board.entries changes) (board.performAll changes) := by
  induction changes generalizing board with
  | nil => exact .nil (.refl board)
  | cons change changes ih => exact .cons (.refl board) (ih (board.perform change))

namespace Leads

variable {board other last : Board} {history more : List Entry}

theorem of_alike (alike : board.Alike other) (leads : Leads other history last) :
    Leads board history last := by
  cases leads with
  | nil same => exact .nil (alike.trans same)
  | cons same rest => exact .cons (alike.trans same) rest

theorem append (first : Leads board history other) (second : Leads other more last) :
    Leads board (history ++ more) last := by
  induction first with
  | nil alike => exact second.of_alike alike
  | cons alike _ ih => exact .cons alike (ih second)

/-- The state that is shown is the last one that the history put on show. -/
theorem state_eq (leads : Leads board history last) :
    last.state = ((history.filterMap (·.change.shown?)).getLast?).getD board.state := by
  induction leads with
  | nil alike => exact alike.state
  | @cons board last entry more alike _ ih =>
    rw [ih, Entry.later, state_perform, alike.state]
    cases shown : entry.change.shown? <;> simp [shown, List.getLast?_cons]

/-- Nothing happens to a complete task any more. -/
theorem not_open_of_complete (leads : Leads board history last) {id : TaskId} {record : TrackedTask}
    (found : board.registry.get? id = some record) (complete : record.isComplete = true) :
    ∀ entry ∈ history, entry.board.registry.isOpen id = false := by
  induction leads with
  | nil => nofun
  | @cons board last entry more alike _ ih =>
    rw [← alike.registry] at found
    obtain ⟨later, stillFound, advances⟩ := get?_perform entry.change found
    rw [advances.frozen complete] at stillFound
    intro other member
    rcases List.mem_cons.mp member with rfl | member
    · rw [Registry.isOpen_of_get? found, complete, Bool.not_true]
    · exact ih stillFound other member

/-- The errors of a task are the messages that were reported while it was active and not
complete, and then the last word of the change that completed it. -/
theorem errorsOf_eq (leads : Leads board history last) (id : TaskId) :
    last.registry.errorsOf id = board.registry.errorsOf id ++ (history.filterMap (·.report? id) ++
      ((history.find? (·.completes id)).bind (·.change.lastWord?)).toList) := by
  induction leads with
  | nil alike => simp [Registry.errorsOf, alike.registry]
  | @cons board last entry more alike rest ih =>
    have added := entry.errorsOf_later id
    rw [ih, added, alike.registry, List.append_assoc, List.find?_cons]
    congr 1
    cases completes : entry.completes id with
    | false =>
      rw [Entry.addition, completes]
      cases reported : entry.report? id <;> simp [reported]
    | true =>
      -- The task is complete from here on, so the rest adds nothing.
      obtain ⟨record, found, complete⟩ := Entry.complete_of_completes completes
      have silent := rest.not_open_of_complete found complete
      have noReport : more.filterMap (·.report? id) = [] :=
        List.filterMap_eq_nil_iff.mpr fun other member => Entry.report?_of_not_open (silent other member)
      have noEnd : more.find? (·.completes id) = none :=
        List.find?_eq_none.mpr fun other member => by
          rw [Entry.completes_of_not_open (silent other member)]
          exact Bool.false_ne_true
      rw [noReport, Entry.addition, completes]
      cases reported : entry.report? id <;> simp [reported, noReport, noEnd]

end Leads

end Board

end PlanService
