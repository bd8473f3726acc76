import PlanService.Proofs.Engine.Logged

/-! # One task at a time

Whatever the engine emits, when and in which order, a worker admits a task only when the one
it admitted before is complete.  The invariant `Admission` ties the tasks that were begun so
far to the records: the active task is the last of them, the others are complete, and no
event has touched a task that was never begun.  It survives every event because an event is
credited to the active task only, and admission is where the active task changes.
-/

namespace PlanService

/-- How the records stand when `begun` are the tasks that were begun so far. -/
structure Admission (registry : Registry) (active : Option TaskId) (begun : List TaskId) : Prop where
  active_eq : active = begun.getLast?
  once : begun.Nodup
  registered : ∀ id ∈ begun, ∃ record, registry.get? id = some record
  finished : ∀ id ∈ begun, active ≠ some id →
    ∃ record, registry.get? id = some record ∧ record.isComplete = true
  untouched : ∀ id ∉ begun, ∀ record, registry.get? id = some record →
    record.isComplete = false ∧ record.errors = []

namespace Admission

variable {board : Board} {active : Option TaskId} {begun : List TaskId}

theorem empty : Admission {} none [] :=
  ⟨rfl, List.nodup_nil, nofun, nofun, nofun⟩

theorem mem_of_active (admission : Admission board.registry active begun) {id : TaskId}
    (isActive : active = some id) : id ∈ begun :=
  List.mem_of_getLast? (admission.active_eq ▸ isActive)

/-- A new task is begun by nobody yet, and the records that are there stay. -/
theorem submit (admission : Admission board.registry active begun) (task : Task) :
    Admission (board.registry.submit task) active begun where
  active_eq := admission.active_eq
  once := admission.once
  registered id member := by
    obtain ⟨record, found⟩ := admission.registered id member
    exact ⟨record, Registry.get?_submit_of_some task found⟩
  finished id member notActive := by
    obtain ⟨record, found, complete⟩ := admission.finished id member notActive
    exact ⟨record, Registry.get?_submit_of_some task found, complete⟩
  untouched id notBegun record found := by
    rcases Registry.eq_of_get?_submit found with before | rfl
    · exact admission.untouched id notBegun record before
    · exact ⟨rfl, rfl⟩

/-- What is credited to the active task concerns no other. -/
theorem credit (admission : Admission board.registry active begun) {change : Board.Change}
    (credited : change.CreditedTo active) :
    Admission (board.perform change).registry active begun where
  active_eq := admission.active_eq
  once := admission.once
  registered id member := by
    obtain ⟨record, found⟩ := admission.registered id member
    obtain ⟨later, found, _⟩ := Board.get?_perform change found
    exact ⟨later, found⟩
  finished id member notActive := by
    rw [Board.get?_perform_of_ne credited notActive]
    exact admission.finished id member notActive
  untouched id notBegun := by
    have notActive : active ≠ some id := fun isActive => notBegun (admission.mem_of_active isActive)
    rw [Board.get?_perform_of_ne credited notActive]
    exact admission.untouched id notBegun

theorem creditAll {changes : List Board.Change} (credited : ∀ change ∈ changes, change.CreditedTo active)
    (admission : Admission board.registry active begun) :
    Admission (board.performAll changes).registry active begun :=
  Board.performAll_induction (P := fun board => Admission board.registry active begun)
    (fun _ change member same => same.credit (credited change member)) admission

/-- A task that is admitted was never begun before, and becomes the active one. -/
theorem activate (admission : Admission board.registry active begun) {id : TaskId}
    (free : ∀ current record, active = some current → board.registry.get? current = some record →
      record.isComplete = true)
    {record : TrackedTask} (found : board.registry.get? id = some record)
    (incomplete : record.isComplete = false) :
    id ∉ begun ∧ Admission board.registry (some id) (begun ++ [id]) := by
  -- The active task is complete because the worker is free, the others were so before.
  have completed : ∀ other ∈ begun, ∃ record, board.registry.get? other = some record ∧
      record.isComplete = true := by
    intro other member
    by_cases isActive : active = some other
    · obtain ⟨record, found⟩ := admission.registered other member
      exact ⟨record, found, free other record isActive found⟩
    · exact admission.finished other member isActive
  have fresh : id ∉ begun := by
    intro member
    obtain ⟨other, same, complete⟩ := completed id member
    rw [found] at same
    cases same
    rw [incomplete] at complete
    contradiction
  refine ⟨fresh, by simp, ?_, ?_, ?_, ?_⟩
  · exact List.nodup_append.mpr ⟨admission.once, List.nodup_singleton id, by grind⟩
  · intro other member
    rcases List.mem_append.mp member with member | member
    · exact admission.registered other member
    · cases List.mem_singleton.mp member
      exact ⟨record, found⟩
  · intro other member notActive
    rcases List.mem_append.mp member with member | member
    · exact completed other member
    · exact absurd (congrArg some (List.mem_singleton.mp member).symm) notActive
  · intro other notBegun
    exact admission.untouched other fun member => notBegun (List.mem_append_left _ member)

theorem drain {σ : Type} {worker : Worker σ}
    (admission : Admission worker.board.registry worker.active begun) :
    Admission worker.drain.board.registry worker.active begun := by
  cases alive : worker.alive with
  | false => simpa [Worker.drain, alive] using admission
  | true =>
    rw [Worker.drain_eq alive]
    exact admission.creditAll worker.credited_pending

/-- One action keeps the invariant, with the task that it begins, if any, as the last. -/
theorem next {σ : Type} [Engine σ] {worker : Worker σ}
    (admission : Admission worker.board.registry worker.active begun) (action : Worker.Action σ) :
    Admission (worker.next action).board.registry (worker.next action).active
      (begun ++ worker.begunBy action) := by
  rw [Worker.registry_next, Worker.active_next, Worker.begunBy_eq]
  rcases worker.changes_cases action with
    ⟨runsNone, task, changes⟩ | ⟨runsNone, credited⟩ | ⟨id, task, rfl, alive, admitted, changes⟩
  -- A task is submitted.
  · rw [changes, runsNone, Option.none_or, Option.toList_none, List.append_nil]
    exact admission.submit task
  -- The active task stays the same, and what happens counts for it.
  · rw [runsNone, Option.none_or, Option.toList_none, List.append_nil]
    exact admission.creditAll credited
  -- Another task becomes the active one between the events before the call and those of it.
  · have runs : (worker.callOf? (.command (.begin id))).bind (·.task?) = some id := by
      rw [Worker.callOf?, Worker.callFor?_begin_of_ok alive admitted]
      rfl
    obtain ⟨free, record, found, incomplete⟩ := Worker.free_of_admitted admitted
    have activated := (admission.drain.activate free found incomplete).2
    rw [Worker.drain_eq alive] at activated
    rw [changes, runs, Board.performAll_append]
    exact activated.creditAll (worker.credited_changesOf (.run id task))

theorem after {σ : Type} [Engine σ] {worker : Worker σ}
    (admission : Admission worker.board.registry worker.active begun)
    (actions : List (Worker.Action σ)) :
    Admission (worker.after actions).board.registry (worker.after actions).active
      (begun ++ worker.begun actions) := by
  induction actions generalizing worker begun with
  | nil => simpa [Worker.begun] using admission
  | cons action actions ih =>
    rw [Worker.begun, ← List.append_assoc, Worker.after_cons]
    exact ih (admission.next action)

end Admission

namespace Worker

variable {σ : Type} [Engine σ]

/-- The engine has run exactly the tasks that were begun, each time one was begun. -/
theorem runs_after (worker : Worker (Logged σ)) (actions : List (Action σ)) :
    (worker.after (actions.map .logged)).engine.runs =
      worker.engine.runs ++ worker.begun (actions.map .logged) := by
  induction actions generalizing worker with
  | nil => simp [begun]
  | cons action actions ih =>
    rw [List.map_cons, after_cons, ih, runs_next, begun, begunBy_eq, List.append_assoc]

/-- When the engine is called to run a task, the worker is free and the task is not complete. -/
theorem admitted_of_runs (worker : Worker (Logged σ)) (action : Action σ) {id : TaskId}
    (called : (worker.next action.logged).engine.runs = worker.engine.runs ++ [id]) :
    (∀ current record, worker.active = some current →
      worker.drain.board.registry.get? current = some record → record.isComplete = true) ∧
    ∃ record, worker.drain.board.registry.get? id = some record ∧ record.isComplete = false := by
  rw [runs_next, List.append_cancel_left_eq] at called
  rcases worker.changes_cases action.logged with
    ⟨runsNone, _⟩ | ⟨runsNone, _⟩ | ⟨other, task, same, alive, admitted, _⟩
  · simp [runsNone] at called
  · simp [runsNone] at called
  · rw [same, callOf?, callFor?_begin_of_ok alive admitted] at called
    cases called
    exact free_of_admitted admitted

theorem numbered_next {worker : Worker σ} (numbered : worker.board.registry.Numbered)
    (action : Action σ) : (worker.next action).board.registry.Numbered := by
  rw [registry_next]
  exact Board.numbered_performAll _ numbered

theorem numbered_after {worker : Worker σ} (numbered : worker.board.registry.Numbered)
    (actions : List (Action σ)) : (worker.after actions).board.registry.Numbered := by
  induction actions generalizing worker with
  | nil => exact numbered
  | cons action actions ih => exact ih (numbered_next numbered action)

theorem active_isSome_after {worker : Worker σ} (isSome : worker.active.isSome = true)
    (actions : List (Action σ)) : (worker.after actions).active.isSome = true := by
  induction actions generalizing worker with
  | nil => exact isSome
  | cons action actions ih =>
    refine ih ?_
    rw [active_next, Option.isSome_or, isSome, Bool.or_true]

/-- In every state of a worker that a run leads to, with an engine that emits and answers what
it likes: the active task is registered, and there is one from the first begin on; the tasks
that were begun are complete but for the active one, and the others are as they were
submitted; the engine was called to run each task that was begun, in this order, and no task
twice.  And whenever it is called to run a task, this task is not complete then, while the
one that it was called to run before is. -/
theorem single_admission (engine : σ) (bus : Bus) (actions : List (Action σ)) :
    let start : Worker (Logged σ) := .ofEngine { engine } bus
    let worker := start.after (actions.map .logged)
    let begun := start.begun (actions.map .logged)
    (∀ id, worker.active = some id → ∃ record, worker.board.registry.get? id = some record) ∧
    (∀ more, worker.active.isSome = true → (worker.after more).active.isSome = true) ∧
    (∀ id ∈ begun, worker.active ≠ some id →
      ∃ record, worker.board.registry.get? id = some record ∧ record.isComplete = true) ∧
    (∀ record ∈ worker.board.registry.records, record.id ∉ begun →
      record.isComplete = false ∧ record.errors = []) ∧
    worker.engine.runs = begun ∧ begun.Nodup ∧
    ∀ (action : Action σ) (id : TaskId),
      (worker.next action.logged).engine.runs = worker.engine.runs ++ [id] →
      (∃ record, worker.drain.board.registry.get? id = some record ∧ record.isComplete = false) ∧
      ∀ previous, worker.engine.runs.getLast? = some previous →
        ∃ record, worker.drain.board.registry.get? previous = some record ∧
          record.isComplete = true := by
  intro start worker begun
  have free : Admission start.board.registry start.active [] := .empty
  have admission : Admission worker.board.registry worker.active begun :=
    free.after (actions.map .logged)
  have none : start.board.registry.Numbered := Registry.numbered_empty
  have numbered : worker.board.registry.Numbered := numbered_after none (actions.map .logged)
  have runs : worker.engine.runs = begun := start.runs_after actions
  refine ⟨fun id isActive => admission.registered id (admission.mem_of_active isActive),
    fun more isSome => active_isSome_after isSome more, admission.finished,
    fun record member notBegun => admission.untouched record.id notBegun record (numbered.get?_of_mem member),
    runs, admission.once, fun action id called => ?_⟩
  have drained : Admission worker.drain.board.registry worker.active begun := admission.drain
  obtain ⟨free, found⟩ := worker.admitted_of_runs action called
  refine ⟨found, fun previous last => ?_⟩
  have isActive : worker.active = some previous := by rw [admission.active_eq, ← runs, last]
  obtain ⟨record, found⟩ := drained.registered previous (drained.mem_of_active isActive)
  exact ⟨record, found, free previous record isActive found⟩

end Worker

end PlanService
