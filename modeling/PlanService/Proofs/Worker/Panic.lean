import PlanService.Proofs.Worker.Beginning
import PlanService.Proofs.Worker.History

/-! # An engine that panics

A panic ends the task that is at work as if the engine had refused it (`apply_panicked_of_busy`), and
leaves the worker free.  It is the fall back to idle that does it, so a panic says nothing to a worker
that shows idle (`apply_panicked_of_idle`): a task that the engine took without telling that it is at
work is then left as it is, and keeps the worker.
-/

namespace PlanService

namespace Board

variable {board : Board} {id : TaskId} {record : TrackedTask}

theorem apply_panicked_of_idle (idle : board.state = .idle) (active : Option TaskId) :
    board.apply (.stateChanged .panicked) active = board := by
  rw [apply_of_quiet (.inl idle), EngineState.workerState, ← idle]

theorem apply_panicked_of_busy (busy : board.state ≠ .idle) (id : TaskId) :
    board.apply (.stateChanged .panicked) (some id) =
      { board with state := .idle }.fail id "Engine panicked" := by
  have ends : (board.state != .idle && EngineState.panicked.workerState == .idle) = true := by
    simp [busy, EngineState.workerState]
  simp only [apply, ends, if_true, BEq.rfl]
  rfl

/-- Whoever fails is announced, once, with the reason. -/
theorem log_fail_of_open (found : board.registry.get? id = some record)
    (incomplete : record.isComplete = false) (reason : String) :
    (board.fail id reason).bus.log.toList = board.bus.log.toList ++ [(record.ended [reason]).completion] := by
  rw [fail, log_complete, bus_addError, get?_addError_self, found]
  simp [TrackedTask.addError, TrackedTask.ended, TrackedTask.completion, incomplete, Option.filter]

/-- From an entry of a history on, the rest of it leads to where the whole does. -/
theorem Leads.exists_rest {last : Board} {history : List Entry} (leads : Leads board history last) {entry : Entry}
    (member : entry ∈ history) : ∃ rest, Leads entry.later rest last := by
  induction leads with
  | nil => cases member
  | @cons board last first more _ rest ih =>
    rcases List.mem_cons.mp member with rfl | member
    · exact ⟨more, rest⟩
    · exact ih member

/-- A complete record is still the same at the end. -/
theorem Leads.get?_of_complete {last : Board} {history : List Entry} (leads : Leads board history last)
    (found : board.registry.get? id = some record) (complete : record.isComplete = true) :
    last.registry.get? id = some record := by
  induction leads with
  | nil alike => rwa [alike.registry]
  | @cons board last entry more alike _ ih =>
    rw [← alike.registry] at found
    obtain ⟨later, stillFound, advances⟩ := get?_perform entry.change found
    rw [advances.frozen complete] at stillFound
    exact ih stillFound

end Board

namespace Worker

variable {σ : Type} [Engine σ]

theorem history_append (worker : Worker σ) (actions more : List (Action σ)) :
    worker.history (actions ++ more) = worker.history actions ++ (worker.after actions).history more := by
  induction actions generalizing worker with
  | nil => rfl
  | cons action actions ih => simp [history, ih]

/-- What a worker takes up is an entry of the history. -/
theorem mem_history_takeUp {worker : Worker σ} {event : EngineEvent} {later : List EngineEvent}
    {actions : List (Action σ)} (alive : (worker.after actions).alive = true)
    (queued : (worker.after actions).queue = event :: later) (more : List (Action σ)) :
    ⟨(worker.after actions).board, .apply event (worker.after actions).active⟩ ∈
      worker.history (actions ++ .takeUp :: more) := by
  rw [history_append, history]
  have taken : (worker.after actions).changes .takeUp = [.apply event (worker.after actions).active] := by
    simp [changes, alive, queued]
  rw [taken]
  exact List.mem_append_right _ List.mem_cons_self

/-- Whenever, in any run with any engine, a panic is applied while a task is active that is not complete, the
worker shows idle.  If it showed anything else before, the task ends with the panic as its last error,
which is announced as a failure, and from then on, until another task is begun, any other that is not
complete can be.  If it showed idle, nothing at all has changed. -/
theorem panic_ends_shown_work (engine : σ) (bus : Bus) (actions : List (Action σ)) :
    let start : Worker σ := .ofEngine engine bus
    let worker := start.after actions
    ∀ entry ∈ start.history actions, ∀ id record,
      entry.change = .apply (.stateChanged .panicked) (some id) →
      entry.board.registry.get? id = some record → record.isComplete = false →
      entry.later.state = .idle ∧
      (entry.board.state = .idle → entry.later = entry.board) ∧
      (entry.board.state ≠ .idle →
        let last := record.ended ["Engine panicked"]
        entry.later.registry.get? id = some last ∧ last.completion.status = .failed ∧
        entry.later.bus.log.toList = entry.board.bus.log.toList ++ [last.completion] ∧
        worker.board.registry.get? id = some last ∧
        (worker.alive = true → worker.active = some id →
          ∀ other unfinished, worker.board.registry.get? other = some unfinished →
            unfinished.isComplete = false → (worker.begin other).1 = .ok ())) := by
  intro start worker entry member id record panics found incomplete
  have applied : entry.later = entry.board.apply (.stateChanged .panicked) (some id) := by
    rw [Board.Entry.later, panics, Board.perform]
  refine ⟨?_, fun idle => applied.trans (Board.apply_panicked_of_idle idle _), fun busy => ?_⟩
  · rw [Board.Entry.later, panics, Board.state_perform]
    rfl
  · intro last
    rw [Board.apply_panicked_of_busy busy] at applied
    have shown : ({ entry.board with state := .idle } : Board).registry.get? id = some record := found
    have ends : entry.later.registry.get? id = some last := by
      rw [applied, Board.get?_fail_of_open shown incomplete]
    have stays : worker.board.registry.get? id = some last := by
      obtain ⟨rest, leads⟩ := (start.leads_after actions).exists_rest member
      exact leads.get?_of_complete ends rfl
    refine ⟨ends, last.status_completion.mpr (by simp [last, TrackedTask.ended]), ?_, stays,
      fun alive isActive other unfinished foundOther unfinishedOther =>
        begin_of_over alive isActive stays rfl foundOther unfinishedOther⟩
    rw [applied, Board.log_fail_of_open shown incomplete]

/-- The task that was paused when its engine panicked has failed, and the next one begins. -/
theorem panic_ends_paused_task :
    let panics (engine : Recording) := (engine, [.stateChanged .panicked])
    let actions : List (Action Recording) :=
      [.command (.submit { name := "count" }), .command (.submit { name := "count" }),
        .command (.begin (.ofNumber 1)), .command (.request .paused false), .engine panics]
    let worker := (ofEngine ({} : Recording) { capacity := 1 }).after (actions ++ [.takeUp])
    ∃ last, worker.board.registry.get? (.ofNumber 1) = some last ∧ last.completion.status = .failed ∧
      worker.state = .idle ∧ (worker.begin (.ofNumber 2)).1 = .ok () := by
  intro panics actions worker
  let start := ofEngine ({} : Recording) { capacity := 1 }
  have first : ((start.after actions).board.registry.get? (.ofNumber 1)).any (!·.isComplete) = true := by
    decide +kernel
  have second : (worker.board.registry.get? (.ofNumber 2)).any (!·.isComplete) = true := by decide +kernel
  obtain ⟨record, found, unfinished⟩ := (Option.any_eq_true _ _).mp first
  obtain ⟨other, foundOther, unfinishedOther⟩ := (Option.any_eq_true _ _).mp second
  have alive : (start.after actions).alive = true := by decide +kernel
  have aliveThen : worker.alive = true := by decide +kernel
  have queued : (start.after actions).queue = [.stateChanged .panicked] := by decide +kernel
  have isActive : (start.after actions).active = some (.ofNumber 1) := by decide +kernel
  have isActiveThen : worker.active = some (.ofNumber 1) := by decide +kernel
  have busy : (start.after actions).board.state ≠ .idle := by decide +kernel
  have rests : worker.state = .idle := by decide +kernel
  clear_value actions
  have member := mem_history_takeUp alive queued []
  obtain ⟨-, -, ends⟩ := panic_ends_shown_work ({} : Recording) { capacity := 1 } (actions ++ [.takeUp]) _ member
    (.ofNumber 1) record (by rw [isActive]) found (by simpa using unfinished)
  obtain ⟨-, failed, -, stays, frees⟩ := ends busy
  exact ⟨_, stays, failed, rests,
    frees aliveThen isActiveThen (.ofNumber 2) other foundOther (by simpa using unfinishedOther)⟩

/-- An engine may take a task without telling that it is at work.  When it panics then, the task is
left as it is: nothing is announced, and the worker is not free. -/
theorem panic_passes_unshown_work :
    let engine := ({} : Recording).script .run {}
    let panics (engine : Recording) := (engine, [.stateChanged .panicked])
    let task : Task := { name := "count" }
    let actions : List (Action Recording) :=
      [.command (.submit task), .command (.submit task), .command (.begin (.ofNumber 1)), .engine panics]
    let before := (ofEngine engine { capacity := 1 }).after actions
    let worker := before.takeUp
    before.alive = true ∧ before.active = some (.ofNumber 1) ∧ before.queue = [.stateChanged .panicked] ∧
      worker.queue = [] ∧
      (worker.board.registry.get? (.ofNumber 1)).any (fun record => !record.isComplete && record.errors == []) = true ∧
      worker.board.bus.log = #[] ∧
      (worker.board.registry.get? (.ofNumber 2)).any (!·.isComplete) = true ∧
      (worker.begin (.ofNumber 2)).1 = .error (.busyWith (.ofNumber 1)) := by
  decide +kernel

end Worker

end PlanService
