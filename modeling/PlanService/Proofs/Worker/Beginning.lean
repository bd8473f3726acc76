import PlanService.Proofs.Board.Ending
import PlanService.Proofs.Session.Records

/-! # Beginning a task

A task is begun in full or not at all.  Who may not begin it is told why, and then nothing has
happened but that delivered events were applied.  Otherwise the engine is called once, with the
task as it was submitted (`Submits`), and the task is the active one, whatever the engine answers.

An engine that refuses may have emitted anything before it answers, even that the task is over.
So the record of a refused task is said in terms of what those events have made of it
(`begin_of_refused`): a task that they completed stays as it is, any other ends with the reason.
Either way it is complete, and the worker is free (`begin_of_over`).
-/

namespace PlanService

namespace Board

/-- Changes that submit nothing register nobody. -/
theorem get?_performAll_of_none {board : Board} {changes : List Change} {id : TaskId}
    (silent : changes.filterMap (·.task?) = []) (missing : board.registry.get? id = none) :
    (board.performAll changes).registry.get? id = none := by
  refine performAll_induction (P := fun board => board.registry.get? id = none) (fun board change member same => ?_)
    missing
  have submitsNone := List.filterMap_eq_nil_iff.mp silent change member
  rcases change.submits_or_credited with ⟨task, rfl⟩ | ⟨active, credited⟩
  · cases submitsNone
  · exact get?_perform_of_none credited same

/-- A task that fails ends with the reason, unless it is complete already. -/
theorem get?_fail {board : Board} {id : TaskId} {record : TrackedTask}
    (found : board.registry.get? id = some record) (reason : String) :
    (board.fail id reason).registry.get? id =
      some (if record.isComplete then record else record.ended [reason]) := by
  cases complete : record.isComplete with
  | false => exact get?_fail_of_open found complete reason
  | true =>
    obtain ⟨later, found, advances⟩ := get?_perform (.fail id reason) found
    rw [advances.frozen complete] at found
    exact found

end Board

namespace Worker

variable {σ : Type} [Engine σ]

/-! ## Tasks as they were submitted -/

/-- In a run the task was submitted, and answered with this id. -/
def Submits (worker : Worker σ) (actions : List (Action σ)) (id : TaskId) (task : Task) : Prop :=
  ∃ earlier later, actions = earlier ++ .command (.submit task) :: later ∧
    ((worker.after earlier).submit task).1 = .ok id

theorem Submits.cons {worker : Worker σ} {action : Action σ} {actions : List (Action σ)} {id : TaskId} {task : Task}
    (submits : (worker.next action).Submits actions id task) : worker.Submits (action :: actions) id task := by
  obtain ⟨earlier, later, rfl, answered⟩ := submits
  exact ⟨action :: earlier, later, rfl, answered⟩

/-- Whoever is registered by an action was submitted by it. -/
theorem submitted_of_new {worker : Worker σ} {action : Action σ} {id : TaskId} {record : TrackedTask}
    (missing : worker.board.registry.get? id = none)
    (found : (worker.next action).board.registry.get? id = some record) :
    action = .command (.submit record.task) ∧ (worker.submit record.task).1 = .ok id := by
  rw [registry_next] at found
  have silent (none : worker.submittedBy action = []) : False := by
    rw [← filterMap_task?_changes] at none
    rw [Board.get?_performAll_of_none none missing] at found
    cases found
  cases action with
  | command command =>
    cases command with
    | submit task =>
      cases alive : worker.alive with
      | false => exact (silent (by simp [submittedBy, submit, alive, Except.isOk, Except.toBool])).elim
      | true =>
        rw [changes, changesFor, if_pos alive, Board.performAll_cons, Board.performAll_nil, Board.perform] at found
        rcases Registry.eq_of_get?_submit found with before | rfl
        · rw [missing] at before
          cases before
        · have isNext : worker.board.registry.nextId = id := Registry.id_of_get? found
          exact ⟨rfl, by rw [submit, if_pos alive, isNext]⟩
    | _ => exact (silent rfl).elim
  | _ => exact (silent rfl).elim

/-- A task that is registered in the course of a run was submitted in it. -/
theorem submits_of_new {worker : Worker σ} {actions : List (Action σ)} {id : TaskId} {record : TrackedTask}
    (missing : worker.board.registry.get? id = none)
    (found : (worker.after actions).board.registry.get? id = some record) :
    worker.Submits actions id record.task := by
  induction actions generalizing worker with
  | nil =>
    rw [after_nil, missing] at found
    cases found
  | cons action actions ih =>
    cases new : (worker.next action).board.registry.get? id with
    | none => exact (ih new found).cons
    | some first =>
      obtain ⟨last, foundLast, advances⟩ := get?_after actions new
      cases found.symm.trans foundLast
      obtain ⟨submits, answered⟩ := submitted_of_new missing new
      rw [← advances.task] at submits answered
      exact ⟨[], actions, by rw [submits]; rfl, answered⟩

/-! ## Free workers -/

omit [Engine σ] in
theorem get?_drain_of_complete {worker : Worker σ} {id : TaskId} {record : TrackedTask}
    (found : worker.board.registry.get? id = some record) (complete : record.isComplete = true) :
    worker.drain.board.registry.get? id = some record := by
  cases alive : worker.alive with
  | false => rwa [drain, alive]
  | true =>
    rw [drain_eq alive]
    obtain ⟨later, foundLater, advances⟩ := Board.get?_performAll worker.pending found
    rwa [advances.frozen complete] at foundLater

/-- A worker whose active task is over begins any other task that is not. -/
theorem begin_of_over {worker : Worker σ} (alive : worker.alive = true) {id other : TaskId}
    {record unfinished : TrackedTask} (isActive : worker.active = some id)
    (found : worker.board.registry.get? id = some record) (complete : record.isComplete = true)
    (foundOther : worker.board.registry.get? other = some unfinished) (incomplete : unfinished.isComplete = false) :
    (worker.begin other).1 = .ok () := by
  have different : some id ≠ some other := by
    rintro same
    cases same
    rw [found] at foundOther
    cases foundOther
    rw [incomplete] at complete
    cases complete
  -- What is still to be applied concerns the active task only.
  have stays : worker.drain.board.registry.get? other = some unfinished := by
    rw [board_drain alive, isActive, Board.get?_applyAll_of_ne _ _ different, foundOther]
  have admitted : worker.drain.admission other = .ok unfinished.task := by
    refine admission_eq_ok_iff.mpr ⟨fun current isCurrent => ?_, unfinished, stays, incomplete, rfl⟩
    rw [activeRecord?, active_drain, isActive, Option.bind_some, get?_drain_of_complete found complete] at isCurrent
    cases isCurrent
    exact complete
  rw [begin_of_ok alive admitted]

/-- While nothing is begun the active task is the same. -/
theorem active_after_of_unbegun {worker : Worker σ} {actions : List (Action σ)} (unbegun : worker.begun actions = []) :
    (worker.after actions).active = worker.active := by
  induction actions generalizing worker with
  | nil => rfl
  | cons action actions ih =>
    obtain ⟨first, later⟩ := List.append_eq_nil_iff.mp unbegun
    rw [begunBy_eq, Option.toList_eq_nil_iff] at first
    rw [after_cons, ih later, active_next, first, Option.none_or]

/-- So it is until another task is begun. -/
theorem begin_after_of_over {worker : Worker σ} {id other : TaskId} {record unfinished : TrackedTask}
    (isActive : worker.active = some id) (found : worker.board.registry.get? id = some record)
    (complete : record.isComplete = true) {actions : List (Action σ)} (unbegun : worker.begun actions = [])
    (alive : (worker.after actions).alive = true)
    (foundOther : (worker.after actions).board.registry.get? other = some unfinished)
    (incomplete : unfinished.isComplete = false) : ((worker.after actions).begin other).1 = .ok () := by
  obtain ⟨later, foundLater, advances⟩ := get?_after actions found
  rw [advances.frozen complete] at foundLater
  exact begin_of_over alive ((active_after_of_unbegun unbegun).trans isActive) foundLater complete foundOther incomplete

/-! ## All or nothing -/

omit [Engine σ] in
/-- What is delivered registers nobody. -/
theorem exists_of_get?_drain {worker : Worker σ} (alive : worker.alive = true) {id : TaskId} {record : TrackedTask}
    (found : worker.drain.board.registry.get? id = some record) :
    ∃ earlier, worker.board.registry.get? id = some earlier ∧ earlier.Advances record := by
  rw [drain_eq alive] at found
  cases registered : worker.board.registry.get? id with
  | none =>
    have silent := Board.filterMap_task?_of_credited worker.credited_pending
    rw [Board.get?_performAll_of_none silent registered] at found
    cases found
  | some earlier =>
    obtain ⟨later, foundLater, advances⟩ := Board.get?_performAll worker.pending registered
    cases found.symm.trans foundLater
    exact ⟨earlier, rfl, advances⟩

/-- A task that may not be begun is turned down, and no more than the delivered events is applied. -/
theorem begin_of_turned_down {worker : Worker σ} (alive : worker.alive = true) {id : TaskId} {error : WorkerError}
    (refused : worker.drain.admission id = .error error) :
    worker.begin id = (.error error,
      { worker with board := worker.board.applyAll worker.queue worker.active, queue := [] }) := by
  rw [begin_of_error alive refused, drain, if_pos alive]

/-- What is left when the engine has refused a task that was admitted: the events that it emitted
before it answered count for the task, and then the task fails. -/
theorem begin_of_refused {worker : Worker σ} (alive : worker.alive = true) {id : TaskId} {task : Task}
    (admitted : worker.drain.admission id = .ok task) {error : EngineError}
    (refused : (Engine.answer worker.engine (.run id task)).error = some error) :
    (worker.begin id).2.board =
      (worker.drain.board.applyAll (Engine.answer worker.engine (.run id task)).events (some id)).fail id
        error.message := by
  rw [begin_of_ok alive admitted, changesOf, refused, Board.performAll_append, Board.applyAll_eq_performAll]
  rfl

/-- A task that the engine has refused is over, and that is announced.  It has ended with the reason
unless the events before the answer had completed it. -/
theorem ended_of_refused {worker : Worker σ} (alive : worker.alive = true) {id : TaskId} {record : TrackedTask}
    (admitted : worker.drain.admission id = .ok record.task) (found : worker.drain.board.registry.get? id = some record)
    (incomplete : record.isComplete = false) {error : EngineError}
    (refused : (Engine.answer worker.engine (.run id record.task)).error = some error) :
    let events := (Engine.answer worker.engine (.run id record.task)).events
    let told := worker.drain.board.applyAll events (some id)
    let board := (worker.begin id).2.board
    ∃ before last, told.registry.get? id = some before ∧
      last = (if before.isComplete then before else before.ended [error.message]) ∧
      board.registry.get? id = some last ∧ last.isComplete = true ∧ board.state = told.state ∧
      board.bus.log.toList = worker.drain.board.bus.log.toList ++ [last.completion] := by
  intro events told board
  have failed : board = told.fail id error.message := begin_of_refused alive admitted refused
  obtain ⟨before, isBefore, -⟩ :=
    Board.get?_performAll (events.map (.apply · (some id))) found
  rw [← Board.applyAll_eq_performAll] at isBefore
  have ends := Board.get?_fail isBefore error.message
  rw [← failed] at ends
  have complete : (if before.isComplete then before else before.ended [error.message]).isComplete = true := by
    split
    · assumption
    · rfl
  refine ⟨before, _, isBefore, rfl, ends, complete, ?_, ?_⟩
  · rw [failed]
    exact told.state_perform (.fail id error.message)
  · have changed : board = worker.drain.board.performAll (worker.changesOf (.run id record.task)) :=
      congrArg (·.2.board) (begin_of_ok alive admitted)
    have announced := Board.log_performAll_of_open worker.drain.board
      (Registry.completion?_of_incomplete found incomplete) (worker.credited_changesOf (.run id record.task))
    rw [← changed, Registry.completion?_of_complete ends complete] at announced
    exact announced

/-- What is announced for a task in a run is the worker's, if nobody else announces it. -/
theorem announces_after {worker : Worker σ} {position : Nat} {id : TaskId}
    (announces : worker.board.Announces position id) {actions : List (Action σ)}
    (unannounced : ∀ action ∈ actions, action.Unannounced id) :
    (worker.after actions).board.Announces position id := by
  induction actions generalizing worker with
  | nil => exact announces
  | cons action actions ih =>
    exact ih (announces_next_of_unannounced announces (unannounced action List.mem_cons_self))
      fun other member => unannounced other (List.mem_cons_of_mem _ member)

omit [Engine σ] in
theorem Action.Unannounced.logged {id : TaskId} {action : Action σ} (unannounced : action.Unannounced id) :
    action.logged.Unannounced id := by
  cases action with
  | publish completion => exact unannounced
  | _ => trivial

/-- In every state of a worker that a run leads to, with an engine that emits and answers what it
likes, a command to begin a task first applies what is delivered.  While the active task is not
complete it is turned down, whatever the task; else it is turned down if the task is unknown, and
if it is complete.  Nothing else happens then.  Otherwise the engine is called once, with the
task as it was submitted, and this is the active task.  If the engine refuses, the task is complete
when the command is answered, with the reason as its last error unless the engine had told before
that it was over; its completion has been announced, once, and the worker shows the state that the
engine has told.  From then on, until another task is begun, any other that is not complete
can be. -/
theorem begin_all_or_nothing (engine : σ) (bus : Bus) (actions : List (Action σ)) (id : TaskId) :
    let start : Worker (Logged σ) := .ofEngine { engine } bus
    let worker := start.after (actions.map .logged)
    let settled := worker.board.applyAll worker.queue worker.active
    let result := worker.begin id
    let turnedDown (error : WorkerError) :=
      result = (.error error, { worker with board := settled, queue := [] })
    worker.alive = true →
    (∀ current record, worker.active = some current → settled.registry.get? current = some record →
      record.isComplete = false → turnedDown (.busyWith current)) ∧
    ((∀ current record, worker.active = some current → settled.registry.get? current = some record →
      record.isComplete = true) →
      (settled.registry.get? id = none → turnedDown (.notFound id)) ∧
      ∀ record, settled.registry.get? id = some record →
        (record.isComplete = true → turnedDown (.finished id)) ∧
        (record.isComplete = false →
          let call := EngineCall.run id record.task
          let reply := Engine.answer worker.engine call
          let told := settled.applyAll reply.events (some id)
          result.1 = .ok () ∧ result.2.active = some id ∧
          start.Submits (actions.map .logged) id record.task ∧
          result.2.engine.calls = worker.engine.calls ++ [(call, reply.error)] ∧
          ∀ error, reply.error = some error →
            ∃ before last, told.registry.get? id = some before ∧
              last = (if before.isComplete then before else before.ended [error.message]) ∧
              result.2.board.registry.get? id = some last ∧ last.isComplete = true ∧
              result.2.state = told.state ∧
              result.2.board.bus.log.toList = settled.bus.log.toList ++ [last.completion] ∧
              ((∀ action ∈ actions, action.Unannounced id) →
                result.2.board.bus.announced bus.log.size id = [last.completion]) ∧
              ∀ more other unfinished, result.2.begun more = [] → (result.2.after more).alive = true →
                (result.2.after more).board.registry.get? other = some unfinished →
                unfinished.isComplete = false → ((result.2.after more).begin other).1 = .ok ())) := by
  intro start worker settled result turnedDown alive
  have settles : worker.drain.board = settled := board_drain alive
  have active : worker.drain.activeRecord? = worker.active.bind settled.registry.get? := by
    rw [activeRecord?, active_drain, settles]
  refine ⟨fun current record isActive found incomplete => ?_, fun free => ⟨fun missing => ?_, fun record found =>
    ⟨fun complete => ?_, fun incomplete => ?_⟩⟩⟩
  · refine begin_of_turned_down alive ?_
    rw [admission_eq, active, isActive, Option.bind_some, found]
    simp [Option.filter, incomplete, Registry.id_of_get? found]
  all_goals
    have none : worker.drain.activeRecord?.filter (!·.isComplete) = none := by
      rw [active]
      refine Option.filter_eq_none_iff.mpr fun record isActive => ?_
      obtain ⟨current, isCurrent, found⟩ := Option.bind_eq_some_iff.mp isActive
      simp [free current record isCurrent found]
  · refine begin_of_turned_down alive ?_
    rw [admission_eq, none, settles, missing]
  · refine begin_of_turned_down alive ?_
    rw [admission_eq, none, settles, found]
    simp [complete]
  · intro call reply told
    rw [← settles] at found
    have admitted : worker.drain.admission id = .ok record.task := by
      rw [admission_eq, none, found]
      simp [incomplete]
    have begun : result = _ := begin_of_ok alive admitted
    refine ⟨congrArg Prod.fst begun, congrArg (·.2.active) begun, ?_, congrArg (·.2.engine.calls) begun,
      fun error refused => ?_⟩
    · obtain ⟨submitted, isSubmitted, advances⟩ := exists_of_get?_drain alive found
      rw [advances.task]
      exact submits_of_new rfl isSubmitted
    · obtain ⟨before, last, isBefore, isLast, ends, complete, state, log⟩ :=
        ended_of_refused alive admitted found incomplete refused
      rw [settles] at isBefore state log
      refine ⟨before, last, isBefore, isLast, ends, complete, state, log, fun unannounced => ?_,
        fun more other unfinished unbegun aliveThen foundOther incomplete =>
          begin_after_of_over (congrArg (·.2.active) begun) ends complete unbegun aliveThen foundOther incomplete⟩
      have opens : Board.Announces bus.log.size id start.board := Board.announces_at_end start.board rfl
      have announces : Board.Announces bus.log.size id result.2.board := by
        rw [show result.2.board = _ from congrArg (·.2.board) begun, drain_eq alive]
        have logged : ∀ action ∈ actions.map Action.logged, action.Unannounced id := by
          simpa using fun action member => (unannounced action member).logged
        exact ((announces_after opens logged).performAll _).performAll _
      rw [announces.once, Registry.completion?_of_complete ends complete]
      rfl

/-- An engine that reports trouble and then refuses the task; what it reported is kept, and it is left
showing as at work. -/
theorem begins_other_after_refusal :
    let refusal : Recording.Script :=
      { events := [.stateChanged .running, .error "no power"], error := some (.unknownPlan "count") }
    let engine : Recording := ({} : Recording).script .run refusal
    let task : Task := { name := "count" }
    let actions : List (Action Recording) := [.command (.submit task), .command (.submit task)]
    let worker := (ofEngine { engine } { capacity := 1 } : Worker (Logged Recording)).after (actions.map .logged)
    let result := worker.begin (.ofNumber 1)
    worker.alive = true ∧ result.1 = .ok () ∧ result.2.state = .running ∧
      (∃ last, result.2.board.registry.get? (.ofNumber 1) = some last ∧
        last.errors = ["no power", "Unknown plan: count"] ∧
        result.2.board.bus.announced 0 (.ofNumber 1) = [last.completion]) ∧
      (result.2.begin (.ofNumber 2)).1 = .ok () := by
  intro refusal engine task actions worker result
  have alive : worker.alive = true := rfl
  let settled := worker.board.applyAll worker.queue worker.active
  let told := settled.applyAll refusal.events (some (.ofNumber 1))
  have first : (settled.registry.get? (.ofNumber 1)).any (!·.isComplete) = true := by decide +kernel
  have reported : (told.registry.get? (.ofNumber 1)).any
      (fun record => !record.isComplete && record.errors == ["no power"]) = true := by decide +kernel
  have aliveThen : (result.2.after []).alive = true := by decide +kernel
  have second : ((result.2.after []).board.registry.get? (.ofNumber 2)).any (!·.isComplete) = true := by
    decide +kernel
  obtain ⟨record, found, unfinished⟩ := (Option.any_eq_true _ _).mp first
  obtain ⟨other, foundOther, unfinishedOther⟩ := (Option.any_eq_true _ _).mp second
  have unannounced : ∀ action ∈ actions, action.Unannounced (.ofNumber 1) := by
    simp [actions, Action.Unannounced]
  obtain ⟨-, free⟩ := begin_all_or_nothing engine { capacity := 1 } actions (.ofNumber 1) alive
  obtain ⟨-, each⟩ := free nofun
  obtain ⟨-, begun⟩ := each record found
  obtain ⟨answered, -, -, -, refused⟩ := begun (by simpa using unfinished)
  obtain ⟨before, last, isBefore, isLast, ends, -, state, -, once, frees⟩ :=
    refused (.unknownPlan "count") rfl
  refine ⟨alive, answered, state, ⟨last, ends, ?_, once unannounced⟩,
    frees [] (.ofNumber 2) other rfl aliveThen foundOther (by simpa using unfinishedOther)⟩
  obtain ⟨held, isHeld, holds⟩ := (Option.any_eq_true _ _).mp reported
  rw [Bool.and_eq_true, beq_iff_eq, Bool.not_eq_true'] at holds
  rw [isLast, show before = held from Option.some.inj (isBefore.symm.trans isHeld), if_neg (by simp [holds.1]),
    TrackedTask.ended, holds.2]
  rfl

end Worker

end PlanService
