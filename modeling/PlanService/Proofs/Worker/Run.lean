import PlanService.Proofs.Board.Change
import PlanService.Worker

/-! # Runs of a worker

A run is any sequence of actions: commands to the worker, moves that the engine makes on its
own, delivered events that the worker takes up one by one, and completions that others
announce on the bus.  The engine is arbitrary.  It answers a call as it likes, and between
calls it goes from any state to any other and emits what it likes.

`handle_eq` says in one equation what a command does to every part of a worker, in terms of
the engine call that the command leads to (`callFor?`) and of the changes that it makes to
the board (`changesFor`).  Nothing later looks into the commands themselves.
-/

namespace PlanService

def EngineCall.task? : EngineCall → Option TaskId
  | run id _ => some id
  | pause _ | resume => none

/-- The reply with another engine in the place of its own. -/
def EngineReply.map {σ τ : Type} (f : σ → τ) (reply : EngineReply σ) : EngineReply τ :=
  { reply with engine := f reply.engine }

namespace Worker

/-- What a worker can be asked. -/
inductive Command where
  | submit (task : Task)
  | get (id : TaskId)
  | begin (id : TaskId)
  | getActive
  | request (target : WorkerState) (defer : Bool)
  | shutdown

/-- What a worker answers. -/
inductive Answer where
  | submitted (result : Except WorkerError TaskId)
  | found (result : Except WorkerError (Option TrackedTask))
  | begun (result : Except WorkerError Unit)
  | decided (result : Except WorkerError Outcome)
  | stopped (result : Except WorkerError Unit)

/-- What can happen to a worker and its engine. -/
inductive Action (σ : Type) where
  | command (command : Command)
  | engine (act : σ → σ × List EngineEvent)
  -- The worker takes up the event that was delivered first.
  | takeUp
  -- Somebody else announces a completion.
  | publish (completion : Completion)

variable {σ : Type}

/-! ## Steps -/

/-- Applies the first delivered event; a worker that was shut down applies none. -/
def takeUp (worker : Worker σ) : Worker σ :=
  match worker.alive, worker.queue with
  | true, event :: later =>
    { worker with board := worker.board.apply event worker.active, queue := later }
  | _, _ => worker

def letEngine (worker : Worker σ) (act : σ → σ × List EngineEvent) : Worker σ :=
  { worker with engine := (act worker.engine).1 }.deliver (act worker.engine).2

def letPublish (worker : Worker σ) (completion : Completion) : Worker σ :=
  { worker with board := { worker.board with bus := worker.board.bus.publish completion } }

/-- To take up an event touches the board and the queue only. -/
theorem takeUp_eq (worker : Worker σ) :
    worker.takeUp = { worker with board := worker.takeUp.board, queue := worker.takeUp.queue } := by
  unfold takeUp
  split <;> rfl

/-- The changes that the delivered events will make. -/
def pending (worker : Worker σ) : List Board.Change :=
  worker.queue.map (.apply · worker.active)

theorem drain_eq {worker : Worker σ} (alive : worker.alive = true) :
    worker.drain = { worker with board := worker.board.performAll worker.pending, queue := [] } := by
  rw [drain, if_pos alive, Board.applyAll_eq_performAll, pending]

theorem board_drain {worker : Worker σ} (alive : worker.alive = true) :
    worker.drain.board = worker.board.applyAll worker.queue worker.active := by
  rw [drain, if_pos alive]

theorem credited_pending (worker : Worker σ) :
    ∀ change ∈ worker.pending, change.CreditedTo worker.active :=
  Board.credited_apply worker.queue worker.active

/-- The engine call that a command leads to. -/
def callFor? (worker : Worker σ) : Command → Option EngineCall
  | .begin id => if worker.alive then (worker.drain.admission id).toOption.map (.run id) else none
  | .request target defer =>
    if worker.alive && worker.drain.state.canRequest target then transitionCall? target defer else none
  | _ => none

/-- Whether a command applies the delivered events first. -/
def Command.drains : Command → Bool
  | begin _ | getActive | request _ _ => true
  | submit _ | get _ | shutdown => false

theorem callFor?_begin_of_error {worker : Worker σ} {id : TaskId} {error : WorkerError}
    (refused : worker.drain.admission id = .error error) : worker.callFor? (.begin id) = none := by
  simp [callFor?, refused, Except.toOption]

theorem callFor?_begin_of_ok {worker : Worker σ} (alive : worker.alive = true) {id : TaskId}
    {task : Task} (admitted : worker.drain.admission id = .ok task) :
    worker.callFor? (.begin id) = some (.run id task) := by
  simp [callFor?, alive, admitted, Except.toOption]

/-- Only two commands lead to a call: to begin a task that is admitted, and to request a
change that is allowed. -/
theorem callFor?_cases {worker : Worker σ} {command : Command} {call : EngineCall}
    (made : worker.callFor? command = some call) :
    worker.alive = true ∧
      ((∃ id task, command = .begin id ∧ worker.drain.admission id = .ok task ∧ call = .run id task) ∨
        ∃ target defer, command = .request target defer ∧
          worker.drain.state.canRequest target = true ∧ transitionCall? target defer = some call ∧
          call.task? = none) := by
  cases command with
  | begin id =>
    simp only [callFor?] at made
    split at made
    next alive =>
      cases admitted : worker.drain.admission id with
      | error error =>
        rw [admitted] at made
        cases made
      | ok task =>
        rw [admitted] at made
        cases made
        exact ⟨alive, .inl ⟨id, task, rfl, admitted, rfl⟩⟩
    next => cases made
  | request target defer =>
    simp only [callFor?] at made
    split at made
    next allowed =>
      obtain ⟨alive, allowed⟩ := Bool.and_eq_true_iff.mp allowed
      refine ⟨alive, .inr ⟨target, defer, rfl, allowed, made, ?_⟩⟩
      cases target <;> cases made <;> rfl
    next => cases made
  | _ => cases made

theorem drains_of_callFor? {worker : Worker σ} {asked : Command} {call : EngineCall}
    (made : worker.callFor? asked = some call) : worker.alive = true ∧ asked.drains = true := by
  obtain ⟨alive, ⟨id, task, rfl, -, -⟩ | ⟨target, defer, rfl, -, -, -⟩⟩ := callFor?_cases made
  · exact ⟨alive, rfl⟩
  · exact ⟨alive, rfl⟩

/-- Which task is admitted: none while the active one is not complete, and no complete one. -/
theorem admission_eq (worker : Worker σ) (id : TaskId) :
    worker.admission id =
      match worker.activeRecord?.filter (!·.isComplete), worker.board.registry.get? id with
      | some active, _ => .error (.busyWith active.id)
      | none, none => .error (.notFound id)
      | none, some record => if record.isComplete then .error (.finished id) else .ok record.task := by
  unfold admission
  cases worker.activeRecord? with
  | none => cases worker.board.registry.get? id <;> rfl
  | some active =>
    cases complete : active.isComplete <;> cases worker.board.registry.get? id <;>
      simp [Option.filter, complete] <;> rfl

/-- A task is admitted when the active one is complete and it is not. -/
theorem admission_eq_ok_iff {worker : Worker σ} {id : TaskId} {task : Task} :
    worker.admission id = .ok task ↔
      (∀ record, worker.activeRecord? = some record → record.isComplete = true) ∧
      ∃ record, worker.board.registry.get? id = some record ∧ record.isComplete = false ∧
        record.task = task := by
  rw [admission_eq]
  cases worker.activeRecord? with
  | none =>
    cases worker.board.registry.get? id with
    | none => simp
    | some record => cases complete : record.isComplete <;> simp [complete]
  | some active =>
    cases done : active.isComplete with
    | false => simp [Option.filter, done]
    | true =>
      cases worker.board.registry.get? id with
      | none => simp [Option.filter, done]
      | some record => cases complete : record.isComplete <;> simp [Option.filter, done, complete]

theorem active_drain (worker : Worker σ) : worker.drain.active = worker.active := by
  unfold drain
  split <;> rfl

/-- A task that is admitted is not complete, and the active one is. -/
theorem free_of_admitted {worker : Worker σ} {id : TaskId} {task : Task}
    (admitted : worker.drain.admission id = .ok task) :
    (∀ current record, worker.active = some current →
      worker.drain.board.registry.get? current = some record → record.isComplete = true) ∧
    ∃ record, worker.drain.board.registry.get? id = some record ∧ record.isComplete = false := by
  obtain ⟨free, record, found, incomplete, -⟩ := admission_eq_ok_iff.mp admitted
  refine ⟨fun current record isActive found => free record ?_, record, found, incomplete⟩
  rw [activeRecord?, active_drain, isActive]
  exact found

variable [Engine σ]

def handle (worker : Worker σ) : Command → Answer × Worker σ
  | .submit task => (.submitted (worker.submit task).1, (worker.submit task).2)
  | .get id => (.found (worker.get id), worker)
  | .begin id => (.begun (worker.begin id).1, (worker.begin id).2)
  | .getActive => (.found worker.getActive.1, worker.getActive.2)
  | .request target defer =>
    (.decided (worker.request target defer).1, (worker.request target defer).2)
  | .shutdown => (.stopped worker.shutdown.1, worker.shutdown.2)

def next (worker : Worker σ) : Action σ → Worker σ
  | .command command => (worker.handle command).2
  | .engine act => worker.letEngine act
  | .takeUp => worker.takeUp
  | .publish completion => worker.letPublish completion

def after (worker : Worker σ) (actions : List (Action σ)) : Worker σ :=
  actions.foldl next worker

@[simp] theorem after_nil (worker : Worker σ) : worker.after [] = worker := rfl

@[simp] theorem after_cons (worker : Worker σ) (action : Action σ) (actions : List (Action σ)) :
    worker.after (action :: actions) = (worker.next action).after actions := rfl

@[simp] theorem after_append (worker : Worker σ) (actions more : List (Action σ)) :
    worker.after (actions ++ more) = (worker.after actions).after more :=
  List.foldl_append

/-! ## What a command does -/

/-- The changes that a call makes: the events emitted before the answer count for the task
that is active then, and a run that is refused fails. -/
def changesOf (worker : Worker σ) (call : EngineCall) : List Board.Change :=
  (Engine.answer worker.engine call).events.map (.apply · (call.task?.or worker.active)) ++
    match call.task?, (Engine.answer worker.engine call).error with
    | some id, some error => [.fail id error.message]
    | _, _ => []

def changesFor (worker : Worker σ) (command : Command) : List Board.Change :=
  if worker.alive then
    match command with
    | .submit task => [.submit task]
    | .begin _ | .getActive | .request _ _ =>
      worker.pending ++ (worker.callFor? command).elim [] worker.changesOf
    | .get _ | .shutdown => []
  else []

/-- A call leaves nothing in the queue of a worker that has drained it before. -/
theorem call_eq {worker : Worker σ} (alive : worker.alive = true) (empty : worker.queue = [])
    (call : EngineCall) :
    worker.call call =
      ((Engine.answer worker.engine call).error,
        { worker with
          engine := (Engine.answer worker.engine call).engine
          board := worker.board.applyAll (Engine.answer worker.engine call).events worker.active
          queue := [] }) := by
  simp [Worker.call, deliver, drain, alive, empty]

theorem begin_of_error {worker : Worker σ} (alive : worker.alive = true) {id : TaskId}
    {error : WorkerError} (refused : worker.drain.admission id = .error error) :
    worker.begin id = (.error error, worker.drain) := by
  simp [Worker.begin, alive, refused]

theorem begin_of_ok {worker : Worker σ} (alive : worker.alive = true) {id : TaskId} {task : Task}
    (admitted : worker.drain.admission id = .ok task) :
    worker.begin id =
      (.ok (),
        { engine := (Engine.answer worker.engine (.run id task)).engine
          board := worker.drain.board.performAll (worker.changesOf (.run id task))
          active := some id
          queue := []
          alive := true }) := by
  have ready : { worker.drain with active := some id }.alive = true := by simp [drain, alive]
  have empty : { worker.drain with active := some id }.queue = [] := by simp [drain, alive]
  simp only [Worker.begin, alive, admitted, if_true, call_eq ready empty]
  simp only [drain_eq alive]
  cases refused : (Engine.answer worker.engine (.run id task)).error with
  | none => simp [changesOf, EngineCall.task?, refused, Board.applyAll_eq_performAll, alive]
  | some error =>
    simp [changesOf, EngineCall.task?, refused, Board.applyAll_eq_performAll, alive, Board.perform]

theorem request_of_no_call {worker : Worker σ} (alive : worker.alive = true) {target : WorkerState}
    {defer : Bool} (rejected : worker.callFor? (.request target defer) = none) :
    worker.request target defer = (.ok ⟨false, worker.drain.state⟩, worker.drain) := by
  simp only [callFor?, alive, Bool.true_and] at rejected
  simp only [request, alive, if_true]
  cases made : transitionCall? target defer with
  | none => rfl
  | some call =>
    simp only [made, ite_eq_right_iff, reduceCtorEq, imp_false, Bool.not_eq_true] at rejected
    simp only [rejected, Bool.false_eq_true, if_false]

/-- A request that is allowed makes one call, whatever the engine answers. -/
theorem request_of_call {worker : Worker σ} (alive : worker.alive = true) {target : WorkerState}
    {defer : Bool} {call : EngineCall} (made : worker.callFor? (.request target defer) = some call) :
    worker.request target defer =
      (.ok ⟨true, (worker.drain.board.performAll (worker.changesOf call)).state⟩,
        { engine := (Engine.answer worker.engine call).engine
          board := worker.drain.board.performAll (worker.changesOf call)
          active := worker.active
          queue := []
          alive := true }) := by
  obtain ⟨-, ⟨_, _, beginning, _⟩ | ⟨_, _, same, allowed, made, runsNone⟩⟩ := callFor?_cases made
  · cases beginning
  · cases same
    have ready : worker.drain.alive = true := by simp [drain, alive]
    have empty : worker.drain.queue = [] := by simp [drain, alive]
    simp only [request, alive, made, allowed, if_true, call_eq ready empty]
    simp [drain_eq alive, changesOf, runsNone, Board.applyAll_eq_performAll, state, alive]

theorem changesFor_of_drains {worker : Worker σ} (alive : worker.alive = true) {command : Command}
    (drains : command.drains = true) :
    worker.changesFor command =
      worker.pending ++ (worker.callFor? command).elim [] worker.changesOf := by
  cases command <;> simp_all [changesFor, Command.drains]

theorem handle_eq (worker : Worker σ) (command : Command) :
    (worker.handle command).2 =
      { engine := (worker.callFor? command).elim worker.engine
          fun call => (Engine.answer worker.engine call).engine
        board := worker.board.performAll (worker.changesFor command)
        active := ((worker.callFor? command).bind (·.task?)).or worker.active
        queue := if worker.alive && command.drains then [] else worker.queue
        alive := worker.alive && !(command matches .shutdown) } := by
  cases alive : worker.alive with
  | false =>
    obtain ⟨engine, board, active, queue, _⟩ := worker
    cases alive
    cases command <;> rfl
  | true =>
    cases command with
    | submit task => simp [handle, submit, alive, callFor?, changesFor, Command.drains, Board.perform]
    | get id =>
      obtain ⟨engine, board, active, queue, _⟩ := worker
      cases alive
      rfl
    | getActive =>
      simp [handle, getActive, alive, callFor?, changesFor, Command.drains, drain_eq alive]
    | shutdown => simp [handle, shutdown, alive, callFor?, changesFor, Command.drains]
    | begin id =>
      rw [changesFor_of_drains alive rfl]
      cases admitted : worker.drain.admission id with
      | error error =>
        simp [handle, begin_of_error alive admitted, callFor?_begin_of_error admitted, Command.drains,
          drain_eq alive, alive]
      | ok task =>
        simp [handle, begin_of_ok alive admitted, callFor?_begin_of_ok alive admitted, Command.drains,
          drain_eq alive, EngineCall.task?]
    | request target defer =>
      rw [changesFor_of_drains alive rfl]
      cases made : worker.callFor? (.request target defer) with
      | none => simp [handle, request_of_no_call alive made, Command.drains, drain_eq alive, alive]
      | some call =>
        obtain ⟨-, ⟨_, _, beginning, _⟩ | ⟨_, _, _, _, _, runsNone⟩⟩ := callFor?_cases made
        · cases beginning
        · simp [handle, request_of_call alive made, Command.drains, drain_eq alive, runsNone]

/-! ## Another engine in its place -/

def mapEngine {τ : Type} (f : σ → τ) (worker : Worker σ) : Worker τ :=
  { worker with engine := f worker.engine }

omit [Engine σ] in
theorem callFor?_mapEngine {τ : Type} (f : σ → τ) (worker : Worker σ) (command : Command) :
    (worker.mapEngine f).callFor? command = worker.callFor? command := by
  obtain ⟨engine, board, active, queue, alive⟩ := worker
  cases alive <;> cases command <;> rfl

omit [Engine σ] in
theorem takeUp_mapEngine {τ : Type} (f : σ → τ) (worker : Worker σ) :
    (worker.mapEngine f).takeUp = worker.takeUp.mapEngine f := by
  obtain ⟨engine, board, active, queue, alive⟩ := worker
  cases alive <;> cases queue <;> rfl

/-- A worker does not tell engines apart that answer alike. -/
theorem handle_mapEngine {τ : Type} [Engine τ] {f : σ → τ} {worker : Worker σ} {command : Command}
    (alike : ∀ call, worker.callFor? command = some call →
      Engine.answer (f worker.engine) call = (Engine.answer worker.engine call).map f) :
    ((worker.mapEngine f).handle command).2 = (worker.handle command).2.mapEngine f := by
  have sameChanges : (worker.mapEngine f).changesFor command = worker.changesFor command := by
    have sameCall : (worker.callFor? command).elim [] (worker.mapEngine f).changesOf =
        (worker.callFor? command).elim [] worker.changesOf := by
      cases made : worker.callFor? command with
      | none => rfl
      | some call => simp [changesOf, mapEngine, alike call made, EngineReply.map]
    simp only [changesFor, callFor?_mapEngine, sameCall]
    rfl
  rw [handle_eq, handle_eq, callFor?_mapEngine, sameChanges]
  cases made : worker.callFor? command with
  | none => rfl
  | some call => simp [mapEngine, alike call made, EngineReply.map]

/-! ## What an action does -/

def callOf? (worker : Worker σ) : Action σ → Option EngineCall
  | .command command => worker.callFor? command
  | .engine _ | .takeUp | .publish _ => none

/-- The changes that an action makes to the board; what others announce is none. -/
def changes (worker : Worker σ) : Action σ → List Board.Change
  | .command command => worker.changesFor command
  | .takeUp => if worker.alive then (worker.queue.take 1).map (.apply · worker.active) else []
  | .engine _ | .publish _ => []

theorem board_takeUp (worker : Worker σ) :
    worker.takeUp.board = worker.board.performAll (worker.changes .takeUp) := by
  obtain ⟨engine, board, active, queue, alive⟩ := worker
  cases alive <;> cases queue <;> rfl

theorem board_next (worker : Worker σ) (action : Action σ) :
    (worker.next action).board =
      match action with
      | .publish completion => { worker.board with bus := worker.board.bus.publish completion }
      | _ => worker.board.performAll (worker.changes action) := by
  cases action with
  | command command => rw [next, handle_eq]; rfl
  | engine act => rfl
  | takeUp => exact worker.board_takeUp
  | publish completion => rfl

theorem registry_next (worker : Worker σ) (action : Action σ) :
    (worker.next action).board.registry = (worker.board.performAll (worker.changes action)).registry := by
  rw [board_next]
  cases action <;> rfl

theorem active_next (worker : Worker σ) (action : Action σ) :
    (worker.next action).active = ((worker.callOf? action).bind (·.task?)).or worker.active := by
  cases action with
  | command command => rw [next, handle_eq]; rfl
  | engine act => rfl
  | takeUp =>
    have same : worker.takeUp.active = worker.active := by rw [takeUp_eq]
    exact same
  | publish completion => rfl

theorem credited_changesOf (worker : Worker σ) (call : EngineCall) :
    ∀ change ∈ worker.changesOf call, change.CreditedTo (call.task?.or worker.active) := by
  intro change member
  rcases List.mem_append.mp member with member | member
  · exact Board.credited_apply _ _ change member
  · split at member
    next id error runs declined =>
      cases List.mem_singleton.mp member
      rw [runs]
      rfl
    next => cases member

/-- An action that leads to a call applies the delivered events and then what the call makes. -/
theorem changes_of_call {worker : Worker σ} {action : Action σ} {call : EngineCall}
    (made : worker.callOf? action = some call) :
    worker.changes action = worker.pending ++ worker.changesOf call := by
  cases action with
  | command command =>
    have called : worker.callFor? command = some call := made
    obtain ⟨alive, drains⟩ := drains_of_callFor? called
    rw [changes, changesFor_of_drains alive drains, called, Option.elim_some]
  | _ => cases made

/-- Any other action submits a task or applies some of the delivered events. -/
theorem changes_of_no_call {worker : Worker σ} {action : Action σ}
    (silent : worker.callOf? action = none) :
    (∃ task, worker.changes action = [.submit task]) ∨
      ∃ events : List EngineEvent, worker.changes action = events.map (.apply · worker.active) := by
  cases action with
  | engine act => exact .inr ⟨[], rfl⟩
  | publish completion => exact .inr ⟨[], rfl⟩
  | takeUp =>
    refine .inr ⟨if worker.alive then worker.queue.take 1 else [], ?_⟩
    rw [changes]
    split <;> rfl
  | command command =>
    have uncalled : worker.callFor? command = none := silent
    cases alive : worker.alive with
    | false => exact .inr ⟨[], by simp [changes, changesFor, alive]⟩
    | true =>
      cases drains : command.drains with
      | true =>
        refine .inr ⟨worker.queue, ?_⟩
        rw [changes, changesFor_of_drains alive drains, uncalled, Option.elim_none, List.append_nil, pending]
      | false =>
        cases command with
        | submit task => exact .inl ⟨task, by simp [changes, changesFor, alive]⟩
        | get id => exact .inr ⟨[], by simp [changes, changesFor]⟩
        | shutdown => exact .inr ⟨[], by simp [changes, changesFor]⟩
        | _ => cases drains

/-- An action submits a task, or changes the record of the active task only, or begins
another task. -/
theorem changes_cases (worker : Worker σ) (action : Action σ) :
    ((worker.callOf? action).bind (·.task?) = none ∧
      ∃ task, worker.changes action = [.submit task]) ∨
    ((worker.callOf? action).bind (·.task?) = none ∧
      ∀ change ∈ worker.changes action, change.CreditedTo worker.active) ∨
    ∃ id task, action = .command (.begin id) ∧ worker.alive = true ∧
      worker.drain.admission id = .ok task ∧
      worker.changes action = worker.pending ++ worker.changesOf (.run id task) := by
  cases made : worker.callOf? action with
  | none =>
    rcases changes_of_no_call made with ⟨task, submits⟩ | ⟨events, applies⟩
    · exact .inl ⟨rfl, task, submits⟩
    · refine .inr (.inl ⟨rfl, fun change member => ?_⟩)
      rw [applies] at member
      exact Board.credited_apply events worker.active change member
  | some call =>
    have changes := changes_of_call made
    cases action with
    | command command =>
      obtain ⟨alive, ⟨id, task, rfl, admitted, rfl⟩ | ⟨target, defer, rfl, -, -, runsNone⟩⟩ :=
        callFor?_cases made
      · exact .inr (.inr ⟨id, task, rfl, alive, admitted, changes⟩)
      · refine .inr (.inl ⟨runsNone, fun change member => ?_⟩)
        rw [changes] at member
        rcases List.mem_append.mp member with member | member
        · exact worker.credited_pending change member
        · have credited := worker.credited_changesOf call change member
          rwa [runsNone, Option.none_or] at credited
    | _ => cases made

/-! ## What was begun -/

/-- The task that an action begins: a command to begin it that is answered with success. -/
def begunBy (worker : Worker σ) : Action σ → List TaskId
  | .command (.begin id) => if (worker.begin id).1.isOk then [id] else []
  | _ => []

def begun (worker : Worker σ) : List (Action σ) → List TaskId
  | [] => []
  | action :: later => worker.begunBy action ++ (worker.next action).begun later

/-- A task is begun by exactly the command that makes the engine run it. -/
theorem begunBy_eq (worker : Worker σ) (action : Action σ) :
    worker.begunBy action = ((worker.callOf? action).bind (·.task?)).toList := by
  cases action with
  | engine act => rfl
  | publish completion => rfl
  | takeUp => rfl
  | command command =>
    simp only [callOf?]
    cases made : worker.callFor? command with
    | some call =>
      obtain ⟨alive, ⟨id, task, rfl, admitted, rfl⟩ | ⟨target, defer, rfl, -, -, runsNone⟩⟩ :=
        callFor?_cases made
      · simp [begunBy, begin_of_ok alive admitted, Except.isOk, Except.toBool, EngineCall.task?]
      · simp [begunBy, runsNone]
    | none =>
      cases command with
      | begin id =>
        cases alive : worker.alive with
        | false => simp [begunBy, Worker.begin, alive, Except.isOk, Except.toBool]
        | true =>
          cases admitted : worker.drain.admission id with
          | error error => simp [begunBy, begin_of_error alive admitted, Except.isOk, Except.toBool]
          | ok task =>
            rw [callFor?_begin_of_ok alive admitted] at made
            cases made
      | _ => rfl

end Worker

end PlanService
