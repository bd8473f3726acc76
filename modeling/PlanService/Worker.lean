import PlanService.Board

/-! # The worker

A worker keeps tasks and runs one at a time on its engine.  Events that the engine has
delivered wait in a queue; every command that depends on the engine's progress applies them
first, and those that the engine emits while it is called are applied before the command is
answered.  After a shutdown the worker answers nothing any more.

The engine is any type with an `Engine` instance.
-/

namespace PlanService

inductive WorkerError where
  | notFound (id : TaskId)
  | conflict (reason : String)
  -- The worker has been shut down.
  | unavailable
  deriving Repr, DecidableEq, Inhabited

namespace WorkerError

def message : WorkerError → String
  | notFound id => s!"Task not found: {id}"
  | conflict reason => reason
  | unavailable => "Channel error"

def busyWith (id : TaskId) : WorkerError :=
  conflict s!"Worker already active with task {id}"

def finished (id : TaskId) : WorkerError :=
  conflict s!"Task {id} has already finished"

end WorkerError

/-- A worker and its engine. -/
structure Worker (σ : Type) where
  engine : σ
  board : Board
  -- The task that was begun last.
  active : Option TaskId := none
  -- Events that are delivered but not applied.
  queue : List EngineEvent := []
  alive : Bool := true
  deriving Repr

namespace Worker

variable {σ : Type}

def ofEngine (engine : σ) (bus : Bus) : Worker σ :=
  { engine, board := { bus } }

def deliver (worker : Worker σ) (events : List EngineEvent) : Worker σ :=
  { worker with queue := worker.queue ++ events }

/-- Applies every delivered event; a worker that was shut down applies none. -/
def drain (worker : Worker σ) : Worker σ :=
  if worker.alive then
    { worker with board := worker.board.applyAll worker.queue worker.active, queue := [] }
  else worker

def state (worker : Worker σ) : WorkerState := worker.board.state

def activeRecord? (worker : Worker σ) : Option TrackedTask :=
  worker.active.bind worker.board.registry.get?

def submit (worker : Worker σ) (task : Task) : Except WorkerError TaskId × Worker σ :=
  if worker.alive then
    (.ok worker.board.registry.nextId,
      { worker with
        board := { worker.board with registry := worker.board.registry.submit task } })
  else (.error .unavailable, worker)

def get (worker : Worker σ) (id : TaskId) : Except WorkerError (Option TrackedTask) :=
  if worker.alive then .ok (worker.board.registry.get? id) else .error .unavailable

/-- The record of the task that was begun last. -/
def getActive (worker : Worker σ) : Except WorkerError (Option TrackedTask) × Worker σ :=
  if worker.alive then
    let worker := worker.drain
    (.ok worker.activeRecord?, worker)
  else (.error .unavailable, worker)

/-- Calls the engine and applies what it emits before it answers. -/
def call [Engine σ] (worker : Worker σ) (call : EngineCall) : Option EngineError × Worker σ :=
  let reply := Engine.answer worker.engine call
  (reply.error, ({ worker with engine := reply.engine }.deliver reply.events).drain)

def admission (worker : Worker σ) (id : TaskId) : Except WorkerError Task := do
  match worker.activeRecord? with
  | some active => if !active.isComplete then throw (.busyWith active.id)
  | none => pure ()
  match worker.board.registry.get? id with
  | none => throw (.notFound id)
  | some record => if record.isComplete then throw (.finished id) else return record.task

/-- Makes a task the active one and runs it.  A task that the engine refuses fails; to
have begun it is no error. -/
def begin [Engine σ] (worker : Worker σ) (id : TaskId) : Except WorkerError Unit × Worker σ :=
  if worker.alive then
    let worker := worker.drain
    match worker.admission id with
    | .error error => (.error error, worker)
    | .ok task =>
      let (refusal, worker) := { worker with active := some id }.call (.run id task)
      match refusal with
      | none => (.ok (), worker)
      | some error => (.ok (), { worker with board := worker.board.fail id error.message })
  else (.error .unavailable, worker)

def transitionCall? (target : WorkerState) (defer : Bool) : Option EngineCall :=
  match target with
  | .paused => some (.pause defer)
  | .running => some .resume
  | .idle => none

/-- Asks for a change of state.  A change that is not allowed is answered as such and
leaves the engine alone; one that is allowed counts as accepted, whatever the engine
answers. -/
def request [Engine σ] (worker : Worker σ) (target : WorkerState) (defer : Bool) :
    Except WorkerError Outcome × Worker σ :=
  if worker.alive then
    let worker := worker.drain
    match transitionCall? target defer with
    | none => (.ok ⟨false, worker.state⟩, worker)
    | some call =>
      if worker.state.canRequest target then
        let (_, worker) := worker.call call
        (.ok ⟨true, worker.state⟩, worker)
      else (.ok ⟨false, worker.state⟩, worker)
  else (.error .unavailable, worker)

def shutdown (worker : Worker σ) : Except WorkerError Unit × Worker σ :=
  if worker.alive then (.ok (), { worker with alive := false }) else (.error .unavailable, worker)

/-! ## Completions -/

/-- A subscription to the completion of a task; a task that is about to be begun has to be
subscribed to before. -/
def subscribe (worker : Worker σ) (id : TaskId) : Subscription :=
  worker.board.bus.subscribe id

/-- Reads a subscription on behalf of somebody who waits for the task.  When entries were
lost the completion may have been among them, so the record is looked at; without a worker
there is no record, and nothing to wait for. -/
def await (worker : Worker σ) (sub : Subscription) : Received × Subscription :=
  match sub.receive worker.board.bus with
  | (.lagged _, sub) =>
    match worker.get sub.id with
    | .error _ => (.closed, sub)
    | .ok record =>
      match record.filter (·.isComplete) with
      | some record => (.completion record.completion, sub)
      | none => sub.receive worker.board.bus
  | received => received

end Worker

end PlanService
