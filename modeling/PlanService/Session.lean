import PlanService.Api.Service
import PlanService.Engine.Clock

/-! # Sessions

A worker in service: with the catalog it offers and the clock that it and its engine live
by.  After each step of a session the events that have been delivered are applied.
-/

namespace PlanService

/-- A worker, its clock and its catalog. -/
structure Session (σ : Type) where
  worker : Worker σ
  catalog : Catalog := .builtin
  clock : Millis := 0
  deriving Repr

/-- What a reader of the bus is told that does not wait for ever. -/
inductive ReceivedInTime where
  | received (received : Received)
  | timeout
  deriving Repr, DecidableEq

namespace Session

variable {σ : Type}

/-- A session with a new worker; `events` are those with which the engine comes up. -/
def start (engine : σ) (events : List EngineEvent) (bus : Bus) (catalog : Catalog) :
    Session σ where
  worker := ((Worker.ofEngine engine bus).deliver events).drain
  catalog

def settle (session : Session σ) : Session σ :=
  { session with worker := session.worker.drain }

def emit (session : Session σ) (events : List EngineEvent) : Session σ :=
  { session with worker := session.worker.deliver events }

def command {α : Type} (session : Session σ) (run : Worker σ → α × Worker σ) : α × Session σ :=
  let (a, worker) := run session.worker
  (a, { session with worker })

/-- Begins tasks one after another, without a pause between the commands. -/
def beginAll [Engine σ] (session : Session σ) :
    List TaskId → List (Except WorkerError Unit) × Session σ
  | [] => ([], session)
  | id :: ids =>
    let (result, session) := session.command (·.begin id)
    let (results, session) := session.beginAll ids
    (result :: results, session)

def publish (session : Session σ) (completion : Completion) : Session σ :=
  let worker := session.worker
  { session with
    worker :=
      { worker with board := { worker.board with bus := worker.board.bus.publish completion } } }

def request [Engine σ] (session : Session σ) (request : Http.Request) :
    Api.Answer × Session σ :=
  session.command (Api.serve session.catalog session.clock · request)

def elapse [Clocked σ] (session : Session σ) (span : Millis) : Session σ :=
  let (engine, events) := Clocked.elapse session.worker.engine span
  { session with
    worker := ({ session.worker with engine }.deliver events).drain
    clock := session.clock + span }

def receive (session : Session σ) (sub : Subscription) : Received × Subscription :=
  sub.receive session.worker.board.bus

/-- Reads a subscription, letting time pass until there is something or `left` is over; at
most `deadlines` deadlines are met on the way.  What is due at the very end comes too late. -/
def receiveFor [Clocked σ] (sub : Subscription) :
    Nat → Session σ → Millis → ReceivedInTime × Subscription × Session σ
  | deadlines, session, left =>
    match session.receive sub with
    | (.pending, sub) =>
      match deadlines, (Clocked.untilDeadline? session.worker.engine).filter (· < left) with
      | more + 1, some span => receiveFor sub more (session.elapse span) (left - span)
      | _, _ => (.timeout, sub, session.elapse left)
    | (received, sub) => (.received received, sub, session)

def receiveWithin [Clocked σ] (session : Session σ) (sub : Subscription) (limit : Millis) :
    ReceivedInTime × Subscription × Session σ :=
  receiveFor sub (Clocked.deadlines session.worker.engine) session limit

end Session

end PlanService
