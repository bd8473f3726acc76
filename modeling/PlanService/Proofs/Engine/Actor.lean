import PlanService.Engine.Simulated
import PlanService.Proofs.Worker.History

/-! # The simulated engine at any pace

`Simulated` meets its deadlines when somebody moves its clock, and at once after a call.  An
`Actor` is a simulated engine that lives on its own: it comes up at some time, looks at the
clock when it likes, and may end a step that is due before or after it carries out a call.
It also keeps what it emitted, each event with the task whose run it is about, and what it
answered.

An engine that is called and moved by its clock is an actor at one particular pace
(`exists_moves_settle`, `exists_moves_advance`, `exists_moves_answer`).
-/

namespace PlanService

/-- An event is about this task, or it is the one with which an engine comes up. -/
def Attributed.IsAbout (emission : Attributed) (task : Option TaskId) : Prop :=
  emission = ⟨.stateChanged .idle, none⟩ ∨ ∃ id, emission.task = some id ∧ task = some id

namespace Simulated

/-- What an actor does on its own. -/
inductive Move where
  | comeUp
  -- It looks at the clock.
  | time (now : Millis)
  -- It ends the step in flight if that is due.
  | endStep

/-- A simulated engine that moves on its own. -/
structure Actor where
  engine : Simulated
  up : Bool := false
  -- The moves before the next call is carried out, and those before it is answered.
  before : List Move := []
  later : List Move := []
  -- What it emitted so far, and how it answered.
  emitted : List Attributed := []
  answers : List (Option EngineError) := []

namespace Actor

def task? (actor : Actor) : Option TaskId :=
  actor.engine.run.map (·.id)

theorem task?_of_loaded {actor : Actor} {run : Run} (isLoaded : actor.engine.run = some run) :
    actor.task? = some run.id := by
  rw [task?, isLoaded, Option.map_some]

/-- What the engine has become, with the events of a task. -/
def turn (actor : Actor) (task : Option TaskId) (result : Simulated × List EngineEvent) :
    Actor × List Attributed :=
  ({ actor with engine := result.1 }, result.2.map (⟨·, task⟩))

@[simp] theorem events_turn (actor : Actor) (task : Option TaskId)
    (result : Simulated × List EngineEvent) :
    (actor.turn task result).2.map (·.event) = result.2 := by
  simp [turn, Function.comp_def]

def move (actor : Actor) : Move → Actor × List Attributed
  | .comeUp =>
    if actor.up then (actor, []) else { actor with up := true }.turn none (actor.engine.enter .idle)
  | .time now => ({ actor with engine := { actor.engine with now } }, [])
  | .endStep =>
    match actor.engine.due? actor.engine.now with
    | none => (actor, [])
    | some _ => actor.turn actor.task? actor.engine.finishStep

def moveAll (actor : Actor) : List Move → Actor × List Attributed
  | [] => (actor, [])
  | move :: moves =>
    let (moved, events) := actor.move move
    let (last, more) := moved.moveAll moves
    (last, events ++ more)

/-- Carries out a call; what it emits is about the task to run, or the one that is loaded. -/
def perform (actor : Actor) (call : EngineCall) : Actor × List Attributed :=
  let reply := actor.engine.perform call
  actor.turn (call.task?.or actor.task?) (reply.engine, reply.events)

/-- Answers a call: it has come up then, and has made its moves before and after. -/
def answer (actor : Actor) (call : EngineCall) : (Actor × List Attributed) × Option EngineError :=
  let (ready, early) := actor.moveAll (actor.before ++ [.comeUp])
  let (done, events) := ready.perform call
  let (last, late) := done.moveAll done.later
  (({ last with before := [], later := [] }, early ++ (events ++ late)),
    (ready.engine.perform call).error)

/-- Emits the events of what it did, and keeps them with the answers so far. -/
def emit (actor : Actor) (result : Actor × List Attributed) : Actor × List EngineEvent :=
  ({ result.1 with emitted := actor.emitted ++ result.2, answers := actor.answers },
    result.2.map (·.event))

/-- The actor with the moves that it is going to make around its next call. -/
def schedule (before later : List Move) (actor : Actor) : Actor :=
  { actor with before, later }

instance : Engine Actor where
  answer actor call :=
    let (result, error) := actor.answer call
    { engine := { (actor.emit result).1 with answers := actor.answers ++ [error] }
      events := (actor.emit result).2
      error }

@[simp] theorem moveAll_nil (actor : Actor) : actor.moveAll [] = (actor, []) := rfl

@[simp] theorem moveAll_cons (actor : Actor) (move : Move) (moves : List Move) :
    actor.moveAll (move :: moves) =
      (((actor.move move).1.moveAll moves).1,
        (actor.move move).2 ++ ((actor.move move).1.moveAll moves).2) := rfl

theorem moveAll_append (actor : Actor) (moves more : List Move) :
    actor.moveAll (moves ++ more) =
      (((actor.moveAll moves).1.moveAll more).1,
        (actor.moveAll moves).2 ++ ((actor.moveAll moves).1.moveAll more).2) := by
  induction moves generalizing actor with
  | nil => rfl
  | cons move moves ih => simp [ih]

/-- Before it carries out a call an actor has come up. -/
theorem up_moveAll_comeUp (actor : Actor) (moves : List Move) :
    (actor.moveAll (moves ++ [.comeUp])).1.up = true := by
  rw [moveAll_append]
  simp only [moveAll_cons, moveAll_nil, move]
  split
  · assumption
  · rfl

/-! ## The pace of the clock -/

theorem due?_at_end {engine : Simulated} {limit time : Millis} (isDue : engine.due? limit = some time) :
    ({ engine with now := time } : Simulated).due? time = some time := by
  rw [due?, Option.filter_eq_some_iff] at isDue ⊢
  exact ⟨isDue.1, decide_eq_true (Nat.le_refl time)⟩

/-- To meet the deadlines up to a limit is to look at the clock at each of them. -/
theorem exists_moves_settle (engine : Simulated) (limit : Millis) :
    ∃ moves, ∀ actor : Actor, actor.engine = engine →
      (actor.moveAll moves).1 = { actor with engine := (engine.settle limit).1 } ∧
      (actor.moveAll moves).2.map (·.event) = (engine.settle limit).2 := by
  -- The induction is on the deadlines that are met, one move to each and one to end its step.
  induction engine using Simulated.settle.induct limit with
  | case1 engine notDue =>
    refine ⟨[], fun actor same => ?_⟩
    subst same
    rw [Simulated.settle, notDue]
    exact ⟨rfl, rfl⟩
  | case2 engine time isDue ended ih =>
    obtain ⟨moves, settles⟩ := ih
    refine ⟨.time time :: .endStep :: moves, fun actor same => ?_⟩
    subst same
    have step : ({ actor with engine := { actor.engine with now := time } } : Actor).move .endStep =
        actor.turn actor.task? ended := by
      simp only [move, due?_at_end isDue]
      rfl
    obtain ⟨last, events⟩ := settles { actor with engine := ended.1 } rfl
    rw [Simulated.settle, isDue]
    simp only [moveAll_cons]
    rw [move, step]
    refine ⟨last, ?_⟩
    rw [List.nil_append, List.map_append, events_turn]
    exact congrArg (ended.2 ++ ·) events

/-- To let time pass is to do so, and to look at the clock in the end. -/
theorem exists_moves_advance (engine : Simulated) (span : Millis) :
    ∃ moves, ∀ actor : Actor, actor.engine = engine →
      (actor.moveAll moves).1 = { actor with engine := (engine.advance span).1 } ∧
      (actor.moveAll moves).2.map (·.event) = (engine.advance span).2 := by
  obtain ⟨moves, settles⟩ := exists_moves_settle engine (engine.now + span)
  refine ⟨moves ++ [.time (engine.now + span)], fun actor same => ?_⟩
  obtain ⟨last, events⟩ := settles actor same
  rw [moveAll_append, last]
  exact ⟨rfl, by simpa [move, advance] using events⟩

/-- An actor that has come up answers as the simulated engine does if it goes on until
nothing is due at the time of the call. -/
theorem exists_moves_answer (engine : Simulated) (call : EngineCall) :
    ∃ later, ∀ actor : Actor, actor.engine = engine → actor.up = true →
      actor.before = [] → actor.later = later →
      (Engine.answer actor call).map (·.engine) = Engine.answer engine call ∧
      (Engine.answer actor call).engine.up = true := by
  obtain ⟨later, settles⟩ :=
    exists_moves_settle (engine.perform call).engine (engine.perform call).engine.now
  refine ⟨later, fun actor same up before isLater => ?_⟩
  subst same isLater
  obtain ⟨last, events⟩ := settles (actor.perform call).1 rfl
  have ready : actor.moveAll (actor.before ++ [.comeUp]) = (actor, []) := by
    simp [before, move, up]
  have answered : actor.answer call =
      (({ ((actor.perform call).1.moveAll actor.later).1 with before := [], later := [] },
        (actor.perform call).2 ++ ((actor.perform call).1.moveAll actor.later).2),
        (actor.engine.perform call).error) := by
    rw [answer, ready]
    rfl
  have events : (actor.answer call).1.2.map (·.event) = (actor.engine.answer call).events := by
    rw [answered, List.map_append, events, perform, events_turn]
    rfl
  dsimp only [Engine.answer, emit, EngineReply.map]
  rw [events, answered, last]
  exact ⟨rfl, up⟩

end Actor

end Simulated

end PlanService
