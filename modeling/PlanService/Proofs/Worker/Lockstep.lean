import Mathlib.Data.List.Forall2
import PlanService.Proofs.Engine.Coupling
import PlanService.Proofs.Worker.Admission

/-! # A worker in step with the simulated engine

A worker drives an actor that nothing else drives.  In a run the engine may move, the worker
may take up an event, and when a command calls the engine, the engine may move before it
carries out the call and again before the worker goes on.

`InStep` is what holds whenever no command is half handled: the view that the worker will have
once it has applied what is delivered is coupled with the engine, and every event that was
emitted has been credited, or would be credited now, to the task that it is about.
-/

namespace PlanService

open Simulated (Actor Coupled Follows Move)

/-- An emitted event is applied for the task that it is about. -/
def Attributed.CreditedAs (emission credit : Attributed) : Prop :=
  emission.event = credit.event ∧ emission.IsAbout credit.task

namespace Worker

/-! ## Runs with the simulated engine -/

/-- What happens next to a worker and its simulated engine. -/
inductive Turn where
  -- A command, with the engine's moves around the call that it may lead to.
  | command (asked : Command) (before later : List Move)
  | engine (moves : List Move)
  | takeUp
  | publish (completion : Completion)

/-- The worker whose engine is going to make these moves around its next call. -/
def pacing (worker : Worker Actor) (before later : List Move) : Worker Actor :=
  worker.letEngine fun actor => actor.emit (actor.schedule before later, [])

def Turn.actions : Turn → List (Action Actor)
  | command asked before later =>
    [.engine fun actor => actor.emit (actor.schedule before later, []), .command asked]
  | engine moves => [.engine fun actor => actor.emit (actor.moveAll moves)]
  | takeUp => [.takeUp]
  | publish completion => [.publish completion]

variable {σ : Type} [Engine σ]

/-- The view of a worker that has applied what is delivered. -/
def settledView (worker : Worker σ) : View :=
  (worker.board.applyAll worker.queue worker.active).view worker.active

omit [Engine σ] in
theorem settledView_eq (worker : Worker σ) :
    worker.settledView = (worker.board.view worker.active).observeAll worker.queue :=
  worker.board.view_applyAll worker.queue worker.active

/-- What is seen of the board after a call: the events are taken note of, and a task that
the engine refused to run is over. -/
theorem view_changesOf (worker : Worker σ) (board : Board) (call : EngineCall) :
    (board.performAll (worker.changesOf call)).view (call.task?.or worker.active) =
      let seen := (board.view (call.task?.or worker.active)).observeAll
        (Engine.answer worker.engine call).events
      match call.task?, (Engine.answer worker.engine call).error with
      | some _, some _ => { seen with unfinished := none }
      | _, _ => seen := by
  rw [changesOf, Board.performAll_append, ← Board.applyAll_eq_performAll, ← Board.view_applyAll]
  cases runs : call.task? with
  | none => rfl
  | some id =>
    cases refused : (Engine.answer worker.engine call).error with
    | none => rfl
    | some error => exact Board.view_fail _ id error.message

/-- A worker is in step with its simulated engine after it applied `credits`. -/
structure InStep (worker : Worker Actor) (credits : List Attributed) : Prop where
  coupled : Coupled none worker.engine.up worker.engine.engine worker.settledView
  credited : List.Forall₂ Attributed.CreditedAs worker.engine.emitted (credits ++ worker.waiting)
  neverBusy : some .busy ∉ worker.engine.answers

namespace InStep

variable {worker : Worker Actor} {credits : List Attributed}

theorem start (config : Simulated.Config) (now : Millis) (bus : Bus) :
    InStep (.ofEngine { engine := { config, now } } bus) [] :=
  ⟨.resting rfl rfl rfl, .nil, nofun⟩

/-- What is emitted about the unfinished task is to be credited to the active task, which is
the only one that can be unfinished. -/
theorem creditedAs_of_about {emissions : List Attributed} {board : Board} {active : Option TaskId}
    (about : ∀ emission ∈ emissions, emission.IsAbout (board.view active).unfinished) :
    List.Forall₂ Attributed.CreditedAs emissions ((emissions.map (·.event)).map (⟨·, active⟩)) := by
  rw [List.map_map, List.forall₂_map_right_iff, List.forall₂_same]
  intro emission member
  refine ⟨rfl, ?_⟩
  rcases about emission member with initial | ⟨id, isAbout, unfinished⟩
  · exact .inl initial
  · exact .inr ⟨id, isAbout, (Board.unfinished_view_eq_some_iff.mp unfinished).1⟩

/-- What the engine emits on its own is about the active task, or about none. -/
theorem emit (inStep : InStep worker credits) {result : Actor × List Attributed}
    (follows : Follows none worker.settledView result) :
    InStep (worker.letEngine (·.emit result)) credits where
  coupled := by
    have seen : (worker.letEngine (·.emit result)).settledView =
        worker.settledView.observeAll (result.2.map (·.event)) := by
      rw [settledView_eq, settledView_eq, ← View.observeAll_append]
      rfl
    rw [seen]
    exact follows.coupled
  credited := by
    have delivered : (worker.letEngine (·.emit result)).waiting =
        worker.waiting ++ (result.2.map (·.event)).map (⟨·, worker.active⟩) :=
      List.map_append
    rw [delivered, ← List.append_assoc]
    exact List.rel_append inStep.credited (creditedAs_of_about follows.about)
  neverBusy := inStep.neverBusy

theorem pacing (inStep : InStep worker credits) (before later : List Move) :
    InStep (worker.pacing before later) credits :=
  have quiet : Follows none worker.settledView (worker.engine.schedule before later, []) :=
    .nothing inStep.coupled
  inStep.emit quiet

/-- The task that a worker is about to have run is asked for while the engine rests. -/
theorem called (inStep : InStep worker credits) {asked : Command} {call : EngineCall}
    (made : worker.callFor? asked = some call) :
    Coupled call.task? worker.engine.up worker.engine.engine
      (worker.drain.board.view (call.task?.or worker.active)) := by
  obtain ⟨alive, ⟨id, task, rfl, admitted, rfl⟩ | ⟨target, defer, rfl, -, -, runsNone⟩⟩ :=
    callFor?_cases made
  · obtain ⟨free, found⟩ := free_of_admitted admitted
    cases inStep.coupled with
    | loaded run isLoaded busy shows =>
      -- The task of the loaded plan is active and not complete, so nothing else is admitted.
      have unfinished : worker.settledView.unfinished = some run.id := by rw [shows]
      obtain ⟨isActive, record, found, incomplete⟩ := Board.unfinished_view_eq_some_iff.mp unfinished
      rw [← board_drain alive] at found
      rw [free run.id record isActive found] at incomplete
      cases incomplete
    | resting idle empty shows =>
      have rests : worker.settledView.state = .idle := by rw [shows]
      refine .resting idle empty (View.ext ?_ ?_)
      · rw [board_drain alive]
        exact rests
      · exact Board.unfinished_view_eq_some_iff.mpr ⟨rfl, found⟩
  · rw [runsNone, Option.none_or, board_drain alive]
    exact inStep.coupled

/-- After a call no task is asked for any more: the engine has loaded its plan, or the task
has failed. -/
theorem coupled_call (inStep : InStep worker credits) {asked : Command} {call : EngineCall}
    (made : worker.callFor? asked = some call) :
    Coupled none (Engine.answer worker.engine call).engine.up (Engine.answer worker.engine call).engine.engine
      ((worker.drain.board.performAll (worker.changesOf call)).view (call.task?.or worker.active)) := by
  have answered := (Simulated.Answers.answer (inStep.called made)).follows.coupled
  rw [view_changesOf]
  dsimp only [Engine.answer, Actor.emit]
  cases runs : call.task? with
  | none =>
    rw [runs, ite_self] at answered
    exact answered
  | some id =>
    cases refused : (worker.engine.answer call).2 with
    | none =>
      rw [runs, refused] at answered
      exact answered
    | some error =>
      rw [runs, refused] at answered
      exact answered.refused

theorem credited_call (inStep : InStep worker credits) {asked : Command} {call : EngineCall}
    (made : worker.callFor? asked = some call) :
    List.Forall₂ Attributed.CreditedAs (Engine.answer worker.engine call).engine.emitted
      (credits ++ (worker.pending ++ worker.changesOf call).filterMap (·.credit?)) := by
  have kept : (Engine.answer worker.engine call).engine.emitted =
      worker.engine.emitted ++ (worker.engine.answer call).1.2 := rfl
  have answered := Simulated.Answers.answer (inStep.called made)
  rw [kept, List.filterMap_append, filterMap_credit?_pending, filterMap_credit?_changesOf,
    ← List.append_assoc]
  exact List.rel_append inStep.credited (creditedAs_of_about answered.follows.about)

theorem command (inStep : InStep worker credits) (asked : Command)
    (registered : ∀ id, worker.active = some id →
      ∃ record, worker.board.registry.get? id = some record) :
    InStep (worker.next (.command asked)) (credits ++ worker.creditsOf (.command asked)) := by
  rw [next, handle_eq, creditsOf, changes]
  cases made : worker.callFor? asked with
  | some call =>
    -- The queue is applied first, then what the engine emits before it answers.
    obtain ⟨alive, drains⟩ := drains_of_callFor? made
    rw [changesFor_of_drains alive drains, made, Option.elim_some, alive, drains]
    constructor
    · have called := inStep.coupled_call made
      rw [drain_eq alive] at called
      rw [settledView, Board.performAll_append]
      exact called
    · rw [waiting]
      simpa using inStep.credited_call made
    · have notBusy := (Simulated.Answers.answer (inStep.called made)).notBusy
      have kept : (Engine.answer worker.engine call).engine.answers =
          worker.engine.answers ++ [(worker.engine.answer call).2] := rfl
      rw [Option.elim_some, kept, List.mem_append, List.mem_singleton]
      exact fun busy => busy.elim inStep.neverBusy fun same => notBusy same.symm
  | none =>
    simp only [Option.elim_none, Option.bind_none, Option.none_or]
    cases alive : worker.alive with
    | false =>
      have nothing : worker.changesFor asked = [] := by simp [changesFor, alive]
      rw [nothing, List.filterMap_nil, List.append_nil]
      exact ⟨inStep.coupled, inStep.credited, inStep.neverBusy⟩
    | true =>
      cases drains : asked.drains with
      | true =>
        -- The queue is applied and nothing else happens.
        rw [changesFor_of_drains alive drains, made, Option.elim_none, List.append_nil,
          filterMap_credit?_pending]
        constructor
        · have settled := inStep.coupled
          rw [settledView, Board.applyAll_eq_performAll] at settled
          exact settled
        · simpa [waiting] using inStep.credited
        · exact inStep.neverBusy
      | false =>
        -- No event is applied, and at most a new task is registered.
        have sameView : (worker.board.performAll (worker.changesFor asked)).view worker.active =
            worker.board.view worker.active := by
          cases asked with
          | submit task =>
            simp only [changesFor, alive, if_true]
            exact worker.board.view_submit task registered
          | get id => simp [changesFor]
          | shutdown => simp [changesFor]
          | _ => cases drains
        have noCredit : (worker.changesFor asked).filterMap (·.credit?) = [] := by
          cases asked <;> simp_all [changesFor, Command.drains, Board.Change.credit?]
        rw [noCredit, List.append_nil]
        refine ⟨?_, inStep.credited, inStep.neverBusy⟩
        have settled := inStep.coupled
        rw [settledView_eq] at settled ⊢
        simp only [sameView]
        exact settled

/-- An event that is taken up is credited as it would have been before. -/
theorem takeUp (inStep : InStep worker credits) :
    InStep worker.takeUp (credits ++ worker.creditsOf .takeUp) := by
  have nothing : InStep worker (credits ++ []) := by rwa [List.append_nil]
  obtain ⟨coupled, credited, neverBusy⟩ := inStep
  obtain ⟨engine, board, active, queue, alive⟩ := worker
  cases alive with
  | false => exact nothing
  | true =>
    cases queue with
    | nil => exact nothing
    | cons event later =>
      refine ⟨coupled, ?_, neverBusy⟩
      -- The event goes over from those that wait to those that are applied.
      have same : (credits ++ [⟨event, active⟩]) ++ later.map (⟨·, active⟩) =
          credits ++ (event :: later).map (⟨·, active⟩) := by simp
      exact same ▸ credited

theorem publish (inStep : InStep worker credits) (completion : Completion) :
    InStep (worker.letPublish completion) credits := by
  refine ⟨?_, inStep.credited, inStep.neverBusy⟩
  rw [settledView_eq]
  exact worker.settledView_eq ▸ inStep.coupled

theorem turn (inStep : InStep worker credits) {begun : List TaskId}
    (admission : Admission worker.board.registry worker.active begun) (turn : Turn) :
    InStep (worker.after turn.actions) (credits ++ worker.credits turn.actions) := by
  cases turn with
  | command asked before later =>
    have scheduled : InStep (worker.pacing before later) credits := inStep.pacing before later
    have registered := fun id isActive => admission.registered id (admission.mem_of_active isActive)
    simp only [Turn.actions, after_cons, after_nil, Worker.credits, creditsOf_engine, List.nil_append,
      List.append_nil]
    exact scheduled.command asked registered
  | engine moves =>
    simp only [Turn.actions, after_cons, after_nil, Worker.credits, creditsOf_engine, List.append_nil]
    exact inStep.emit (inStep.coupled.moveAll moves)
  | takeUp =>
    simp only [Turn.actions, after_cons, after_nil, Worker.credits, List.append_nil]
    exact inStep.takeUp
  | publish completion =>
    simp only [Turn.actions, after_cons, after_nil, Worker.credits, creditsOf_publish, List.append_nil]
    exact inStep.publish completion

theorem after (inStep : InStep worker credits) {begun : List TaskId}
    (admission : Admission worker.board.registry worker.active begun) (turns : List Turn) :
    InStep (worker.after (turns.flatMap Turn.actions))
      (credits ++ worker.credits (turns.flatMap Turn.actions)) := by
  induction turns generalizing worker credits begun with
  | nil => simpa [Worker.credits] using inStep
  | cons turn turns ih =>
    rw [List.flatMap_cons, after_append, credits_append, ← List.append_assoc]
    exact ih (inStep.turn admission turn) (admission.after turn.actions)

/-- While no plan is loaded any task that is not complete can be begun. -/
theorem begin_of_unloaded (inStep : InStep worker credits) (alive : worker.alive = true)
    (unloaded : worker.engine.engine.run = none) {id : TaskId} {record : TrackedTask}
    (found : (worker.board.applyAll worker.queue worker.active).registry.get? id = some record)
    (incomplete : record.isComplete = false) : (worker.begin id).1 = .ok () := by
  rw [← board_drain alive] at found
  have admitted : worker.drain.admission id = .ok record.task := by
    refine admission_eq_ok_iff.mpr ⟨fun current isActive => ?_, record, found, incomplete, rfl⟩
    rw [activeRecord?, active_drain, Option.bind_eq_some_iff] at isActive
    obtain ⟨other, isActive, isCurrent⟩ := isActive
    cases isOver : current.isComplete with
    | true => rfl
    | false =>
      rw [board_drain alive] at isCurrent
      have unfinished : worker.settledView.unfinished = some other :=
        Board.unfinished_view_eq_some_iff.mpr ⟨isActive, current, isCurrent, isOver⟩
      rw [inStep.coupled.unfinished_eq, Actor.task?, unloaded] at unfinished
      cases unfinished
  rw [begin_of_ok alive admitted]

end InStep

/-! ## The pace of the clock -/

/-- What happens next to a worker whose engine keeps to its clock. -/
inductive Moment where
  | command (asked : Command)
  | elapse (span : Millis)
  | takeUp
  | publish (completion : Completion)

def Moment.action : Moment → Action Simulated
  | command asked => .command asked
  | elapse span => .engine (·.advance span)
  | takeUp => .takeUp
  | publish completion => .publish completion

theorem pacing_eq (worker : Worker Actor) (before later : List Move) :
    worker.pacing before later = worker.mapEngine (·.schedule before later) := by
  simp [pacing, mapEngine, letEngine, deliver, Actor.emit, Actor.schedule]

/-- Whatever a worker does with an engine that keeps to its clock, it does with an actor. -/
theorem exists_turn (worker : Worker Actor) (up : worker.engine.up = true) (moment : Moment) :
    ∃ turn : Turn, (worker.after turn.actions).mapEngine (·.engine) =
        (worker.mapEngine (·.engine)).next moment.action ∧
      (worker.after turn.actions).engine.up = true := by
  cases moment with
  | publish completion => exact ⟨.publish completion, rfl, up⟩
  | takeUp =>
    have same : worker.takeUp.engine = worker.engine := by rw [takeUp_eq]
    exact ⟨.takeUp, (takeUp_mapEngine _ worker).symm, (congrArg Actor.up same).trans up⟩
  | elapse span =>
    obtain ⟨moves, advances⟩ := Actor.exists_moves_advance worker.engine.engine span
    obtain ⟨last, events⟩ := advances worker.engine rfl
    refine ⟨.engine moves, ?_, ?_⟩
    · simp only [Turn.actions, Moment.action, after_cons, after_nil, next, letEngine, deliver, mapEngine,
        Actor.emit, last, events]
    · simp only [Turn.actions, after_cons, after_nil, next, letEngine, deliver, Actor.emit, last, up]
  | command asked =>
    -- The moves to make around the call are those that the engine's answer meets deadlines by.
    obtain ⟨later, alike⟩ : ∃ later, ∀ call, worker.callFor? asked = some call →
        (Engine.answer (worker.engine.schedule [] later) call).map (·.engine) =
          Engine.answer worker.engine.engine call ∧
        (Engine.answer (worker.engine.schedule [] later) call).engine.up = true := by
      cases made : worker.callFor? asked with
      | none => exact ⟨[], by simp⟩
      | some call =>
        obtain ⟨later, answers⟩ := Actor.exists_moves_answer worker.engine.engine call
        refine ⟨later, fun other same => ?_⟩
        cases same
        exact answers (worker.engine.schedule [] later) rfl up rfl rfl
    have ready := worker.pacing_eq [] later
    have made : (worker.pacing [] later).callFor? asked = worker.callFor? asked := by
      rw [ready]
      exact worker.callFor?_mapEngine _ asked
    refine ⟨.command asked [] later, ?_, ?_⟩
    · have same : ((worker.pacing [] later).mapEngine (·.engine)) = worker.mapEngine (·.engine) := by
        rw [ready]
        rfl
      have simulated : (((worker.pacing [] later).mapEngine (·.engine)).handle asked).2 =
          ((worker.pacing [] later).handle asked).2.mapEngine (·.engine) := by
        refine handle_mapEngine fun call called => ?_
        rw [made] at called
        rw [ready]
        exact (alike call called).1.symm
      rw [same] at simulated
      exact simulated.symm
    · have handled : (worker.after (Turn.command asked [] later).actions).engine =
          ((worker.pacing [] later).callFor? asked).elim (worker.pacing [] later).engine
            fun call => (Engine.answer (worker.pacing [] later).engine call).engine :=
        congrArg Worker.engine (handle_eq (worker.pacing [] later) asked)
      rw [handled, made, ready]
      cases called : worker.callFor? asked with
      | none => exact up
      | some call => exact (alike call called).2

/-- A run with an engine that keeps to its clock is, but for what the actor keeps of it, a run
with an actor. -/
theorem exists_turns (config : Simulated.Config) (now : Millis) (bus : Bus) (moments : List Moment) :
    ∃ turns : List Turn,
      ((ofEngine { engine := { config, now } } bus : Worker Actor).after
        (turns.flatMap Turn.actions)).mapEngine (·.engine) =
      ((ofEngine { config, now } bus : Worker Simulated).deliver Simulated.initialEvents).after
        (moments.map Moment.action) := by
  have run (worker : Worker Actor) (up : worker.engine.up = true) : ∃ turns : List Turn,
      (worker.after (turns.flatMap Turn.actions)).mapEngine (·.engine) =
        (worker.mapEngine (·.engine)).after (moments.map Moment.action) := by
    induction moments generalizing worker with
    | nil => exact ⟨[], rfl⟩
    | cons moment moments ih =>
      obtain ⟨turn, same, up⟩ := worker.exists_turn up moment
      obtain ⟨turns, last⟩ := ih (worker.after turn.actions) up
      refine ⟨turn :: turns, ?_⟩
      rw [List.flatMap_cons, after_append, last, same, List.map_cons, after_cons]
  let start : Worker Actor := ofEngine { engine := { config, now } } bus
  obtain ⟨turns, last⟩ := run (start.after (Turn.engine [.comeUp]).actions) rfl
  refine ⟨.engine [.comeUp] :: turns, ?_⟩
  rw [List.flatMap_cons, after_append]
  exact last

/-! ## Nothing drifts apart -/

/-- In every state that a run of turns leads to, for every configuration: once the delivered
events are applied, the worker's state is the one that the engine's state shows as, and the
active task is not complete exactly while its plan is loaded.  The engine never answered that
it is busy.  Every event that it emitted has been credited, or is delivered and would be
credited now, to the task whose run it is about.  And while no plan is loaded, any task that
is not complete can be begun, however the engine moves around the call. -/
theorem stays_in_step (config : Simulated.Config) (now : Millis) (bus : Bus) (turns : List Turn) :
    let start : Worker Actor := .ofEngine { engine := { config, now } } bus
    let worker := start.after (turns.flatMap Turn.actions)
    let engine := worker.engine.engine
    let settled := worker.board.applyAll worker.queue worker.active
    settled.state = engine.state.workerState ∧
    (∀ id, (∃ run, engine.run = some run ∧ run.id = id) ↔
      worker.active = some id ∧
        ∃ record, settled.registry.get? id = some record ∧ record.isComplete = false) ∧
    some .busy ∉ worker.engine.answers ∧
    List.Forall₂ Attributed.CreditedAs worker.engine.emitted
      (start.credits (turns.flatMap Turn.actions) ++ worker.waiting) ∧
    (worker.alive = true → engine.run = none → ∀ id record,
      settled.registry.get? id = some record → record.isComplete = false →
      ∀ before later, ((worker.pacing before later).begin id).1 = .ok ()) := by
  intro start worker engine settled
  have inStep : InStep worker (start.credits (turns.flatMap Turn.actions)) :=
    (InStep.start config now bus).after .empty turns
  have coupled : Coupled none worker.engine.up engine worker.settledView := inStep.coupled
  refine ⟨coupled.state_eq, fun id => ?_, inStep.neverBusy, inStep.credited, ?_⟩
  · have unfinished : (settled.view worker.active).unfinished = worker.engine.task? :=
      coupled.unfinished_eq.trans (Option.or_none ..)
    rw [← Board.unfinished_view_eq_some_iff, unfinished, Actor.task?, Option.map_eq_some_iff]
  · intro alive unloaded id record found incomplete before later
    have settled : ((worker.pacing before later).board.applyAll (worker.pacing before later).queue
        (worker.pacing before later).active).registry.get? id = some record := by
      rw [pacing_eq]
      exact found
    exact (inStep.pacing before later).begin_of_unloaded alive unloaded settled incomplete

end Worker

end PlanService
