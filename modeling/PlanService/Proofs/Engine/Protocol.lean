import PlanService.Proofs.Engine.Coupling

/-! # The order of an engine's events

The events that a simulated engine emits are a path through a small automaton.  From one state
change to the next only a few edges are open (`EngineEvent.mayPrecede`); three of them are taken
by calls and by nothing else, one for each call that is not declined (`EngineCall.edge`).

The last event always tells the state that the engine is in, so what it meets next starts where
the path ends (`Path.append`).  What carries the induction besides is `Steady`: an engine without
a plan is idle, and one that is paused has no step in flight that could end.
-/

namespace PlanService

/-! ## Paths -/

namespace EngineEvent

/-- Whether one event may come right after another. -/
def mayPrecede : EngineEvent → EngineEvent → Bool
  | stateChanged .idle, stateChanged .running
  | stateChanged .running, stateChanged .pausing
  | stateChanged .running, error _
  | stateChanged .running, stateChanged .idle
  | stateChanged .pausing, stateChanged .paused
  | stateChanged .pausing, error _
  | stateChanged .pausing, stateChanged .idle
  | stateChanged .paused, stateChanged .running
  | error _, stateChanged .idle => true
  | _, _ => false

def isError : EngineEvent → Bool
  | error _ => true
  | stateChanged _ => false

/-- Each event with the one right after it. -/
def edges (events : List EngineEvent) : List (EngineEvent × EngineEvent) :=
  events.zip events.tail

/-- The edge is one that only calls take. -/
def isCalled (edge : EngineEvent × EngineEvent) : Bool :=
  edge = (stateChanged .idle, stateChanged .running) ∨
    edge = (stateChanged .paused, stateChanged .running) ∨
    edge = (stateChanged .running, stateChanged .pausing)

@[simp] theorem edges_cons_cons (first second : EngineEvent) (later : List EngineEvent) :
    edges (first :: second :: later) = (first, second) :: edges (second :: later) := rfl

/-- What comes later starts at the last event before it. -/
theorem edges_append {events : List EngineEvent} {last : EngineEvent}
    (ends : events.getLast? = some last) (more : List EngineEvent) :
    edges (events ++ more) = edges events ++ edges (last :: more) := by
  induction events with
  | nil => cases ends
  | cons event events ih =>
    cases events with
    | nil =>
      cases ends
      rfl
    | cons next events =>
      rw [List.getLast?_cons_cons] at ends
      have step := ih ends
      simp only [List.cons_append, edges_cons_cons] at step ⊢
      rw [step]

theorem mem_edges_split (before : List EngineEvent) (first second : EngineEvent) (after : List EngineEvent) :
    (first, second) ∈ edges (before ++ first :: second :: after) := by
  induction before with
  | nil => exact List.mem_cons_self
  | cons event before ih =>
    cases before with
    | nil => exact List.mem_cons_of_mem _ ih
    | cons next before => exact List.mem_cons_of_mem _ ih

end EngineEvent

/-- The edge that a call takes unless it is declined. -/
def EngineCall.edge : EngineCall → EngineEvent × EngineEvent
  | run _ _ => (.stateChanged .idle, .stateChanged .running)
  | pause _ => (.stateChanged .running, .stateChanged .pausing)
  | resume => (.stateChanged .paused, .stateChanged .running)

open EngineEvent (edges edges_append mem_edges_split isCalled)

/-- Events that follow the open edges from one state to another; `calls` take those edges among
them that only calls take. -/
structure Path (source : EngineState) (events : List EngineEvent) (target : EngineState)
    (calls : List EngineCall) : Prop where
  follows : ∀ edge ∈ edges (.stateChanged source :: events), edge.1.mayPrecede edge.2
  ends : (.stateChanged source :: events).getLast? = some (.stateChanged target)
  called : (edges (.stateChanged source :: events)).filter isCalled = calls.map EngineCall.edge

namespace Path

theorem nil (state : EngineState) : Path state [] state [] :=
  ⟨nofun, rfl, rfl⟩

theorem append {source middle target : EngineState} {events more : List EngineEvent}
    {calls others : List EngineCall} (first : Path source events middle calls)
    (second : Path middle more target others) : Path source (events ++ more) target (calls ++ others) := by
  have split := edges_append first.ends more
  rw [List.cons_append] at split
  refine ⟨?_, ?_, ?_⟩
  · rw [split]
    intro edge member
    rcases List.mem_append.mp member with member | member
    · exact first.follows edge member
    · exact second.follows edge member
  · cases more with
    | nil =>
      cases second.ends
      rw [List.append_nil, first.ends]
    | cons event more =>
      have ends := second.ends
      rw [List.getLast?_cons_cons] at ends
      rw [← List.cons_append, List.getLast?_append, ends, Option.some_or]
  · rw [split, List.filter_append, first.called, second.called, List.map_append]

variable {source target : EngineState} {events : List EngineEvent} {calls : List EngineCall}

/-- An error is followed by the fall back to idle. -/
theorem idle_after_error (path : Path source events target calls) {before after : List EngineEvent}
    {message : String} (split : .stateChanged source :: events = before ++ .error message :: after) :
    after.head? = some (.stateChanged .idle) := by
  cases after with
  | nil =>
    have ends := path.ends
    rw [split, List.getLast?_append] at ends
    cases ends
  | cons next after =>
    have edge := path.follows _ (split ▸ mem_edges_split before (.error message) next after)
    cases next with
    | error other => cases edge
    | stateChanged state => cases state <;> first | rfl | cases edge

/-- A pause is over when the engine runs again. -/
theorem running_after_paused (path : Path source events target calls) {before after : List EngineEvent}
    (split : .stateChanged source :: events = before ++ .stateChanged .paused :: after) :
    after = [] ∨ after.head? = some (.stateChanged .running) := by
  cases after with
  | nil => exact .inl rfl
  | cons next after =>
    have edge := path.follows _ (split ▸ mem_edges_split before (.stateChanged .paused) next after)
    cases next with
    | error other => cases edge
    | stateChanged state => cases state <;> first | exact .inr rfl | cases edge

/-- An engine that does not become idle meets with one error at most. -/
theorem countP_isError_le_one (path : Path source events target calls) {before stretch after : List EngineEvent}
    (split : .stateChanged source :: events = before ++ stretch ++ after)
    (busy : .stateChanged .idle ∉ stretch) : stretch.countP EngineEvent.isError ≤ 1 := by
  induction stretch generalizing before with
  | nil => exact Nat.zero_le 1
  | cons event stretch ih =>
    have splitNext : .stateChanged source :: events = (before ++ [event]) ++ stretch ++ after := by
      rw [split]
      simp
    have later := ih splitNext fun member => busy (List.mem_cons_of_mem _ member)
    cases event with
    | stateChanged state => exact later
    | error message =>
      -- The engine is idle right after it, so the stretch is over.
      have splitHere : .stateChanged source :: events = before ++ .error message :: (stretch ++ after) := by
        rw [split]
        simp
      have idle := path.idle_after_error splitHere
      cases stretch with
      | nil => exact Nat.le_refl 1
      | cons next stretch =>
        cases idle
        exact absurd (List.mem_cons_of_mem _ List.mem_cons_self) busy

end Path

namespace Simulated

/-! ## What an engine meets with -/

/-- What an engine that has come up can meet with. -/
inductive Stimulus where
  | call (call : EngineCall)
  -- It looks at the clock.
  | time (now : Millis)
  -- The step in flight ends, if that is due.
  | endStep

def meet (engine : Simulated) : Stimulus → EngineReply Simulated
  | .call call => engine.perform call
  | .time now => { engine := { engine with now } }
  | .endStep =>
    match engine.due? engine.now with
    | none => { engine }
    | some _ => { engine := engine.finishStep.1, events := engine.finishStep.2 }

def after (engine : Simulated) (stimuli : List Stimulus) : Simulated :=
  stimuli.foldl (fun engine stimulus => (engine.meet stimulus).engine) engine

def emitted (engine : Simulated) : List Stimulus → List EngineEvent
  | [] => []
  | stimulus :: later => (engine.meet stimulus).events ++ (engine.meet stimulus).engine.emitted later

/-- The call that a stimulus is, unless it is declined. -/
def acceptedBy (engine : Simulated) : Stimulus → List EngineCall
  | .call call => if (engine.perform call).error.isNone then [call] else []
  | .time _ | .endStep => []

/-- The calls that were not declined. -/
def accepted (engine : Simulated) : List Stimulus → List EngineCall
  | [] => []
  | stimulus :: later => engine.acceptedBy stimulus ++ (engine.meet stimulus).engine.accepted later

theorem after_append (engine : Simulated) (stimuli more : List Stimulus) :
    engine.after (stimuli ++ more) = (engine.after stimuli).after more :=
  List.foldl_append

theorem emitted_append (engine : Simulated) (stimuli more : List Stimulus) :
    engine.emitted (stimuli ++ more) = engine.emitted stimuli ++ (engine.after stimuli).emitted more := by
  induction stimuli generalizing engine with
  | nil => rfl
  | cons stimulus stimuli ih => rw [List.cons_append, emitted, ih, emitted, List.append_assoc]; rfl

theorem accepted_append (engine : Simulated) (stimuli more : List Stimulus) :
    engine.accepted (stimuli ++ more) = engine.accepted stimuli ++ (engine.after stimuli).accepted more := by
  induction stimuli generalizing engine with
  | nil => rfl
  | cons stimulus stimuli ih => rw [List.cons_append, accepted, ih, accepted, List.append_assoc]; rfl

/-- How an engine stands between two stimuli. -/
inductive Steady (engine : Simulated) : Prop where
  | resting (state : engine.state = .idle) (empty : engine.run = none)
  | working (run : Run) (isLoaded : engine.run = some run)
      (state : engine.state = .running ∨ engine.state = .pausing)
  | halted (run : Run) (isLoaded : engine.run = some run) (state : engine.state = .paused)
      (still : run.deadline = none)

/-- An engine has gone on from one state to another and stands as it should. -/
structure Proceeds (engine : Simulated) (calls : List EngineCall) (reply : EngineReply Simulated) : Prop where
  path : Path engine.state reply.events reply.engine.state calls
  steady : reply.engine.Steady

/-- A step ends its plan with one error at most. -/
theorem ending?_cases {run : Run} {messages : List String} (ends : run.ending? = some messages) :
    messages = [] ∨ ∃ message, messages = [message] := by
  unfold Run.ending? at ends
  split at ends
  · cases ends
    exact .inr ⟨_, rfl⟩
  · split at ends
    · cases ends
      exact .inl rfl
    · cases ends

variable {engine : Simulated}

theorem meet_endStep {time : Millis} (isDue : engine.due? engine.now = some time) :
    engine.meet .endStep = { engine := engine.finishStep.1, events := engine.finishStep.2 } := by
  rw [meet, isDue]

/-- A call that is declined changes nothing and emits nothing. -/
theorem perform_of_declined {call : EngineCall} {error : EngineError}
    (declined : (engine.perform call).error = some error) :
    engine.perform call = { engine, error := some error } := by
  cases call with
  | run id task =>
    rw [perform] at declined ⊢
    by_cases idle : engine.state = .idle
    · rcases start_cases idle id task with
        ⟨error, -, answer⟩ | ⟨steps, failAfter, deadline, -, -, answer⟩ | ⟨failAfter, -, answer⟩ <;>
        rw [answer] at declined ⊢ <;> cases declined
      rfl
    · simp only [start, ne_eq, idle, not_false_eq_true, if_true] at declined ⊢
      rw [declined]
  | pause defer =>
    rw [perform] at declined ⊢
    rcases engine.pause_cases defer with ⟨error, -, answer⟩ | ⟨-, answer⟩ | ⟨-, answer⟩ <;>
      rw [answer] at declined ⊢ <;> cases declined
    rfl
  | resume =>
    rw [perform] at declined ⊢
    rcases engine.resume_cases with ⟨error, -, answer⟩ | ⟨-, deadline, answer⟩ <;>
      rw [answer] at declined ⊢ <;> cases declined
    rfl

namespace Proceeds

theorem declined (steady : engine.Steady) {call : EngineCall} {error : EngineError}
    (declined : (engine.perform call).error = some error) :
    engine.Proceeds (engine.acceptedBy (.call call)) (engine.perform call) := by
  rw [acceptedBy, perform_of_declined declined]
  exact ⟨.nil _, steady⟩

theorem accepted {call : EngineCall} {later : Simulated} {events : List EngineEvent}
    (answer : engine.perform call = { engine := later, events })
    (path : Path engine.state events later.state [call]) (steady : later.Steady) :
    engine.Proceeds (engine.acceptedBy (.call call)) (engine.perform call) := by
  rw [acceptedBy, answer]
  exact ⟨path, steady⟩

end Proceeds

namespace Steady

theorem loaded_of_busy (steady : engine.Steady) (busy : engine.state ≠ .idle) :
    ∃ run, engine.run = some run := by
  cases steady with
  | resting state => exact absurd state busy
  | working run isLoaded => exact ⟨run, isLoaded⟩
  | halted run isLoaded => exact ⟨run, isLoaded⟩

theorem perform (steady : engine.Steady) (call : EngineCall) :
    engine.Proceeds (engine.acceptedBy (.call call)) (engine.perform call) := by
  cases declined : (engine.perform call).error with
  | some error => exact .declined steady declined
  | none =>
    cases call with
    | run id task =>
      by_cases idle : engine.state = .idle
      · rcases start_cases idle id task with
          ⟨error, -, answer⟩ | ⟨steps, failAfter, deadline, -, -, answer⟩ | ⟨failAfter, -, answer⟩
        · rw [Simulated.perform, answer] at declined
          cases declined
        · exact .accepted answer (idle ▸ ⟨by decide, rfl, rfl⟩) (.working _ rfl (.inl rfl))
        · exact .accepted answer (by rw [idle]; exact ⟨by decide, rfl, rfl⟩) (.resting rfl rfl)
      · simp [Simulated.perform, start, idle] at declined
    | pause defer =>
      rcases engine.pause_cases defer with ⟨error, -, answer⟩ | ⟨running, answer⟩ | ⟨running, answer⟩
      · rw [Simulated.perform, answer] at declined
        cases declined
      · obtain ⟨run, isLoaded⟩ := steady.loaded_of_busy (by rw [running]; decide)
        exact .accepted answer (running ▸ ⟨by decide, rfl, rfl⟩) (.working run isLoaded (.inr rfl))
      · obtain ⟨run, isLoaded⟩ := steady.loaded_of_busy (by rw [running]; decide)
        have halted := congrArg (Option.map fun run : Run => { run with deadline := none }) isLoaded
        exact .accepted answer (running ▸ ⟨by decide, rfl, rfl⟩) (.halted _ halted rfl rfl)
    | resume =>
      rcases engine.resume_cases with ⟨error, -, answer⟩ | ⟨paused, deadline, answer⟩
      · rw [Simulated.perform, answer] at declined
        cases declined
      · obtain ⟨run, isLoaded⟩ := steady.loaded_of_busy (by rw [paused]; decide)
        have goesOn := congrArg (Option.map fun run : Run => { run with deadline := some deadline }) isLoaded
        exact .accepted answer (paused ▸ ⟨by decide, rfl, rfl⟩) (.working _ goesOn (.inl rfl))

theorem endStep (steady : engine.Steady) : engine.Proceeds [] (engine.meet .endStep) := by
  cases isDue : engine.due? engine.now with
  | none =>
    rw [Simulated.meet, isDue]
    exact ⟨.nil _, steady⟩
  | some time =>
    obtain ⟨run, isLoaded⟩ := Option.isSome_iff_exists.mp (isSome_run_of_due? isDue)
    have working : engine.state = .running ∨ engine.state = .pausing := by
      cases steady with
      | resting state empty => simp [due?, empty] at isDue
      | working other isOther state => exact state
      | halted other isOther state still => simp [due?, isOther, still] at isDue
    rw [meet_endStep isDue]
    rcases finishStep_cases isLoaded with
      ⟨messages, ends, ended⟩ | ⟨-, pausing, ended⟩ | ⟨-, -, ended⟩ <;> rw [ended]
    · refine ⟨?_, .resting rfl rfl⟩
      rcases ending?_cases ends with rfl | ⟨message, rfl⟩ <;> rcases working with state | state <;>
        rw [state] <;> exact ⟨by simp [edges, EngineEvent.mayPrecede], rfl, rfl⟩
    · refine ⟨?_, .halted _ rfl rfl rfl⟩
      rw [pausing]
      exact ⟨by simp [edges, EngineEvent.mayPrecede], rfl, rfl⟩
    · exact ⟨.nil _, .working _ rfl working⟩

theorem meet (steady : engine.Steady) (stimulus : Stimulus) :
    engine.Proceeds (engine.acceptedBy stimulus) (engine.meet stimulus) := by
  cases stimulus with
  | call call => exact steady.perform call
  | endStep => exact steady.endStep
  | time now =>
    refine ⟨.nil _, ?_⟩
    cases steady with
    | resting state empty => exact .resting state empty
    | working run isLoaded state => exact .working run isLoaded state
    | halted run isLoaded state still => exact .halted run isLoaded state still

/-- What an engine emits, whatever it meets with, is a path from where it stands. -/
theorem path_emitted (steady : engine.Steady) (stimuli : List Stimulus) :
    Path engine.state (engine.emitted stimuli) (engine.after stimuli).state (engine.accepted stimuli) := by
  induction stimuli generalizing engine with
  | nil => exact .nil engine.state
  | cons stimulus later ih =>
    have first := steady.meet stimulus
    exact first.path.append (ih first.steady)

end Steady

/-! ## The clock -/

/-- To meet the deadlines up to a limit is to look at the clock at each of them. -/
theorem exists_stimuli_settle (engine : Simulated) (limit : Millis) :
    ∃ stimuli, engine.settle limit = (engine.after stimuli, engine.emitted stimuli) ∧
      engine.accepted stimuli = [] := by
  induction engine using Simulated.settle.induct limit with
  | case1 engine notDue =>
    refine ⟨[], ?_, rfl⟩
    rw [settle, notDue]
    rfl
  | case2 engine time isDue ended ih =>
    obtain ⟨stimuli, settles, calls⟩ := ih
    have step : (({ engine with now := time } : Simulated).meet .endStep) =
        { engine := ended.1, events := ended.2 } := meet_endStep (Actor.due?_at_end isDue)
    refine ⟨.time time :: .endStep :: stimuli, ?_, ?_⟩
    · have last : engine.after (.time time :: .endStep :: stimuli) = ended.1.after stimuli :=
        congrArg (·.engine.after stimuli) step
      have events : engine.emitted (.time time :: .endStep :: stimuli) = ended.2 ++ ended.1.emitted stimuli :=
        congrArg (fun reply => reply.events ++ reply.engine.emitted stimuli) step
      rw [settle, isDue, last, events]
      exact congrArg (fun result => (result.1, ended.2 ++ result.2)) settles
    · have none : engine.accepted (.time time :: .endStep :: stimuli) = ended.1.accepted stimuli :=
        congrArg (·.engine.accepted stimuli) step
      rw [none, calls]

/-- To let time pass is to meet with some stimuli, none of which is a call. -/
theorem exists_stimuli_advance (engine : Simulated) (span : Millis) :
    ∃ stimuli, engine.advance span = (engine.after stimuli, engine.emitted stimuli) ∧
      engine.accepted stimuli = [] := by
  obtain ⟨stimuli, settles, calls⟩ := exists_stimuli_settle engine (engine.now + span)
  refine ⟨stimuli ++ [.time (engine.now + span)], ?_, ?_⟩
  · rw [advance, settles, after_append, emitted_append]
    exact congrArg (Prod.mk _) (List.append_nil _).symm
  · rw [accepted_append, calls]
    rfl

/-- To answer a call is to meet with it, and then with the deadlines that are due at once. -/
theorem exists_stimuli_answer (engine : Simulated) (call : EngineCall) :
    ∃ stimuli, (engine.answer call).engine = engine.after (.call call :: stimuli) ∧
      (engine.answer call).events = engine.emitted (.call call :: stimuli) ∧
      engine.accepted (.call call :: stimuli) = engine.acceptedBy (.call call) := by
  obtain ⟨stimuli, settles, calls⟩ :=
    exists_stimuli_settle (engine.perform call).engine (engine.perform call).engine.now
  refine ⟨stimuli, ?_, ?_, ?_⟩
  · rw [answer, settles]
    rfl
  · rw [answer, settles]
    rfl
  · exact (congrArg (engine.acceptedBy (.call call) ++ ·) calls).trans (List.append_nil _)

/-- A simulated engine that comes up idle, whatever its settings are, emits idle first.  From then
on, whatever it is called to do and whichever steps end in between, each event follows the one
before it along an open edge, and the last one tells the state that the engine is in.  The edges
from idle to running, from running to pausing and from paused to running are taken by the calls to
run, to pause and to resume that it accepts: one edge for each of them, in the same order, and no
other.  So an error is followed at once by the fall back to idle, there is at most one while the
engine is not idle, and after a pause the engine runs again before anything else.  A call that it
declines emits nothing and leaves all of the engine as it was. -/
theorem events_keep_order (config : Config) (now : Millis) (stimuli : List Stimulus) :
    let start : Simulated := { config, now }
    let engine := start.after stimuli
    let events := initialEvents ++ start.emitted stimuli
    events.head? = some (.stateChanged .idle) ∧
    (∀ edge ∈ edges events, edge.1.mayPrecede edge.2) ∧
    events.getLast? = some (.stateChanged engine.state) ∧
    (edges events).filter isCalled = (start.accepted stimuli).map EngineCall.edge ∧
    (∀ before message after, events = before ++ .error message :: after →
      after.head? = some (.stateChanged .idle)) ∧
    (∀ before stretch after, events = before ++ stretch ++ after → .stateChanged .idle ∉ stretch →
      stretch.countP EngineEvent.isError ≤ 1) ∧
    (∀ before after, events = before ++ .stateChanged .paused :: after →
      after = [] ∨ after.head? = some (.stateChanged .running)) ∧
    ∀ call error, (engine.perform call).error = some error →
      engine.perform call = { engine, error := some error } := by
  intro start engine events
  have steady : start.Steady := .resting rfl rfl
  have path : Path .idle (start.emitted stimuli) engine.state (start.accepted stimuli) :=
    steady.path_emitted stimuli
  exact ⟨rfl, path.follows, path.ends, path.called,
    fun before message after split => path.idle_after_error split,
    fun before stretch after split busy => path.countP_isError_le_one split busy,
    fun before after split => path.running_after_paused split,
    fun call error declined => perform_of_declined declined⟩

end Simulated

end PlanService
