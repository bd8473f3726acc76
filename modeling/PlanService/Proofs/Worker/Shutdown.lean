import PlanService.Proofs.Engine.Logged

/-! # A worker that is shut down

Commands wait in line for a worker, and so does the command to stop.  In each of its turns the worker takes
up the event that was delivered first, and only if there is none the command that was sent first; when it
takes the one to stop, all that wait behind it are turned away, and so is whoever comes later.

Two runs are compared, with and without one such command.  Until the worker takes it they are the same but
for the command itself (`Cut.pending`), which has the ones sent before it in front and all others behind.
From then on the run that is cut stays where it is (`Cut.stopped`).
-/

namespace PlanService

namespace Worker

/-- Whether somebody waits for an answer to the command; to stop, the worker has only to be told. -/
def Command.isRequest : Command → Bool
  | shutdown => false
  | _ => true

/-- The answer of a worker that was shut down. -/
def Command.refused : Command → Answer
  | submit _ => .submitted (.error .unavailable)
  | get _ | getActive => .found (.error .unavailable)
  | begin _ => .begun (.error .unavailable)
  | request _ _ => .decided (.error .unavailable)
  | shutdown => .stopped (.error .unavailable)

def requests (commands : List Command) : List Command :=
  commands.filter (·.isRequest)

def refusals (commands : List Command) : List Answer :=
  (requests commands).map (·.refused)

theorem requests_append (commands more : List Command) :
    requests (commands ++ more) = requests commands ++ requests more :=
  List.filter_append ..

theorem refusals_append (commands more : List Command) :
    refusals (commands ++ more) = refusals commands ++ refusals more := by
  rw [refusals, requests_append, List.map_append, refusals, refusals]

theorem length_refusals (commands : List Command) : (refusals commands).length = (requests commands).length :=
  List.length_map ..

theorem refusals_shutdown (commands : List Command) : refusals (.shutdown :: commands) = refusals commands := rfl

variable {σ : Type} [Engine σ] {worker : Worker σ} {command : Command}

theorem alive_handle (isRequest : command.isRequest = true) :
    (worker.handle command).2.alive = worker.alive := by
  rw [handle_eq]
  cases command with
  | shutdown => cases isRequest
  | _ => exact Bool.and_true _

theorem queue_handle_of_empty (empty : worker.queue = []) : (worker.handle command).2.queue = [] := by
  rw [handle_eq, empty]
  exact ite_self _

omit [Engine σ] in
theorem alive_takeUp (worker : Worker σ) : worker.takeUp.alive = worker.alive := by
  rw [takeUp_eq]

omit [Engine σ] in
theorem length_queue_takeUp (alive : worker.alive = true) (queued : worker.queue ≠ []) :
    worker.takeUp.queue.length + 1 = worker.queue.length := by
  obtain ⟨engine, board, active, queue, _⟩ := worker
  cases alive
  cases queue with
  | nil => exact absurd rfl queued
  | cons event later => rfl

end Worker

open Worker (Command Answer requests refusals)

/-- A worker with the commands that wait for it, and with what it has answered, all in the order in which
the commands were sent. -/
structure Mailbox (σ : Type) where
  worker : Worker σ
  waiting : List Command := []
  answers : List Answer := []

namespace Mailbox

/-- What can happen. -/
inductive Step (σ : Type) where
  | send (command : Command)
  | engine (act : σ → σ × List EngineEvent)
  -- The worker takes up the next event, or takes the next command if there is none.
  | turn
  -- Somebody else announces a completion.
  | publish (completion : Completion)

variable {σ : Type}

def Step.sent? : Step σ → Option Command
  | send command => some command
  | engine _ | turn | publish _ => none

def Step.published? : Step σ → Option Completion
  | publish completion => some completion
  | send _ | engine _ | turn => none

/-- The commands that are sent, in order. -/
def sent (steps : List (Step σ)) : List Command :=
  steps.filterMap (·.sent?)

theorem sent_cons (step : Step σ) (steps : List (Step σ)) :
    sent (step :: steps) = step.sent?.toList ++ sent steps := by
  cases isSent : step.sent? <;> simp [sent, isSent]

/-- The completions that others announce, in order. -/
def published (steps : List (Step σ)) : List Completion :=
  steps.filterMap (·.published?)

/-- The same step with an engine that keeps a log. -/
def Step.logged : Step σ → Step (Logged σ)
  | send command => .send command
  | engine act => .engine (Logged.move act)
  | turn => .turn
  | publish completion => .publish completion

theorem sent_logged (steps : List (Step σ)) : sent (steps.map .logged) = sent steps := by
  induction steps with
  | nil => rfl
  | cons step steps ih =>
    rw [List.map_cons, sent_cons, sent_cons, ih]
    cases step <;> rfl

/-- A command waits for a worker that is there, and is turned away otherwise. -/
def send (mailbox : Mailbox σ) (command : Command) : Mailbox σ :=
  if mailbox.worker.alive then { mailbox with waiting := mailbox.waiting ++ [command] }
  else { mailbox with answers := mailbox.answers ++ refusals [command] }

variable [Engine σ]

/-- Takes the command that was sent first.  To stop is to turn away all others. -/
def take (mailbox : Mailbox σ) : Mailbox σ :=
  match mailbox.waiting with
  | [] => mailbox
  | .shutdown :: later =>
    { worker := mailbox.worker.shutdown.2, answers := mailbox.answers ++ refusals later }
  | command :: later =>
    { worker := (mailbox.worker.handle command).2
      waiting := later
      answers := mailbox.answers ++ [(mailbox.worker.handle command).1] }

def turn (mailbox : Mailbox σ) : Mailbox σ :=
  if !mailbox.worker.alive then mailbox
  else if mailbox.worker.queue.isEmpty then mailbox.take
  else { mailbox with worker := mailbox.worker.takeUp }

def next (mailbox : Mailbox σ) : Step σ → Mailbox σ
  | .send command => mailbox.send command
  | .engine act => { mailbox with worker := mailbox.worker.letEngine act }
  | .turn => mailbox.turn
  | .publish completion => { mailbox with worker := mailbox.worker.letPublish completion }

def after (mailbox : Mailbox σ) (steps : List (Step σ)) : Mailbox σ :=
  steps.foldl next mailbox

@[simp] theorem after_nil (mailbox : Mailbox σ) : mailbox.after [] = mailbox := rfl

@[simp] theorem after_cons (mailbox : Mailbox σ) (step : Step σ) (steps : List (Step σ)) :
    mailbox.after (step :: steps) = (mailbox.next step).after steps := rfl

@[simp] theorem after_append (mailbox : Mailbox σ) (steps more : List (Step σ)) :
    mailbox.after (steps ++ more) = (mailbox.after steps).after more :=
  List.foldl_append

/-! ## What a turn does -/

variable {mailbox : Mailbox σ}

theorem turn_of_gone (gone : mailbox.worker.alive = false) : mailbox.turn = mailbox := by
  simp [turn, gone]

theorem turn_of_event (alive : mailbox.worker.alive = true) (queued : mailbox.worker.queue ≠ []) :
    mailbox.turn = { mailbox with worker := mailbox.worker.takeUp } := by
  simp [turn, alive, queued]

theorem turn_of_no_event (alive : mailbox.worker.alive = true) (empty : mailbox.worker.queue = []) :
    mailbox.turn = mailbox.take := by
  simp [turn, alive, empty]

theorem take_of_nil (none : mailbox.waiting = []) : mailbox.take = mailbox := by
  simp [take, none]

theorem take_of_shutdown {later : List Command} (first : mailbox.waiting = .shutdown :: later) :
    mailbox.take =
      { worker := mailbox.worker.shutdown.2, answers := mailbox.answers ++ refusals later } := by
  simp [take, first]

theorem take_of_request {command : Command} {later : List Command} (first : mailbox.waiting = command :: later)
    (isRequest : command.isRequest = true) :
    mailbox.take =
      { worker := (mailbox.worker.handle command).2
        waiting := later
        answers := mailbox.answers ++ [(mailbox.worker.handle command).1] } := by
  cases command with
  | shutdown => cases isRequest
  | _ => simp [take, first]

/-- A turn stops the worker when there is no event and the command to stop is the first. -/
theorem turn_cases (alive : mailbox.worker.alive = true) :
    (mailbox.worker.queue ≠ [] ∧ mailbox.turn = { mailbox with worker := mailbox.worker.takeUp }) ∨
    (mailbox.worker.queue = [] ∧ mailbox.waiting = [] ∧ mailbox.turn = mailbox) ∨
    (∃ later, mailbox.worker.queue = [] ∧ mailbox.waiting = .shutdown :: later ∧
      mailbox.turn =
        { worker := { mailbox.worker with alive := false }
          answers := mailbox.answers ++ refusals later }) ∨
    ∃ command later, mailbox.worker.queue = [] ∧ mailbox.waiting = command :: later ∧
      command.isRequest = true ∧
      mailbox.turn =
        { worker := (mailbox.worker.handle command).2
          waiting := later
          answers := mailbox.answers ++ [(mailbox.worker.handle command).1] } := by
  by_cases queued : mailbox.worker.queue = []
  · have takes := turn_of_no_event alive queued
    cases first : mailbox.waiting with
    | nil => exact .inr (.inl ⟨queued, rfl, takes.trans (take_of_nil first)⟩)
    | cons command later =>
      cases isRequest : command.isRequest with
      | true =>
        have taken := takes.trans (take_of_request first isRequest)
        exact .inr (.inr (.inr ⟨command, later, queued, rfl, isRequest, taken⟩))
      | false =>
        have stops : command = .shutdown := by cases command <;> first | rfl | cases isRequest
        subst stops
        refine .inr (.inr (.inl ⟨later, queued, rfl, ?_⟩))
        rw [takes, take_of_shutdown first, Worker.shutdown, if_pos alive]
  · exact .inl ⟨queued, turn_of_event alive queued⟩

/-- Only a turn stops a worker, and that changes nothing else of it. -/
theorem turn_of_stopped (alive : mailbox.worker.alive = true) {step : Step σ}
    (gone : (mailbox.next step).worker.alive = false) :
    step = .turn ∧ mailbox.worker.queue = [] ∧
      (mailbox.next step).worker = { mailbox.worker with alive := false } := by
  cases step with
  | send command =>
    rw [next, send, if_pos alive] at gone
    cases alive.symm.trans gone
  | engine act => cases alive.symm.trans gone
  | publish completion => cases alive.symm.trans gone
  | turn =>
    rw [next] at gone ⊢
    rcases turn_cases alive with
      ⟨-, turned⟩ | ⟨-, -, turned⟩ | ⟨later, empty, -, turned⟩ | ⟨command, later, -, -, isRequest, turned⟩ <;>
      rw [turned] at gone ⊢
    · cases (alive.symm.trans (mailbox.worker.alive_takeUp.symm.trans gone))
    · cases alive.symm.trans gone
    · exact ⟨rfl, empty, rfl⟩
    · cases alive.symm.trans ((Worker.alive_handle isRequest).symm.trans gone)

/-! ## What is answered -/

/-- What was answered stays so. -/
theorem answers_prefix_next (mailbox : Mailbox σ) (step : Step σ) :
    mailbox.answers <+: (mailbox.next step).answers := by
  cases step with
  | send command =>
    rw [next, send]
    split
    · exact List.prefix_rfl
    · exact List.prefix_append ..
  | engine act => exact List.prefix_rfl
  | publish completion => exact List.prefix_rfl
  | turn =>
    rw [next]
    cases alive : mailbox.worker.alive with
    | false =>
      rewrite [turn_of_gone alive]
      exact List.prefix_rfl
    | true =>
      rcases turn_cases alive with
        ⟨-, turned⟩ | ⟨-, -, turned⟩ | ⟨later, -, -, turned⟩ | ⟨command, later, -, -, -, turned⟩ <;>
        rewrite [turned]
      · exact List.prefix_rfl
      · exact List.prefix_rfl
      · exact List.prefix_append ..
      · exact List.prefix_append ..

/-- Everything that was sent is answered or waits, and nothing waits for a worker that is gone. -/
structure Accounts (mailbox : Mailbox σ) (commands : List Command) : Prop where
  count : mailbox.answers.length + (requests mailbox.waiting).length = (requests commands).length
  gone : mailbox.worker.alive = false → mailbox.waiting = []

namespace Accounts

variable {commands : List Command}

theorem next (accounts : mailbox.Accounts commands) (step : Step σ) :
    (mailbox.next step).Accounts (commands ++ step.sent?.toList) := by
  obtain ⟨count, gone⟩ := accounts
  cases step with
  | engine act => exact ⟨by simpa [Step.sent?, Mailbox.next] using count, gone⟩
  | publish completion => exact ⟨by simpa [Step.sent?, Mailbox.next] using count, gone⟩
  | send command =>
    simp only [Mailbox.next, send, Step.sent?, Option.toList_some]
    split
    next alive =>
      refine ⟨?_, fun isGone => ?_⟩
      · simp only [Worker.requests_append, List.length_append] at count ⊢
        omega
      · cases alive.symm.trans isGone
    next isGone =>
      refine ⟨?_, gone⟩
      simp only [Worker.requests_append, List.length_append, Worker.length_refusals] at count ⊢
      omega
  | turn =>
    simp only [Mailbox.next, Step.sent?, Option.toList_none, List.append_nil]
    cases alive : mailbox.worker.alive with
    | false =>
      rw [turn_of_gone alive]
      exact ⟨count, gone⟩
    | true =>
      rcases turn_cases alive with
        ⟨-, turned⟩ | ⟨-, -, turned⟩ | ⟨later, -, first, turned⟩ | ⟨command, later, -, first, isRequest, turned⟩ <;>
        rw [turned]
      · exact ⟨count, fun isGone => by cases alive.symm.trans (mailbox.worker.alive_takeUp.symm.trans isGone)⟩
      · exact ⟨count, gone⟩
      · refine ⟨?_, fun _ => rfl⟩
        rw [first] at count
        simpa [Worker.length_refusals, requests, Command.isRequest] using count
      · refine ⟨?_, fun isGone => ?_⟩
        · rw [first] at count
          simp only [requests, List.filter_cons, isRequest, if_true, List.length_cons, List.length_append] at count ⊢
          simp only [List.length_nil]
          omega
        · cases alive.symm.trans ((Worker.alive_handle isRequest).symm.trans isGone)

theorem after (accounts : mailbox.Accounts commands) (steps : List (Step σ)) :
    (mailbox.after steps).Accounts (commands ++ sent steps) := by
  induction steps generalizing mailbox commands with
  | nil => simpa [sent] using accounts
  | cons step steps ih =>
    have later := ih (accounts.next step)
    rwa [List.append_assoc, ← sent_cons] at later

end Accounts

/-! ## Two runs -/

/-- How a run, and the one that is cut by a command to stop after a number of requests, compare when
others were sent later. -/
inductive Cut (earlier : Nat) (later : List Command) (whole cut : Mailbox σ) : Prop where
  -- The command is not taken yet.
  | pending (ahead : List Command) (alive : whole.worker.alive = true) (sameWorker : cut.worker = whole.worker)
      (sameAnswers : cut.answers = whole.answers) (isWaiting : whole.waiting = ahead ++ later)
      (isCut : cut.waiting = ahead ++ .shutdown :: later)
      (counts : whole.answers.length + (requests ahead).length = earlier)
  | stopped (gone : cut.worker.alive = false) (known : earlier ≤ whole.answers.length)
      (told : cut.answers = whole.answers.take earlier ++ refusals later)

namespace Cut

variable {earlier : Nat} {later : List Command} {whole cut : Mailbox σ}

/-- At first the command waits behind all others. -/
theorem start (accounts : mailbox.Accounts later) :
    Cut (requests later).length [] mailbox (mailbox.next (.send .shutdown)) := by
  rw [next, send]
  cases alive : mailbox.worker.alive with
  | true => exact .pending mailbox.waiting alive rfl rfl (List.append_nil _).symm rfl accounts.count
  | false =>
    have counts := accounts.count
    rw [accounts.gone alive] at counts
    refine .stopped alive (Nat.le_of_eq counts.symm) ?_
    rw [List.take_of_length_le (Nat.le_of_eq counts)]
    rfl

theorem stopped_next (gone : cut.worker.alive = false) (known : earlier ≤ whole.answers.length)
    (told : cut.answers = whole.answers.take earlier ++ refusals later) (step : Step σ) :
    Cut earlier (later ++ step.sent?.toList) (whole.next step) (cut.next step) := by
  have grows := whole.answers_prefix_next step
  have same : (whole.next step).answers.take earlier = whole.answers.take earlier := by
    obtain ⟨more, isMore⟩ := grows
    rw [← isMore, List.take_append_of_le_length known]
  have stillKnown := Nat.le_trans known grows.length_le
  cases step with
  | send command =>
    have refuses : cut.next (.send command) = { cut with answers := cut.answers ++ refusals [command] } := by
      simp [next, send, gone]
    rw [refuses]
    refine .stopped gone stillKnown ?_
    rw [same, told, Step.sent?, Option.toList_some, Worker.refusals_append, List.append_assoc]
  | engine act =>
    rw [Step.sent?, Option.toList_none, List.append_nil]
    exact .stopped gone stillKnown (same ▸ told)
  | publish completion =>
    rw [Step.sent?, Option.toList_none, List.append_nil]
    exact .stopped gone stillKnown (same ▸ told)
  | turn =>
    have rests : cut.next .turn = cut := turn_of_gone gone
    rw [rests, Step.sent?, Option.toList_none, List.append_nil]
    exact .stopped gone stillKnown (same ▸ told)

/-- As long as the command waits, a turn does the same in both runs unless the command is the next one. -/
theorem pending_turn {ahead : List Command} (alive : whole.worker.alive = true)
    (sameWorker : cut.worker = whole.worker) (sameAnswers : cut.answers = whole.answers)
    (isWaiting : whole.waiting = ahead ++ later) (isCut : cut.waiting = ahead ++ .shutdown :: later)
    (counts : whole.answers.length + (requests ahead).length = earlier) :
    Cut earlier later whole.turn cut.turn := by
  have aliveCut : cut.worker.alive = true := sameWorker ▸ alive
  by_cases queued : whole.worker.queue = []
  · rw [turn_of_no_event aliveCut (sameWorker ▸ queued)]
    cases ahead with
    | nil =>
      -- The command is taken, whatever the other run goes on with.
      obtain ⟨more, grows⟩ := whole.answers_prefix_next .turn
      have known : whole.answers.length = earlier := counts
      have grown : whole.turn.answers = whole.answers ++ more := grows.symm
      rw [take_of_shutdown isCut]
      refine .stopped (by simp [Worker.shutdown, aliveCut]) ?_ ?_
      · rw [grown, List.length_append, known]
        exact Nat.le_add_right ..
      · rw [grown, sameAnswers, ← known, List.take_left]
    | cons first ahead =>
      rw [turn_of_no_event alive queued]
      cases isRequest : first.isRequest with
      | true =>
        rw [take_of_request isWaiting isRequest, take_of_request isCut isRequest, sameWorker, sameAnswers]
        refine .pending ahead ?_ rfl rfl rfl rfl ?_
        · exact (Worker.alive_handle isRequest).trans alive
        · simp only [requests, List.filter_cons, isRequest, if_true, List.length_cons] at counts ⊢
          simp only [List.length_append, List.length_cons, List.length_nil]
          omega
      | false =>
        -- An earlier command to stop turns the same ones away in both runs.
        have stops : first = .shutdown := by cases first <;> first | rfl | cases isRequest
        subst stops
        have counts : whole.answers.length + (refusals ahead).length = earlier := by
          rw [Worker.length_refusals]
          exact counts
        have turnedAway : whole.answers ++ refusals (ahead ++ later) =
            whole.answers ++ refusals ahead ++ refusals later := by
          rw [Worker.refusals_append, List.append_assoc]
        have waits : whole.waiting = .shutdown :: (ahead ++ later) := isWaiting
        have waitsCut : cut.waiting = .shutdown :: (ahead ++ .shutdown :: later) := isCut
        rw [take_of_shutdown waits, take_of_shutdown waitsCut, sameAnswers]
        refine .stopped (by simp [Worker.shutdown, aliveCut]) ?_ ?_
        · rw [turnedAway, ← counts, List.length_append, List.length_append]
          exact Nat.le_add_right ..
        · rw [turnedAway, List.take_left' (List.length_append.trans counts), Worker.refusals_append,
            Worker.refusals_shutdown, ← List.append_assoc]
  · rw [turn_of_event alive queued, turn_of_event aliveCut (sameWorker ▸ queued), sameWorker]
    exact .pending ahead ((Worker.alive_takeUp _).trans alive) rfl sameAnswers isWaiting isCut counts

theorem next (compared : Cut earlier later whole cut) (step : Step σ) :
    Cut earlier (later ++ step.sent?.toList) (whole.next step) (cut.next step) := by
  cases compared with
  | stopped gone known told => exact stopped_next gone known told step
  | pending ahead alive sameWorker sameAnswers isWaiting isCut counts =>
    cases step with
    | send command =>
      have aliveCut : cut.worker.alive = true := sameWorker ▸ alive
      rw [Mailbox.next, Mailbox.next, send, send, if_pos alive, if_pos aliveCut]
      exact .pending ahead alive sameWorker sameAnswers (by simp [isWaiting, Step.sent?])
        (by simp [isCut, Step.sent?]) counts
    | engine act =>
      rw [Step.sent?, Option.toList_none, List.append_nil]
      exact .pending ahead alive (congrArg (·.letEngine act) sameWorker) sameAnswers isWaiting isCut counts
    | publish completion =>
      rw [Step.sent?, Option.toList_none, List.append_nil]
      exact .pending ahead alive (congrArg (·.letPublish completion) sameWorker) sameAnswers isWaiting isCut counts
    | turn =>
      rw [Step.sent?, Option.toList_none, List.append_nil]
      exact pending_turn alive sameWorker sameAnswers isWaiting isCut counts

theorem after (compared : Cut earlier later whole cut) (steps : List (Step σ)) :
    Cut earlier (later ++ sent steps) (whole.after steps) (cut.after steps) := by
  induction steps generalizing whole cut later with
  | nil => simpa [sent] using compared
  | cons step steps ih =>
    have rest := ih (compared.next step)
    rwa [List.append_assoc, ← sent_cons] at rest

end Cut

/-! ## A worker that has stopped -/

/-- A worker is where another one stopped; others have announced some completions since. -/
structure Rests (stop : Worker (Logged σ)) (announced : List Completion) (worker : Worker (Logged σ)) : Prop where
  gone : worker.alive = false
  registry : worker.board.registry = stop.board.registry
  active : worker.active = stop.active
  state : worker.state = stop.state
  calls : worker.engine.calls = stop.engine.calls
  log : worker.board.bus.log.toList = stop.board.bus.log.toList ++ announced

namespace Rests

variable {stop : Worker (Logged σ)} {announced : List Completion} {mailbox : Mailbox (Logged σ)}

theorem next (rests : Rests stop announced mailbox.worker) (step : Step σ) :
    Rests stop (announced ++ step.published?.toList) (mailbox.next step.logged).worker := by
  obtain ⟨gone, registry, active, state, calls, log⟩ := rests
  cases step with
  | send command =>
    have refuses : (mailbox.next (.send command)).worker = mailbox.worker := by simp [Mailbox.next, send, gone]
    rw [Step.logged, refuses, Step.published?, Option.toList_none, List.append_nil]
    exact ⟨gone, registry, active, state, calls, log⟩
  | engine act =>
    rw [Step.published?, Option.toList_none, List.append_nil]
    exact ⟨gone, registry, active, state, calls, log⟩
  | turn =>
    have stays : mailbox.next .turn = mailbox := turn_of_gone gone
    rw [Step.logged, stays, Step.published?, Option.toList_none, List.append_nil]
    exact ⟨gone, registry, active, state, calls, log⟩
  | publish completion =>
    refine ⟨gone, registry, active, state, calls, ?_⟩
    simp [Mailbox.next, Step.logged, Worker.letPublish, Bus.publish, log, Step.published?]

theorem after (rests : Rests stop announced mailbox.worker) (steps : List (Step σ)) :
    Rests stop (announced ++ published steps) (mailbox.after (steps.map .logged)).worker := by
  induction steps generalizing mailbox announced with
  | nil => simpa [published] using rests
  | cons step steps ih =>
    have later := ih (rests.next step)
    have same : announced ++ step.published?.toList ++ published steps = announced ++ published (step :: steps) := by
      cases announces : step.published? <;> simp [published, announces]
    rwa [same] at later

end Rests

/-- A worker that is gone in the end stopped in one of its turns, when there was no event. -/
theorem exists_stop {mailbox : Mailbox (Logged σ)} (alive : mailbox.worker.alive = true) {steps : List (Step σ)}
    (gone : (mailbox.after (steps.map .logged)).worker.alive = false) :
    ∃ reached rest, steps = reached ++ .turn :: rest ∧
      let stop := (mailbox.after (reached.map .logged)).worker
      stop.alive = true ∧ stop.queue = [] ∧
        Rests stop (published rest) (mailbox.after (steps.map .logged)).worker := by
  induction steps generalizing mailbox with
  | nil => cases alive.symm.trans gone
  | cons step steps ih =>
    cases aliveThen : (mailbox.next step.logged).worker.alive with
    | true =>
      obtain ⟨reached, rest, rfl, stops⟩ := ih aliveThen gone
      exact ⟨step :: reached, rest, rfl, stops⟩
    | false =>
      obtain ⟨isTurn, empty, stopped⟩ := turn_of_stopped alive aliveThen
      have rests : Rests mailbox.worker [] (mailbox.next step.logged).worker := by
        rw [stopped]
        exact ⟨rfl, rfl, rfl, rfl, rfl, (List.append_nil _).symm⟩
      obtain rfl : step = .turn := by cases step <;> first | rfl | cases isTurn
      exact ⟨[], steps, rfl, alive, empty, rests.after steps⟩

theorem gone_after_turns_of_gone {mailbox : Mailbox σ} (gone : mailbox.worker.alive = false) (turns : Nat) :
    (mailbox.after (List.replicate turns .turn)).worker.alive = false := by
  induction turns with
  | zero => exact gone
  | succ turns ih =>
    have stays : mailbox.next .turn = mailbox := turn_of_gone gone
    rwa [List.replicate_succ, after_cons, stays]

/-- A worker to which nothing more happens comes to the command to stop. -/
theorem gone_after_turns {mailbox : Mailbox σ} (waits : .shutdown ∈ mailbox.waiting) {turns : Nat}
    (enough : mailbox.worker.queue.length + mailbox.waiting.length ≤ turns) :
    (mailbox.after (List.replicate turns .turn)).worker.alive = false := by
  induction turns generalizing mailbox with
  | zero =>
    have none : mailbox.waiting = [] := List.eq_nil_of_length_eq_zero (by omega)
    rw [none] at waits
    cases waits
  | succ turns ih =>
    rw [List.replicate_succ, after_cons, next]
    cases alive : mailbox.worker.alive with
    | false =>
      rw [turn_of_gone alive]
      exact gone_after_turns_of_gone alive turns
    | true =>
      rcases turn_cases alive with
        ⟨queued, turned⟩ | ⟨-, none, -⟩ | ⟨later, -, -, turned⟩ | ⟨command, later, empty, first, isRequest, turned⟩
      · have fewer := Worker.length_queue_takeUp alive queued
        rw [turned]
        exact ih waits (by dsimp only; omega)
      · rw [none] at waits
        cases waits
      · rw [turned]
        exact gone_after_turns_of_gone rfl turns
      · rw [turned]
        rw [first] at waits enough
        have stillWaits : .shutdown ∈ later := by
          rcases List.mem_cons.mp waits with rfl | member
          · cases isRequest
          · exact member
        refine ih stillWaits ?_
        dsimp only
        rw [Worker.queue_handle_of_empty empty]
        simp only [empty, List.length_nil, List.length_cons] at enough ⊢
        omega

/-- Commands are sent to a worker, its engine does what it likes, and the worker has its turns, in any order.
Compare that with the same in which the command to stop is sent as well, at any point.

As long as it has not been taken the two do not differ: the worker is the same and has given the same
answers, all to requests that were sent before, and as many turns as events and commands wait for are
enough for it to be taken.  Then the requests sent before have their answers, the same as without it, and
each one sent later is turned away.  The worker is where it was, without the command, at the turn in which it
took it, when every event had been applied: no record has changed since, nor which task is active, the state
that is shown or what the engine was called to do, and what has been announced was announced by others. -/
theorem shutdown_cuts_run (engine : σ) (bus : Bus) (before later : List (Step σ)) :
    let start : Mailbox (Logged σ) := { worker := .ofEngine { engine } bus }
    let run (steps : List (Step σ)) := start.after (steps.map .logged)
    let whole := run (before ++ later)
    let cut := run (before ++ .send .shutdown :: later)
    let earlier := (requests (sent before)).length
    (cut.worker.alive = true →
      cut.worker = whole.worker ∧ cut.answers = whole.answers ∧ whole.answers.length ≤ earlier ∧
      ∀ turns, cut.worker.queue.length + cut.waiting.length ≤ turns →
        (cut.after (List.replicate turns .turn)).worker.alive = false) ∧
    (cut.worker.alive = false →
      earlier ≤ whole.answers.length ∧
      cut.answers = whole.answers.take earlier ++ (requests (sent later)).map (·.refused) ∧
      ∃ reached rest, before ++ later = reached ++ .turn :: rest ∧
        let stop := (run reached).worker
        stop.alive = true ∧ stop.queue = [] ∧
        cut.worker.board.registry = stop.board.registry ∧ cut.worker.active = stop.active ∧
        cut.worker.state = stop.state ∧ cut.worker.engine.calls = stop.engine.calls ∧
        cut.worker.board.bus.log.toList = stop.board.bus.log.toList ++ published rest) := by
  intro start run whole cut earlier
  have compared (later : List (Step σ)) :
      Cut earlier (sent later) (run (before ++ later)) (run (before ++ .send .shutdown :: later)) := by
    have none : start.Accounts [] := ⟨rfl, fun _ => rfl⟩
    have accounts := none.after (before.map .logged)
    have both := (Cut.start accounts).after (later.map .logged)
    rw [List.nil_append, List.nil_append, sent_logged, sent_logged] at both
    simp only [run, List.map_append, List.map_cons, after_append, after_cons]
    exact both
  have alive : start.worker.alive = true := rfl
  refine ⟨fun aliveCut => ?_, fun gone => ?_⟩
  · cases compared later with
    | stopped gone => cases aliveCut.symm.trans gone
    | pending ahead alive sameWorker sameAnswers isWaiting isCut counts =>
      refine ⟨sameWorker, sameAnswers, Nat.le.intro counts, fun turns enough => gone_after_turns ?_ enough⟩
      rw [isCut]
      exact List.mem_append_right _ List.mem_cons_self
  · cases compared later with
    | pending ahead alive sameWorker => cases alive.symm.trans ((congrArg _ sameWorker.symm).trans gone)
    | stopped _ known told =>
      refine ⟨known, told, ?_⟩
      obtain ⟨reached, rest, split, aliveThen, empty, rests⟩ := exists_stop alive gone
      obtain ⟨reachedWhole, restWhole, splitWhole, sameStop, samePublished⟩ : ∃ reachedWhole restWhole,
          before ++ later = reachedWhole ++ .turn :: restWhole ∧
          (run reachedWhole).worker = (run reached).worker ∧ published restWhole = published rest := by
        rcases List.append_eq_append_iff.mp split with ⟨during, rfl, isRest⟩ | ⟨since, rfl, isRest⟩
        · -- It was taken after it was sent.
          cases during with
          | nil => cases isRest
          | cons first during =>
            obtain ⟨rfl, rfl⟩ := List.cons.inj isRest
            refine ⟨before ++ during, rest, (List.append_assoc ..).symm, ?_, rfl⟩
            cases compared during with
            | pending _ _ sameWorker => exact sameWorker.symm
            | stopped goneThen => cases aliveThen.symm.trans goneThen
        · -- Another one was taken before.
          cases since with
          | nil => cases isRest
          | cons first since =>
            obtain ⟨rfl, rfl⟩ := List.cons.inj isRest
            refine ⟨reached, since ++ later, by simp, rfl, ?_⟩
            simp [published, Step.published?]
      refine ⟨reachedWhole, restWhole, splitWhole, ?_⟩
      rw [sameStop, samePublished]
      exact ⟨aliveThen, empty, rests.registry, rests.active, rests.state, rests.calls, rests.log⟩

end Mailbox

end PlanService
