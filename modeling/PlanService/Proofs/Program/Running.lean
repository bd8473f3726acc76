import PlanService.Proofs.Client.Live
import PlanService.Proofs.Program.Script

/-! # Running a task to its end

The program submits a task, opens its stream, begins it, asks for the state of the worker and looks
at the stream until it is told how the task has ended.  Before each of these steps others do what
they like with the session, as long as they leave this task alone.

Since the stream is open before the task begins, it waits for the task at every later moment
(`CompletionStream.Waits`), and a look at it comes to one of two things: the completion, or nothing
(`look_of_complete`, `look_of_incomplete`).  From this it follows by induction what a program is
told that looks for long enough (`look_told`), and the rest is to play the script step by step.
-/

namespace PlanService

/-- A rehearsal with a session that does not stand still. -/
abbrev LiveRehearsal (σ : Type) : Type := Rehearsal (Live σ) (Option CompletionStream)

/-- What is left to do for a task whose stream is open. -/
def Controller.follow (client : Client) (id : TaskId) (limit : Option Millis) : Script Unit := do
  Script.ask client (Client.begin id)
  let state ← Script.ask client Client.state
  Script.printLine s!"Worker is {state}"
  Controller.reportEnd id limit

/-- With parameters that can be read the command is to run the task. -/
theorem Controller.script_run (client : Client) (settings : Config.Client) (timeoutSecs : Option Nat) (name : String)
    {parameters : String} {params : Members} (decoded : Json.decode Json.Decoder.members parameters = .ok params) :
    (Controller.run name parameters timeoutSecs).script client settings =
      runTask client { name, params } ((timeoutSecs.map (· * 1000)).or settings.completionTimeout) := by
  have reads : readTask name parameters = (pure { name, params } : Script Task) := by
    rw [readTask, decoded]
  rw [Controller.script, reads]
  rfl

namespace Rehearsal

variable {σ : Type} [Engine σ] {traffic : Nat → List (Session.Occurrence σ)} {id : TaskId}

/-- The program has this stream open, and others have had so many turns. -/
structure Watches (traffic : Nat → List (Session.Occurrence σ)) (hosted : Hosted σ) (turn : Nat)
    (stream : CompletionStream) (rehearsal : LiveRehearsal σ) : Prop where
  network : rehearsal.network = Live.amid traffic hosted turn
  watching : rehearsal.watching = some { watcher := {}, connection := some stream }

/-! ## Looking -/

theorem look_of_complete {hosted : Hosted σ} {turn : Nat} {stream : CompletionStream} {record : TrackedTask}
    {rehearsal : LiveRehearsal σ} (watches : rehearsal.Watches traffic hosted turn stream)
    (waits : stream.Waits id record (hosted.after (traffic turn)).session.worker)
    (complete : record.isComplete = true) (times : Nat) :
    ∃ network watching,
      rehearsal.look (times + 1) = (some (.ok record.completion), { rehearsal with network, watching }) := by
  obtain ⟨later, read, ended⟩ := waits.read_of_complete complete (hosted.after (traffic turn)).session.clock
  have told := Watcher.next_feed_completion record.completion later.ended
  rw [look, watches.watching]
  simp only [watches.network, Watching.next_amid, read, told]
  exact ⟨_, _, rfl⟩

theorem look_of_incomplete {hosted : Hosted σ} {turn : Nat} {stream : CompletionStream} {record : TrackedTask}
    {rehearsal : LiveRehearsal σ} (watches : rehearsal.Watches traffic hosted turn stream)
    (waits : stream.Waits id record (hosted.after (traffic turn)).session.worker)
    (incomplete : record.isComplete = false) (times : Nat) :
    ∃ later : CompletionStream, later.Waits id record (hosted.after (traffic turn)).session.worker ∧
      rehearsal.look (times + 1) =
        { rehearsal with
          network := Live.amid traffic (hosted.after (traffic turn)) (turn + 1)
          watching := some { watcher := {}, connection := some later } }.look times := by
  obtain ⟨text, later, read, quiet, waitsOn⟩ :=
    waits.read_of_incomplete incomplete (hosted.after (traffic turn)).session.clock
  refine ⟨later, waitsOn, ?_⟩
  rw [look, watches.watching]
  simp only [watches.network, Watching.next_amid, read, waitsOn.running, Watcher.feed_quiet quiet,
    Watcher.next_of_quiet]

/-- If the task is complete when the program looks for the `k`th time, counted from 0, then a program
that looks so often is told its completion.  The induction is on `k`: whether the task was complete
before this or not, the record that is told is the one that is there in the end. -/
theorem look_told (alone : ∀ turn, ∀ occurrence ∈ traffic turn, occurrence.LeavesAlone id) (k : Nat)
    {hosted : Hosted σ} {turn : Nat} {stream : CompletionStream} {record last : TrackedTask}
    {rehearsal : LiveRehearsal σ} (watches : rehearsal.Watches traffic hosted turn stream)
    (waits : stream.Waits id record hosted.session.worker)
    (found : (hosted.session.through traffic turn (k + 1)).worker.board.registry.get? id = some last)
    (complete : last.isComplete = true) {patience : Nat} (enough : k < patience) :
    ∃ network watching,
      rehearsal.look patience = (some (.ok last.completion), { rehearsal with network, watching }) := by
  induction k generalizing hosted turn stream record rehearsal patience with
  | zero =>
    obtain ⟨now, -, waits⟩ := waits.after (alone turn)
    cases (waits.waits.found.symm.trans found : some now = some last)
    obtain ⟨times, rfl⟩ := Nat.exists_eq_add_one_of_ne_zero (Nat.ne_of_gt enough)
    exact look_of_complete watches waits complete times
  | succ k ih =>
    obtain ⟨now, -, waits⟩ := waits.after (alone turn)
    obtain ⟨times, rfl⟩ := Nat.exists_eq_add_one_of_ne_zero (Nat.ne_of_gt (Nat.zero_lt_of_lt enough))
    cases done : now.isComplete with
    | true =>
      obtain ⟨same, foundSame, advances⟩ := Session.get?_through (k + 1) waits.waits.found (turn + 1)
      cases (foundSame.symm.trans found : some same = some last)
      rw [advances.frozen done]
      exact look_of_complete watches waits done times
    | false =>
      obtain ⟨later, waits, looks⟩ := look_of_incomplete watches waits done times
      rw [looks]
      exact ih ⟨rfl, rfl⟩ waits found (Nat.lt_of_succ_lt_succ enough)

/-! ## Step by step -/

section

variable (circumstances : Circumstances) {client : Client} {hosted : Hosted σ} {turn : Nat}
  {rehearsal : LiveRehearsal σ}

/-- A call is made to the session as it is after one more turn. -/
theorem play_ask_amid {α : Type} (reaches : client.Reaches hosted)
    (network : rehearsal.network = Live.amid traffic hosted turn) (call : Client.Call α) {rest : List Char}
    (path : call.path = String.ofList ('/' :: rest)) (plain : Http.Url.IsPlainPath rest) :
    play circumstances (Script.ask client call) rehearsal =
      (some ((client.perform call (hosted.after (traffic turn))).1.mapError (·.message)),
        { rehearsal with
          network := Live.amid traffic (client.perform call (hosted.after (traffic turn))).2 (turn + 1) }) := by
  rw [play_ask, network, Client.perform_amid reaches call path plain]

/-- The stream of a task that is there and not complete is opened, and waits for it. -/
theorem play_watch_amid (reaches : client.Reaches hosted)
    (network : rehearsal.network = Live.amid traffic hosted turn)
    {id : TaskId} (plain : ∀ c ∈ id.text.toList, Http.isPlain c = true) {record : TrackedTask}
    (alive : (hosted.after (traffic turn)).session.worker.alive = true)
    (isOpen : (hosted.after (traffic turn)).session.worker.board.bus.closed = false)
    (found : (hosted.after (traffic turn)).session.worker.board.registry.get? id = some record)
    (incomplete : record.isComplete = false) :
    ∃ stream : CompletionStream, stream.Waits id record (hosted.after (traffic turn)).session.worker ∧
      play circumstances (Script.act (.watch client id)) rehearsal =
        (some (.ok (.ok ())),
          { rehearsal with
            network := Live.amid traffic (hosted.after (traffic turn)) (turn + 1)
            watching := some { watcher := {}, connection := some stream } }) := by
  obtain ⟨stream, started, waits⟩ := Watching.start_amid reaches plain turn alive isOpen found incomplete
  refine ⟨stream, waits, ?_⟩
  rw [play_act, answer, network, started]
  rfl

/-- The task is submitted and its stream opened. -/
theorem play_runTask (reaches : client.Reaches hosted)
    (network : rehearsal.network = Live.amid traffic hosted turn)
    (limit : Option Millis) {task accepted : Task}
    (read : Api.readBody Task.decoder (Client.submit task).asked = .ok accepted)
    (named : Text.isBlank accepted.name = false) :
    let submitting := hosted.after (traffic turn)
    let id := submitting.session.worker.board.registry.nextId
    let opening := (submitting.withWorker (submitting.session.worker.submit accepted).2).after (traffic (turn + 1))
    submitting.session.worker.alive = true → opening.session.worker.alive = true →
    opening.session.worker.board.bus.closed = false →
    opening.session.worker.board.registry.get? id = some { id, task := accepted } →
    ∃ (stream : CompletionStream) (opened : LiveRehearsal σ),
      stream.Waits id { id, task := accepted } opening.session.worker ∧
      opened.Watches traffic opening (turn + 2) stream ∧
      opened.printed = rehearsal.printed ++ [.line s!"Submitted task {id}"] ∧ opened.said = rehearsal.said ∧
      play circumstances (Controller.runTask client task limit) rehearsal =
        play circumstances (Controller.follow client id limit) opened := by
  intro submitting id opening alive stillAlive isOpen found
  have submits : submitting.session.worker.submit accepted =
      (.ok id, (submitting.session.worker.submit accepted).2) := by
    rw [Worker.submit, if_pos alive]
  have path : (Client.submit task).path = String.ofList ('/' :: "tasks".toList) := rfl
  have asked := play_ask_amid circumstances reaches network (Client.submit task) path (by decide)
  rw [Client.perform_submit_of_read (reaches.after (traffic turn)) read named, submits] at asked
  have plain : ∀ c ∈ id.text.toList, Http.isPlain c = true := Client.ofNumber_plain _
  let told : LiveRehearsal σ :=
    { rehearsal with
      network := Live.amid traffic (submitting.withWorker (submitting.session.worker.submit accepted).2) (turn + 1)
      printed := rehearsal.printed ++ [.line s!"Submitted task {id}"] }
  have networkTold : told.network = Live.amid traffic (submitting.withWorker _) (turn + 1) := rfl
  obtain ⟨stream, waits, watched⟩ := play_watch_amid circumstances ((reaches.after (traffic turn)).withWorker _)
    networkTold plain stillAlive isOpen found rfl
  let opened : LiveRehearsal σ :=
    { told with
      network := Live.amid traffic opening (turn + 2)
      watching := some { watcher := {}, connection := some stream } }
  refine ⟨stream, opened, waits, ⟨rfl, rfl⟩, rfl, rfl, ?_⟩
  rw [Controller.runTask, play_bind_of_ok circumstances asked,
    play_bind_of_ok circumstances (play_printLine circumstances _ _), play_bind_of_ok circumstances watched]
  rfl

/-- A worker that refuses to begin the task ends the run. -/
theorem play_follow_of_error (reaches : client.Reaches hosted)
    (network : rehearsal.network = Live.amid traffic hosted turn) (limit : Option Millis) {id : TaskId}
    (small : (ActiveTask.mk (some id)).toJson.compact.utf8ByteSize ≤ Api.bodyLimit) {error : WorkerError}
    (refused : ((hosted.after (traffic turn)).session.worker.begin id).1 = .error error) :
    ∃ network,
      play circumstances (Controller.follow client id limit) rehearsal =
        (some (.error (ClientError.ofWorkerError error).message), { rehearsal with network }) := by
  have path : (Client.begin id).path = String.ofList ('/' :: "worker/task".toList) := rfl
  have asked := play_ask_amid circumstances reaches network (Client.begin id) path (by decide)
  rw [Client.perform_begin (reaches.after (traffic turn)) small, refused] at asked
  exact ⟨_, play_bind_of_error circumstances asked _⟩

/-- Once the task is begun the state of the worker is reported, and the program waits. -/
theorem play_follow_of_ok (reaches : client.Reaches hosted)
    (network : rehearsal.network = Live.amid traffic hosted turn) (limit : Option Millis) {id : TaskId}
    (small : (ActiveTask.mk (some id)).toJson.compact.utf8ByteSize ≤ Api.bodyLimit)
    (admitted : ((hosted.after (traffic turn)).session.worker.begin id).1 = .ok ()) :
    let beginning := hosted.after (traffic turn)
    let reporting := (beginning.withWorker (beginning.session.worker.begin id).2).after (traffic (turn + 1))
    play circumstances (Controller.follow client id limit) rehearsal =
      play circumstances (Controller.reportEnd id limit)
        { rehearsal with
          network := Live.amid traffic reporting (turn + 2)
          printed := rehearsal.printed ++ [.line s!"Worker is {reporting.session.worker.state}"] } := by
  intro beginning reporting
  have path : (Client.begin id).path = String.ofList ('/' :: "worker/task".toList) := rfl
  have asked := play_ask_amid circumstances reaches network (Client.begin id) path (by decide)
  rw [Client.perform_begin (reaches.after (traffic turn)) small, admitted] at asked
  have pathState : Client.state.path = String.ofList ('/' :: "worker/state".toList) := rfl
  have begun := (reaches.after (traffic turn)).withWorker (beginning.session.worker.begin id).2
  have told (printed : LiveRehearsal σ)
      (network : printed.network = Live.amid traffic (beginning.withWorker _) (turn + 1)) :=
    play_ask_amid circumstances begun network Client.state pathState (by decide)
  simp only [Client.perform_state (begun.after (traffic (turn + 1)))] at told
  rw [Controller.follow, play_bind_of_ok circumstances asked, play_bind_of_ok circumstances (told _ rfl),
    play_bind_of_ok circumstances (play_printLine circumstances _ _)]

theorem play_reportEnd {later : LiveRehearsal σ} {completion : Completion}
    (looked : rehearsal.look circumstances.patience = (some (.ok completion), later)) (id : TaskId)
    (limit : Option Millis) :
    play circumstances (Controller.reportEnd id limit) rehearsal =
      (some (if completion.status = .failed then .error s!"Task {id} failed" else .ok ()),
        { later with printed := later.printed ++ completion.lines.map .line }) := by
  have waited : play circumstances (Script.act (.await limit)) rehearsal =
      (some (.ok (.told (.ok completion))), later) := by
    rw [play_act, answer, looked]
    rfl
  have read : play circumstances (Script.ofResult (.ok completion)) later = (some (.ok completion), later) := rfl
  rw [Controller.reportEnd, play_bind_of_ok circumstances waited]
  simp only
  rw [play_bind_of_ok circumstances read, play_bind_of_ok circumstances (play_printLines circumstances _ _)]
  split
  · rfl
  · rfl

/-- A task that is begun with its stream open, and complete when the program looks for the `k`th time:
the program reports it and ends. -/
theorem play_follow_told (reaches : client.Reaches hosted) {stream : CompletionStream}
    (watches : rehearsal.Watches traffic hosted turn stream) {id : TaskId} {record last : TrackedTask}
    (waits : stream.Waits id record hosted.session.worker)
    (alone : ∀ turn, ∀ occurrence ∈ traffic turn, occurrence.LeavesAlone id)
    (small : (ActiveTask.mk (some id)).toJson.compact.utf8ByteSize ≤ Api.bodyLimit) (limit : Option Millis) :
    let beginning := hosted.session.after (traffic turn)
    let begun := (beginning.command (·.begin id)).2
    (beginning.command (·.begin id)).1 = .ok () → ∀ k,
    (begun.through traffic (turn + 1) (k + 2)).worker.board.registry.get? id = some last →
    last.isComplete = true → k < circumstances.patience →
    ∃ network watching,
      play circumstances (Controller.follow client id limit) rehearsal =
        (some (if last.completion.status = .failed then .error s!"Task {id} failed" else .ok ()),
          { rehearsal with
            network
            watching
            printed := rehearsal.printed ++
              .line s!"Worker is {(begun.through traffic (turn + 1) 1).worker.state}" ::
                last.completion.lines.map .line }) := by
  intro beginning begun admitted k found complete enough
  have reported := play_follow_of_ok circumstances reaches watches.network limit small admitted
  obtain ⟨_, -, waits⟩ := waits.after (alone turn)
  have spares : (Worker.Action.command (.begin id) : Worker.Action σ).Spares id := trivial
  obtain ⟨_, -, waitsOn⟩ := waits.waits.act spares
  have begunWaits : stream.Waits id _ begun.worker := ⟨waits.running, waits.unknown, waitsOn⟩
  obtain ⟨_, -, reportingWaits⟩ := begunWaits.after (alone (turn + 1))
  let reporting : LiveRehearsal σ :=
    { rehearsal with
      network := Live.amid traffic { hosted with session := begun.after (traffic (turn + 1)) } (turn + 2)
      printed := rehearsal.printed ++ [.line s!"Worker is {(begun.through traffic (turn + 1) 1).worker.state}"] }
  have watchesOn : reporting.Watches traffic _ (turn + 2) stream := ⟨rfl, watches.watching⟩
  obtain ⟨networkLater, watchingLater, looked⟩ :=
    look_told alone k watchesOn reportingWaits found complete enough
  refine ⟨networkLater, watchingLater, reported.trans ((play_reportEnd circumstances looked _ limit).trans ?_)⟩
  simp only [reporting, List.append_assoc, List.singleton_append]

/-- A program that was told how its task ended is successful if and only if the task is. -/
theorem run_conclude_told {script : Script Unit} {start later : LiveRehearsal σ}
    {completion : Completion} {id : TaskId}
    (played : play circumstances script start =
      (some (if completion.status = .failed then .error s!"Task {id} failed" else .ok ()), later)) :
    ∃ last : LiveRehearsal σ,
      run circumstances (Program.conclude script) start =
        (some (if completion.status = .complete then .success else .failure), last) ∧
      last.printed = later.printed ∧
      last.said = later.said ++ if completion.status = .complete then [] else [s!"Error: Task {id} failed"] := by
  cases status : completion.status with
  | complete =>
    rw [status, if_neg nofun] at played
    exact ⟨_, run_conclude_of_ok circumstances played, rfl, (List.append_nil _).symm⟩
  | failed =>
    have message : "Error: " ++ ("Task " ++ id.text ++ " failed") = "Error: Task " ++ id.text ++ " failed" := by
      rw [← String.append_assoc, ← String.append_assoc]
      rfl
    rw [status, if_pos rfl] at played
    exact ⟨_, run_conclude_of_error circumstances played, rfl, congrArg (later.said ++ [·]) message⟩

/-- While another task is active the program fails. -/
theorem run_conclude_refused {script : Script Unit} {start : LiveRehearsal σ}
    {id : TaskId} {limit : Option Millis}
    (plays : play circumstances script start = play circumstances (Controller.follow client id limit) rehearsal)
    (reaches : client.Reaches hosted) (network : rehearsal.network = Live.amid traffic hosted turn)
    (small : (ActiveTask.mk (some id)).toJson.compact.utf8ByteSize ≤ Api.bodyLimit) {other : TaskId}
    (refused : ((hosted.after (traffic turn)).session.worker.begin id).1 = .error (.busyWith other)) :
    ∃ later : LiveRehearsal σ,
      run circumstances (Program.conclude script) start = (some .failure, later) ∧
      later.printed = rehearsal.printed ∧
      later.said = rehearsal.said ++ [s!"Error: Conflict: Worker already active with task {other}"] := by
  obtain ⟨networkLater, told⟩ := play_follow_of_error circumstances reaches network limit small refused
  have message : "Error: " ++ ("Conflict: " ++ ("Worker already active with task " ++ other.text)) =
      "Error: Conflict: Worker already active with task " ++ other.text := by
    rw [← String.append_assoc, ← String.append_assoc]
    rfl
  exact ⟨_, run_conclude_of_error circumstances (plays.trans told), rfl, congrArg (rehearsal.said ++ [·]) message⟩

end

end Rehearsal

/-- The program runs a plan in a session that any engine and any history have brought about, and the
submission is accepted.  Others have a turn before each request (0 to 3: the task, its stream, its
beginning, the state) and before each look at the stream, at which they neither begin this task nor
shut the worker down.

If the task begins, and is complete when the program looks for the `k`th time, counted from 0, then a
program that looks so often ends: it prints the status and the errors of the record, and is successful
if and only if the status is complete.  It makes no difference whether the engine refused the task,
ended it at once or ended it later, nor what others published meanwhile; and a time limit ends only a
wait in vain.  If another task is active when this one is to begin, and not complete, the program fails
with the conflict; its own task stays as it was submitted. -/
theorem run_reports {σ : Type} [Engine σ] (engine : σ) (events : List EngineEvent) (bus : Bus) (catalog : Catalog)
    (earlier : List (Session.Occurrence σ)) (traffic : Nat → List (Session.Occurrence σ)) (client : Client)
    (host : String) (port : Nat) (settings : Config.Client) (timeoutSecs : Option Nat) (name parameters : String)
    (params : Members) :
    let started := (Session.start engine events bus catalog).after earlier
    let submitting := started.after (traffic 0)
    let request := (Client.submit { name, params }).asked
    let id := submitting.worker.board.registry.nextId
    let submitted := (submitting.request request).2
    let beginning := submitted.through traffic 1 2
    let begun := (beginning.command (·.begin id)).2
    let hosted : Hosted σ := { host, port, session := started }
    let program := Program.conclude ((Controller.run name parameters timeoutSecs).script client settings)
    let run (circumstances : Circumstances) :=
      Rehearsal.run circumstances program { network := Live.amid traffic hosted 0 }
    client.Reaches hosted → bus.closed = false →
    Json.decode Json.Decoder.members parameters = .ok params →
    (submitting.request request).1.head.status = 201 →
    submitting.worker.board.registry.size < 2 ^ 64 →
    (∀ turn, ∀ occurrence ∈ traffic turn, occurrence.LeavesAlone id) →
    ((beginning.command (·.begin id)).1 = .ok () →
      ∀ k record, (begun.through traffic 3 (k + 2)).worker.board.registry.get? id = some record →
        record.isComplete = true →
        ∀ circumstances, k < circumstances.patience →
          ∃ later, run circumstances =
              (some (if record.completion.status = .complete then .success else .failure), later) ∧
            later.printed =
              (s!"Submitted task {id}" :: s!"Worker is {(begun.through traffic 3 1).worker.state}" ::
                record.completion.lines).map .line ∧
            later.said = if record.completion.status = .complete then [] else [s!"Error: Task {id} failed"]) ∧
    (∀ other, beginning.worker.drain.activeRecord? = some other → other.isComplete = false →
      (∀ circumstances, ∃ later, run circumstances = (some .failure, later) ∧
        later.printed = [.line s!"Submitted task {id}"] ∧
        later.said = [s!"Error: Conflict: Worker already active with task {other.id}"]) ∧
      ∃ task, Api.readBody Task.decoder request = .ok task ∧
        ∀ turns, (begun.through traffic 3 turns).worker.board.registry.get? id =
            some { id, task, isComplete := false, errors := [] } ∧
          (begun.through traffic 3 turns).worker.active ≠ some id) := by
  intro started submitting request id submitted beginning begun hosted program run reaches isOpen decoded created
    few alone
  have stays := Session.stays_of_created engine events isOpen catalog (earlier ++ traffic 0) request
  rw [Session.after_append] at stays
  obtain ⟨task, read, named, alive, isSubmitted, stays⟩ := stays created
  have isSubmitted : submitted = { submitting with worker := (submitting.worker.submit task).2 } := isSubmitted
  clear_value submitted
  subst isSubmitted
  have small : (ActiveTask.mk (some id)).toJson.compact.utf8ByteSize ≤ Api.bodyLimit := Client.small_begin few
  let limit := (timeoutSecs.map (· * 1000)).or settings.completionTimeout
  have script := Controller.script_run client settings timeoutSecs name decoded
  let start : LiveRehearsal σ := { network := Live.amid traffic hosted 0 }
  have network : start.network = Live.amid traffic hosted 0 := rfl
  obtain ⟨actions, each, same⟩ := Session.exists_actions_through alone
    { submitting with worker := (submitting.worker.submit task).2 } 1 1
  obtain ⟨stillAlive, stillOpen, found, -⟩ := stays actions each
  rw [← same] at stillAlive stillOpen found
  have opens (circumstances : Circumstances) := Rehearsal.play_runTask circumstances reaches network limit read named
    alive stillAlive stillOpen found
  rw [← script] at opens
  let opening : Hosted σ :=
    (Hosted.withWorker { hosted with session := submitting } (submitting.worker.submit task).2).after (traffic 1)
  have reachesOpening : client.Reaches opening := ⟨reaches.up, reaches.address⟩
  refine ⟨fun admitted k record found complete circumstances enough => ?_, fun other isActive incomplete => ?_⟩
  · obtain ⟨stream, opened, waits, watches, printed, said, plays⟩ := opens circumstances
    obtain ⟨networkLater, watchingLater, told⟩ := Rehearsal.play_follow_told circumstances reachesOpening watches
      waits alone small limit admitted k found complete enough
    rw [printed] at told
    rw [told] at plays
    obtain ⟨last, ends, printedLast, saidLast⟩ := Rehearsal.run_conclude_told circumstances plays
    exact ⟨last, ends, printedLast, saidLast.trans (congrArg (· ++ _) said)⟩
  · obtain ⟨actions, each, same⟩ := Session.exists_actions_through alone
      { submitting with worker := (submitting.worker.submit task).2 } 1 2
    obtain ⟨beginningAlive, -⟩ := stays actions each
    rw [← same] at beginningAlive
    have refused : beginning.worker.begin id = _ := Worker.begin_of_busy beginningAlive isActive incomplete id
    refine ⟨fun circumstances => ?_, task, read, fun turns => ?_⟩
    · obtain ⟨stream, opened, -, watches, printed, said, plays⟩ := opens circumstances
      obtain ⟨last, ends, printedLast, saidLast⟩ := Rehearsal.run_conclude_refused circumstances plays reachesOpening
        watches.network small (congrArg Prod.fst refused)
      exact ⟨last, ends, printedLast.trans printed, saidLast.trans (congrArg (· ++ _) said)⟩
    · obtain ⟨more, eachMore, sameMore⟩ := Session.exists_actions_through alone begun 3 turns
      -- To be refused is no more than to take up what the engine has told.
      have drained : begun.worker = beginning.worker.next (.command .getActive) :=
        (congrArg Prod.snd refused).trans beginning.worker.getActive_worker.symm
      have eachAlone : ∀ action ∈ actions ++ .command .getActive :: more, action.LeavesAlone id :=
        List.forall_mem_append.mpr ⟨each, List.forall_mem_cons.mpr ⟨trivial, eachMore⟩⟩
      obtain ⟨-, -, found, notActive⟩ := stays _ eachAlone
      rw [Worker.after_append, Worker.after_cons, ← same] at found notActive
      rw [sameMore, drained]
      exact ⟨found, notActive⟩

/-- A run between two tasks of somebody else's, with a bus that keeps one entry: the second of them has
failed before the program looks for the first time. -/
theorem count_run_reported :
    let client := Client.ofUrl "http://127.0.0.1:8000/"
    let start : Session Simulated := .start {} Simulated.initialEvents { capacity := 1 } .builtin
    let hosted : Hosted Simulated := { host := "127.0.0.1", port := 8000, session := start }
    let program := Program.conclude ((Controller.run "count" "\x7b\x7d" none).script client {})
    let fails (n : Nat) : List (Session.Occurrence Simulated) :=
      [.act (.command (.submit { name := "nap" })), .act (.command (.begin (.ofNumber n)))]
    let traffic (turn : Nat) : List (Session.Occurrence Simulated) :=
      if turn = 0 then fails 1 else if turn = 4 then Session.elapsing 1000 ++ fails 3 else []
    ∃ later, Rehearsal.run {} program { network := Live.amid traffic hosted 0 } = (some .success, later) ∧
      later.printed = ["Submitted task task-0002", "Worker is RUNNING", "Task task-0002 complete"].map .line ∧
      later.said = [] := by
  intro client start hosted program fails traffic
  let submitting := (start.after []).after (traffic 0)
  have alive : submitting.worker.alive = true := by decide +kernel
  have isId : submitting.worker.board.registry.nextId = .ofNumber 2 := by decide +kernel
  have readable : (Json.object []).Readable 126 := .object .nil nofun
  have small : 4 * ({ name := "count" } : Task).toJson.chars.length ≤ Api.bodyLimit := by decide
  obtain ⟨-, created, next⟩ := Client.request_submit alive readable (by decide) small
  have alone : ∀ turn, ∀ occurrence ∈ traffic turn,
      occurrence.LeavesAlone submitting.worker.board.registry.nextId := by
    have others : TaskId.ofNumber 1 ≠ .ofNumber 2 ∧ TaskId.ofNumber 3 ≠ .ofNumber 2 := by decide
    have failing (n : Nat) (other : TaskId.ofNumber n ≠ .ofNumber 2) :
        ∀ occurrence ∈ fails n, occurrence.LeavesAlone (.ofNumber 2) := by
      simp [fails, Session.Occurrence.LeavesAlone, Session.Occurrence.actions, Worker.Action.LeavesAlone, other]
    intro turn
    rw [isId]
    simp only [traffic]
    split
    · exact failing 1 others.1
    split
    · exact List.forall_mem_append.mpr ⟨Session.leavesAlone_elapsing 1000 _, failing 3 others.2⟩
    · exact List.forall_mem_nil _
  simp only [submitting, start] at alone isId next
  obtain ⟨reports, -⟩ := run_reports ({} : Simulated) Simulated.initialEvents { capacity := 1 } .builtin [] traffic
    client "127.0.0.1" 8000 {} none "count" "\x7b\x7d" [] (Client.reaches_local _) rfl rfl created (by decide +kernel)
    alone
  rw [next, isId] at reports
  obtain ⟨later, ends, printed, said⟩ := reports (by decide +kernel) 0 _
    (Option.some_get (by decide +kernel)).symm (by decide +kernel) {} (by decide)
  refine ⟨later, ends.trans (congrArg (some ·, later) ?_), printed.trans (congrArg (List.map Output.line) ?_),
    said.trans ?_⟩
  · decide +kernel
  · decide +kernel
  · decide +kernel

end PlanService
