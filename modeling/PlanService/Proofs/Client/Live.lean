import Mathlib.Data.Nat.Digits.Defs
import PlanService.Proofs.Api.Streaming
import PlanService.Proofs.Client.Submission
import PlanService.Proofs.Client.Watching

/-! # Watching a session that does not stand still

Before each request of a client, and before each look at its stream, others do something to the
session (`Live.amid`).  A call then comes to what it comes to in the session as it is by then.  A
stream that was opened before its task was begun is read at any such moment: it is told that the
task is complete if it is, and nothing else before (`read_of_complete`, `read_of_incomplete`), whatever the
others published in between and however little the bus keeps.
-/

namespace PlanService

/-! ## Others -/

/-- An action of somebody who neither begins the task nor announces it for the worker, nor stops the
worker. -/
def Worker.Action.LeavesAlone {σ : Type} (id : TaskId) : Worker.Action σ → Prop
  | .command .shutdown => False
  | .command (.begin other) => other ≠ id
  | .publish completion => completion.id ≠ id
  | _ => True

theorem Worker.Action.LeavesAlone.spares {σ : Type} {id : TaskId} {action : Worker.Action σ}
    (alone : action.LeavesAlone id) : action.Spares id := by
  cases action with
  | command command =>
    cases command with
    | shutdown => exact alone
    | _ => trivial
  | publish completion => exact alone
  | _ => trivial

namespace Worker

variable {σ : Type} [Engine σ]

theorem closed_after (worker : Worker σ) (actions : List (Action σ)) :
    (worker.after actions).board.bus.closed = worker.board.bus.closed := by
  induction actions generalizing worker with
  | nil => rfl
  | cons action actions ih => exact (ih (worker.next action)).trans (closed_next worker action)

theorem alive_after {id : TaskId} {worker : Worker σ} (alive : worker.alive = true) {actions : List (Action σ)}
    (alone : ∀ action ∈ actions, action.LeavesAlone id) : (worker.after actions).alive = true := by
  induction actions generalizing worker with
  | nil => exact alive
  | cons action actions ih =>
    exact ih (alive_next alive (alone action List.mem_cons_self).spares)
      fun other member => alone other (List.mem_cons_of_mem _ member)

theorem not_mem_begun {id : TaskId} (worker : Worker σ) {actions : List (Action σ)}
    (alone : ∀ action ∈ actions, action.LeavesAlone id) : id ∉ worker.begun actions := by
  induction actions generalizing worker with
  | nil => exact List.not_mem_nil
  | cons action actions ih =>
    have first : id ∉ worker.begunBy action := by
      have alone := alone action List.mem_cons_self
      unfold begunBy
      split
      next other =>
        split
        · exact fun member => alone (List.mem_singleton.mp member).symm
        · exact List.not_mem_nil
      next => exact List.not_mem_nil
    rw [begun, List.mem_append, not_or]
    exact ⟨first, ih (worker.next action) fun other member => alone other (List.mem_cons_of_mem _ member)⟩

theorem begin_of_busy {worker : Worker σ} (alive : worker.alive = true) {other : TrackedTask}
    (isActive : worker.drain.activeRecord? = some other) (incomplete : other.isComplete = false) (id : TaskId) :
    worker.begin id = (.error (.busyWith other.id), worker.drain) := by
  refine begin_of_error alive ?_
  rw [admission_eq, isActive]
  simp [Option.filter, incomplete]

/-- A task that is submitted and left alone stays as it was submitted. -/
theorem after_submit {worker : Worker σ} {begun : List TaskId}
    (admission : Admission worker.board.registry worker.active begun)
    (numbered : worker.board.registry.Numbered) (alive : worker.alive = true) (task : Task)
    {actions : List (Action σ)} (alone : ∀ action ∈ actions, action.LeavesAlone worker.board.registry.nextId) :
    let id := worker.board.registry.nextId
    let later := (worker.submit task).2.after actions
    later.alive = true ∧ later.board.bus.closed = worker.board.bus.closed ∧
      later.board.registry.get? id = some { id, task } ∧ later.active ≠ some id := by
  intro id later
  have submits : (worker.submit task).2.alive = true ∧
      (worker.submit task).2.board.bus.closed = worker.board.bus.closed := by
    simp [submit, alive]
  exact ⟨alive_after submits.1 alone, (closed_after _ actions).trans submits.2,
    get?_of_not_begun admission numbered alive task (not_mem_begun _ alone)⟩

end Worker

namespace Session

variable {σ : Type} [Engine σ]

/-- What happens leaves the task alone. -/
def Occurrence.LeavesAlone (id : TaskId) (occurrence : Occurrence σ) : Prop :=
  ∀ action ∈ occurrence.actions, action.LeavesAlone id

/-- The session when the traffic of so many turns has passed, from this turn on. -/
def through (traffic : Nat → List (Occurrence σ)) (session : Session σ) (turn : Nat) : Nat → Session σ
  | 0 => session
  | turns + 1 => (session.after (traffic turn)).through traffic (turn + 1) turns

/-- The traffic of so many turns is a run of the worker. -/
theorem exists_actions_through {traffic : Nat → List (Occurrence σ)} {id : TaskId}
    (alone : ∀ turn, ∀ occurrence ∈ traffic turn, occurrence.LeavesAlone id) (session : Session σ)
    (turn turns : Nat) :
    ∃ actions : List (Worker.Action σ), (∀ action ∈ actions, action.LeavesAlone id) ∧
      (session.through traffic turn turns).worker = session.worker.after actions := by
  induction turns generalizing session turn with
  | zero => exact ⟨[], nofun, rfl⟩
  | succ turns ih =>
    obtain ⟨actions, each, same⟩ := ih (session.after (traffic turn)) (turn + 1)
    refine ⟨(traffic turn).flatMap (·.actions) ++ actions,
      List.forall_mem_append.mpr ⟨List.forall_mem_flatMap.mpr (alone turn), each⟩, ?_⟩
    rw [through, same, worker_after, Worker.after_append]

/-- Whatever happens in so many turns, a record only advances. -/
theorem get?_through {traffic : Nat → List (Occurrence σ)} {id : TaskId} (turns : Nat) {session : Session σ}
    {record : TrackedTask} (found : session.worker.board.registry.get? id = some record) (turn : Nat) :
    ∃ later, (session.through traffic turn turns).worker.board.registry.get? id = some later ∧
      record.Advances later := by
  induction turns generalizing session record turn with
  | zero => exact ⟨record, found, .refl record⟩
  | succ turns ih =>
    obtain ⟨middle, foundMiddle, advances⟩ := Worker.get?_after ((traffic turn).flatMap (·.actions)) found
    rw [← worker_after] at foundMiddle
    obtain ⟨last, foundLast, more⟩ := ih foundMiddle (turn + 1)
    exact ⟨last, foundLast, advances.trans more⟩

/-- A submission that was accepted: as long as others leave its task alone, this stays as it was
submitted. -/
theorem stays_of_created (engine : σ) (events : List EngineEvent) {bus : Bus} (isOpen : bus.closed = false)
    (catalog : Catalog) (earlier : List (Occurrence σ)) (request : Http.Request) :
    let session := (start engine events bus catalog).after earlier
    let id := session.worker.board.registry.nextId
    (session.request request).1.head.status = 201 →
    ∃ task, Api.readBody Task.decoder request = .ok task ∧ Text.isBlank task.name = false ∧
      session.worker.alive = true ∧
      (session.request request).2 = { session with worker := (session.worker.submit task).2 } ∧
      ∀ actions : List (Worker.Action σ), (∀ action ∈ actions, action.LeavesAlone id) →
        let later := (session.worker.submit task).2.after actions
        later.alive = true ∧ later.board.bus.closed = false ∧
          later.board.registry.get? id = some { id, task } ∧ later.active ≠ some id := by
  intro session id created
  obtain ⟨alive, task, read, named, answered⟩ := request_of_created created
  obtain ⟨begun, admission⟩ := exists_admission engine events bus catalog earlier
  have numbered : session.worker.board.registry.Numbered := numbered_start engine events bus catalog earlier
  have stillOpen : session.worker.board.bus.closed = false := by
    rw [worker_after, worker_start, Worker.closed_after, Worker.closed_after]
    exact isOpen
  refine ⟨task, read, named, alive, congrArg Prod.snd answered, fun actions alone => ?_⟩
  obtain ⟨stillAlive, bus, shown⟩ := Worker.after_submit admission numbered alive task alone
  exact ⟨stillAlive, bus.trans stillOpen, shown⟩

/-- What happens to a session while time passes. -/
def elapsing [Clocked σ] (span : Millis) : List (Occurrence σ) :=
  [.act (.engine fun engine => Clocked.elapse engine span), .act (.command .getActive), .pass span]

theorem elapse_eq_after [Clocked σ] (session : Session σ) (span : Millis) :
    session.elapse span = session.after (elapsing span) := by
  rw [elapsing, after_cons, after_cons, after_cons, after_nil]
  simp only [next, Worker.next, Worker.handle, Worker.getActive_worker]
  rfl

omit [Engine σ] in
theorem leavesAlone_elapsing [Clocked σ] (span : Millis) (id : TaskId) :
    ∀ occurrence ∈ (elapsing span : List (Occurrence σ)), occurrence.LeavesAlone id := by
  simp [elapsing, Occurrence.LeavesAlone, Occurrence.actions, Worker.Action.LeavesAlone]

end Session

/-! ## Waiting meanwhile -/

namespace Waits

variable {σ : Type} {id : TaskId} {record : TrackedTask} {worker : Worker σ}

/-- Whatever others do, a wait for the task stays sound. -/
theorem after [Engine σ] {wait : Wait} (waits : Waits id record worker wait) {actions : List (Worker.Action σ)}
    (alone : ∀ action ∈ actions, action.LeavesAlone id) :
    ∃ later, record.Advances later ∧ Waits id later (worker.after actions) wait := by
  induction actions generalizing worker record with
  | nil => exact ⟨record, .refl record, waits⟩
  | cons action actions ih =>
    obtain ⟨middle, advances, waits⟩ := waits.act (alone action List.mem_cons_self).spares
    obtain ⟨last, more, waits⟩ := ih waits fun other member => alone other (List.mem_cons_of_mem _ member)
    exact ⟨last, advances.trans more, waits⟩

theorem iterate {wait : Wait} (waits : Waits id record worker wait) (steps : Nat) :
    Waits id record worker ((Wait.next worker)^[steps] wait) := by
  induction steps generalizing wait with
  | zero => exact waits
  | succ steps ih =>
    rw [Function.iterate_succ_apply]
    exact ih waits.next

/-- To read while the task is not complete loses nothing. -/
theorem await_of_incomplete {sub : Subscription} (waits : Waits id record worker (.reading sub))
    (incomplete : record.isComplete = false) :
    ∃ later, worker.await sub = (.pending, later) ∧ Waits id record worker (.reading later) := by
  have told := waits.await_eq
  rw [incomplete] at told
  obtain ⟨steps, last⟩ := Wait.exists_steps_await worker sub waits.sound.2.inLog
  have waitsOn := waits.iterate steps
  have pending : worker.await sub = (.pending, (worker.await sub).2) := Prod.ext told rfl
  rw [last, pending] at waitsOn
  exact ⟨_, pending, waitsOn⟩

end Waits

/-- Who subscribes to a task that is there and not complete waits for it from then on. -/
theorem Worker.waits_subscribe {σ : Type} {worker : Worker σ} {id : TaskId} {record : TrackedTask}
    (alive : worker.alive = true) (isOpen : worker.board.bus.closed = false)
    (found : worker.board.registry.get? id = some record) (incomplete : record.isComplete = false) :
    Waits id record worker (.reading (worker.subscribe id)) :=
  ⟨alive, isOpen, found, rfl, worker.board.announces_at_end (Registry.completion?_of_incomplete found incomplete)⟩

/-! ## Reading a stream -/

/-- A stream that is open since before its task was complete. -/
structure CompletionStream.Waits {σ : Type} (id : TaskId) (record : TrackedTask) (worker : Worker σ)
    (stream : CompletionStream) : Prop where
  running : stream.ended = false
  unknown : stream.known = none
  waits : PlanService.Waits id record worker (.reading stream.subscription)

namespace CompletionStream

variable {σ : Type} {id : TaskId} {record : TrackedTask} {worker : Worker σ} {stream : CompletionStream}

/-- Whatever others do, the stream keeps waiting for the task. -/
theorem Waits.after [Engine σ] {session : Session σ} (waits : stream.Waits id record session.worker)
    {occurrences : List (Session.Occurrence σ)} (alone : ∀ occurrence ∈ occurrences, occurrence.LeavesAlone id) :
    ∃ later, record.Advances later ∧ stream.Waits id later (session.after occurrences).worker := by
  obtain ⟨later, advances, waitsOn⟩ := waits.waits.after (List.forall_mem_flatMap.mpr alone)
  rw [Session.worker_after]
  exact ⟨later, advances, waits.running, waits.unknown, waitsOn⟩

theorem Waits.read_of_complete (waits : stream.Waits id record worker) (complete : record.isComplete = true)
    (now : Millis) :
    ∃ later, stream.read worker now = (record.completion.event.text, later) ∧ later.ended = true := by
  have told := waits.waits.await_eq
  rw [complete] at told
  have polled : stream.poll worker = (some record.completion.event, (worker.await stream.subscription).2) := by
    rw [poll, waits.unknown]
    simp only [told]
    rfl
  rw [read, if_neg (by simp [waits.running]), polled]
  exact ⟨_, rfl, rfl⟩

/-- What a stream sends that has nothing to tell. -/
def IsQuiet (text : String) : Prop := text = "" ∨ text = keepAliveText

theorem Waits.read_of_incomplete (waits : stream.Waits id record worker) (incomplete : record.isComplete = false)
    (now : Millis) :
    ∃ text later, stream.read worker now = (text, later) ∧ IsQuiet text ∧ later.Waits id record worker := by
  obtain ⟨subscription, told, waitsOn⟩ := waits.waits.await_of_incomplete incomplete
  have polled : stream.poll worker = (none, subscription) := by
    rw [poll, waits.unknown]
    simp only [told]
    rfl
  rw [read, if_neg (by simp [waits.running]), polled]
  simp only
  split
  · exact ⟨_, _, rfl, .inr rfl, waits.running, waits.unknown, waitsOn⟩
  · exact ⟨_, _, rfl, .inl rfl, waits.running, waits.unknown, waitsOn⟩

end CompletionStream

namespace Watcher

theorem feed_quiet {text : String} (quiet : CompletionStream.IsQuiet text) : feed {} text false = {} := by
  rcases quiet with rfl | rfl
  · rfl
  · rfl

theorem next_feed_completion (completion : Completion) (ended : Bool) :
    ((feed {} completion.event.text ended).next).1 = some (.ok completion) := by
  have heard : EventStream.events completion.event.text = [completion.event] :=
    ServerEvent.events_charsAfter completion.sendable_event 0
  rw [feed, heard]
  exact congrArg (·.1) (next_of_completion completion ended)

end Watcher

/-! ## Networks with others on them -/

/-- The session at the address as others have left it once they had a turn. -/
def Hosted.after {σ : Type} [Engine σ] (hosted : Hosted σ) (occurrences : List (Session.Occurrence σ)) : Hosted σ :=
  { hosted with session := hosted.session.after occurrences }

theorem Client.Reaches.after {σ : Type} [Engine σ] {client : Client} {hosted : Hosted σ}
    (reaches : client.Reaches hosted) (occurrences : List (Session.Occurrence σ)) :
    client.Reaches (hosted.after occurrences) :=
  ⟨reaches.up, reaches.address⟩

/-- A session that others have their turns at. -/
def Live.amid {σ : Type} [Engine σ] (traffic : Nat → List (Session.Occurrence σ)) (hosted : Hosted σ)
    (turn : Nat) : Live σ where
  hosted
  meanwhile := fun turn session => session.after (traffic turn)
  turn

theorem Json.length_escape_le (c : Char) : (escape c).length ≤ 6 := by
  unfold escape
  repeat' split
  all_goals exact Nat.le_of_ble_eq_true rfl

theorem Json.length_quote_le (s : String) : (quote s).length ≤ 6 * s.toList.length + 2 := by
  have escaped (cs : List Char) : (cs.flatMap escape).length ≤ 6 * cs.length := by
    induction cs with
    | nil => exact Nat.le_refl 0
    | cons c cs ih =>
      have one := length_escape_le c
      rw [List.flatMap_cons, List.length_append, List.length_cons]
      omega
  have all := escaped s.toList
  rw [quote, List.length_cons, List.length_append, List.length_singleton]
  omega

/-- When a machine word counts the tasks, their ids are short enough to be asked for. -/
theorem Client.small_begin {n : Nat} (few : n ≤ 2 ^ 64) :
    (ActiveTask.mk (some (.ofNumber n))).toJson.compact.utf8ByteSize ≤ Api.bodyLimit := by
  have digits : (Nat.toDigits 10 n).length ≤ 20 :=
    Nat.toDigitsCore_length 10 (n + 1) n 20 (by decide) (Nat.lt_of_le_of_lt few (by decide))
  have id : (TaskId.ofNumber n).text.toList.length ≤ 25 := by
    have front : "task-".toList.length = 5 := rfl
    simp only [TaskId.ofNumber, String.toList_append, String.toList_ofList, List.length_append, List.length_replicate]
    omega
  have body : (ActiveTask.mk (some (.ofNumber n))).toJson.chars =
      '\x7b' :: (Json.quote "task_id" ++ ':' :: (Json.quote (TaskId.ofNumber n).text ++ ['\x7d'])) := by
    simp [ActiveTask.toJson, TaskId.toJson, Json.chars, Json.memberChars]
  have name : (Json.quote "task_id").length = 9 := rfl
  have text := Json.length_quote_le (TaskId.ofNumber n).text
  refine Nat.le_trans (Client.size_compact_le _) ?_
  simp only [body, List.length_cons, List.length_append, List.length_nil, name, Api.bodyLimit]
  omega

namespace Client

variable {σ : Type} [Engine σ] {traffic : Nat → List (Session.Occurrence σ)} {client : Client} {hosted : Hosted σ}

/-- A call is sent to the session as it is after one more turn. -/
theorem send_amid {α : Type} (reaches : client.Reaches hosted) (call : Call α) {rest : List Char}
    (path : call.path = String.ofList ('/' :: rest)) (plain : Http.Url.IsPlainPath rest) (turn : Nat) :
    client.send call (Live.amid traffic hosted turn) =
      ((client.send call (hosted.after (traffic turn))).1,
        Live.amid traffic (client.send call (hosted.after (traffic turn))).2 (turn + 1)) := by
  have url := reaches.url?_eq plain
  rw [← path] at url
  have sent (url : Http.Url) (request : Http.Request) :
      Network.send (Live.amid traffic hosted turn) url request =
        ((Network.send (hosted.after (traffic turn)) url request).1,
          Live.amid traffic (Network.send (hosted.after (traffic turn)) url request).2 (turn + 1)) := rfl
  rw [send, send, url]
  simp only [sent]
  obtain ⟨_ | reply, later⟩ := Network.send (hosted.after (traffic turn)) _ (call.request _) <;> rfl

theorem perform_amid {α : Type} (reaches : client.Reaches hosted) (call : Call α) {rest : List Char}
    (path : call.path = String.ofList ('/' :: rest)) (plain : Http.Url.IsPlainPath rest) (turn : Nat) :
    client.perform call (Live.amid traffic hosted turn) =
      ((client.perform call (hosted.after (traffic turn))).1,
        Live.amid traffic (client.perform call (hosted.after (traffic turn))).2 (turn + 1)) := by
  rw [perform, send_amid reaches call path plain]
  rfl

end Client

theorem Api.ofPath_completion {id : List Char} (plain : ∀ c ∈ id, Http.isPlain c = true) :
    Route.ofPath ('/' :: ("tasks/".toList ++ (id ++ "/completion".toList))) = some (.completion id) := by
  have uncut : '/' ∉ id := fun member => Bool.noConfusion (plain '/' member)
  have pieces : Text.split '/' ('/' :: ("tasks/".toList ++ (id ++ "/completion".toList))) =
      [[], "tasks".toList, id, "completion".toList] := by
    have cut : '/' :: ("tasks/".toList ++ (id ++ "/completion".toList)) =
        [] ++ '/' :: ("tasks".toList ++ '/' :: (id ++ '/' :: "completion".toList)) := rfl
    rw [cut, Text.split_append (by decide), Text.split_append (by decide), Text.split_append uncut,
      Text.split_of_not_mem (by decide)]
  rw [Route.ofPath, pieces]
  simp

namespace Watching

variable {σ : Type} [Engine σ] {traffic : Nat → List (Session.Occurrence σ)} {hosted : Hosted σ}

/-- The stream of a task that is there and not complete is opened. -/
theorem start_amid {client : Client} (reaches : client.Reaches hosted) {id : TaskId} {record : TrackedTask}
    (plain : ∀ c ∈ id.text.toList, Http.isPlain c = true) (turn : Nat)
    (alive : (hosted.after (traffic turn)).session.worker.alive = true)
    (isOpen : (hosted.after (traffic turn)).session.worker.board.bus.closed = false)
    (found : (hosted.after (traffic turn)).session.worker.board.registry.get? id = some record)
    (incomplete : record.isComplete = false) :
    ∃ stream : CompletionStream,
      start client id (Live.amid traffic hosted turn) =
        (.ok { watcher := {}, connection := some stream },
          Live.amid traffic (hosted.after (traffic turn)) (turn + 1)) ∧
      stream.Waits id record (hosted.after (traffic turn)).session.worker := by
  have path : (Watcher.opening id).path =
      String.ofList ('/' :: ("tasks/".toList ++ (id.text.toList ++ "/completion".toList))) := by
    have pieces : (Watcher.opening id).path = "/tasks/" ++ id.text ++ "/completion" := rfl
    refine String.toList_inj.mp ?_
    rw [pieces, String.toList_ofList, String.toList_append, String.toList_append, List.append_assoc]
    rfl
  have plainPath : Http.Url.IsPlainPath ("tasks/".toList ++ (id.text.toList ++ "/completion".toList)) := by
    have front : Http.Url.IsPlainPath "tasks/".toList := by decide
    have back : Http.Url.IsPlainPath "/completion".toList := by decide
    exact List.forall_mem_append.mpr ⟨front, List.forall_mem_append.mpr ⟨fun c member => .inl (plain c member), back⟩⟩
  have goes := Api.ofPath_completion plain
  let opened : CompletionStream :=
    { subscription := (hosted.after (traffic turn)).session.worker.subscribe id
      known := none
      keepAlive := (hosted.after (traffic turn)).session.clock + CompletionStream.silence }
  have looked : (hosted.after (traffic turn)).session.worker.board.registry.get?
      ((hosted.after (traffic turn)).session.worker.subscribe id).id = some record := found
  have sent : client.send (Watcher.opening id) (hosted.after (traffic turn)) =
      (.ok (Api.streamHead.withHeader Api.versionHeader Api.version, some opened), hosted.after (traffic turn)) := by
    rw [Client.send_route (reaches.after (traffic turn)) (Watcher.opening id) path plainPath goes rfl nofun,
      Api.answerRoute, Api.readName_plain plain, Api.whenRead, String.ofList_toList, Api.openStream, Api.lookUp,
      Worker.get, if_pos alive, looked]
    simp only [incomplete]
    rfl
  refine ⟨opened, ?_, rfl, rfl, Worker.waits_subscribe alive isOpen found incomplete⟩
  rw [start, Client.send_amid reaches (Watcher.opening id) path plainPath, sent]
  rfl

/-- A look at the stream, once others have had a turn. -/
theorem next_amid (stream : CompletionStream) (turn : Nat) :
    let now := (hosted.after (traffic turn)).session
    let read := stream.read now.worker now.clock
    let told := (Watcher.feed {} read.1 read.2.ended).next
    next { watcher := {}, connection := some stream } (Live.amid traffic hosted turn) =
      (told.1, { watcher := told.2, connection := some read.2 },
        Live.amid traffic (hosted.after (traffic turn)) (turn + 1)) := rfl

end Watching

end PlanService
