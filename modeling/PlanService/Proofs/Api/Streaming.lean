import PlanService.Api.Service
import PlanService.Proofs.Worker.Waiting

/-! # Streams of a completion

Somebody who asks for the completion of a task subscribes to it, and then looks it up.  The
task may end before they subscribe, between the two steps, while they wait, or when they have
fallen behind: then the record tells it, the bus does, or the record that is asked for once
more.  Between any two steps of anybody the worker may do anything.

`Stage.Sound` says how each of them stands with the task, and no step of anybody spoils it for
anybody else.  So nobody is told anything but the completion of the task's record, and nobody
is told it twice.
-/

namespace PlanService

/-- How an open stream waits for what it has to send. -/
def CompletionStream.wait (stream : CompletionStream) : Wait :=
  match stream.known with
  | some completion => .ended (.completion completion) stream.subscription
  | none => .reading stream.subscription

namespace Api

open Http (Response)

/-- How far somebody is who asks for the completion of a task. -/
inductive Stage where
  -- They have subscribed when they came, and the task is to be looked up.
  | subscribed (subscription : Subscription) (came : Millis)
  | refused (response : Response)
  -- Their stream is open, and nothing has been sent.
  | waiting (head : Response) (wait : Wait)
  -- Their stream is over, with these events.
  | closed (head : Response) (events : List ServerEvent)

namespace Stage

variable {σ : Type}

def ofAnswer : Answer → Stage
  | .response response => refused response
  | .stream head stream => waiting head stream.wait

def next (worker : Worker σ) : Stage → Stage
  | subscribed subscription came => ofAnswer (lookUp worker subscription came)
  | refused response => refused response
  | waiting head (.ended result subscription) => closed head (result.event? subscription.id).toList
  | waiting head wait => waiting head (wait.next worker)
  | closed head events => closed head events

/-- What has been sent on the stream. -/
def sent : Stage → List ServerEvent
  | closed _ events => events
  | _ => []

theorem next_waiting (worker : Worker σ) (head : Response) {wait : Wait}
    (goesOn : ∀ result subscription, wait ≠ .ended result subscription) :
    next worker (waiting head wait) = waiting head (wait.next worker) := by
  cases wait with
  | ended result subscription => exact absurd rfl (goesOn result subscription)
  | _ => rfl

/-- How somebody stands with a task: what is announced for it is still to come, or the record
tells that it is complete. -/
def Sound (id : TaskId) (board : Board) : Stage → Prop
  | subscribed subscription _ => subscription.id = id ∧
      ((∃ record, board.registry.get? id = some record ∧ record.isComplete = true) ∨
        board.Announces subscription.cursor id)
  | refused response => response.status = 404
  | waiting head wait => head.status = 200 ∧
      ∃ record, board.registry.get? id = some record ∧ wait.Sound id record board
  | closed head events => head.status = 200 ∧
      ∃ record, board.registry.get? id = some record ∧ record.isComplete = true ∧
        events = [record.completion.event]

variable {id : TaskId} {worker : Worker σ} {stage : Stage}

theorem sound_subscribe (worker : Worker σ) (id : TaskId) (came : Millis) :
    (subscribed (worker.subscribe id) came).Sound id worker.board := by
  refine ⟨rfl, ?_⟩
  cases due : worker.board.registry.completion? id with
  | none => exact .inr (worker.board.announces_at_end due)
  | some completion =>
    obtain ⟨record, found, complete, -⟩ := Registry.completion?_eq_some_iff.mp due
    exact .inl ⟨record, found, complete⟩

/-- Nothing that spares the task makes anybody's stage unsound. -/
theorem Sound.act [Engine σ] (sound : stage.Sound id worker.board) {action : Worker.Action σ}
    (spares : action.Spares id) : stage.Sound id (worker.next action).board := by
  have keeps {record : TrackedTask} (found : worker.board.registry.get? id = some record)
      (complete : record.isComplete = true) :
      (worker.next action).board.registry.get? id = some record := by
    obtain ⟨later, stillFound, advances⟩ := Worker.get?_next action found
    rwa [advances.frozen complete] at stillFound
  cases stage with
  | refused response => exact sound
  | subscribed subscription came =>
    refine ⟨sound.1, sound.2.imp ?_ fun announces => Worker.announces_next announces spares⟩
    rintro ⟨record, found, complete⟩
    exact ⟨record, keeps found complete, complete⟩
  | waiting head wait =>
    obtain ⟨status, record, found, sound⟩ := sound
    obtain ⟨later, stillFound, advances⟩ := Worker.get?_next action found
    exact ⟨status, later, stillFound,
      sound.mono advances fun _ announces => Worker.announces_next announces spares⟩
  | closed head events =>
    obtain ⟨status, record, found, complete, sent⟩ := sound
    exact ⟨status, record, keeps found complete, complete, sent⟩

/-- Who looks a task up is refused if it is not registered, and waits for it otherwise. -/
theorem next_subscribed (alive : worker.alive = true) (subscription : Subscription) (came : Millis) :
    next worker (subscribed subscription came) =
      match worker.board.registry.get? subscription.id with
      | none => refused Refusal.noSuchItem.response
      | some record => waiting streamHead
        (if record.isComplete then .ended (.completion record.completion) subscription
          else .reading subscription) := by
  rw [next, lookUp, Worker.get, if_pos alive]
  cases worker.board.registry.get? subscription.id with
  | none => rfl
  | some record =>
    cases complete : record.isComplete <;> simp [ofAnswer, CompletionStream.wait, complete]

theorem Sound.next (sound : stage.Sound id worker.board) (alive : worker.alive = true)
    (isOpen : worker.board.bus.closed = false) : (stage.next worker).Sound id worker.board := by
  cases stage with
  | refused response => exact sound
  | closed head events => exact sound
  | subscribed subscription came =>
    obtain ⟨rfl, sound⟩ := sound
    rw [next_subscribed alive]
    cases found : worker.board.registry.get? subscription.id with
    | none => exact rfl
    | some record =>
      refine ⟨rfl, record, found, ?_⟩
      cases complete : record.isComplete with
      | true => exact ⟨complete, rfl⟩
      | false =>
        refine ⟨rfl, sound.resolve_left ?_⟩
        rintro ⟨other, isOther, isComplete⟩
        rw [found] at isOther
        cases isOther
        rw [complete] at isComplete
        cases isComplete
  | waiting head wait =>
    obtain ⟨status, record, found, sound⟩ := sound
    have waits : Waits id record worker wait := ⟨alive, isOpen, found, sound⟩
    cases wait with
    | ended result subscription =>
      obtain ⟨complete, rfl⟩ := sound
      exact ⟨status, record, found, complete, rfl⟩
    | _ => exact ⟨status, record, found, waits.next.sound⟩

/-- What there is to send on an open stream: the completion if the task is complete, and
nothing if it is not. -/
theorem poll_eq {record : TrackedTask} {stream : CompletionStream}
    (waits : Waits id record worker stream.wait) :
    (stream.poll worker).1 = if record.isComplete then some record.completion.event else none := by
  unfold CompletionStream.wait at waits
  unfold CompletionStream.poll
  cases known : stream.known with
  | some completion =>
    rw [known] at waits
    obtain ⟨complete, same⟩ := waits.sound
    cases same
    rw [complete, if_pos rfl]
  | none =>
    rw [known] at waits
    dsimp only
    rw [waits.await_eq]
    cases record.isComplete <;> rfl

/-! ## Once the task is complete -/

theorem Sound.waits {head : Response} {wait : Wait} (sound : (waiting head wait).Sound id worker.board)
    (alive : worker.alive = true) (isOpen : worker.board.bus.closed = false) {record : TrackedTask}
    (found : worker.board.registry.get? id = some record) : Waits id record worker wait := by
  obtain ⟨-, other, isOther, sound⟩ := sound
  rw [found] at isOther
  cases isOther
  exact ⟨alive, isOpen, found, sound⟩

/-- Somebody has at most so many steps to take until they are told. -/
def Within (id : TaskId) (board : Board) (steps : Nat) : Stage → Prop
  | subscribed _ _ => 2 ≤ steps
  | waiting _ wait => ∃ few < steps, wait.Within id board few
  | closed _ _ => True
  -- Who was refused is told nothing.
  | refused _ => False

theorem Sound.exists_within (sound : stage.Sound id worker.board) (alive : worker.alive = true)
    (isOpen : worker.board.bus.closed = false) {record : TrackedTask}
    (found : worker.board.registry.get? id = some record) (complete : record.isComplete = true)
    (accepted : ∀ response, stage ≠ .refused response) : ∃ steps, stage.Within id worker.board steps := by
  cases stage with
  | refused response => exact absurd rfl (accepted response)
  | subscribed subscription came => exact ⟨2, Nat.le_refl 2⟩
  | closed head events => exact ⟨0, trivial⟩
  | waiting head wait =>
    obtain ⟨few, within⟩ := (sound.waits alive isOpen found).exists_within complete
    exact ⟨few + 1, few, Nat.lt_succ_self few, within⟩

theorem Within.next {steps : Nat} (within : stage.Within id worker.board steps)
    (sound : stage.Sound id worker.board) (alive : worker.alive = true)
    (isOpen : worker.board.bus.closed = false) {record : TrackedTask}
    (found : worker.board.registry.get? id = some record) (complete : record.isComplete = true) :
    (stage.next worker).Within id worker.board (steps - 1) := by
  cases stage with
  | refused response => cases within
  | closed head events => trivial
  | subscribed subscription came =>
    obtain ⟨rfl, -⟩ := sound
    rw [next_subscribed alive, found]
    simp only [complete, if_true]
    exact ⟨0, Nat.sub_pos_of_lt within, trivial⟩
  | waiting head wait =>
    obtain ⟨few, less, within⟩ := within
    by_cases isOver : ∃ result subscription, wait = .ended result subscription
    · obtain ⟨result, subscription, rfl⟩ := isOver
      trivial
    · have goesOn : ∀ result subscription, wait ≠ .ended result subscription :=
        fun result subscription same => isOver ⟨result, subscription, same⟩
      rw [next_waiting worker head goesOn]
      have := within.pos goesOn
      exact ⟨few - 1, by omega, (sound.waits alive isOpen found).within_next complete within⟩

theorem Within.mono {board other : Board} (log : board.bus.log.toList <+: other.bus.log.toList) {steps : Nat}
    (within : stage.Within id board steps) : stage.Within id other steps := by
  cases stage with
  | waiting head wait =>
    obtain ⟨few, less, within⟩ := within
    exact ⟨few, less, Waits.within_mono log within⟩
  | _ => exact within

end Stage

/-! ## Everybody who asks -/

/-- A worker, and all who asked for the completion of one task, in the order in which they came. -/
structure Audience (σ : Type) where
  worker : Worker σ
  stages : List Stage := []

/-- What happens next: the worker does something, somebody comes and subscribes, or one who is
there takes the next step. -/
inductive Incident (σ : Type) where
  | act (action : Worker.Action σ)
  | come (now : Millis)
  | step (n : Nat)

namespace Incident

variable {σ : Type}

def Spares (id : TaskId) : Incident σ → Prop
  | act action => action.Spares id
  | come _ | step _ => True

def isStepOf (n : Nat) : Incident σ → Bool
  | step m => m == n
  | act _ | come _ => false

end Incident

namespace Audience

variable {σ : Type} [Engine σ] {id : TaskId} {audience : Audience σ}

def happen (id : TaskId) (audience : Audience σ) : Incident σ → Audience σ
  | .act action => { audience with worker := audience.worker.next action }
  | .come now =>
    { audience with stages := audience.stages ++ [.subscribed (audience.worker.subscribe id) now] }
  | .step n => { audience with stages := audience.stages.modify n (·.next audience.worker) }

/-- Everybody stands well with the task of a worker that is alive and whose bus is open. -/
structure Served (id : TaskId) (audience : Audience σ) : Prop where
  alive : audience.worker.alive = true
  isOpen : audience.worker.board.bus.closed = false
  sound : ∀ stage ∈ audience.stages, stage.Sound id audience.worker.board

/-- Where the `n`th of them is after an incident. -/
theorem getElem?_happen (id : TaskId) {n : Nat} {stage : Stage} (isStage : audience.stages[n]? = some stage)
    (incident : Incident σ) :
    (audience.happen id incident).stages[n]? =
      some (if incident.isStepOf n then stage.next audience.worker else stage) := by
  cases incident with
  | act action => exact isStage
  | come now =>
    have inside : n < audience.stages.length := (List.getElem?_eq_some_iff.mp isStage).1
    rw [happen, List.getElem?_append_left inside]
    exact isStage
  | step m =>
    rw [happen, List.getElem?_modify, isStage]
    by_cases isIt : m = n <;> simp [Incident.isStepOf, isIt]

theorem Served.happen (served : audience.Served id) {incident : Incident σ} (spares : incident.Spares id) :
    (audience.happen id incident).Served id := by
  obtain ⟨alive, isOpen, sound⟩ := served
  cases incident with
  | act action =>
    exact ⟨Worker.alive_next alive spares, (audience.worker.closed_next action).trans isOpen,
      fun stage member => (sound stage member).act spares⟩
  | come now =>
    refine ⟨alive, isOpen, fun stage member => ?_⟩
    rcases List.mem_append.mp member with member | member
    · exact sound stage member
    · rw [List.mem_singleton.mp member]
      exact Stage.sound_subscribe audience.worker id now
  | step m =>
    refine ⟨alive, isOpen, fun stage member => ?_⟩
    obtain ⟨n, isStage⟩ := List.mem_iff_getElem?.mp member
    rw [Audience.happen, List.getElem?_modify, Option.map_eq_map, Option.map_eq_some_iff] at isStage
    obtain ⟨before, isBefore, rfl⟩ := isStage
    have soundBefore := sound before (List.mem_of_getElem? isBefore)
    split
    · exact soundBefore.next alive isOpen
    · exact soundBefore

theorem Served.happenAll (served : audience.Served id) {incidents : List (Incident σ)}
    (spared : ∀ incident ∈ incidents, incident.Spares id) :
    (incidents.foldl (Audience.happen id) audience).Served id := by
  induction incidents generalizing audience with
  | nil => exact served
  | cons incident incidents ih =>
    exact ih (served.happen (spared incident List.mem_cons_self)) fun other member =>
      spared other (List.mem_cons_of_mem _ member)

/-- After a task is complete everybody comes nearer to the end with each step of their own, and
nobody is set back. -/
theorem Served.within_happen (served : audience.Served id) {record : TrackedTask}
    (found : audience.worker.board.registry.get? id = some record) (complete : record.isComplete = true)
    {n : Nat} {stage : Stage} (isStage : audience.stages[n]? = some stage) {steps : Nat}
    (within : stage.Within id audience.worker.board steps) (incident : Incident σ) :
    (audience.happen id incident).worker.board.registry.get? id = some record ∧
      ∃ later, (audience.happen id incident).stages[n]? = some later ∧
        later.Within id (audience.happen id incident).worker.board
          (steps - if incident.isStepOf n then 1 else 0) := by
  have moved := getElem?_happen id isStage incident
  cases incident with
  | act action =>
    obtain ⟨later, stillFound, advances⟩ := Worker.get?_next action found
    rw [advances.frozen complete] at stillFound
    exact ⟨stillFound, stage, isStage, within.mono (Waits.log_next audience.worker action)⟩
  | come now => exact ⟨found, stage, moved, within⟩
  | step m =>
    refine ⟨found, _, moved, ?_⟩
    have sound := served.sound stage (List.mem_of_getElem? isStage)
    split
    · exact within.next sound served.alive served.isOpen found complete
    · exact within

/-- Who takes enough steps after the task is complete is told so, whatever happens in between. -/
theorem Served.told_of_within (served : audience.Served id) {record : TrackedTask}
    (found : audience.worker.board.registry.get? id = some record) (complete : record.isComplete = true)
    {n : Nat} {stage : Stage} (isStage : audience.stages[n]? = some stage) {steps : Nat}
    (within : stage.Within id audience.worker.board steps) {incidents : List (Incident σ)}
    (spared : ∀ incident ∈ incidents, incident.Spares id)
    (enough : steps ≤ incidents.countP (·.isStepOf n)) :
    ∃ later, (incidents.foldl (Audience.happen id) audience).stages[n]? = some later ∧
      later.sent = [record.completion.event] := by
  induction incidents generalizing audience stage steps with
  | nil =>
    have none : steps = 0 := Nat.le_zero.mp enough
    subst none
    refine ⟨stage, isStage, ?_⟩
    cases stage with
    | closed head events =>
      obtain ⟨-, other, isOther, -, sent⟩ := served.sound _ (List.mem_of_getElem? isStage)
      rw [found] at isOther
      cases isOther
      exact sent
    | refused response => cases within
    | subscribed subscription came => cases within
    | waiting head wait =>
      obtain ⟨few, less, -⟩ := within
      cases less
  | cons incident incidents ih =>
    obtain ⟨stillFound, later, isLater, nearer⟩ := served.within_happen found complete isStage within incident
    rw [List.countP_cons] at enough
    exact ih (served.happen (spared incident List.mem_cons_self)) stillFound isLater nearer
      (fun other member => spared other (List.mem_cons_of_mem _ member)) (by omega)

end Audience

/-- Anybody may ask for the completion of a task at any time, while the worker is alive, its engine
does what it likes and others publish for other tasks, however little the bus keeps.  Who looks
the task up is refused with 404 exactly if it is not registered then, and otherwise gets a stream.
A stream has sent nothing, or one event, which is the completion of the task's record, and the
record is complete.  An open stream that is read sends this event if the task is complete, and
nothing if it is not.  And once the task is complete every stream sends it after a bounded number
of its own steps, whatever happens in between; so all streams tell the same. -/
theorem completion_streamed_once {σ : Type} [Engine σ] {worker : Worker σ} {id : TaskId}
    (alive : worker.alive = true) (isOpen : worker.board.bus.closed = false)
    {incidents : List (Incident σ)} (spared : ∀ incident ∈ incidents, incident.Spares id) :
    let now := incidents.foldl (Audience.happen id) { worker }
    let registry := now.worker.board.registry
    (∀ stage ∈ now.stages,
      (∀ subscription came, stage = .subscribed subscription came →
        (lookUp now.worker subscription came).head.status =
          if (registry.get? id).isSome then 200 else 404) ∧
      (∀ response, stage = .refused response → response.status = 404) ∧
      (stage.sent ≠ [] → ∃ record, registry.get? id = some record ∧ record.isComplete = true ∧
        stage.sent = [⟨"completion", record.completion.toJson.compact⟩]) ∧
      ∀ head (stream : CompletionStream), stage = .waiting head stream.wait →
        ∃ record, registry.get? id = some record ∧ (stream.poll now.worker).1 =
          if record.isComplete then some ⟨"completion", record.completion.toJson.compact⟩ else none) ∧
    ∀ record, registry.get? id = some record → record.isComplete = true →
      ∀ n stage, now.stages[n]? = some stage → (∀ response, stage ≠ .refused response) →
      ∃ steps, ∀ more : List (Incident σ), (∀ incident ∈ more, incident.Spares id) →
        steps ≤ more.countP (·.isStepOf n) →
        ∃ later, (more.foldl (Audience.happen id) now).stages[n]? = some later ∧
          later.sent = [⟨"completion", record.completion.toJson.compact⟩] := by
  intro now registry
  have start : Audience.Served id { worker } := ⟨alive, isOpen, nofun⟩
  have served : now.Served id := start.happenAll spared
  refine ⟨fun stage member => ?_, fun record found complete n stage isStage accepted => ?_⟩
  · have sound := served.sound stage member
    refine ⟨?_, ?_, ?_, ?_⟩
    · rintro subscription came rfl
      obtain ⟨rfl, -⟩ := sound
      rw [lookUp, Worker.get, if_pos served.alive]
      show _ = if (now.worker.board.registry.get? subscription.id).isSome then 200 else 404
      cases now.worker.board.registry.get? subscription.id <;> rfl
    · rintro response rfl
      exact sound
    · intro told
      cases stage with
      | closed head events =>
        obtain ⟨-, record, found, complete, sent⟩ := sound
        exact ⟨record, found, complete, sent⟩
      | _ => exact absurd rfl told
    · rintro head stream rfl
      obtain ⟨-, record, found, sound⟩ := sound
      exact ⟨record, found, Stage.poll_eq ⟨served.alive, served.isOpen, found, sound⟩⟩
  · have sound := served.sound stage (List.mem_of_getElem? isStage)
    obtain ⟨steps, within⟩ := sound.exists_within served.alive served.isOpen found complete accepted
    exact ⟨steps, fun more spared enough =>
      served.told_of_within found complete isStage within spared enough⟩

/-- Three who ask: one subscribes before the task is submitted and falls behind on a bus that
keeps one entry, one looks the task up only after it has failed, and one comes late. -/
theorem everybody_told_the_same :
    let worker : Worker Simulated := .ofEngine {} { capacity := 1 }
    let id := TaskId.ofNumber 1
    let incidents : List (Incident Simulated) :=
      [.come 0, .act (.command (.submit { name := "nap" })), .step 0, .come 0,
        .act (.command (.begin id)), .act (.publish ⟨⟨"a"⟩, .complete, []⟩),
        .act (.publish ⟨⟨"b"⟩, .complete, []⟩), .step 1, .step 1, .step 0, .step 0, .step 0, .step 0,
        .come 0, .step 2, .step 2]
    let now := incidents.foldl (Audience.happen id) { worker }
    now.stages.length = 3 ∧
      ∃ record, now.worker.board.registry.get? id = some record ∧ record.isComplete = true ∧
        ∀ stage ∈ now.stages, stage.sent = [⟨"completion", record.completion.toJson.compact⟩] := by
  intro worker id incidents now
  have spared : ∀ incident ∈ incidents, incident.Spares id := by
    have others : (⟨"a"⟩ : TaskId) ≠ id ∧ (⟨"b"⟩ : TaskId) ≠ id := by decide
    simp [incidents, Incident.Spares, Worker.Action.Spares, others]
  have alive : worker.alive = true := rfl
  have isOpen : worker.board.bus.closed = false := rfl
  obtain ⟨each, -⟩ := completion_streamed_once alive isOpen spared
  have three : now.stages.length = 3 := by decide +kernel
  have told : ∀ stage ∈ now.stages, stage.sent ≠ [] := by
    have nonempty : now.stages.all (!·.sent.isEmpty) = true := by decide +kernel
    simpa using nonempty
  obtain ⟨first, member⟩ := List.exists_mem_of_length_pos (l := now.stages) (by omega)
  obtain ⟨record, found, complete, -⟩ := (each first member).2.2.1 (told first member)
  refine ⟨three, record, found, complete, fun stage member => ?_⟩
  obtain ⟨other, isOther, -, sent⟩ := (each stage member).2.2.1 (told stage member)
  rw [Option.some.inj (found.symm.trans isOther)]
  exact sent

end Api

end PlanService
