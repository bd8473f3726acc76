import PlanService.Engine.Recording
import PlanService.Proofs.Board.Ending
import PlanService.Proofs.Worker.Requests

/-! # The worker in small

With an engine that is at once where it was asked to be, a worker needs no queue, no records and
no bus to say what it answers: a list of ids with a mark for those that are complete, the place
of the active one in it, and a state will do.  `Reference` is this small worker.  It answers
every sequence of operations as the worker does, and shows the same.

Two things carry the proof.  Ids are numbered, so a place in the list and an id say the same
(`activeRecord?_eq`).  And the state is another than idle exactly while the active task is not
complete (`Refines.busy`): an idle event that ends nothing finds nothing to complete either.
-/

namespace PlanService

namespace Registry

variable {registry : Registry} {id : TaskId}

/-- The ids in order, with a mark for each task that is complete. -/
def marks (registry : Registry) : List (TaskId × Bool) :=
  registry.records.map fun record => (record.id, record.isComplete)

theorem find?_marks (registry : Registry) (id : TaskId) :
    registry.marks.find? (·.1 == id) = (registry.get? id).map fun record => (record.id, record.isComplete) := by
  rw [marks, List.find?_map]
  rfl

/-- A place in the list and the id that stands there say the same. -/
theorem Numbered.get?_of_marks (numbered : registry.Numbered) {index : Nat} {isComplete : Bool}
    (stands : registry.marks[index]? = some (id, isComplete)) :
    ∃ record, registry.get? id = some record ∧ record.isComplete = isComplete := by
  rw [marks, List.getElem?_map, Option.map_eq_some_iff] at stands
  obtain ⟨record, member, same⟩ := stands
  cases same
  exact ⟨record, numbered.get?_of_mem (List.mem_of_getElem? member), rfl⟩

theorem Numbered.eq_of_marks (numbered : registry.Numbered) {index other : Nat} {mark otherMark : Bool}
    (stands : registry.marks[index]? = some (id, mark))
    (standsToo : registry.marks[other]? = some (id, otherMark)) : index = other := by
  have ids (place : Nat) : registry.ids[place]? = registry.marks[place]?.map (·.1) := by
    simp [Registry.ids, marks, Function.comp_def]
  have inRange : index < registry.ids.length := by
    simpa [marks, Registry.ids] using (List.getElem?_eq_some_iff.mp stands).1
  refine (List.getElem?_inj inRange numbered.nodup_ids).mp ?_
  rw [ids, ids, stands, standsToo]
  rfl

/-- To complete a task is to set the mark in its place. -/
theorem Numbered.marks_finish (numbered : registry.Numbered) {index : Nat} {mark : Bool}
    (stands : registry.marks[index]? = some (id, mark)) :
    (registry.modify id TrackedTask.finish).marks = registry.marks.modify index fun task => (task.1, true) := by
  refine List.ext_getElem? fun place => ?_
  have changed : (registry.modify id TrackedTask.finish).marks[place]? =
      registry.marks[place]?.map fun task => if task.1 = id then (task.1, true) else task := by
    simp only [marks, Registry.modify, List.getElem?_map, Option.map_map, Function.comp_def, beq_iff_eq]
    refine Option.map_congr fun record _ => ?_
    split <;> rfl
  rw [changed, List.getElem?_modify]
  cases there : registry.marks[place]? with
  | none => rfl
  | some task =>
    obtain ⟨other, otherMark⟩ := task
    have isIt : other = id ↔ index = place := by
      refine ⟨fun same => ?_, fun same => ?_⟩
      · subst same
        exact numbered.eq_of_marks stands there
      · subst same
        rw [stands] at there
        cases there
        rfl
    by_cases same : index = place <;> simp [isIt, same]

end Registry

/-- Where an engine is at once after a call that no script was laid down for. -/
def Recording.reached : EngineCall → EngineState
  | .run _ _ | .resume => .running
  | .pause _ => .paused

theorem Recording.answer_of_unscripted {engine : Recording} (unscripted : engine.scripts = []) (call : EngineCall) :
    Engine.answer engine call =
      { engine := { engine with calls := engine.calls ++ [call] }, events := [.stateChanged (reached call)] } := by
  obtain ⟨scripts, calls⟩ := engine
  cases unscripted
  cases call <;> rfl

/-! ## The reference -/

/-- What the reference keeps. -/
structure Reference where
  -- The ids in order of submission, with a mark for those that are complete.
  tasks : List (TaskId × Bool) := []
  -- The place of the task that was begun last.
  active : Option Nat := none
  state : WorkerState := .idle

namespace Reference

/-- What can be done with a worker, and that its engine comes to rest. -/
inductive Operation where
  | submit (task : Task)
  | begin (id : TaskId)
  | idle
  | pause (defer : Bool)
  | resume

def activeTask? (model : Reference) : Option (TaskId × Bool) :=
  model.active.bind (model.tasks[·]?)

/-- The active task while it is not complete. -/
def busy? (model : Reference) : Option TaskId :=
  (model.activeTask?.filter (!·.2)).map (·.1)

/-- Goes from one state to another, and from no other state. -/
def move (model : Reference) (source target : WorkerState) : Worker.Answer × Reference :=
  if model.state = source then (.decided (.ok ⟨true, target⟩), { model with state := target })
  else (.decided (.ok ⟨false, model.state⟩), model)

def activate (model : Reference) (id : TaskId) : Reference :=
  { model with active := model.tasks.findIdx? (·.1 == id), state := .running }

def begin (model : Reference) (id : TaskId) : Worker.Answer × Reference :=
  match model.busy?, model.tasks.find? (·.1 == id) with
  | some active, _ => (.begun (.error (.busyWith active)), model)
  | none, none => (.begun (.error (.notFound id)), model)
  | none, some (_, true) => (.begun (.error (.finished id)), model)
  | none, some (_, false) => (.begun (.ok ()), model.activate id)

/-- The active task is complete when the engine comes to rest. -/
def rest (model : Reference) : Reference :=
  { model with
    tasks := model.active.elim model.tasks fun index => model.tasks.modify index fun task => (task.1, true)
    state := .idle }

def submit (model : Reference) : Worker.Answer × Reference :=
  let id := TaskId.ofNumber (model.tasks.length + 1)
  (.submitted (.ok id), { model with tasks := model.tasks ++ [(id, false)] })

/-- What is answered to an operation, and what comes of it. -/
def step (model : Reference) : Operation → Option Worker.Answer × Reference
  | .submit _ => (model.submit.1, model.submit.2)
  | .begin id => ((model.begin id).1, (model.begin id).2)
  | .idle => (none, model.rest)
  | .pause _ => ((model.move .running .paused).1, (model.move .running .paused).2)
  | .resume => ((model.move .paused .running).1, (model.move .paused .running).2)

def after (model : Reference) (operations : List Operation) : Reference :=
  operations.foldl (fun model operation => (model.step operation).2) model

def answers (model : Reference) : List Operation → List Worker.Answer
  | [] => []
  | operation :: later => (model.step operation).1.toList ++ (model.step operation).2.answers later

variable {model : Reference}

theorem activeTask?_activate {id : TaskId} {task : TaskId × Bool}
    (found : model.tasks.find? (·.1 == id) = some task) : (model.activate id).activeTask? = some task := by
  rw [activeTask?, activate, ← List.find?_eq_bind_findIdx?_getElem?, found]

/-- While a task is at work no other is admitted. -/
theorem answers_begin_of_busy {active : TaskId} (busy : model.busy? = some active) (ids : List TaskId) :
    model.answers (ids.map .begin) = ids.map fun _ => .begun (.error (.busyWith active)) := by
  induction ids with
  | nil => rfl
  | cons id ids ih =>
    have turnedDown : model.begin id = (.begun (.error (.busyWith active)), model) := by rw [begin, busy]
    rw [List.map_cons, answers, step, turnedDown, ih]
    rfl

/-- Of tasks that are not complete the first is admitted, and then no other. -/
theorem answers_begin_of_free {first : TaskId} (free : model.busy? = none)
    (found : model.tasks.find? (·.1 == first) = some (first, false)) (others : List TaskId) :
    model.answers ((first :: others).map .begin) =
      .begun (.ok ()) :: others.map fun _ => .begun (.error (.busyWith first)) := by
  have admitted : model.begin first = (.begun (.ok ()), model.activate first) := by rw [begin, free, found]
  have busy : (model.activate first).busy? = some first := by
    rw [busy?, activeTask?_activate found]
    rfl
  rw [List.map_cons, answers, step, admitted, answers_begin_of_busy busy]
  rfl

/-- The same with a worker; the event that its engine came to rest is taken up. -/
def Operation.actions : Operation → List (Worker.Action Recording)
  | submit task => [.command (.submit task)]
  | begin id => [.command (.begin id)]
  | idle => [.engine fun engine => (engine, [.stateChanged .idle]), .takeUp]
  | pause defer => [.command (.request .paused defer)]
  | resume => [.command (.request .running false)]

/-- A worker shows what the reference shows, and there is nothing in it that waits. -/
structure Refines (worker : Worker Recording) (model : Reference) : Prop where
  alive : worker.alive = true
  settled : worker.queue = []
  unscripted : worker.engine.scripts = []
  numbered : worker.board.registry.Numbered
  state : worker.state = model.state
  active : worker.active = model.activeTask?.map (·.1)
  tasks : worker.board.registry.marks = model.tasks
  inRange : ∀ index, model.active = some index → index < model.tasks.length
  busy : model.state = .idle ↔ model.busy? = none

namespace Refines

variable {worker : Worker Recording}

theorem start (bus : Bus) : Refines (.ofEngine {} bus) {} :=
  ⟨rfl, rfl, rfl, Registry.numbered_empty, rfl, rfl, rfl, nofun, by simp [busy?, activeTask?]⟩

theorem drain_eq (refines : Refines worker model) : worker.drain = worker := by
  rw [Worker.drain, if_pos refines.alive, refines.settled]
  obtain ⟨engine, board, active, queue, alive⟩ := worker
  cases refines.settled
  rfl

theorem activeRecord?_eq (refines : Refines worker model) :
    worker.activeRecord?.map (fun record => (record.id, record.isComplete)) = model.activeTask? := by
  rw [Worker.activeRecord?, refines.active]
  cases stands : model.activeTask? with
  | none => rfl
  | some task =>
    obtain ⟨index, -, stands⟩ := Option.bind_eq_some_iff.mp stands
    rw [← refines.tasks] at stands
    obtain ⟨record, found, same⟩ := refines.numbered.get?_of_marks stands
    simp [found, Registry.id_of_get? found, same]

theorem busy?_eq (refines : Refines worker model) :
    model.busy? = (worker.activeRecord?.filter (!·.isComplete)).map (·.id) := by
  rw [busy?, ← refines.activeRecord?_eq]
  cases worker.activeRecord? with
  | none => rfl
  | some record => cases complete : record.isComplete <;> simp [Option.filter, complete]

theorem find?_tasks (refines : Refines worker model) (id : TaskId) :
    model.tasks.find? (·.1 == id) =
      (worker.board.registry.get? id).map fun record => (record.id, record.isComplete) := by
  rw [← refines.tasks, Registry.find?_marks]

theorem begin_of_error (refines : Refines worker model) {id : TaskId} {error : WorkerError}
    (refused : worker.admission id = .error error) : worker.begin id = (.error error, worker) := by
  rw [← refines.drain_eq] at refused
  rw [Worker.begin_of_error refines.alive refused, refines.drain_eq]

/-- A task that is admitted is at once the running one. -/
theorem begin_of_ok (refines : Refines worker model) {id : TaskId} {task : Task}
    (admitted : worker.admission id = .ok task) :
    worker.begin id =
      (.ok (),
        { worker with
          engine := { worker.engine with calls := worker.engine.calls ++ [.run id task] }
          board := { worker.board with state := .running }
          active := some id }) := by
  rw [← refines.drain_eq] at admitted
  rw [Worker.begin_of_ok refines.alive admitted, Worker.changesOf,
    Recording.answer_of_unscripted refines.unscripted, refines.drain_eq]
  have runs : worker.board.apply (.stateChanged .running) (some id) = { worker.board with state := .running } :=
    Board.apply_of_quiet (.inr (by decide)) _
  simp [EngineCall.task?, Recording.reached, Board.perform, runs, refines.settled, refines.alive]

/-- What a worker with the new active task shows is what the reference shows. -/
theorem admitted (refines : Refines worker model) {id : TaskId} {record : TrackedTask}
    (found : worker.board.registry.get? id = some record) (incomplete : record.isComplete = false)
    {engine : Recording} (unscripted : engine.scripts = []) :
    Refines { worker with engine, board := { worker.board with state := .running }, active := some id }
      (model.activate id) := by
  have isActive : (model.activate id).activeTask? = some (id, false) := by
    refine activeTask?_activate ?_
    rw [refines.find?_tasks, found, Option.map_some, Registry.id_of_get? found, incomplete]
  exact {
    alive := refines.alive
    settled := refines.settled
    unscripted
    numbered := refines.numbered
    state := rfl
    active := by rw [isActive, Option.map_some]
    tasks := refines.tasks
    inRange index isPlace := (List.findIdx?_eq_some_iff_getElem.mp isPlace).1
    busy := iff_of_false nofun (by simp [busy?, isActive]) }

theorem begin (refines : Refines worker model) (id : TaskId) :
    .begun (worker.begin id).1 = (model.begin id).1 ∧ Refines (worker.begin id).2 (model.begin id).2 := by
  have admission := worker.admission_eq id
  rw [Reference.begin, refines.busy?_eq, refines.find?_tasks]
  cases busy : worker.activeRecord?.filter (!·.isComplete) with
  | some active =>
    rw [busy] at admission
    rw [refines.begin_of_error admission]
    exact ⟨rfl, refines⟩
  | none =>
    rw [busy] at admission
    cases found : worker.board.registry.get? id with
    | none =>
      rw [found] at admission
      rw [refines.begin_of_error admission]
      exact ⟨rfl, refines⟩
    | some record =>
      rw [found] at admission
      cases complete : record.isComplete with
      | true =>
        simp only [complete, if_true] at admission
        rw [refines.begin_of_error admission]
        simp only [Option.map, complete]
        exact ⟨trivial, refines⟩
      | false =>
        simp only [complete, Bool.false_eq_true, if_false] at admission
        rw [refines.begin_of_ok admission]
        simp only [Option.map, complete]
        exact ⟨trivial, refines.admitted found complete refines.unscripted⟩

/-- A worker that may go from one state to another is at once there. -/
theorem request_of_source (refines : Refines worker model) {source target : WorkerState}
    (leads : source.canRequest target = true) (there : model.state = source) (defer : Bool) :
    worker.request target defer =
      (.ok ⟨true, target⟩,
        { worker with
          engine := { worker.engine with calls := worker.engine.calls ++ [Worker.transitionCall target defer] }
          board := { worker.board with state := target } }) := by
  have allowed : worker.drain.state.canRequest target = true := by
    rw [refines.drain_eq, refines.state, there, leads]
  have shows : (Recording.reached (Worker.transitionCall target defer)).workerState = target := by
    rcases WorkerState.canRequest_iff.mp leads with ⟨-, rfl⟩ | ⟨-, rfl⟩ <;> rfl
  have busy : (Recording.reached (Worker.transitionCall target defer)).workerState ≠ .idle := by
    rw [shows]
    rcases WorkerState.canRequest_iff.mp leads with ⟨-, rfl⟩ | ⟨-, rfl⟩ <;> decide
  rw [Worker.request_of_allowed refines.alive allowed, Recording.answer_of_unscripted refines.unscripted,
    refines.drain_eq]
  simp only [Board.applyAll, List.foldl_cons, List.foldl_nil]
  rw [Board.apply_of_quiet (.inr busy), shows, refines.settled]

theorem request_of_other (refines : Refines worker model) {source target : WorkerState}
    (leads : source.canRequest target = true) (elsewhere : model.state ≠ source) (defer : Bool) :
    worker.request target defer = (.ok ⟨false, model.state⟩, worker) := by
  have notAllowed : worker.drain.state.canRequest target = false := by
    rw [refines.drain_eq, refines.state, Bool.eq_false_iff]
    intro allowed
    -- To each target only one state leads.
    rcases WorkerState.canRequest_iff.mp leads with ⟨rfl, rfl⟩ | ⟨rfl, rfl⟩ <;>
      simp_all [WorkerState.canRequest_iff]
  rw [Worker.request_of_not_allowed refines.alive notAllowed, refines.drain_eq, refines.state]

theorem move (refines : Refines worker model) {source target : WorkerState}
    (leads : source.canRequest target = true) (defer : Bool) :
    .decided (worker.request target defer).1 = (model.move source target).1 ∧
      Refines (worker.request target defer).2 (model.move source target).2 := by
  unfold Reference.move
  by_cases there : model.state = source
  · rw [refines.request_of_source leads there, if_pos there]
    refine ⟨rfl, refines.alive, refines.settled, refines.unscripted, refines.numbered, rfl, refines.active,
      refines.tasks, refines.inRange, ?_⟩
    -- Neither state is idle, so the active task was not complete and is not now.
    have working : source ≠ .idle ∧ target ≠ .idle := by
      rcases WorkerState.canRequest_iff.mp leads with ⟨rfl, rfl⟩ | ⟨rfl, rfl⟩ <;> decide
    have busy : model.busy? ≠ none := mt refines.busy.mpr (there ▸ working.1)
    exact iff_of_false working.2 busy
  · rw [refines.request_of_other leads there, if_neg there]
    exact ⟨rfl, refines⟩

theorem submit (refines : Refines worker model) (task : Task) :
    .submitted (worker.submit task).1 = model.submit.1 ∧ Refines (worker.submit task).2 model.submit.2 := by
  have size : worker.board.registry.size = model.tasks.length := by
    rw [← refines.tasks, Registry.marks, List.length_map, Registry.size]
  have sameTask : model.submit.2.activeTask? = model.activeTask? := by
    simp only [activeTask?, Reference.submit]
    cases isPlace : model.active with
    | none => rfl
    | some index => exact List.getElem?_append_left (refines.inRange index isPlace)
  rw [Worker.submit, if_pos refines.alive]
  refine ⟨by rw [Registry.nextId, size]; rfl, refines.alive, refines.settled, refines.unscripted,
    refines.numbered.submit task, refines.state, ?_, ?_, fun index isPlace => ?_, ?_⟩
  · rw [sameTask]
    exact refines.active
  · simp only [Reference.submit, Registry.marks, Registry.submit, Registry.nextId, List.map_append,
      List.map_singleton, size]
    rw [← refines.tasks]
    rfl
  · have inRange := refines.inRange index isPlace
    simp only [Reference.submit, List.length_append, List.length_singleton]
    omega
  · simp only [busy?, sameTask]
    exact refines.busy

/-- To rest is to complete the active task, if there is one that is not complete. -/
theorem marks_rest (refines : Refines worker model) :
    (worker.board.apply (.stateChanged .idle) worker.active).registry.marks = model.rest.tasks := by
  rw [refines.active, Reference.rest, activeTask?]
  cases isPlace : model.active with
  | none => exact refines.tasks
  | some index =>
    obtain ⟨⟨id, complete⟩, stands⟩ : ∃ task, model.tasks[index]? = some task :=
      ⟨_, List.getElem?_eq_getElem (refines.inRange index isPlace)⟩
    have isActive : model.activeTask? = some (id, complete) := by
      rw [activeTask?, isPlace, Option.bind_some, stands]
    simp only [Option.bind_some, stands, Option.map_some, Option.elim_some]
    cases complete with
    | true =>
      -- A worker whose active task is complete was idle before.
      have idle : worker.board.state = .idle := by
        have free : model.busy? = none := by simp [busy?, isActive]
        exact refines.state.trans (refines.busy.mpr free)
      rw [Board.registry_apply_of_quiet (.inl idle), refines.tasks]
      refine List.ext_getElem? fun place => ?_
      rw [List.getElem?_modify]
      by_cases isIt : index = place
      · subst isIt
        simp [stands]
      · simp [isIt]
    | false =>
      have busy : worker.board.state ≠ .idle := by
        have notFree : model.busy? ≠ none := by simp [busy?, isActive]
        exact fun idle => notFree (refines.busy.mp (refines.state.symm.trans idle))
      rw [← refines.tasks] at stands ⊢
      obtain ⟨record, found, incomplete⟩ := refines.numbered.get?_of_marks stands
      rw [← refines.numbered.marks_finish stands]
      simp [Board.apply, busy, EngineState.workerState, Board.complete, found, incomplete]

theorem rest (refines : Refines worker model) :
    Refines { worker with board := worker.board.apply (.stateChanged .idle) worker.active } model.rest := by
  have sameTask : model.rest.activeTask? = model.activeTask?.map fun task => (task.1, true) := by
    simp only [activeTask?, Reference.rest]
    cases model.active with
    | none => rfl
    | some index => simp
  refine ⟨refines.alive, refines.settled, refines.unscripted,
    Board.numbered_perform (.apply (.stateChanged .idle) worker.active) refines.numbered,
    Board.state_perform worker.board (.apply (.stateChanged .idle) worker.active), ?_, refines.marks_rest,
    fun index isPlace => ?_, ?_⟩
  · rw [sameTask, Option.map_map]
    exact refines.active
  · have inRange := refines.inRange index isPlace
    have sameLength : model.rest.tasks.length = model.tasks.length := by
      rw [Reference.rest]
      cases model.active <;> simp
    rwa [sameLength]
  · have free : model.rest.busy? = none := by
      rw [busy?, sameTask]
      cases model.activeTask? <;> rfl
    exact ⟨fun _ => free, fun _ => rfl⟩

theorem find?_of_mem (refines : Refines worker model) {id : TaskId} {mark : Bool}
    (member : (id, mark) ∈ model.tasks) : model.tasks.find? (·.1 == id) = some (id, mark) := by
  rw [← refines.tasks] at member
  obtain ⟨index, stands⟩ := List.mem_iff_getElem?.mp member
  obtain ⟨record, found, same⟩ := refines.numbered.get?_of_marks stands
  rw [refines.find?_tasks, found, Option.map_some, Registry.id_of_get? found, same]

/-- One operation is answered alike, and leaves the two alike. -/
theorem step (refines : Refines worker model) (operation : Operation) :
    worker.answers operation.actions = (model.step operation).1.toList ∧
      Refines (worker.after operation.actions) (model.step operation).2 := by
  cases operation with
  | submit task =>
    obtain ⟨same, later⟩ := refines.submit task
    exact ⟨congrArg ([·]) same, later⟩
  | begin id =>
    obtain ⟨same, later⟩ := refines.begin id
    exact ⟨congrArg ([·]) same, later⟩
  | pause defer =>
    have leads : WorkerState.running.canRequest .paused = true := rfl
    obtain ⟨same, later⟩ := refines.move leads defer
    exact ⟨congrArg ([·]) same, later⟩
  | resume =>
    have leads : WorkerState.paused.canRequest .running = true := rfl
    obtain ⟨same, later⟩ := refines.move leads false
    exact ⟨congrArg ([·]) same, later⟩
  | idle =>
    refine ⟨rfl, ?_⟩
    have rested := refines.rest
    obtain ⟨engine, board, active, queue, alive⟩ := worker
    cases refines.settled
    cases refines.alive
    exact rested

theorem after (refines : Refines worker model) (operations : List Operation) :
    worker.answers (operations.flatMap Operation.actions) = model.answers operations ∧
      Refines (worker.after (operations.flatMap Operation.actions)) (model.after operations) := by
  induction operations generalizing worker model with
  | nil => exact ⟨rfl, refines⟩
  | cons operation operations ih =>
    obtain ⟨same, later⟩ := refines.step operation
    obtain ⟨sameLater, last⟩ := ih later
    rw [List.flatMap_cons, Worker.after_append, Worker.answers_append, same, sameLater]
    exact ⟨rfl, last⟩

end Refines

end Reference

/-- With an engine that is at once where it was asked to be, and comes to rest when it likes, a
worker is the reference, for every sequence of operations: it answers the same, and in the end
it shows the same state, the same active task and the same tasks as complete.  So while no task
is at work, of any tasks that are not complete the first that is begun is admitted and none of
the others, whichever it is. -/
theorem Worker.equals_reference (bus : Bus) (operations : List Reference.Operation) :
    let start : Worker Recording := .ofEngine {} bus
    let worker := start.after (operations.flatMap (·.actions))
    let model := Reference.after {} operations
    start.answers (operations.flatMap (·.actions)) = Reference.answers {} operations ∧
    worker.state = model.state ∧
    worker.active = model.activeTask?.map (·.1) ∧
    worker.board.registry.records.map (fun record => (record.id, record.isComplete)) = model.tasks ∧
    (model.busy? = none → ∀ first others, (∀ id ∈ first :: others, (id, false) ∈ model.tasks) →
      worker.answers ((first :: others).map fun id => .command (.begin id)) =
        .begun (.ok ()) :: others.map fun _ => .begun (.error (.busyWith first))) := by
  intro start worker model
  obtain ⟨same, refines⟩ := (Reference.Refines.start bus).after operations
  refine ⟨same, refines.state, refines.active, refines.tasks, fun free first others incomplete => ?_⟩
  have found := refines.find?_of_mem (incomplete first List.mem_cons_self)
  rw [← Reference.answers_begin_of_free free found, ← (refines.after _).1, List.flatMap_map]
  exact congrArg worker.answers List.map_eq_flatMap

/-- Of three tasks one is over; of the others the one that was submitted last is begun first. -/
theorem Worker.begun_first_admitted :
    let task (n : Nat) := TaskId.ofNumber n
    let operations : List Reference.Operation :=
      [.submit { name := "nap" }, .submit { name := "nap" }, .begin (task 1), .pause true,
        .submit { name := "nap" }, .idle]
    let worker := (Worker.ofEngine ({} : Recording) { capacity := 1 }).after (operations.flatMap (·.actions))
    worker.answers [.command (.begin (task 3)), .command (.begin (task 2))] =
      [.begun (.ok ()), .begun (.error (.busyWith (task 3)))] := by
  intro task operations worker
  obtain ⟨-, -, -, -, admitsFirst⟩ := equals_reference { capacity := 1 } operations
  exact admitsFirst (by decide +kernel) (task 3) [task 2] (by decide +kernel)

end PlanService
