import PlanService.Proofs.Engine.Logged
import PlanService.Proofs.Session.Records

/-! # What an answer says about the session

A request is served in a session that has taken up every delivered event.  Three answers mean
that something has changed, and then exactly what the request asked for: 201 to a task that is
posted, 200 to a task that is begun, 202 to a change of state.  Behind any other answer the
whole session is as it was, the log of its engine's calls included.
-/

namespace PlanService

namespace Api

open Http (Method Request)

theorem route?_eq_some_iff {request : Request} {route : Route} :
    route? request = some route ↔
      Route.ofPath (Route.path request.target) = some route ∧ request.method ∈ route.methods := by
  simp [route?, Option.filter_eq_some_iff]

/-- The request goes to this route with this method. -/
def GoesTo (request : Request) (method : Method) (route : Route) : Prop :=
  request.method = method ∧ Route.ofPath (Route.path request.target) = some route

namespace Effect

variable {σ : Type} [Engine σ] {worker later : Worker σ} {request : Request}

theorem of_created (effect : Effect worker request 201 later) :
    GoesTo request .post .tasks ∧ worker.alive = true ∧
      ∃ task, readBody Task.decoder request = .ok task ∧ later = (worker.submit task).2 := by
  cases effect with
  | nothing same created => exact absurd rfl created
  | submitted task goes read alive =>
    obtain ⟨goes, posts⟩ := route?_eq_some_iff.mp goes
    exact ⟨⟨List.mem_singleton.mp posts, goes⟩, alive, task, read, rfl⟩

theorem of_begun (effect : Effect worker request 200 later) (goes : GoesTo request .put .activeTask)
    {id : TaskId} (read : readBody ActiveTask.decoder request = .ok ⟨some id⟩) :
    worker.begin id = (.ok (), later) := by
  cases effect with
  | nothing same created accepted begun =>
    have known : Method.put ∈ Route.activeTask.methods := by decide
    rw [begun rfl (route?_eq_some_iff.mpr ⟨goes.2, goes.1 ▸ known⟩) goes.1] at read
    cases read
  | begun other _ _ readOther done =>
    cases read.symm.trans readOther
    exact Prod.ext done rfl

theorem of_accepted (effect : Effect worker request 202 later) :
    GoesTo request .put .state ∧
      ∃ body shown, readBody StateRequest.decoder request = .ok body ∧
        worker.request body.target (body.defer.getD false) = (.ok ⟨true, shown⟩, later) := by
  cases effect with
  | nothing same created accepted => exact absurd rfl accepted
  | accepted body shown goes puts read done =>
    exact ⟨⟨puts, (route?_eq_some_iff.mp goes).1⟩, body, shown, read, Prod.ext done rfl⟩

/-- Three answers apart, a worker that has taken up every event is left as it was. -/
theorem unchanged {status : Nat} (effect : Effect worker request status later)
    (settled : worker.drain = worker) (created : status ≠ 201) (accepted : status ≠ 202)
    (begun : ∀ id, GoesTo request .put .activeTask →
      readBody ActiveTask.decoder request = .ok ⟨some id⟩ → status ≠ 200) : later = worker := by
  cases effect with
  | nothing same => exact same.elim id (·.trans settled)
  | submitted => exact absurd rfl created
  | begun id goes puts read => exact absurd rfl (begun id ⟨puts, (route?_eq_some_iff.mp goes).1⟩ read)
  | accepted => exact absurd rfl accepted

end Effect

end Api

theorem Worker.drain_drain {σ : Type} (worker : Worker σ) : worker.drain.drain = worker.drain := by
  cases alive : worker.alive <;> simp [drain, alive, Board.applyAll]

/-- Any request, in a session that any engine and any occurrences have brought about and that
has taken up every event.  201 answers a task that is posted: there is one more record then,
under a fresh id, neither complete nor with errors, and all else is the same.  When a task that
is to be begun is answered with 200, the session is the one that the worker's own command leads
to; so it is with 202 and a change of state.  No other answer stands for a change of anything,
be it a refusal, an answer to a GET, or one to a PUT that names no task. -/
theorem Session.changes_only_as_answered {σ : Type} [Engine σ] (engine : Logged σ)
    (events : List EngineEvent) (bus : Bus) (catalog : Catalog)
    (occurrences : List (Occurrence (Logged σ))) (request : Http.Request) :
    let session := ((start engine events bus catalog).after occurrences).settle
    let worker := session.worker
    let status := (session.request request).1.head.status
    let later := (session.request request).2
    (status = 201 →
      Api.GoesTo request .post .tasks ∧
      ∃ task id, Api.readBody Task.decoder request = .ok task ∧
        worker.board.registry.get? id = none ∧
        session.command (·.submit task) = (.ok id, later) ∧
        later =
          { session with
            worker.board.registry.records := worker.board.registry.records ++
              [{ id, task, isComplete := false, errors := [] }] }) ∧
    (∀ id, Api.GoesTo request .put .activeTask →
      Api.readBody ActiveTask.decoder request = .ok ⟨some id⟩ → status = 200 →
      session.command (·.begin id) = (.ok (), later)) ∧
    (status = 202 →
      Api.GoesTo request .put .state ∧
      ∃ body shown, Api.readBody StateRequest.decoder request = .ok body ∧
        session.command (·.request body.target (body.defer.getD false)) = (.ok ⟨true, shown⟩, later)) ∧
    (status ≠ 201 → status ≠ 202 →
      (∀ id, Api.GoesTo request .put .activeTask →
        Api.readBody ActiveTask.decoder request = .ok ⟨some id⟩ → status ≠ 200) →
      later = session) ∧
    (400 ≤ status → later = session) ∧
    (request.method = .get → later = session) ∧
    (Api.GoesTo request .put .activeTask → Api.readBody ActiveTask.decoder request = .ok ⟨none⟩ →
      later = session) := by
  intro session worker status later
  have effect : Api.Effect worker request status later.worker :=
    Api.serve_effect session.catalog session.clock worker request
  have settled : worker.drain = worker := Worker.drain_drain _
  have numbered : worker.board.registry.Numbered := by
    have numbered := numbered_start engine events bus catalog occurrences
    have settles : worker = ((start engine events bus catalog).after occurrences).worker.getActive.2 :=
      (Worker.getActive_worker _).symm
    rw [settles]
    exact Worker.numbered_next numbered (.command .getActive)
  have commanded {α : Type} {run : Worker (Logged σ) → α × Worker (Logged σ)} {a : α}
      (same : run worker = (a, later.worker)) : session.command run = (a, later) := by
    rw [command, same]
    rfl
  have unchanged (created : status ≠ 201) (accepted : status ≠ 202)
      (begun : ∀ id, Api.GoesTo request .put .activeTask →
        Api.readBody ActiveTask.decoder request = .ok ⟨some id⟩ → status ≠ 200) : later = session := by
    have same := effect.unchanged settled created accepted begun
    have whole : later = { session with worker := later.worker } := rfl
    rw [whole, same]
  refine ⟨fun created => ?_, fun id goes read begun => ?_, fun accepted => ?_, unchanged, fun refused => ?_,
    fun gets => ?_, fun goes read => ?_⟩
  · obtain ⟨goes, alive, task, read, same⟩ := (created ▸ effect).of_created
    have submits : worker.submit task = (.ok worker.board.registry.nextId, later.worker) := by
      rw [same]
      simp [Worker.submit, alive]
    refine ⟨goes, task, _, read, numbered.get?_nextId, commanded submits, ?_⟩
    have whole : later = { session with worker := later.worker } := rfl
    rw [whole, same, Worker.submit, if_pos alive, Registry.submit]
  · exact commanded ((begun ▸ effect).of_begun goes read)
  · obtain ⟨goes, body, shown, read, same⟩ := (accepted ▸ effect).of_accepted
    exact ⟨goes, body, shown, read, commanded same⟩
  · exact unchanged (by omega) (by omega) fun _ _ _ => by omega
  · refine unchanged (fun created => ?_) (fun accepted => ?_) fun _ goes _ => ?_
    · cases gets.symm.trans (created ▸ effect).of_created.1.1
    · cases gets.symm.trans (accepted ▸ effect).of_accepted.1.1
    · cases gets.symm.trans goes.1
  · refine unchanged (fun created => ?_) (fun accepted => ?_) fun _ _ readSome => ?_
    · cases goes.1.symm.trans (created ▸ effect).of_created.1.1
    · cases goes.2.symm.trans (accepted ▸ effect).of_accepted.1.2
    · cases read.symm.trans readSome

end PlanService
