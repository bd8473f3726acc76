import PlanService.Proofs.Api.Streaming

/-! # Waiting for a worker that is gone

A worker that was shut down completes no task any more.  Whoever waits for one that is not
complete is told so when they lag behind the bus, for then they ask the worker for the record.
As long as they do not, they read on, and the bus has nothing for them: it stays open, since the
handle that they wait through could still publish.  So how long they wait depends on what others
publish, and without that they wait for ever.
-/

namespace PlanService

def Happening.Unannounced {σ : Type} (id : TaskId) : Happening σ → Prop
  | act action => action.Unannounced id
  | step => True

namespace Worker

variable {σ : Type} [Engine σ] {worker : Worker σ} {action : Action σ} {id : TaskId}

/-- What is due stays due, so what is not due was not due before. -/
theorem completion?_of_next (action : Action σ)
    (undue : (worker.next action).board.registry.completion? id = none) :
    worker.board.registry.completion? id = none := by
  cases due : worker.board.registry.completion? id with
  | none => rfl
  | some completion =>
    obtain ⟨record, found, complete, -⟩ := Registry.completion?_eq_some_iff.mp due
    obtain ⟨later, stillFound, advances⟩ := get?_next action found
    rw [advances.frozen complete] at stillFound
    rw [Registry.completion?_of_complete stillFound complete] at undue
    cases undue

theorem grows_next (worker : Worker σ) (action : Action σ) :
    worker.board.bus.Grows (worker.next action).board.bus := by
  rw [board_next]
  cases action with
  | publish completion => exact .publish _ completion
  | _ => exact Board.grows_performAll ..

/-- A worker that was shut down changes nothing of what is due. -/
theorem gone_next (gone : worker.alive = false) (action : Action σ) :
    (worker.next action).alive = false ∧
      (worker.next action).board.registry = worker.board.registry := by
  cases action with
  | command asked =>
    rw [next, handle_eq, gone]
    exact ⟨rfl, by simp [changesFor, gone]⟩
  | takeUp =>
    have same : worker.takeUp = worker := by
      obtain ⟨engine, board, active, queue, alive⟩ := worker
      cases gone
      rfl
    rw [next, same]
    exact ⟨gone, rfl⟩
  | engine act => exact ⟨gone, rfl⟩
  | publish completion => exact ⟨gone, rfl⟩

end Worker

theorem Waits.grows_happenAll {σ : Type} [Engine σ] (state : Worker σ × Wait) (happenings : List (Happening σ)) :
    state.1.board.bus.Grows (happenings.foldl happen state).1.board.bus := by
  induction happenings generalizing state with
  | nil => exact .refl _
  | cons happening happenings ih =>
    cases happening with
    | act action => exact (state.1.grows_next action).trans (ih (happen state (.act action)))
    | step => exact ih (happen state .step)

/-! ## Nothing to tell -/

namespace Wait

variable {σ : Type} {id : TaskId} {worker : Worker σ} {wait : Wait}

/-- How somebody stands who waits for a task that is not complete: there is nothing about it left
to read, no record says that it is complete, and the wait can only have been closed. -/
def Unserved (id : TaskId) (worker : Worker σ) : Wait → Prop
  | reading sub | asking sub => sub.id = id ∧ worker.board.Announces sub.cursor id
  | answered sub answer => sub.id = id ∧ worker.board.Announces sub.cursor id ∧
      ∀ record, answer = .ok (some record) → record.isComplete = false
  | ended result _ => result = .closed

namespace Unserved

theorem incomplete_of_undue {record : TrackedTask} (found : worker.board.registry.get? id = some record)
    (undue : worker.board.registry.completion? id = none) : record.isComplete = false := by
  by_contra complete
  rw [Registry.completion?_of_complete found (by simpa using complete)] at undue
  cases undue

theorem next (unserved : wait.Unserved id worker) (isOpen : worker.board.bus.closed = false)
    (undue : worker.board.registry.completion? id = none) : (wait.next worker).Unserved id worker := by
  cases wait with
  | ended result sub => exact unserved
  | asking sub =>
    obtain ⟨rfl, announces⟩ := unserved
    refine ⟨rfl, announces, fun record told => ?_⟩
    rw [Worker.get] at told
    split at told
    · exact incomplete_of_undue (Except.ok.inj told) undue
    · cases told
  | answered sub answer =>
    obtain ⟨same, announces, incomplete⟩ := unserved
    cases answer with
    | error error => exact rfl
    | ok record =>
      have unseen : record.filter (·.isComplete) = none := by
        cases record with
        | none => rfl
        | some record => simp [Option.filter, incomplete record rfl]
      simp only [Wait.next, unseen]
      exact ⟨same, announces⟩
  | reading sub =>
    obtain ⟨same, announces⟩ := unserved
    by_cases lagged : sub.cursor < worker.board.bus.oldest
    · rw [Wait.next, sub.readOne_of_lagged lagged]
      exact ⟨same, announces.later undue (Nat.le_of_lt lagged) (Nat.sub_le ..)⟩
    · cases entry : worker.board.bus.log[sub.cursor]? with
      | none =>
        rw [Wait.next, sub.readOne_at_end lagged entry, isOpen]
        exact ⟨same, announces⟩
      | some completion =>
        rw [Wait.next, sub.readOne_of_entry lagged entry]
        by_cases own : completion.id = sub.id
        · -- An entry about the task would be its completion.
          rw [announces.eq_completion entry (own.trans same)] at undue
          cases undue
        · rw [if_neg own]
          exact ⟨same, announces.skip entry (same ▸ own)⟩

theorem act [Engine σ] (unserved : wait.Unserved id worker) {action : Worker.Action σ}
    (unannounced : action.Unannounced id) : wait.Unserved id (worker.next action) := by
  cases wait with
  | ended result sub => exact unserved
  | reading sub | asking sub =>
    exact ⟨unserved.1, Worker.announces_next_of_unannounced unserved.2 unannounced⟩
  | answered sub answer =>
    obtain ⟨same, announces, incomplete⟩ := unserved
    exact ⟨same, Worker.announces_next_of_unannounced announces unannounced, incomplete⟩

/-- If the task is not complete in the end it never was, and whoever waited for it was never
told anything about it. -/
theorem happenAll [Engine σ] (isOpen : worker.board.bus.closed = false)
    (unserved : worker.board.registry.completion? id = none → wait.Unserved id worker)
    {happenings : List (Happening σ)} (unannounced : ∀ happening ∈ happenings, happening.Unannounced id)
    (undue : (happenings.foldl Waits.happen (worker, wait)).1.board.registry.completion? id = none) :
    let now := happenings.foldl Waits.happen (worker, wait)
    worker.board.registry.completion? id = none ∧ now.1.board.bus.closed = false ∧
      now.2.Unserved id now.1 := by
  induction happenings generalizing worker wait with
  | nil => exact ⟨undue, isOpen, unserved undue⟩
  | cons happening happenings ih =>
    have unannouncedLater := fun other member => unannounced other (List.mem_cons_of_mem happening member)
    cases happening with
    | act action =>
      have unannouncedNow : action.Unannounced id := unannounced _ List.mem_cons_self
      obtain ⟨undueThen, isOpen, last⟩ := ih ((worker.closed_next action).trans isOpen)
        (fun undue => (unserved (Worker.completion?_of_next action undue)).act unannouncedNow)
        unannouncedLater undue
      exact ⟨Worker.completion?_of_next action undueThen, isOpen, last⟩
    | step => exact ih isOpen (fun undue => (unserved undue).next isOpen undue) unannouncedLater undue

end Unserved

/-! ## How a wait goes on -/

/-- A wait that nobody answers is over in at most so many steps. -/
def Closes (worker : Worker σ) (steps : Nat) : Wait → Prop
  | reading sub => 3 ≤ steps ∧ sub.cursor < worker.board.bus.oldest
  | asking _ => 2 ≤ steps
  | answered _ answer => 1 ≤ steps ∧ answer = .error .unavailable
  | ended result _ => result = .closed

namespace Closes

variable {steps : Nat}

theorem next (closes : wait.Closes worker steps) (gone : worker.alive = false) :
    (wait.next worker).Closes worker (steps - 1) := by
  cases wait with
  | ended result sub => exact closes
  | reading sub =>
    obtain ⟨enough, lagged⟩ := closes
    rw [Wait.next, sub.readOne_of_lagged lagged]
    exact Nat.le_sub_of_add_le enough
  | asking sub =>
    have enough : 2 ≤ steps := closes
    exact ⟨Nat.le_sub_of_add_le enough, by simp [Worker.get, gone]⟩
  | answered sub answer =>
    obtain ⟨-, rfl⟩ := closes
    exact rfl

theorem act [Engine σ] (closes : wait.Closes worker steps) (action : Worker.Action σ) :
    wait.Closes (worker.next action) steps := by
  cases wait with
  | reading sub => exact ⟨closes.1, Nat.lt_of_lt_of_le closes.2 (worker.grows_next action).oldest_le⟩
  | _ => exact closes

theorem ended [Engine σ] (closes : wait.Closes worker steps) (gone : worker.alive = false)
    {happenings : List (Happening σ)} (enough : steps ≤ happenings.countP (·.isStep)) :
    ∃ sub, (happenings.foldl Waits.happen (worker, wait)).2 = .ended .closed sub := by
  induction happenings generalizing worker wait steps with
  | nil =>
    have none : steps = 0 := Nat.le_zero.mp enough
    subst none
    cases wait with
    | ended result sub =>
      cases closes
      exact ⟨sub, rfl⟩
    | reading sub => exact absurd closes.1 (by decide)
    | answered sub answer => exact absurd closes.1 (by decide)
    | asking sub => cases closes
  | cons happening happenings ih =>
    cases happening with
    | act action =>
      rw [List.countP_cons_of_neg Bool.false_ne_true] at enough
      exact ih (closes.act action) (Worker.gone_next gone action).1 enough
    | step =>
      refine ih (closes.next gone) gone ?_
      rw [List.countP_cons_of_pos rfl] at enough
      omega

end Closes

end Wait

/-- Somebody waits for a task that is not complete, and the worker is gone. -/
structure Forsaken {σ : Type} (id : TaskId) (worker : Worker σ) (wait : Wait) : Prop where
  gone : worker.alive = false
  isOpen : worker.board.bus.closed = false
  undue : worker.board.registry.completion? id = none
  unserved : wait.Unserved id worker

namespace Forsaken

variable {σ : Type} {id : TaskId} {worker : Worker σ} {wait : Wait} {sub : Subscription}

theorem await_of_lagged (forsaken : Forsaken id worker (.reading sub))
    (lagged : sub.cursor < worker.board.bus.oldest) :
    worker.await sub = (.closed, { sub with cursor := worker.board.bus.oldest }) := by
  have unavailable : worker.get sub.id = .error .unavailable := by simp [Worker.get, forsaken.gone]
  rw [Worker.await_of_lagged lagged, unavailable]

theorem await_of_kept (forsaken : Forsaken id worker (.reading sub))
    (kept : ¬ sub.cursor < worker.board.bus.oldest) : (worker.await sub).1 = .pending := by
  obtain ⟨gone, isOpen, undue, rfl, announces⟩ := forsaken
  rw [Worker.await_of_kept kept, Subscription.receive_eq_announced kept, announces.once, undue, isOpen]
  rfl

/-- Who reads now is told that the worker is gone if they lag behind, and nothing if they do not. -/
theorem await_eq (forsaken : Forsaken id worker (.reading sub)) :
    (worker.await sub).1 = if sub.cursor < worker.board.bus.oldest then .closed else .pending := by
  split
  next lagged => rw [forsaken.await_of_lagged lagged]
  next kept => exact forsaken.await_of_kept kept

/-- An open stream ends with the error if it lags behind, and has nothing to send if not. -/
theorem poll_eq (forsaken : Forsaken id worker (.reading sub)) {stream : CompletionStream}
    (waits : stream.wait = .reading sub) :
    (stream.poll worker).1 =
      if sub.cursor < worker.board.bus.oldest then some (CompletionError.closed id).event else none := by
  obtain ⟨subscription, known, keepAlive, ended⟩ := stream
  cases known with
  | some completion => cases waits
  | none =>
    cases waits
    dsimp only [CompletionStream.poll]
    split
    next lagged =>
      rw [forsaken.await_of_lagged lagged]
      exact congrArg (fun id => some (CompletionError.closed id).event) forsaken.unserved.1
    next kept => rw [forsaken.await_of_kept kept, Received.event?]

/-- One who does not lag behind reads on, and never comes to the end. -/
theorem exists_next (forsaken : Forsaken id worker (.reading sub))
    (kept : ¬ sub.cursor < worker.board.bus.oldest) :
    ∃ later, (Wait.reading sub).next worker = .reading later ∧ sub.cursor ≤ later.cursor := by
  obtain ⟨gone, isOpen, undue, same, announces⟩ := forsaken
  cases entry : worker.board.bus.log[sub.cursor]? with
  | none => exact ⟨sub, by rw [Wait.next, sub.readOne_at_end kept entry, isOpen]; rfl, Nat.le_refl _⟩
  | some completion =>
    have foreign : completion.id ≠ sub.id := fun own => by
      rw [announces.eq_completion entry (own.trans same)] at undue
      cases undue
    refine ⟨{ sub with cursor := sub.cursor + 1 }, ?_, Nat.le_succ _⟩
    rw [Wait.next, sub.readOne_of_entry kept entry, if_neg foreign]

variable [Engine σ]

theorem act (forsaken : Forsaken id worker wait) {action : Worker.Action σ}
    (unannounced : action.Unannounced id) : Forsaken id (worker.next action) wait := by
  obtain ⟨gone, isOpen, undue, unserved⟩ := forsaken
  obtain ⟨goneStill, sameRegistry⟩ := Worker.gone_next gone action
  exact ⟨goneStill, (worker.closed_next action).trans isOpen, sameRegistry ▸ undue, unserved.act unannounced⟩

/-- As long as the bus keeps what there was to read, nothing ends the wait. -/
theorem reading_of_kept (forsaken : Forsaken id worker (.reading sub)) {happenings : List (Happening σ)}
    (unannounced : ∀ happening ∈ happenings, happening.Unannounced id)
    (kept : (happenings.foldl Waits.happen (worker, .reading sub)).1.board.bus.oldest ≤ sub.cursor) :
    ∃ last, (happenings.foldl Waits.happen (worker, .reading sub)).2 = .reading last := by
  induction happenings generalizing worker sub with
  | nil => exact ⟨sub, rfl⟩
  | cons happening happenings ih =>
    have unannouncedLater := fun other member => unannounced other (List.mem_cons_of_mem happening member)
    cases happening with
    | act action => exact ih (forsaken.act (unannounced _ List.mem_cons_self)) unannouncedLater kept
    | step =>
      have keptNow : ¬ sub.cursor < worker.board.bus.oldest := by
        have grows := Waits.grows_happenAll (worker, .reading sub) (.step :: happenings)
        exact Nat.not_lt.mpr (Nat.le_trans grows.oldest_le kept)
      obtain ⟨later, reads, ahead⟩ := forsaken.exists_next keptNow
      obtain ⟨gone, isOpen, undue, unserved⟩ := forsaken
      have onward := unserved.next isOpen undue
      rw [reads] at onward
      rw [List.foldl_cons, Waits.happen, reads] at kept ⊢
      exact ih ⟨gone, isOpen, undue, onward⟩ unannouncedLater (Nat.le_trans kept ahead)

end Forsaken

/-- Somebody has subscribed to a task that was not complete, and in the end the worker is gone and
the task is still not complete; whatever happened in between, to the worker, on the bus or on
their part, nobody else announced the task.  If their wait is over they were told that it was
closed.  If they are reading, it is told to them, and sent on their stream, exactly if they have
fallen behind what the bus keeps; then three more of their steps end the wait.  If they have not
fallen behind they are told nothing, and whatever happens later they read on until they do. -/
theorem Worker.waits_on_without_worker {σ : Type} [Engine σ] {worker : Worker σ} {id : TaskId}
    (isOpen : worker.board.bus.closed = false) {happenings : List (Happening σ)}
    (unannounced : ∀ happening ∈ happenings, happening.Unannounced id) :
    let now := happenings.foldl Waits.happen (worker, .reading (worker.subscribe id))
    now.1.alive = false → now.1.board.registry.completion? id = none →
      (∀ result sub, now.2 = .ended result sub → result = .closed) ∧
      ∀ sub, now.2 = .reading sub →
        (now.1.await sub).1 = (if sub.cursor < now.1.board.bus.oldest then .closed else .pending) ∧
        (∀ stream : CompletionStream, stream.wait = .reading sub →
          (stream.poll now.1).1 =
            if sub.cursor < now.1.board.bus.oldest then some (CompletionError.closed id).event else none) ∧
        ∀ more : List (Happening σ), (∀ happening ∈ more, happening.Unannounced id) →
          let later := more.foldl Waits.happen now
          (sub.cursor < now.1.board.bus.oldest → 3 ≤ more.countP (·.isStep) →
            ∃ last, later.2 = .ended .closed last) ∧
          (later.1.board.bus.oldest ≤ sub.cursor → ∃ last, later.2 = .reading last) := by
  intro now gone undue
  have start (undue : worker.board.registry.completion? id = none) :
      (Wait.reading (worker.subscribe id)).Unserved id worker :=
    ⟨rfl, worker.board.announces_at_end undue⟩
  obtain ⟨-, isOpen, unserved⟩ := Wait.Unserved.happenAll isOpen start unannounced undue
  refine ⟨fun result sub isOver => ?_, fun sub reads => ?_⟩
  · have ended : (Wait.ended result sub).Unserved id now.1 := isOver ▸ unserved
    exact ended
  · have forsaken : Forsaken id now.1 (.reading sub) := ⟨gone, isOpen, undue, reads ▸ unserved⟩
    refine ⟨forsaken.await_eq, fun stream waits => forsaken.poll_eq waits, fun more unannounced => ?_⟩
    have same : now = (now.1, .reading sub) := Prod.ext rfl reads
    refine ⟨fun lagged enough => ?_, fun kept => ?_⟩
    · have closes : (Wait.reading sub).Closes now.1 3 := ⟨Nat.le_refl 3, lagged⟩
      rw [same]
      exact closes.ended gone enough
    · rw [same] at kept ⊢
      exact forsaken.reading_of_kept unannounced kept

/-- One who fell behind after the worker was gone is told so. -/
theorem Worker.told_for_having_lagged :
    let worker : Worker Simulated := ((ofEngine {} { capacity := 1 }).submit { name := "count" }).2
    let id := TaskId.ofNumber 1
    let happenings : List (Happening Simulated) :=
      [.act (.command .shutdown), .step, .act (.publish ⟨⟨"a"⟩, .complete, []⟩),
        .act (.publish ⟨⟨"b"⟩, .complete, []⟩)]
    let now := happenings.foldl Waits.happen (worker, .reading (worker.subscribe id))
    (now.1.await (worker.subscribe id)).1 = .closed ∧
      ∃ last, ([.step, .step, .step].foldl Waits.happen now).2 = .ended .closed last := by
  intro worker id happenings now
  have unannounced : ∀ happening ∈ happenings, happening.Unannounced id := by
    have others : (⟨"a"⟩ : TaskId) ≠ id ∧ (⟨"b"⟩ : TaskId) ≠ id := by decide
    simp [happenings, Happening.Unannounced, Action.Unannounced, others]
  have lagged : (worker.subscribe id).cursor < now.1.board.bus.oldest := by decide +kernel
  have isOpen : worker.board.bus.closed = false := rfl
  have undue : now.1.board.registry.completion? id = none := by decide +kernel
  obtain ⟨-, reading⟩ := waits_on_without_worker isOpen unannounced rfl undue
  obtain ⟨told, -, later⟩ := reading (worker.subscribe id) rfl
  refine ⟨told.trans (if_pos lagged), (later [.step, .step, .step] ?_).1 lagged (by decide)⟩
  simp [Happening.Unannounced]

/-- One who waits for a task when the worker is shut down is told nothing, for ever. -/
theorem Worker.not_told_of_shutdown :
    let worker : Worker Simulated := ((ofEngine {} { capacity := 16 }).submit { name := "count" }).2
    let id := TaskId.ofNumber 1
    let sub := worker.subscribe id
    let gone := worker.shutdown.2
    gone.alive = false ∧ gone.board.registry.completion? id = none ∧ (gone.await sub).1 = .pending ∧
      (CompletionStream.poll { subscription := sub, known := none, keepAlive := 15000 } gone).1 = none ∧
      ∀ steps, (Wait.next gone)^[steps] (.reading sub) = .reading sub := by
  intro worker id sub gone
  have stays : Wait.next gone (.reading sub) = .reading sub := rfl
  exact ⟨rfl, by decide +kernel, rfl, rfl, Function.iterate_fixed stays⟩

end PlanService
